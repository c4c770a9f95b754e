import WorkMesh.AgentTeam.State

/-!
# Dependencies, resource units and the command queue

A task asks for resource units and depends on other tasks of its project. A
command is queued for the first runtime of the project that holds a lease; the
queue keeps a bounded history of finished commands.
-/

namespace WorkMesh.AgentTeam

/-- The environment a server runs in: `WORKMESH_AGENT_MAX_RESOURCE_UNITS`. -/
structure Env where
  maxResourceUnits : String

/-! ## Dependencies and resources -/

def teamDependencyStatusLocked (s : TeamState) : List String → TaskStatus
  | [] => .accepted
  | dependencyID :: dependencies =>
      match findTeamTaskLocked s dependencyID with
      | none => .blocked
      | some dependency =>
          if dependency.status = .failed ∨ dependency.status = .cancelled ∨
              dependency.status = .blocked then .blocked
          else if dependency.status ≠ .completed then .waitingDependency
          else teamDependencyStatusLocked s dependencies

theorem teamDependencyStatusLocked_cases (s : TeamState) (dependencies : List String) :
    teamDependencyStatusLocked s dependencies = .accepted ∨
      teamDependencyStatusLocked s dependencies = .waitingDependency ∨
      teamDependencyStatusLocked s dependencies = .blocked := by
  fun_induction teamDependencyStatusLocked s dependencies <;> simp_all

def ResourceProfile.text : ResourceProfile → String
  | .small => "small"
  | .medium => "medium"
  | .large => "large"

def teamResourceProfileUnits : ResourceProfile → Nat
  | .large => 4
  | .medium => 2
  | .small => 1

def teamResourceBudget (env : Env) : Nat :=
  let value := trimSpace env.maxResourceUnits
  if value = "" then teamDefaultResourceUnits
  else match atoi value with
    | none => teamDefaultResourceUnits
    | some parsed =>
        if parsed < 1 ∨ teamMaxResourceUnits < parsed then teamDefaultResourceUnits
        else parsed.toNat

/-- The statuses whose tasks occupy resource units. -/
def TaskStatus.holdsResources : TaskStatus → Bool
  | .accepted | .running | .waitingInput => true
  | _ => false

/-- The units a task occupies in a project. -/
def heldUnits (projectID : String) (task : TeamTask) : Nat :=
  if task.projectId = projectID ∧ task.status.holdsResources then
    teamResourceProfileUnits task.resourceProfile
  else 0

/-- Whether a profile fits beside the tasks of the project other than one. -/
def teamResourceAvailableLocked (env : Env) (s : TeamState) (projectID : String)
    (profile : ResourceProfile) (excludeTaskID : String) : Bool :=
  let used := ((s.teamTasks.filter fun task => task.taskId ≠ excludeTaskID).map
    (heldUnits projectID)).sum
  used + teamResourceProfileUnits profile ≤ teamResourceBudget env

/-! ## Counting and compacting commands -/

def teamCommandTerminal (command : AgentCommand) : Bool :=
  command.status = .acked ∨ command.status = .superseded

def pendingTeamCommandsLocked (s : TeamState) (projectID : String) : Nat :=
  s.agentCommands.countP fun item => item.projectId = projectID ∧ ¬teamCommandTerminal item

def pendingTeamTaskCommandsLocked (s : TeamState) (taskID : String) : Nat :=
  s.agentCommands.countP fun command => command.taskId = taskID ∧ ¬teamCommandTerminal command

def hasPendingTeamCommandLocked (s : TeamState) (taskID : String) : Bool :=
  s.agentCommands.any fun command => command.taskId = taskID ∧ ¬teamCommandTerminal command

/-- Leave out the first `n` finished commands of a project. -/
def dropTerminal (projectID : String) : Nat → List AgentCommand → List AgentCommand
  | 0, commands => commands
  | _, [] => []
  | n + 1, command :: commands =>
      if command.projectId = projectID ∧ teamCommandTerminal command then
        dropTerminal projectID n commands
      else command :: dropTerminal projectID (n + 1) commands

def compactTeamCommandsLocked (s : TeamState) (projectID : String) : TeamState :=
  let terminal := s.agentCommands.countP fun command =>
    command.projectId = projectID ∧ teamCommandTerminal command
  if terminal ≤ teamCommandHistoryLimit then s
  else { s with
    agentCommands := dropTerminal projectID (terminal - teamCommandHistoryLimit) s.agentCommands }

theorem mem_dropTerminal {projectID : String} {command : AgentCommand} (n : Nat)
    {commands : List AgentCommand} (h : command ∈ dropTerminal projectID n commands) :
    command ∈ commands := by
  fun_induction dropTerminal projectID n commands with
  | case1 => exact h
  | case2 => exact h
  | case3 n first rest hdrop ih => exact List.mem_cons_of_mem _ (ih h)
  | case4 n first rest hkeep ih =>
      rcases List.mem_cons.mp h with rfl | h
      · exact List.mem_cons_self
      · exact List.mem_cons_of_mem _ (ih h)

section Frame
variable (s : TeamState) (projectID : String)

@[simp] theorem compactTeamCommandsLocked_agentRuntimes :
    (compactTeamCommandsLocked s projectID).agentRuntimes = s.agentRuntimes := by
  simp only [compactTeamCommandsLocked]; split <;> rfl
@[simp] theorem compactTeamCommandsLocked_teamTasks :
    (compactTeamCommandsLocked s projectID).teamTasks = s.teamTasks := by
  simp only [compactTeamCommandsLocked]; split <;> rfl
@[simp] theorem compactTeamCommandsLocked_teamEvents :
    (compactTeamCommandsLocked s projectID).teamEvents = s.teamEvents := by
  simp only [compactTeamCommandsLocked]; split <;> rfl
@[simp] theorem compactTeamCommandsLocked_teamSequences :
    (compactTeamCommandsLocked s projectID).teamSequences = s.teamSequences := by
  simp only [compactTeamCommandsLocked]; split <;> rfl
@[simp] theorem compactTeamCommandsLocked_idCounter :
    (compactTeamCommandsLocked s projectID).idCounter = s.idCounter := by
  simp only [compactTeamCommandsLocked]; split <;> rfl

theorem mem_compactTeamCommandsLocked {s : TeamState} {projectID : String}
    {command : AgentCommand}
    (h : command ∈ (compactTeamCommandsLocked s projectID).agentCommands) :
    command ∈ s.agentCommands := by
  simp only [compactTeamCommandsLocked] at h
  split at h
  · exact h
  · generalize _ - teamCommandHistoryLimit = n at h
    exact mem_dropTerminal n h

end Frame

/-! ## Queueing commands -/

/-- The runtime a new command is addressed to. -/
def commandRuntime (s : TeamState) (now : Instant) (projectID : String) : Option AgentRuntime :=
  s.agentRuntimes.find? fun item =>
    item.projectId = projectID ∧ item.status ≠ .fenced ∧ item.leaseAfter now

def newTeamCommand (s : TeamState) (now : Instant) (runtime : AgentRuntime) (task : TeamTask)
    (kind : CommandKind) (payload : Fields) : AgentCommand where
  commandId := teamNewID "command" now (s.idCounter + 1)
  projectId := task.projectId
  runtimeId := runtime.runtimeId
  taskId := task.taskId
  kind := kind
  status := .queued
  payload := boundedPayload (some (.obj payload))
  createdAt := now

/-- Queue a command; without a leased runtime, or for a start whose
dependencies are not completed, nothing happens. -/
def enqueueTaskCommandLocked (s : TeamState) (now : Instant) (task : TeamTask)
    (kind : CommandKind) (payload : Fields) : TeamState × Option AgentCommand :=
  if kind = .taskStart ∧ teamDependencyStatusLocked s task.dependencyTaskIds ≠ .accepted then
    (s, none)
  else
    match commandRuntime s now task.projectId with
    | none => (s, none)
    | some runtime =>
        let command := newTeamCommand s now runtime task kind payload
        (compactTeamCommandsLocked
          { s.tick with agentCommands := s.agentCommands ++ [command] } task.projectId,
          some command)

section Frame
variable (s : TeamState) (now : Instant) (task : TeamTask) (kind : CommandKind)
variable (payload : Fields)

/-- Either nothing happens, or a command is appended and the history compacted. -/
theorem enqueueTaskCommandLocked_cases :
    (enqueueTaskCommandLocked s now task kind payload = (s, none) ∧
      (kind = .taskStart ∧ teamDependencyStatusLocked s task.dependencyTaskIds ≠ .accepted ∨
        commandRuntime s now task.projectId = none)) ∨
    ∃ runtime, commandRuntime s now task.projectId = some runtime ∧
      (kind = .taskStart → teamDependencyStatusLocked s task.dependencyTaskIds = .accepted) ∧
      enqueueTaskCommandLocked s now task kind payload =
        (compactTeamCommandsLocked
          { s.tick with
            agentCommands := s.agentCommands ++ [newTeamCommand s now runtime task kind payload] }
          task.projectId, some (newTeamCommand s now runtime task kind payload)) := by
  by_cases hdeps :
      kind = .taskStart ∧ teamDependencyStatusLocked s task.dependencyTaskIds ≠ .accepted
  · exact .inl ⟨by simp only [enqueueTaskCommandLocked, if_pos hdeps], .inl hdeps⟩
  · cases hruntime : commandRuntime s now task.projectId with
    | none =>
        exact .inl ⟨by simp only [enqueueTaskCommandLocked, if_neg hdeps, hruntime], .inr rfl⟩
    | some runtime =>
        refine .inr ⟨runtime, rfl, ?_, by
          simp only [enqueueTaskCommandLocked, if_neg hdeps, hruntime]⟩
        intro hkind
        by_contra hne
        exact hdeps ⟨hkind, hne⟩

@[simp] theorem enqueueTaskCommandLocked_agentRuntimes :
    (enqueueTaskCommandLocked s now task kind payload).1.agentRuntimes = s.agentRuntimes := by
  obtain ⟨h, -⟩ | ⟨_, -, -, h⟩ := enqueueTaskCommandLocked_cases s now task kind payload <;>
    simp [h]
@[simp] theorem enqueueTaskCommandLocked_teamTasks :
    (enqueueTaskCommandLocked s now task kind payload).1.teamTasks = s.teamTasks := by
  obtain ⟨h, -⟩ | ⟨_, -, -, h⟩ := enqueueTaskCommandLocked_cases s now task kind payload <;>
    simp [h]
@[simp] theorem enqueueTaskCommandLocked_teamEvents :
    (enqueueTaskCommandLocked s now task kind payload).1.teamEvents = s.teamEvents := by
  obtain ⟨h, -⟩ | ⟨_, -, -, h⟩ := enqueueTaskCommandLocked_cases s now task kind payload <;>
    simp [h]
@[simp] theorem enqueueTaskCommandLocked_teamSequences :
    (enqueueTaskCommandLocked s now task kind payload).1.teamSequences = s.teamSequences := by
  obtain ⟨h, -⟩ | ⟨_, -, -, h⟩ := enqueueTaskCommandLocked_cases s now task kind payload <;>
    simp [h]

theorem le_enqueueTaskCommandLocked_idCounter :
    s.idCounter ≤ (enqueueTaskCommandLocked s now task kind payload).1.idCounter := by
  obtain ⟨h, -⟩ | ⟨_, -, -, h⟩ := enqueueTaskCommandLocked_cases s now task kind payload <;>
    simp [h]

/-- A command in the queue was there before, or is the new one. -/
theorem mem_enqueueTaskCommandLocked {s : TeamState} {now : Instant} {task : TeamTask}
    {kind : CommandKind} {payload : Fields} {command : AgentCommand}
    (h : command ∈ (enqueueTaskCommandLocked s now task kind payload).1.agentCommands) :
    command ∈ s.agentCommands ∨
      ∃ runtime, command = newTeamCommand s now runtime task kind payload := by
  obtain ⟨heq, -⟩ | ⟨runtime, -, -, heq⟩ :=
    enqueueTaskCommandLocked_cases s now task kind payload
  · exact .inl (by simpa [heq] using h)
  · rw [heq] at h
    rcases List.mem_append.mp (mem_compactTeamCommandsLocked h) with h | h
    · exact .inl h
    · exact .inr ⟨runtime, List.mem_singleton.mp h⟩

end Frame

def teamTaskAttempt (task : TeamTask) : Nat := min task.attempt teamAttemptLimit

/-- A string entry, left out when it is empty. -/
def textField (key value : String) : Fields :=
  if value ≠ "" then [(key, .str value)] else []

/-- The payload of `task.start`. -/
def startPayload (task : TeamTask) : Fields :=
  [("title", Json.str task.title), ("instruction", .str task.instruction),
    ("resourceProfile", .str task.resourceProfile.text),
    ("attempt", .int (teamTaskAttempt task))] ++
  (if 0 < task.timeoutSeconds then
    [("timeoutSeconds", Json.int (min task.timeoutSeconds 1800))] else []) ++
  textField "workstreamId" task.workstreamId ++ textField "baseRevision" task.baseRevision ++
  textField "worktreeId" task.worktreeId ++ textField "environmentId" task.environmentId ++
  textField "verificationOwner" task.verificationOwner

def enqueueTeamCommandLocked (s : TeamState) (now : Instant) (task : TeamTask) :
    TeamState × Option AgentCommand :=
  enqueueTaskCommandLocked s now task .taskStart (startPayload task)

section Frame
variable (s : TeamState) (now : Instant) (task : TeamTask)

@[simp] theorem enqueueTeamCommandLocked_agentRuntimes :
    (enqueueTeamCommandLocked s now task).1.agentRuntimes = s.agentRuntimes :=
  enqueueTaskCommandLocked_agentRuntimes ..
@[simp] theorem enqueueTeamCommandLocked_teamTasks :
    (enqueueTeamCommandLocked s now task).1.teamTasks = s.teamTasks :=
  enqueueTaskCommandLocked_teamTasks ..
@[simp] theorem enqueueTeamCommandLocked_teamEvents :
    (enqueueTeamCommandLocked s now task).1.teamEvents = s.teamEvents :=
  enqueueTaskCommandLocked_teamEvents ..

theorem le_enqueueTeamCommandLocked_idCounter :
    s.idCounter ≤ (enqueueTeamCommandLocked s now task).1.idCounter :=
  le_enqueueTaskCommandLocked_idCounter ..

end Frame

/-! ## Rewriting commands -/

/-- Take back one command of a task that has not been acknowledged. -/
def supersedeTeamCommand (now : Instant) (taskID : String) (command : AgentCommand) :
    AgentCommand :=
  if command.taskId = taskID ∧ ¬teamCommandTerminal command then
    { command with status := .superseded, supersededAt := some now }
  else command

def supersedeTeamCommandsLocked (s : TeamState) (now : Instant) (taskID : String) : TeamState :=
  { s with agentCommands := s.agentCommands.map (supersedeTeamCommand now taskID) }

section Frame
variable (s : TeamState) (now : Instant) (taskID : String)

@[simp] theorem supersedeTeamCommandsLocked_agentRuntimes :
    (supersedeTeamCommandsLocked s now taskID).agentRuntimes = s.agentRuntimes := rfl
@[simp] theorem supersedeTeamCommandsLocked_teamTasks :
    (supersedeTeamCommandsLocked s now taskID).teamTasks = s.teamTasks := rfl
@[simp] theorem supersedeTeamCommandsLocked_agentCommands :
    (supersedeTeamCommandsLocked s now taskID).agentCommands =
      s.agentCommands.map (supersedeTeamCommand now taskID) := rfl
@[simp] theorem supersedeTeamCommandsLocked_teamEvents :
    (supersedeTeamCommandsLocked s now taskID).teamEvents = s.teamEvents := rfl
@[simp] theorem supersedeTeamCommandsLocked_idCounter :
    (supersedeTeamCommandsLocked s now taskID).idCounter = s.idCounter := rfl

end Frame

/-- Whether a poll may hand the command out. -/
def teamCommandAvailable (command : AgentCommand) (now : Instant) : Bool :=
  match command.status with
  | .queued => true
  | .delivered => command.deliveryExpiresAt.any fun expiresAt => expiresAt ≤ now
  | _ => false

end WorkMesh.AgentTeam
