import WorkMesh.AgentTeam.Effects

/-!
# The writes a request is made of

A request changes tasks and commands in small writes: the scheduler moves a
task, an event rewrites one, a command is queued, taken back, handed out or
acknowledged, and old commands are dropped. A property that each write keeps is
kept by every request, whatever the order in which the writes come.
-/

namespace WorkMesh.AgentTeam

open StateMachine

/-! ## Compaction as a function of the list -/

/-- A finished command of the project, which compaction may drop. -/
def finishedOf (projectID : String) (command : AgentCommand) : Bool :=
  command.projectId = projectID ∧ teamCommandTerminal command

/-- The command list after `compactTeamCommandsLocked`. -/
@[irreducible] def compactedCommands (projectID : String) (commands : List AgentCommand) :
    List AgentCommand :=
  dropTerminal projectID (commands.countP (finishedOf projectID) - teamCommandHistoryLimit)
    commands

theorem compactTeamCommandsLocked_agentCommands (s : TeamState) (projectID : String) :
    (compactTeamCommandsLocked s projectID).agentCommands =
      compactedCommands projectID s.agentCommands := by
  have hfinished : (fun command : AgentCommand => decide (command.projectId = projectID ∧
      teamCommandTerminal command = true)) = finishedOf projectID := rfl
  simp only [compactTeamCommandsLocked, compactedCommands, hfinished]
  generalize teamCommandHistoryLimit = limit
  split
  · rename_i h
    simp only [Nat.sub_eq_zero_of_le h, dropTerminal]
  · rfl

/-! ## The rule -/

/-- The second state has the tasks and the commands of the first. -/
structure SameWork (s t : TeamState) : Prop where
  teamTasks : t.teamTasks = s.teamTasks
  agentCommands : t.agentCommands = s.agentCommands
  idCounter : s.idCounter ≤ t.idCounter

/-- The state with one more command. -/
def appendCommand (s : TeamState) (command : AgentCommand) : TeamState :=
  { s.tick with agentCommands := s.agentCommands ++ [command] }

@[simp] theorem appendCommand_teamTasks (s : TeamState) (command : AgentCommand) :
    (appendCommand s command).teamTasks = s.teamTasks := rfl
@[simp] theorem appendCommand_agentCommands (s : TeamState) (command : AgentCommand) :
    (appendCommand s command).agentCommands = s.agentCommands ++ [command] := rfl
@[simp] theorem appendCommand_idCounter (s : TeamState) (command : AgentCommand) :
    (appendCommand s command).idCounter = s.idCounter + 1 := rfl

/-- The writes that need no request of their own: the scheduler moves a task,
the start of an accepted task or another command is queued, and finished
commands are dropped. -/
structure KeptByWrites (now : Instant) (P : TeamState → Prop) : Prop where
  same : ∀ {s t}, P s → SameWork s t → P t
  move : ∀ {s i task status}, P s → s.teamTasks[i]? = some task → task.status.waits →
    status ∈ [TaskStatus.accepted, .waitingResource, .blocked] →
    P { s with teamTasks := s.teamTasks.set i (scheduledTask now task status) }
  start : ∀ {s task} runtime, P s → task ∈ s.teamTasks → task.status = .accepted →
    P (appendCommand s (newTeamCommand s now runtime task .taskStart (startPayload task)))
  other : ∀ {s kind task} runtime payload, kind ≠ .taskStart → P s →
    task.assignment ∈ s.teamTasks.map TeamTask.assignment →
    P (appendCommand s (newTeamCommand s now runtime task kind payload))
  compact : ∀ {s} projectID, P s →
    P { s with agentCommands := compactedCommands projectID s.agentCommands }

section Queueing
variable {env : Env} {now : Instant} {P : TeamState → Prop} (hP : KeptByWrites now P)
variable {s : TeamState} {task : TeamTask}
include hP

theorem KeptByWrites.compacted (projectID : String) (hs : P s) :
    P (compactTeamCommandsLocked s projectID) := by
  refine hP.same (hP.compact projectID hs) ⟨?_, ?_, ?_⟩
  · simp only [compactTeamCommandsLocked_teamTasks]
  · simp only [compactTeamCommandsLocked_agentCommands]
  · simp only [compactTeamCommandsLocked_idCounter, Nat.le_refl]

theorem KeptByWrites.enqueue {kind : CommandKind} {payload : Fields} (hs : P s)
    (happend : ∀ runtime, P (appendCommand s (newTeamCommand s now runtime task kind payload))) :
    P (enqueueTaskCommandLocked s now task kind payload).1 := by
  obtain ⟨h, -⟩ | ⟨runtime, -, -, h⟩ := enqueueTaskCommandLocked_cases s now task kind payload
  · rw [h]; exact hs
  · rw [h]
    exact hP.compacted task.projectId (happend runtime)

theorem KeptByWrites.enqueueOther {kind : CommandKind} {payload : Fields}
    (hkind : kind ≠ .taskStart) (hs : P s)
    (hmem : task.assignment ∈ s.teamTasks.map TeamTask.assignment) :
    P (enqueueTaskCommandLocked s now task kind payload).1 :=
  hP.enqueue hs fun runtime => hP.other runtime payload hkind hs hmem

theorem KeptByWrites.enqueueStart (hs : P s) (hmem : task ∈ s.teamTasks)
    (haccepted : task.status = .accepted) : P (enqueueTeamCommandLocked s now task).1 :=
  hP.enqueue hs fun runtime => hP.start runtime hs hmem haccepted

theorem KeptByWrites.scheduled {p : String} {i : Nat} {t : TeamState} (hs : P s)
    (hget : s.teamTasks[i]? = some task) (hwaits : task.status.waits)
    (hmove : Scheduled env now p s i task t) : P t := by
  have hi : i < s.teamTasks.length := (List.getElem?_eq_some_iff.mp hget).1
  have hstored : ∀ status typ payload,
      status ∈ [TaskStatus.accepted, .waitingResource, .blocked] →
        P (storeScheduled now s i task status typ payload) :=
    fun status typ payload hstatus =>
      hP.same (hP.move hs hget hwaits hstatus) ⟨rfl, rfl, Nat.le_succ _⟩
  cases hmove with
  | waitsForUnits => exact hstored _ _ _ (by simp)
  | accepted typ payload =>
      exact hP.enqueueStart (hstored _ _ _ (by simp)) (List.mem_set hi _) rfl
  | blocked => exact hstored _ _ _ (by simp)

theorem KeptByWrites.activate (hs : P s) (projectID : String) :
    P (activateReadyTeamTasksLocked env s now projectID) :=
  activateReady_preserves (fun _ _ _ _ hs hget _ hwaits hmove => hP.scheduled hs hget hwaits hmove)
    hs

theorem KeptByWrites.redispatch (hs : P s) (projectID : String) :
    P (s.teamTasks.foldl (redispatchTeamTask now projectID) s) := by
  refine (redispatch_preserves
    (P := fun t => P t ∧ t.teamTasks = s.teamTasks) s.teamTasks ?_ ⟨hs, rfl⟩).1
  rintro t task hmem ⟨ht, htasks⟩
  refine ⟨?_, by rw [redispatchTeamTask_teamTasks, htasks]⟩
  rcases redispatchTeamTask_cases t now projectID task with h | ⟨-, haccepted, -, h⟩
  · rw [h]; exact ht
  · rw [h]; exact hP.enqueueStart ht (htasks ▸ hmem) haccepted

/-- A registration is the requeueing of commands followed by writes. -/
theorem KeptByWrites.register {item : AgentRuntime}
    (hrequeued : P { s with
      agentCommands := s.agentCommands.map (requeueTeamCommand item.projectId item.runtimeId) }) :
    P (storeRegistration s now item) := by
  have hregistered := hP.same (t := { s.tick.tick with
    agentRuntimes := registeredRuntimes s.agentRuntimes item
    agentCommands := s.agentCommands.map (requeueTeamCommand item.projectId item.runtimeId) })
    hrequeued ⟨rfl, rfl, by simp only [TeamState.tick]; omega⟩
  simp only [storeRegistration]
  exact hP.same (hP.redispatch hregistered item.projectId) ⟨rfl, rfl, Nat.le_succ _⟩

end Queueing

/-- The state once an action has rewritten its task and taken back its
commands, before anything is queued or activated. -/
def actedState (env : Env) (s : TeamState) (now : Instant) (task : TeamTask) (body : Fields)
    (action : TaskAction) : TeamState :=
  let prepared := prepareTaskAction s now task action
  let replaced := replaceTeamTaskLocked prepared (actedTask env prepared now task body action)
  match action with
  | .cancel | .complete => supersedeTeamCommandsLocked replaced now task.taskId
  | _ => replaced

/-- The scheduler leaves the assignments alone. -/
theorem activateReady_assignments (env : Env) (s : TeamState) (now : Instant)
    (projectID : String) :
    (activateReadyTeamTasksLocked env s now projectID).teamTasks.map TeamTask.assignment =
      s.teamTasks.map TeamTask.assignment := by
  refine activateReady_preserves (P := fun t : TeamState =>
    t.teamTasks.map TeamTask.assignment = s.teamTasks.map TeamTask.assignment) ?_ rfl
  intro u i task t hu hget _ _ hmove
  obtain ⟨status, -, -, htasks⟩ := hmove.teamTasks
  rw [htasks, map_set_of_eq (a := scheduledTask now task status) hget rfl]
  exact hu

theorem mem_replaceTeamTaskLocked {s : TeamState} {id : String} {task new : TeamTask}
    (hfind : findTeamTaskLocked s id = some task) (hid : new.taskId = task.taskId) :
    new ∈ (replaceTeamTaskLocked s new).teamTasks :=
  mem_replaceKey_self (lookupKey_of_find hfind hid)

/-- An action is its rewritten task followed by writes. -/
theorem KeptByWrites.perform {env : Env} {now : Instant} {P : TeamState → Prop}
    (hP : KeptByWrites now P) {s : TeamState} {id : String} {task : TeamTask} {body : Fields}
    {action : TaskAction} (hfind : findTeamTaskLocked s id = some task)
    (hacted : P (actedState env s now task body action)) :
    P (performTaskAction env s now task action body) := by
  simp only [performTaskAction, actedState] at hacted ⊢
  generalize hprepared : prepareTaskAction s now task action = prepared at hacted ⊢
  generalize hnew : actedTask env prepared now task body action = acted at hacted ⊢
  have hassignment : acted.assignment = task.assignment := hnew ▸ actedTask_assignment ..
  have hid : acted.taskId = task.taskId := congrArg Assignment.taskId hassignment
  have hproject : acted.projectId = task.projectId := congrArg Assignment.projectId hassignment
  have hfound : findTeamTaskLocked prepared id = some task := by
    rw [← hprepared]
    simpa only [findTeamTaskLocked, prepareTaskAction_teamTasks] using hfind
  have hmem : acted ∈ (replaceTeamTaskLocked prepared acted).teamTasks :=
    mem_replaceTeamTaskLocked hfound hid
  have hknown : acted.assignment ∈
      (replaceTeamTaskLocked prepared acted).teamTasks.map TeamTask.assignment :=
    List.mem_map_of_mem hmem
  generalize boundedPayload (some (.obj body)) = payload
  have hlogged : ∀ u, P u →
      P (appendTeamEventLocked u now task.projectId action.eventType task.taskId "" payload) :=
    fun u hu => hP.same hu ⟨rfl, rfl, Nat.le_succ _⟩
  cases action with
  | input => exact hP.enqueueOther (by decide) (hlogged _ hacted) hknown
  | approve => exact hlogged _ hacted
  | reject =>
      simp only [followTaskAction, hproject]
      exact hP.activate (hlogged _ hacted) _
  | retry =>
      simp only [followTaskAction]
      split
      · rename_i haccepted
        exact hP.enqueueStart (hlogged _ hacted) hmem haccepted
      · exact hlogged _ hacted
  | cancel =>
      have hended : P (supersedeTeamCommandsLocked (appendTeamEventLocked
          (replaceTeamTaskLocked prepared acted) now task.projectId "task.cancel" task.taskId ""
          payload) now task.taskId) := hP.same hacted ⟨rfl, rfl, Nat.le_succ _⟩
      simp only [followTaskAction, hproject, hid]
      refine hP.enqueueOther (by decide) (hP.activate hended _) ?_
      rw [activateReady_assignments]
      exact hknown
  | complete =>
      have hended : P (supersedeTeamCommandsLocked (appendTeamEventLocked
          (replaceTeamTaskLocked prepared acted) now task.projectId "task.complete" task.taskId ""
          payload) now task.taskId) := hP.same hacted ⟨rfl, rfl, Nat.le_succ _⟩
      simp only [followTaskAction, hproject, hid]
      exact hP.activate (hP.enqueueOther (by decide) hended hknown) _

/-- An event batch is a chain of writes. -/
theorem KeptByWrites.ingest {env : Env} {now : Instant} {P : TeamState → Prop}
    (hP : KeptByWrites now P)
    (hagent : ∀ {s p id typ payload task new}, P s → openTask s p id = some task →
      AgentWrite typ payload task new → P (replaceTeamTaskLocked s new))
    {s : TeamState} (hs : P s) (c : RuntimeCredentials) (item : AgentRuntime)
    (events : List Fields) : P (storeEventBatch env now s c item events) := by
  refine storeEventBatch_preserves ?_ ?_ hs
  · intro u runtime hu
    exact hP.same hu ⟨rfl, rfl, Nat.le_refl _⟩
  · intro u event hu
    refine ingestTeamEvent_preserves ?_ ?_ ?_ hu
    · intro v hv
      exact hP.same hv ⟨rfl, rfl, Nat.le_succ _⟩
    · intro v task new hv hopen hwrite
      exact hagent hv hopen hwrite
    · intro v hv
      exact hP.activate hv _

/-- What every write keeps, every request keeps. -/
theorem Effect.writes {env : Env} {now : Instant} {s t : TeamState} {request : Request}
    {response : Response} {P : TeamState → Prop} (h : Effect env now s request t response)
    (hP : KeptByWrites now P) (hs : P s)
    (hagent : ∀ {u p id typ payload task new}, P u → openTask u p id = some task →
      AgentWrite typ payload task new → P (replaceTeamTaskLocked u new))
    (hannotate : ∀ {task new : TeamTask},
      lookupKey TeamTask.taskId new.taskId s.teamTasks = some task →
      new.assignment = task.assignment → new.progress = task.progress →
      P (replaceTeamTaskLocked s new))
    (hact : ∀ {path action body task}, request = .taskAction path action body →
      findTeamTaskLocked s (validTeamID path) = some task →
      taskActionRefusal s task action body = none → response.isOk = true →
      P (actedState env s now task body action))
    (hcreate : ∀ {project body spec}, request = .taskCreate project body →
      response.isOk = true → taskSpec body = .ok spec →
      validateTeamDependenciesLocked s (validTeamID project)
        (newTeamTask env s now (validTeamID project) spec).taskId spec.dependencies = none →
      P { s.tick with
        teamTasks := s.teamTasks ++ [newTeamTask env s now (validTeamID project) spec] })
    (hrequeue : ∀ {body}, request = .register body →
      response = .ok (.runtime (newRuntime s now body)) →
      P { s with
        agentCommands := s.agentCommands.map (requeueTeamCommand
          (newRuntime s now body).projectId (newRuntime s now body).runtimeId) })
    (hpoll : ∀ {project runtime token limit c item n delivered},
      request = .commands project runtime token limit →
      response = .ok (.commands delivered.2) →
      c = ⟨validTeamID project, validTeamID runtime, trimSpace token⟩ →
      leasedRuntime s now c = some item →
      deliverCommands now c.projectID c.runtimeID n 0 s.agentCommands = delivered →
      P { s with agentCommands := delivered.1 })
    (hack : ∀ {body item ids}, request = .commandAck body → response.isOk = true →
      leasedRuntime s now (runtimeCredentials body) = some item →
      P { s with
        agentCommands := s.agentCommands.map (ackTeamCommand now (runtimeCredentials body) ids) }) :
    P t := by
  cases h with
  | refused n status code message hn => exact hP.same hs ⟨rfl, rfl, hn⟩
  | answered => exact hs
  | recreated => exact hs
  | repeated => exact hs
  | inputUnsaved task n message hn hfind =>
      have hwritten := @hannotate task { task with updatedAt := now }
        (lookupKey_of_find hfind rfl) rfl rfl
      exact hP.same hwritten ⟨rfl, rfl, hn⟩
  | registered => exact hP.register (hrequeue rfl rfl)
  | renewed => exact hP.same hs ⟨rfl, rfl, Nat.le_refl _⟩
  | unregistered => exact hP.same hs ⟨rfl, rfl, Nat.le_succ _⟩
  | ingested item => exact hP.ingest hagent hs _ item _
  | polled c item n delivered hleased hdelivered hc => exact hpoll rfl rfl hc hleased hdelivered
  | @acked body item ids count hleased => exact hP.compacted _ (hack rfl rfl hleased)
  | expired =>
      refine hP.same hs ⟨?_, ?_, le_expireRuntimeLeasesLocked_idCounter s now⟩
      · exact expireRuntimeLeasesLocked_teamTasks s now
      · exact expireRuntimeLeasesLocked_agentCommands s now
  | created spec reply hspec hdeps =>
      have hstored := hcreate rfl rfl hspec hdeps
      generalize newTeamTask env s now _ spec = task at hstored ⊢
      have hlogged : ∀ p typ payload, P (appendTeamEventLocked
          { s.tick with teamTasks := s.teamTasks ++ [task] } now p typ task.taskId "" payload) :=
        fun p typ payload => hP.same hstored ⟨rfl, rfl, Nat.le_succ _⟩
      simp only [storeNewTask]
      split
      · rename_i haccepted
        exact hP.enqueueStart (hlogged _ _ _)
          (List.mem_append_right _ (List.mem_singleton_self task)) haccepted
      · exact hlogged _ _ _
  | acted task hfind hrefusal => exact hP.perform hfind (hact rfl hfind hrefusal rfl)
  | @uploaded c taskID artifactID fields item task hleased hfind =>
      exact @hannotate task (updateTeamArtifactLocked task artifactID fields)
        (lookupKey_of_find hfind rfl) rfl rfl

end WorkMesh.AgentTeam
