import WorkMesh.AgentTeam.Collaboration

/-!
# Task creation and user actions

`handleProjectTaskCreate` and `handleDevTaskAction`. Creation decides the first
status of a task; an action rewrites the task, its commands, and what else in
the project the change sets free.
-/

namespace WorkMesh.AgentTeam

open StateMachine

/-! ## Creation -/

def resourceProfileOf (text : String) : Option ResourceProfile :=
  if text = "" ∨ text = "small" then some .small
  else if text = "medium" then some .medium
  else if text = "large" then some .large
  else none

/-- The execution context of a task. -/
structure ExecutionMetadata where
  workstreamId : String
  worktreeId : String
  environmentId : String
  verificationOwner : String
  baseRevision : String
  timeoutSeconds : Nat

/-- A reference that must be a safe identifier when it is given. -/
def metadataField (body : Fields) (key : String) : Except String String :=
  let raw := aiString body [key]
  if raw ≠ "" ∧ validTeamID raw = "" then .error (key ++ " 必须是安全标识") else .ok raw

def teamTaskExecutionMetadata (body : Fields) : Except String ExecutionMetadata := do
  let workstreamId ← metadataField body "workstreamId"
  let worktreeId ← metadataField body "worktreeId"
  let environmentId ← metadataField body "environmentId"
  let verificationOwner ← metadataField body "verificationOwner"
  let baseRevision := aiString body ["baseRevision"]
  if 256 < baseRevision.utf8ByteSize ∨ baseRevision.toList.any (fun c => c < ' ' ∨ c = '\x7f') then
    .error "baseRevision 长度或字符无效"
  else
    match body.lookup "timeoutSeconds" with
    | none =>
        .ok ⟨workstreamId, worktreeId, environmentId, verificationOwner, baseRevision, 0⟩
    | some raw =>
        let timeoutSeconds := boundedInt64 (some raw) (-1) 3601
        if timeoutSeconds < 1 ∨ 1800 < timeoutSeconds then
          .error "timeoutSeconds 必须是 1-1800 的整数"
        else
          .ok ⟨workstreamId, worktreeId, environmentId, verificationOwner, baseRevision,
            timeoutSeconds.toNat⟩

/-- The dependency list of a request: the first of the two keys with entries. -/
def rawDependencies (raw : List Json) : List (Option Json) → Except String (List Json)
  | [] => .ok raw
  | none :: values | some .null :: values => rawDependencies raw values
  | some (.arr items) :: values =>
      rawDependencies (if raw.isEmpty then items else raw) values
  | some _ :: _ => .error "依赖任务必须是数组"

def collectDependencyIDs (seen : List String) : List Json → Except String (List String)
  | [] => .ok seen
  | value :: raw =>
      let id := validTeamID (sprint value)
      if id = "" then .error "依赖任务 ID 无效"
      else if id ∈ seen then .error "依赖任务不能重复"
      else collectDependencyIDs (seen ++ [id]) raw

def teamDependencyIDs (values : List (Option Json)) : Except String (List String) :=
  match rawDependencies [] values with
  | .error message => .error message
  | .ok raw =>
      if 32 < raw.length then .error "依赖任务最多 32 个" else collectDependencyIDs [] raw

/-- The message of the first dependency that cannot be depended on. -/
def validateTeamDependenciesLocked (s : TeamState) (projectID taskID : String) :
    List String → Option String
  | [] => none
  | dependencyID :: dependencies =>
      if dependencyID = taskID then some "任务不能依赖自身"
      else if ¬(findTeamTaskLocked s dependencyID).any
          (fun dependency => dependency.projectId = projectID) then
        some "依赖任务不存在或不属于当前项目"
      else validateTeamDependenciesLocked s projectID taskID dependencies

/-- What a valid creation request asks for. -/
structure TaskSpec where
  title : String
  instruction : String
  resourceProfile : ResourceProfile
  metadata : ExecutionMetadata
  dependencies : List String
  clientKey : String
  ownerMemberId : String

/-- The checks that do not look at the state. -/
def taskSpec (body : Fields) : Except Response TaskSpec :=
  let title := boundedText (aiString body ["title", "name"]) 240
  let instruction := boundedText (aiString body ["instruction", "prompt", "description"]) 64000
  if title = "" ∨ instruction = "" then
    .error (.error 400 "TASK_FIELDS_REQUIRED" "title 和 instruction 不能为空")
  else
    match resourceProfileOf (toLower (aiString body ["resourceProfile"])) with
    | none =>
        .error (.error 400 "TASK_RESOURCE_PROFILE_INVALID"
          "resourceProfile 只能是 small、medium 或 large")
    | some resourceProfile =>
        match teamTaskExecutionMetadata body with
        | .error message => .error (.error 400 "TASK_EXECUTION_METADATA_INVALID" message)
        | .ok metadata =>
            match teamDependencyIDs [body.lookup "dependsOn", body.lookup "dependencyTaskIds"] with
            | .error message => .error (.error 400 "TASK_DEPENDENCIES_INVALID" message)
            | .ok dependencies =>
                .ok {
                  title := title
                  instruction := instruction
                  resourceProfile := resourceProfile
                  metadata := metadata
                  dependencies := dependencies
                  clientKey := boundedText (aiString body ["idempotencyKey", "clientTaskId"]) 160
                  ownerMemberId := validTeamID (aiString body ["ownerMemberId"]) }

/-- The first status of a task. -/
def initialTaskStatus (env : Env) (s : TeamState) (projectID : String) (spec : TaskSpec) :
    TaskStatus :=
  let status := teamDependencyStatusLocked s spec.dependencies
  if status = .accepted ∧ ¬teamResourceAvailableLocked env s projectID spec.resourceProfile "" then
    .waitingResource
  else status

theorem initialTaskStatus_accepted {env : Env} {s : TeamState} {projectID : String}
    {spec : TaskSpec} (h : initialTaskStatus env s projectID spec = .accepted) :
    teamDependencyStatusLocked s spec.dependencies = .accepted ∧
      teamResourceAvailableLocked env s projectID spec.resourceProfile "" = true := by
  simp only [initialTaskStatus] at h
  split at h
  · cases h
  · rename_i hfits
    exact ⟨h, by simpa [h] using hfits⟩

/-- A new task occupies units only when it is accepted. -/
theorem initialTaskStatus_of_holds {env : Env} {s : TeamState} {projectID : String}
    {spec : TaskSpec} (h : (initialTaskStatus env s projectID spec).holdsResources = true) :
    initialTaskStatus env s projectID spec = .accepted := by
  simp only [initialTaskStatus] at h ⊢
  split at h
  · cases h
  · rcases teamDependencyStatusLocked_cases s spec.dependencies with hdeps | hdeps | hdeps <;>
      simp_all [TaskStatus.holdsResources]

def newTeamTask (env : Env) (s : TeamState) (now : Instant) (projectID : String)
    (spec : TaskSpec) : TeamTask where
  taskId := teamNewID "task" now (s.idCounter + 1)
  projectId := projectID
  title := spec.title
  instruction := spec.instruction
  status := initialTaskStatus env s projectID spec
  attempt := 1
  dependencyTaskIds := spec.dependencies
  idempotencyKey := spec.clientKey
  createdAt := now
  updatedAt := now
  ownerMemberId := spec.ownerMemberId
  resourceProfile := spec.resourceProfile
  workstreamId := spec.metadata.workstreamId
  worktreeId := spec.metadata.worktreeId
  environmentId := spec.metadata.environmentId
  verificationOwner := spec.metadata.verificationOwner
  baseRevision := spec.metadata.baseRevision
  timeoutSeconds := spec.metadata.timeoutSeconds

def createdEventType : TaskStatus → String
  | .waitingDependency => "task.waiting_dependency"
  | .waitingResource => "task.waiting_resource"
  | _ => "task.accepted"

def dispatchStatus (status : TaskStatus) (command : Option AgentCommand) : String :=
  if command.isSome then "queued"
  else match status with
    | .waitingDependency => "waiting_dependency"
    | .waitingResource => "waiting_resource"
    | _ => "awaiting_runtime"

/-- Add a task, log it, and queue its start when it is accepted. -/
def storeNewTask (s : TeamState) (now : Instant) (projectID : String) (task : TeamTask) :
    TeamState × Option AgentCommand :=
  let stored := { s.tick with teamTasks := s.teamTasks ++ [task] }
  let logged := appendTeamEventLocked stored now projectID (createdEventType task.status)
    task.taskId "" [("title", .str task.title), ("ownerMemberId", .str task.ownerMemberId),
      ("dependencyTaskIds", idList task.dependencyTaskIds)]
  if task.status = .accepted then enqueueTeamCommandLocked logged now task else (logged, none)

def handleProjectTaskCreate (env : Env) (now : Instant) (failure : Option String)
    (s : TeamState) (project : String) (body : Fields) : TeamState × Response :=
  let projectID := validTeamID project
  if projectID = "" then (s, .error 400 "PROJECT_ID_INVALID" "projectId 无效")
  else
    match taskSpec body with
    | .error response => (s, response)
    | .ok spec =>
        match s.teamTasks.find? fun old => old.projectId = projectID ∧ spec.clientKey ≠ "" ∧
            trimSpace old.idempotencyKey = spec.clientKey with
        | some old => (s, .ok (.replayed old))
        | none =>
            if teamTaskLimit ≤ s.teamTasks.countP (fun old => old.projectId = projectID) ∨
                teamPendingCommandLimit ≤ pendingTeamCommandsLocked s projectID then
              (s, .error 429 "TEAM_CAPACITY_REACHED" "项目任务或待处理命令已达到上限")
            else
              let task := newTeamTask env s now projectID spec
              match validateTeamDependenciesLocked s projectID task.taskId spec.dependencies with
              | some message => (s.tick, .error 400 "TASK_DEPENDENCIES_INVALID" message)
              | none =>
                  let stored := storeNewTask s now projectID task
                  commitTeamState s stored.1 failure "TASK_SAVE_FAILED"
                    (.created task (dispatchStatus task.status stored.2))

/-! ## User actions -/

/-- The actions with a route of their own. -/
inductive TaskAction where
  | input | cancel | retry | complete | approve | reject
  deriving DecidableEq

def TaskAction.eventType : TaskAction → String
  | .input => "task.input"
  | .cancel => "task.cancel"
  | .retry => "task.retry"
  | .complete => "task.complete"
  | .approve => "task.approve"
  | .reject => "task.reject"

def commandCapacityReached : Response :=
  .error 429 "TEAM_COMMAND_CAPACITY_REACHED" "项目待处理命令已达到上限"

/-- The text of an `input` action. -/
def inputText (body : Fields) : String :=
  boundedText (aiString body ["input", "message", "prompt"]) 64000

/-- The answers that an action gets before anything is changed. -/
def taskActionRefusal (s : TeamState) (task : TeamTask) (action : TaskAction) (body : Fields) :
    Option Response :=
  let pending := pendingTeamCommandsLocked s task.projectId
  if task.status = .completed ∧ action = .complete ∧ task.completionSource = some .manual then
    some (.ok (.replayed task))
  else if task.status = .completed ∧
      (action = .complete ∨ task.completionSource = some .manual) then
    some (.error 409 "TASK_ALREADY_COMPLETED" "任务已完成；如需继续，请创建新任务")
  else if action = .cancel ∧ task.status = .cancelled then some (.ok (.replayed task))
  else if action = .retry ∧ teamAttemptLimit ≤ teamTaskAttempt task then
    some (.error 409 "TASK_ATTEMPT_EXHAUSTED" "任务重试次数已达到上限")
  else if action = .retry ∧ teamPendingCommandLimit + pendingTeamTaskCommandsLocked s task.taskId
      < pending + 2 then some commandCapacityReached
  else if (action = .input ∨ action = .cancel ∨ action = .complete) ∧
      teamPendingCommandLimit ≤ pending ∧
      ((action ≠ .complete ∧ action ≠ .cancel) ∨ ¬hasPendingTeamCommandLocked s task.taskId) then
    some commandCapacityReached
  else if action = .input ∧ inputText body = "" then
    some (.error 400 "TASK_INPUT_REQUIRED" "input 不能为空")
  else none

/-- A retry that is let through has an attempt left. -/
theorem attempt_of_retry {s : TeamState} {task : TeamTask} {body : Fields}
    (h : taskActionRefusal s task .retry body = none) :
    teamTaskAttempt task + 1 ≤ teamAttemptLimit := by
  by_contra hlimit
  have hlimit : teamAttemptLimit ≤ teamTaskAttempt task := by omega
  simp only [taskActionRefusal] at h
  grind

/-- The commands before a task is rewritten: a retry takes back the old ones
and tells the agent to cancel the old attempt. -/
def prepareTaskAction (s : TeamState) (now : Instant) (task : TeamTask) :
    TaskAction → TeamState
  | .retry =>
      (enqueueTaskCommandLocked (supersedeTeamCommandsLocked s now task.taskId) now task
        .taskCancel [("attempt", .int (teamTaskAttempt task)), ("reason", .str "retry")]).1
  | _ => s

/-- The status of a task that starts a new attempt. -/
def retryStatus (env : Env) (s : TeamState) (task : TeamTask) : TaskStatus :=
  let status := teamDependencyStatusLocked s task.dependencyTaskIds
  if status = .accepted ∧
      ¬teamResourceAvailableLocked env s task.projectId task.resourceProfile task.taskId then
    .waitingResource
  else status

theorem retryStatus_accepted {env : Env} {s : TeamState} {task : TeamTask}
    (h : retryStatus env s task = .accepted) :
    teamDependencyStatusLocked s task.dependencyTaskIds = .accepted ∧
      teamResourceAvailableLocked env s task.projectId task.resourceProfile task.taskId = true := by
  simp only [retryStatus] at h
  split at h
  · cases h
  · rename_i hfits
    exact ⟨h, by simpa [h] using hfits⟩

/-- A retried task occupies units only when it is accepted. -/
theorem retryStatus_of_holds {env : Env} {s : TeamState} {task : TeamTask}
    (h : (retryStatus env s task).holdsResources = true) : retryStatus env s task = .accepted := by
  simp only [retryStatus] at h ⊢
  split at h
  · cases h
  · rcases teamDependencyStatusLocked_cases s task.dependencyTaskIds with hdeps | hdeps | hdeps <;>
      simp_all [TaskStatus.holdsResources]

/-- The task as the action leaves it. -/
def actedTask (env : Env) (s : TeamState) (now : Instant) (task : TeamTask) (body : Fields) :
    TaskAction → TeamTask
  | .input => { task with updatedAt := now }
  | .cancel =>
      { task with
        status := .cancelled
        cancellationSource := some .manual
        cancellationReason := boundedText (aiString body ["reason"]) 2000
        cancelledAt := some now
        updatedAt := now }
  | .retry =>
      { task with
        status := retryStatus env s task
        attempt := teamTaskAttempt task + 1
        completionSource := none
        completionReason := ""
        completedAt := none
        cancellationSource := none
        cancellationReason := ""
        cancelledAt := none
        updatedAt := now }
  | .complete =>
      let reason := boundedText (aiString body ["reason"]) 2000
      { task with
        status := .completed
        completionSource := some .manual
        completionReason := if reason = "" then "用户直接完成" else reason
        completedAt := some now
        updatedAt := now }
  | .approve => { task with approvalStatus := some .approved, updatedAt := now }
  | .reject =>
      { task with approvalStatus := some .rejected, status := .blocked, updatedAt := now }

/-- What follows once the rewritten task is stored and logged. -/
def followTaskAction (env : Env) (s : TeamState) (now : Instant) (task : TeamTask)
    (body : Fields) : TaskAction → TeamState
  | .input =>
      (enqueueTaskCommandLocked s now task .taskInput
        (putField (boundedPayload (some (.obj body))) "attempt" (.int (teamTaskAttempt task)))).1
  | .cancel =>
      let activated := activateReadyTeamTasksLocked env
        (supersedeTeamCommandsLocked s now task.taskId) now task.projectId
      (enqueueTaskCommandLocked activated now task .taskCancel
        (putField (boundedPayload (some (.obj body))) "attempt" (.int (teamTaskAttempt task)))).1
  | .retry =>
      if task.status = .accepted then (enqueueTeamCommandLocked s now task).1 else s
  | .complete =>
      let cancelled := enqueueTaskCommandLocked (supersedeTeamCommandsLocked s now task.taskId)
        now task .taskCancel
        [("attempt", .int (teamTaskAttempt task)), ("reason", .str task.completionReason),
          ("completionSource", .str "manual")]
      activateReadyTeamTasksLocked env cancelled.1 now task.projectId
  | .approve => s
  | .reject => activateReadyTeamTasksLocked env s now task.projectId

/-- Everything that an action changes. -/
def performTaskAction (env : Env) (s : TeamState) (now : Instant) (task : TeamTask)
    (action : TaskAction) (body : Fields) : TeamState :=
  let prepared := prepareTaskAction s now task action
  let acted := actedTask env prepared now task body action
  let logged := appendTeamEventLocked (replaceTeamTaskLocked prepared acted) now task.projectId
    action.eventType task.taskId "" (boundedPayload (some (.obj body)))
  followTaskAction env logged now acted body action

section Frame
variable (env : Env) (s : TeamState) (now : Instant) (task : TeamTask) (body : Fields)
variable (action : TaskAction)

@[simp] theorem prepareTaskAction_agentRuntimes :
    (prepareTaskAction s now task action).agentRuntimes = s.agentRuntimes := by
  cases action <;> simp [prepareTaskAction]
@[simp] theorem prepareTaskAction_teamTasks :
    (prepareTaskAction s now task action).teamTasks = s.teamTasks := by
  cases action <;> simp [prepareTaskAction]
theorem le_prepareTaskAction_idCounter :
    s.idCounter ≤ (prepareTaskAction s now task action).idCounter := by
  cases action <;> simp [prepareTaskAction]
  exact le_enqueueTaskCommandLocked_idCounter (supersedeTeamCommandsLocked s now task.taskId) ..

@[simp] theorem followTaskAction_agentRuntimes :
    (followTaskAction env s now task body action).agentRuntimes = s.agentRuntimes := by
  cases action <;> simp [followTaskAction]
  split <;> simp
theorem le_followTaskAction_idCounter :
    s.idCounter ≤ (followTaskAction env s now task body action).idCounter := by
  cases action with
  | input => exact le_enqueueTaskCommandLocked_idCounter ..
  | cancel =>
      exact Nat.le_trans (le_activateReady_idCounter (supersedeTeamCommandsLocked s now task.taskId))
        (le_enqueueTaskCommandLocked_idCounter ..)
  | retry =>
      simp only [followTaskAction]
      split
      · exact le_enqueueTeamCommandLocked_idCounter ..
      · exact Nat.le_refl _
  | complete =>
      exact Nat.le_trans
        (le_enqueueTaskCommandLocked_idCounter (supersedeTeamCommandsLocked s now task.taskId) ..)
        (le_activateReady_idCounter _)
  | approve => exact Nat.le_refl _
  | reject => exact le_activateReady_idCounter _

@[simp] theorem performTaskAction_agentRuntimes :
    (performTaskAction env s now task action body).agentRuntimes = s.agentRuntimes := by
  simp [performTaskAction]
theorem le_performTaskAction_idCounter :
    s.idCounter ≤ (performTaskAction env s now task action body).idCounter := by
  have hprepared := le_prepareTaskAction_idCounter s now task action
  refine Nat.le_trans ?_ (le_followTaskAction_idCounter ..)
  simpa using Nat.le_succ_of_le hprepared

end Frame

theorem actedTask_assignment (env : Env) (s : TeamState) (now : Instant) (task : TeamTask)
    (body : Fields) (action : TaskAction) :
    (actedTask env s now task body action).assignment = task.assignment := by
  cases action <;> rfl

/-- The actions that may end a task also look for waiting ones to move. -/
def TaskAction.wakes : TaskAction → Bool
  | .cancel | .complete | .reject => true
  | _ => false

/-- The tasks after an action: the rewritten one, and what the scheduler moved. -/
theorem performTaskAction_teamTasks (env : Env) (s : TeamState) (now : Instant) (task : TeamTask)
    (body : Fields) (action : TaskAction) :
    ∃ x : TeamState,
      x.teamTasks = replaceKey TeamTask.taskId
        (actedTask env (prepareTaskAction s now task action) now task body action) s.teamTasks ∧
      (performTaskAction env s now task action body).teamTasks =
        if action.wakes then (activateReadyTeamTasksLocked env x now task.projectId).teamTasks
        else x.teamTasks := by
  generalize hacted :
    actedTask env (prepareTaskAction s now task action) now task body action = acted
  have hproject : acted.projectId = task.projectId := by
    rw [← hacted]
    exact congrArg Assignment.projectId (actedTask_assignment ..)
  generalize hlogged : appendTeamEventLocked
    (replaceTeamTaskLocked (prepareTaskAction s now task action) acted) now task.projectId
    action.eventType task.taskId "" (boundedPayload (some (.obj body))) = logged
  have hperform : performTaskAction env s now task action body =
      followTaskAction env logged now acted body action := by
    simp only [performTaskAction, hacted, hlogged]
  have htasks : logged.teamTasks = replaceKey TeamTask.taskId acted s.teamTasks := by
    simp [← hlogged]
  rw [hperform]
  cases action with
  | input => exact ⟨logged, htasks, by simp [followTaskAction, TaskAction.wakes]⟩
  | approve => exact ⟨logged, htasks, by simp [followTaskAction, TaskAction.wakes]⟩
  | retry =>
      refine ⟨logged, htasks, ?_⟩
      simp only [followTaskAction, TaskAction.wakes, Bool.false_eq_true, if_false]
      split <;> simp
  | reject => exact ⟨logged, htasks, by simp [followTaskAction, TaskAction.wakes, hproject]⟩
  | cancel =>
      exact ⟨supersedeTeamCommandsLocked logged now acted.taskId, htasks, by
        simp [followTaskAction, TaskAction.wakes, hproject]⟩
  | complete =>
      refine ⟨_, ?_, by
        simp only [followTaskAction, TaskAction.wakes, if_true, hproject]
        rfl⟩
      simpa using htasks

/-- A property of the tasks that the scheduler keeps holds after an action if
it holds once the task is rewritten. -/
theorem performTaskAction_tasks {env : Env} {s : TeamState} {now : Instant} {task : TeamTask}
    {body : Fields} {action : TaskAction} {P : List TeamTask → Prop}
    (hactivate : ∀ (s : TeamState) projectID, P s.teamTasks →
      P (activateReadyTeamTasksLocked env s now projectID).teamTasks)
    (hacted : P (replaceKey TeamTask.taskId
      (actedTask env (prepareTaskAction s now task action) now task body action) s.teamTasks)) :
    P (performTaskAction env s now task action body).teamTasks := by
  obtain ⟨x, hx, htasks⟩ := performTaskAction_teamTasks env s now task body action
  rw [htasks]
  split
  · exact hactivate x _ (hx ▸ hacted)
  · exact hx ▸ hacted

/-- The snapshot that a failed save restores. An `input` action writes
`updatedAt` into the stored map itself, which the snapshot shares. -/
def actionSnapshot (s : TeamState) (now : Instant) (task : TeamTask) : TaskAction → TeamState
  | .input => replaceTeamTaskLocked s { task with updatedAt := now }
  | _ => s

def handleDevTaskAction (env : Env) (now : Instant) (failure : Option String) (s : TeamState)
    (taskPath : String) (action : TaskAction) (body : Fields) : TeamState × Response :=
  match findTeamTaskLocked s (validTeamID taskPath) with
  | none => (s, .error 404 "TASK_NOT_FOUND" "任务不存在")
  | some task =>
      match taskActionRefusal s task action body with
      | some response => (s, response)
      | none =>
          commitTeamState (actionSnapshot s now task action)
            (performTaskAction env s now task action body) failure "TASK_SAVE_FAILED"
            (.task (actedTask env (prepareTaskAction s now task action) now task body action))

end WorkMesh.AgentTeam
