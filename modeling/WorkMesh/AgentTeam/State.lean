import WorkMesh.AgentTeam.Value
import WorkMesh.StateMachine.KeyedList

/-!
# The team state: runtimes, tasks, commands and the event log

The maps of `aiPersistentData` that the agent control plane writes, as records
of the fields its handlers store. An absent string is `""`, an absent integer
`0`. A time that was never written is `none`; `parseTeamTime` reads it as the
start of Unix time, and every clock is past that.

## Implementation notes

The source keeps the last `teamEventLimit` events of a project and forgets the
rest. `EventLog.dropped` remembers the forgotten ones, so that statements can
speak of every event a log ever received; no function of the model reads it.
-/

namespace WorkMesh.AgentTeam

open StateMachine

/-- Nanoseconds since 1970. -/
abbrev Instant := Nat

def teamLeaseDuration : Nat := 15 * 10 ^ 9
def teamEventLimit : Nat := 2000
def teamPendingCommandLimit : Nat := 1000
def teamTaskLimit : Nat := 10000
def teamCommandVisibility : Nat := 30 * 10 ^ 9
def teamCommandHistoryLimit : Nat := 2000
def teamDefaultResourceUnits : Nat := 4
def teamMaxResourceUnits : Nat := 512
def teamAttemptLimit : Nat := 1000000

inductive RuntimeStatus where
  | online | busy | offline | fenced
  deriving DecidableEq

/-- One registration of an Agent Service for a project. -/
structure AgentRuntime where
  projectId : String
  runtimeId : String
  instanceId : String
  memberId : String
  deviceId : String
  status : RuntimeStatus
  fencingToken : String
  leaseId : String
  activeSessions : Nat
  activeTasks : Nat
  registeredAt : Instant
  lastSeenAt : Instant
  leaseExpiresAt : Option Instant
  lastSequence : Nat := 0
  deriving DecidableEq

/-- `parseTeamTime(leaseExpiresAt).After(now)`. -/
def AgentRuntime.leaseAfter (r : AgentRuntime) (now : Instant) : Bool :=
  r.leaseExpiresAt.any fun expiresAt => now < expiresAt

/-- `parseTeamTime(leaseExpiresAt).Before(now)`. -/
def AgentRuntime.leaseBefore (r : AgentRuntime) (now : Instant) : Bool :=
  r.leaseExpiresAt.all fun expiresAt => expiresAt < now

inductive TaskStatus where
  | accepted | waitingDependency | waitingResource | running | waitingInput
  | completed | failed | blocked | cancelled
  deriving DecidableEq

inductive ResourceProfile where
  | small | medium | large
  deriving DecidableEq

inductive CompletionSource where
  | manual | agentReport
  deriving DecidableEq

inductive CancellationSource where
  | manual
  deriving DecidableEq

inductive ApprovalStatus where
  | approved | rejected
  deriving DecidableEq

structure TeamTask where
  taskId : String
  projectId : String
  title : String
  instruction : String
  status : TaskStatus
  attempt : Nat
  dependencyTaskIds : List String
  idempotencyKey : String
  createdAt : Instant
  updatedAt : Instant
  ownerMemberId : String
  resourceProfile : ResourceProfile
  workstreamId : String := ""
  worktreeId : String := ""
  environmentId : String := ""
  verificationOwner : String := ""
  baseRevision : String := ""
  timeoutSeconds : Nat := 0
  completionSource : Option CompletionSource := none
  completionReason : String := ""
  completedAt : Option Instant := none
  cancellationSource : Option CancellationSource := none
  cancellationReason : String := ""
  cancelledAt : Option Instant := none
  approvalStatus : Option ApprovalStatus := none
  summary : String := ""
  ownerSessionId : String := ""
  handoffHistory : List Fields := []
  lastHandoff : Option Fields := none
  completionReports : List Fields := []
  completionReport : Option Fields := none
  artifacts : List Fields := []
  artifactCount : Nat := 0

/-- What a task was created with. No request rewrites any of it. -/
structure Assignment where
  taskId : String
  projectId : String
  title : String
  instruction : String
  dependencyTaskIds : List String
  resourceProfile : ResourceProfile
  workstreamId : String
  worktreeId : String
  environmentId : String
  verificationOwner : String
  baseRevision : String
  timeoutSeconds : Nat

def TeamTask.assignment (task : TeamTask) : Assignment where
  taskId := task.taskId
  projectId := task.projectId
  title := task.title
  instruction := task.instruction
  dependencyTaskIds := task.dependencyTaskIds
  resourceProfile := task.resourceProfile
  workstreamId := task.workstreamId
  worktreeId := task.worktreeId
  environmentId := task.environmentId
  verificationOwner := task.verificationOwner
  baseRevision := task.baseRevision
  timeoutSeconds := task.timeoutSeconds

/-- How far a task has come, and who ended it. -/
structure Progress where
  status : TaskStatus
  attempt : Nat
  completionSource : Option CompletionSource
  completionReason : String
  completedAt : Option Instant
  cancellationSource : Option CancellationSource
  deriving DecidableEq

def TeamTask.progress (task : TeamTask) : Progress where
  status := task.status
  attempt := task.attempt
  completionSource := task.completionSource
  completionReason := task.completionReason
  completedAt := task.completedAt
  cancellationSource := task.cancellationSource

inductive CommandKind where
  | taskStart | taskCancel | taskInput
  deriving DecidableEq

inductive CommandStatus where
  | queued | delivered | acked | superseded
  deriving DecidableEq

structure AgentCommand where
  commandId : String
  projectId : String
  runtimeId : String
  taskId : String
  kind : CommandKind
  status : CommandStatus
  payload : Fields
  createdAt : Instant
  deliveryAttempt : Nat := 0
  deliveredAt : Option Instant := none
  deliveryExpiresAt : Option Instant := none
  ackedAt : Option Instant := none
  supersededAt : Option Instant := none

structure TeamEvent where
  eventId : String
  sequence : Nat
  projectId : String
  type : String
  taskId : String
  runtimeId : String
  payload : Fields
  createdAt : Instant
  attempt : Option Nat := none
  staleAttempt : Bool := false

/-- The event log of a project, never longer than the limit. -/
structure EventLog where
  dropped : List TeamEvent
  retained : List TeamEvent
  bounded : retained.length ≤ teamEventLimit

namespace EventLog

def empty : EventLog := ⟨[], [], Nat.zero_le _⟩

/-- Every event the log received, oldest first. -/
def all (log : EventLog) : List TeamEvent := log.dropped ++ log.retained

/-- Append one event and keep the newest ones. -/
def append (log : EventLog) (event : TeamEvent) : EventLog :=
  let events := log.retained ++ [event]
  let excess := events.length - teamEventLimit
  { dropped := log.dropped ++ events.take excess
    retained := events.drop excess
    bounded := by
      simp only [events, excess, List.length_drop, List.length_append, List.length_singleton]
      omega }

@[simp] theorem all_append (log : EventLog) (event : TeamEvent) :
    (log.append event).all = log.all ++ [event] := by
  simp only [all, append, List.append_assoc, List.take_append_drop]

/-- What the source keeps is the end of what the log received. -/
theorem retained_suffix (log : EventLog) : log.retained <:+ log.all :=
  List.suffix_append _ _

end EventLog

/-- The collections that `snapshotTeamStateLocked` covers, and the process-wide
identifier counter. -/
structure TeamState where
  agentRuntimes : List AgentRuntime
  teamTasks : List TeamTask
  agentCommands : List AgentCommand
  teamEvents : String → EventLog
  teamSequences : String → Nat
  idCounter : Nat

namespace TeamState

/-- The state of a server that has stored nothing. -/
def empty : TeamState where
  agentRuntimes := []
  teamTasks := []
  agentCommands := []
  teamEvents := fun _ => .empty
  teamSequences := fun _ => 0
  idCounter := 0

/-- One tick of `teamIDCounter`. -/
def tick (s : TeamState) : TeamState := { s with idCounter := s.idCounter + 1 }

@[simp] theorem tick_agentRuntimes (s : TeamState) : s.tick.agentRuntimes = s.agentRuntimes := rfl
@[simp] theorem tick_teamTasks (s : TeamState) : s.tick.teamTasks = s.teamTasks := rfl
@[simp] theorem tick_agentCommands (s : TeamState) : s.tick.agentCommands = s.agentCommands := rfl
@[simp] theorem tick_teamEvents (s : TeamState) : s.tick.teamEvents = s.teamEvents := rfl
@[simp] theorem tick_teamSequences (s : TeamState) :
    s.tick.teamSequences = s.teamSequences := rfl
@[simp] theorem tick_idCounter (s : TeamState) : s.tick.idCounter = s.idCounter + 1 := rfl

end TeamState

/-- An identifier made of a word, the time and the counter. -/
def teamNewID (word : String) (now : Instant) (counter : Nat) : String :=
  word ++ "-" ++ toString now ++ "-" ++ toString counter

/-! ## Records by key -/

/-- Runtimes are told apart by project and runtime identifier. -/
def AgentRuntime.key (r : AgentRuntime) : String × String := (r.projectId, r.runtimeId)

def findRuntimeLocked (s : TeamState) (projectID runtimeID : String) : Option AgentRuntime :=
  lookupKey AgentRuntime.key (projectID, runtimeID) s.agentRuntimes

def replaceRuntimeLocked (s : TeamState) (replacement : AgentRuntime) : TeamState :=
  { s with
    agentRuntimes :=
      if s.agentRuntimes.any fun item => item.key = replacement.key then
        replaceKey AgentRuntime.key replacement s.agentRuntimes
      else s.agentRuntimes ++ [replacement] }

def findTeamTaskLocked (s : TeamState) (taskID : String) : Option TeamTask :=
  lookupKey TeamTask.taskId taskID s.teamTasks

def replaceTeamTaskLocked (s : TeamState) (replacement : TeamTask) : TeamState :=
  { s with teamTasks := replaceKey TeamTask.taskId replacement s.teamTasks }

/-! ## The event log -/

/-- The event that an append under the next sequence number and identifier stores. -/
def newTeamEvent (s : TeamState) (now : Instant) (projectID typ taskID runtimeID : String)
    (payload : Fields) : TeamEvent where
  eventId := teamNewID "event" now (s.idCounter + 1)
  sequence := s.teamSequences projectID + 1
  projectId := projectID
  type := typ
  taskId := taskID
  runtimeId := runtimeID
  payload := boundedPayload (some (.obj payload))
  createdAt := now

/-- Store an event made by `newTeamEvent`. -/
def storeTeamEvent (s : TeamState) (projectID : String) (event : TeamEvent) : TeamState :=
  { s.tick with
    teamSequences := fun p =>
      if p = projectID then s.teamSequences projectID + 1 else s.teamSequences p
    teamEvents := fun p =>
      if p = projectID then (s.teamEvents projectID).append event else s.teamEvents p }

/-- The source returns the stored map itself; a caller that writes into it
stores a changed `newTeamEvent` here. -/
def appendTeamEventLocked (s : TeamState) (now : Instant) (projectID typ taskID runtimeID : String)
    (payload : Fields) : TeamState :=
  storeTeamEvent s projectID (newTeamEvent s now projectID typ taskID runtimeID payload)

section Frame
variable (s : TeamState) (now : Instant) (projectID typ taskID runtimeID : String)
variable (payload : Fields) (event : TeamEvent) (task : TeamTask) (runtime : AgentRuntime)

@[simp] theorem storeTeamEvent_agentRuntimes :
    (storeTeamEvent s projectID event).agentRuntimes = s.agentRuntimes := rfl
@[simp] theorem storeTeamEvent_teamTasks :
    (storeTeamEvent s projectID event).teamTasks = s.teamTasks := rfl
@[simp] theorem storeTeamEvent_agentCommands :
    (storeTeamEvent s projectID event).agentCommands = s.agentCommands := rfl
@[simp] theorem storeTeamEvent_idCounter :
    (storeTeamEvent s projectID event).idCounter = s.idCounter + 1 := rfl

@[simp] theorem appendTeamEventLocked_agentRuntimes :
    (appendTeamEventLocked s now projectID typ taskID runtimeID payload).agentRuntimes =
      s.agentRuntimes := rfl
@[simp] theorem appendTeamEventLocked_teamTasks :
    (appendTeamEventLocked s now projectID typ taskID runtimeID payload).teamTasks =
      s.teamTasks := rfl
@[simp] theorem appendTeamEventLocked_agentCommands :
    (appendTeamEventLocked s now projectID typ taskID runtimeID payload).agentCommands =
      s.agentCommands := rfl
@[simp] theorem appendTeamEventLocked_idCounter :
    (appendTeamEventLocked s now projectID typ taskID runtimeID payload).idCounter =
      s.idCounter + 1 := rfl

@[simp] theorem replaceTeamTaskLocked_agentRuntimes :
    (replaceTeamTaskLocked s task).agentRuntimes = s.agentRuntimes := rfl
@[simp] theorem replaceTeamTaskLocked_teamTasks :
    (replaceTeamTaskLocked s task).teamTasks = replaceKey TeamTask.taskId task s.teamTasks := rfl
@[simp] theorem replaceTeamTaskLocked_agentCommands :
    (replaceTeamTaskLocked s task).agentCommands = s.agentCommands := rfl
@[simp] theorem replaceTeamTaskLocked_teamEvents :
    (replaceTeamTaskLocked s task).teamEvents = s.teamEvents := rfl
@[simp] theorem replaceTeamTaskLocked_idCounter :
    (replaceTeamTaskLocked s task).idCounter = s.idCounter := rfl

@[simp] theorem replaceRuntimeLocked_teamTasks :
    (replaceRuntimeLocked s runtime).teamTasks = s.teamTasks := rfl
@[simp] theorem replaceRuntimeLocked_agentCommands :
    (replaceRuntimeLocked s runtime).agentCommands = s.agentCommands := rfl
@[simp] theorem replaceRuntimeLocked_teamEvents :
    (replaceRuntimeLocked s runtime).teamEvents = s.teamEvents := rfl
@[simp] theorem replaceRuntimeLocked_idCounter :
    (replaceRuntimeLocked s runtime).idCounter = s.idCounter := rfl

end Frame

/-- An entry that was found is written back in its place. -/
theorem replaceRuntimeLocked_agentRuntimes {s : TeamState} {found item : AgentRuntime}
    (hfound : lookupKey AgentRuntime.key item.key s.agentRuntimes = some found) :
    (replaceRuntimeLocked s item).agentRuntimes =
      replaceKey AgentRuntime.key item s.agentRuntimes := by
  obtain ⟨hmem, hkey⟩ := lookupKey_some hfound
  have hany : (s.agentRuntimes.any fun old => old.key = item.key) = true :=
    List.any_eq_true.mpr ⟨found, hmem, by simpa using hkey⟩
  simp only [replaceRuntimeLocked, hany, if_true]

/-- `saveTeamStateLocked`: when the write fails with a message, the collections
go back to the snapshot; the identifier counter does not. -/
def saveTeamStateLocked (before s : TeamState) (failure : Option String) :
    TeamState × Option String :=
  match failure with
  | none => (s, none)
  | some message => ({ before with idCounter := s.idCounter }, some message)

/-! ## Answers -/

/-- The data of a `200` answer. -/
inductive Reply where
  | runtime (item : AgentRuntime)
  | unregistered
  | events (accepted acceptedThrough : Nat)
  | runtimes (items : List AgentRuntime)
  | created (task : TeamTask) (dispatchStatus : String)
  | task (task : TeamTask)
  | replayed (task : TeamTask)
  | commands (items : List AgentCommand)
  | acked (count : Nat)
  | artifact (artifactID : String)

inductive Response where
  | ok (reply : Reply)
  | error (status : Nat) (code message : String)

/-- Save, and answer with the reply or with the error of the failed write. -/
def commitTeamState (before s : TeamState) (failure : Option String) (code : String)
    (reply : Reply) : TeamState × Response :=
  match saveTeamStateLocked before s failure with
  | (s, some message) => (s, .error 500 code message)
  | (s, none) => (s, .ok reply)

/-- Whether a request was answered with `200`. -/
def Response.isOk : Response → Bool
  | .ok _ => true
  | .error .. => false

def Response.isError : Response → Bool
  | .ok _ => false
  | .error .. => true

end WorkMesh.AgentTeam
