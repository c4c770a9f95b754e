import WorkMesh.Link.SyncStores
import WorkMesh.Role.Manager
import WorkMesh.StateMachine.Handlers

/-!
# Switching the role in two phases

The server of the link and the role controller of the control API prepare a
switch of the role under an operation and commit or abort it later. Both hold
what is prepared under a lock of their own and share the role manager. Their
handlers are the sections of this module, which is `server_fencing.go` and
`prepare`, `commit` and `abort` of the controller.

## Implementation notes

What is prepared carries a number that the code does not have, so that two
preparations under one operation are told apart. The log is not part of the code
either: it holds what the server of the link acknowledged and applied, the
latest first.
-/

namespace WorkMesh.Role

open StateMachine
open WorkMesh.Link (errSyncConflict)

/-- `Transition{}`. -/
def Transition.zero : Transition := ⟨"", "", "", "", 0⟩

structure Prepared where
  transition : Transition
  ticket : Nat
deriving DecidableEq

def Prepared.zero : Prepared := ⟨.zero, 0⟩

def Prepared.operationID (p : Prepared) : String := p.transition.operationID

inductive Event where
  | prepared (p : Prepared)
  | aborted (request : Transition) (dropped : Prepared)
  | applied (p : Prepared) (before after : State)
  | committed (request : Transition) (p : Prepared) (answer : State)
deriving DecidableEq

/-- The manager, what the server and the controller have prepared, and the log. -/
structure Shared where
  manager : Manager
  disk : Disk
  pending : Prepared
  state : Prepared
  tickets : Nat
  log : List Event

/-- A handler between two sections, with what it has read. -/
inductive Handler where
  | fencingPrepare (request : Transition)
  | fencingCommit (request : Transition) (pending : Prepared)
  | fencingClear (request : Transition) (pending : Prepared) (answer : State)
  | prepare (request : Transition)
  | commit (request : Prepared)
  | clear (request : Prepared)
deriving DecidableEq

inductive Call where
  | fencingPrepare (request : Transition)
  | fencingCommit (request : Transition)
  | fencingAbort (request : Transition)
  | prepare (request : Transition)
  | commit
  | abort

/-- How the context and the medium treat a switch. -/
structure Conditions where
  cancelled : Bool
  failure : Option String

def validateTransition (state : State) (request : Transition) (requireOperation : Bool) :
    Except String Unit :=
  if requireOperation ∧ request.operationID = "" then .error "操作 ID 不能为空"
  else if request.nodeID ≠ "" ∧ request.nodeID ≠ state.nodeID then .error "节点身份冲突"
  else if request.fromRole ≠ "" ∧ request.fromRole ≠ state.role then .error "源角色冲突"
  else if request.expectedEpoch ≠ state.roleEpoch then .error errSyncConflict
  else if request.toRole ≠ primary ∧ request.toRole ≠ secondary then .error "目标角色无效"
  else .ok ()

/-- What a section comes to: an error ends the handler and changes nothing. -/
def orEnd (s : Shared) (result : Except String (Shared × Option Handler)) :
    Shared × Option Handler :=
  match result with
  | .ok next => next
  | .error _ => (s, none)

/-! ## The server of the link -/

/-- The request is checked against the state of the manager, before the lock is taken. -/
def fencingPrepare (s : Shared) (request : Transition) :
    Except String (Shared × Option Handler) :=
  (validateTransition s.manager.state request true).map fun _ =>
    (s, some (.fencingPrepare request))

def fencingPrepareLocked (s : Shared) (request : Transition) :
    Except String (Shared × Option Handler) :=
  if s.pending.operationID ≠ "" ∧ s.pending.operationID ≠ request.operationID then
    .error "已有角色切换操作正在准备"
  else
    let pending : Prepared := ⟨request, s.tickets + 1⟩
    .ok ({ s with pending, tickets := s.tickets + 1, log := .prepared pending :: s.log }, none)

def fencingCommit (s : Shared) (request : Transition) : Except String (Shared × Option Handler) :=
  let pending := s.pending
  if request.operationID ≠ "" ∧ request.operationID ≠ pending.operationID then
    .error "角色切换操作不匹配"
  else if pending.operationID = "" then .error "没有待提交的角色切换"
  else .ok (s, some (.fencingCommit request pending))

/-- The manager switches the role on its own lock. -/
def fencingCommitSwitch (s : Shared) (request : Transition) (pending : Prepared)
    (conditions : Conditions) : Except String (Shared × Option Handler) :=
  let switched := s.manager.switch s.disk conditions.cancelled conditions.failure
    pending.transition.expectedEpoch pending.transition.toRole
  switched.answer.map fun state =>
    ({ s with
        manager := switched.manager, disk := switched.disk
        log := .applied pending s.manager.state state :: s.log },
      some (.fencingClear request pending state))

def fencingCommitClear (s : Shared) (request : Transition) (pending : Prepared) (answer : State) :
    Shared × Option Handler :=
  ({ s with pending := .zero, log := .committed request pending answer :: s.log }, none)

/-- An abort names the operation or, without a name, drops whatever is pending. -/
def fencingAbort (s : Shared) (request : Transition) : Except String (Shared × Option Handler) :=
  if request.operationID ≠ "" ∧ s.pending.operationID ≠ "" ∧
      request.operationID ≠ s.pending.operationID then .error "角色切换操作不匹配"
  else .ok ({ s with pending := .zero, log := .aborted request s.pending :: s.log }, none)

/-! ## The role controller -/

/-- The request is checked against the epoch of the manager alone. -/
def prepare (s : Shared) (request : Transition) : Except String (Shared × Option Handler) :=
  if request.operationID = "" then .error "操作 ID 不能为空"
  else if request.expectedEpoch ≠ s.manager.state.roleEpoch then .error "角色版本冲突"
  else .ok (s, some (.prepare request))

def prepareLocked (s : Shared) (request : Transition) : Shared × Option Handler :=
  ({ s with state := ⟨request, s.tickets + 1⟩, tickets := s.tickets + 1 }, none)

def commit (s : Shared) : Except String (Shared × Option Handler) :=
  if s.state.operationID = "" then .error "没有待提交的角色切换"
  else .ok (s, some (.commit s.state))

def commitSwitch (s : Shared) (request : Prepared) (conditions : Conditions) :
    Except String (Shared × Option Handler) :=
  let switched := s.manager.switch s.disk conditions.cancelled conditions.failure
    request.transition.expectedEpoch request.transition.toRole
  switched.answer.map fun _ =>
    ({ s with manager := switched.manager, disk := switched.disk }, some (.clear request))

def commitClear (s : Shared) : Shared × Option Handler := ({ s with state := .zero }, none)

def abort (s : Shared) : Shared × Option Handler := ({ s with state := .zero }, none)

/-! ## The sections together -/

def arrive (s : Shared) : Call → Shared × Option Handler
  | .fencingPrepare request => orEnd s (fencingPrepare s request)
  | .fencingCommit request => orEnd s (fencingCommit s request)
  | .fencingAbort request => orEnd s (fencingAbort s request)
  | .prepare request => orEnd s (prepare s request)
  | .commit => orEnd s (commit s)
  | .abort => abort s

def resume (s : Shared) (handler : Handler) (conditions : Conditions) : Shared × Option Handler :=
  match handler with
  | .fencingPrepare request => orEnd s (fencingPrepareLocked s request)
  | .fencingCommit request pending => orEnd s (fencingCommitSwitch s request pending conditions)
  | .fencingClear request pending answer => fencingCommitClear s request pending answer
  | .prepare request => prepareLocked s request
  | .commit request => orEnd s (commitSwitch s request conditions)
  | .clear _ => commitClear s

def sections : Sections Shared Handler Call Conditions := ⟨arrive, resume⟩

abbrev System := Concurrent Shared Handler

def System.step (s : System) (turn : Turn Call Conditions) : System := sections.step s turn

/-- Nothing is prepared. -/
def System.start (manager : Manager) (disk : Disk) : System :=
  ⟨⟨manager, disk, .zero, .zero, 0, []⟩, []⟩

/-! ## An example -/

def primaryManager : Manager := ⟨⟨"node-a", primary, 1⟩, .memory⟩
def emptyDisk : Disk := ⟨.missing, []⟩

/-- The switch to secondary as the operation `op-1`. -/
def toSecondary : Transition := ⟨"op-1", "node-a", primary, secondary, 1⟩

def undisturbed : Conditions := ⟨false, none⟩

end WorkMesh.Role
