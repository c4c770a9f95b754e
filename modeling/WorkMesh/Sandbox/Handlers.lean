import WorkMesh.Sandbox.Records
import WorkMesh.Sandbox.System

/-!
# The handlers of task operations

A handler calls the provider and then writes the record of the task. The two
stores fail independently of each other. Every handler here runs from its start
to its end; what the backend answers and which writes fail is given.
-/

namespace WorkMesh.Sandbox

open Encoding StateMachine

namespace TaskProvider

variable (p : TaskProvider)

def create (host : Host) (capabilities : Except String SandboxCapabilities) (spec : TaskSpec)
    (a : Answer) : TaskProvider × Except TaskError TaskHandle :=
  match p.createBegin host capabilities spec with
  | .error e => (p, .error e)
  | .ok spec => p.createEnd spec a.created

def transition (id : Bytes) (start stop : TaskState) (a : Answer) :
    TaskProvider × Except TaskError Unit :=
  match p.transitionBegin id start stop with
  | .error e => (p, .error e)
  | .ok _ => p.transitionEnd id stop a.error

def start (id : Bytes) (a : Answer) : TaskProvider × Except TaskError Unit :=
  p.transition id .created .running a

def cancel (id : Bytes) (a : Answer) : TaskProvider × Except TaskError Unit :=
  p.transition id .running .cancelled a

def collect (id : Bytes) (a : Answer) : TaskProvider × Except TaskError Unit :=
  match p.copy id with
  | .error e => (p, .error e)
  | .ok h => p.collectEnd id h a.error

def destroy (id : Bytes) (a : Answer) : TaskProvider × Except TaskError Unit :=
  match p.destroyBegin id with
  | .error e => (p, .error e)
  | .ok h => p.destroyEnd id h a.error a.cleanup

def recoverInspect (id : Bytes) (a : Answer) : TaskProvider × Except TaskError TaskState :=
  match p.recoverBegin id with
  | .error e => (p, .error e)
  | .ok h => p.recoverEnd id h a.inspected

end TaskProvider

def TaskError.text : TaskError → String
  | .message text => text
  | .capability text => text
  | .workspaceCleanup text => text

/-- What the environment does in the course of a request: the answer to the call of the
provider, the failure of the first write, the answer to the call that takes the first one
back, and the failure of the second write. -/
structure Outcome where
  answer : Answer := {}
  save : Option String := none
  undo : Answer := {}
  resave : Option String := none

/-- The provider and the records of a node. -/
structure TaskNode where
  provider : TaskProvider
  state : ExecutionState

/-- The code of the error that a handler answers with. -/
abbrev Reply := Option String

namespace TaskNode

variable (n : TaskNode)

/-- `createSandboxTask`, once the request has been read. -/
def createSandboxTask (host : Host) (capabilities : Except String SandboxCapabilities)
    (spec : TaskSpec) (o : Outcome) : TaskNode × Reply :=
  match n.provider.create host capabilities spec o.answer with
  | (provider, .error (.capability _)) => ({ n with provider }, some "TASK_PROVIDER_UNAVAILABLE")
  | (provider, .error _) => ({ n with provider }, some "TASK_CREATE_FAILED")
  | (provider, .ok h) =>
      match n.state.persistTaskHandle h o.save with
      | (state, some _) =>
          (⟨(provider.destroy h.taskID o.undo).1, state⟩, some "TASK_STATE_SAVE_FAILED")
      | (state, none) => (⟨provider, state⟩, none)

/-- The branch `start`. `granted` says whether a slot was there for the task. -/
def start (id : Bytes) (granted : Bool) (o : Outcome) : TaskNode × Reply :=
  if !granted then (n, some "AI_JOB_LIMIT_REACHED")
  else
  match n.provider.start id o.answer with
  | (provider, .error _) => ({ n with provider }, some "TASK_START_FAILED")
  | (provider, .ok _) =>
  match n.state.updatePersistedTask id .running o.save with
  | (state, none) => (⟨provider, state⟩, none)
  | (state, some _) =>
      match provider.cancel id o.undo with
      | (provider, .ok _) =>
          (⟨provider, state.updateTaskStateAfterSaveFailure id .cancelled o.resave⟩,
            some "TASK_STATE_SAVE_FAILED")
      | (provider, .error e) =>
          (⟨provider, state.markTaskStateUnsynced id .running e.text⟩,
            some "TASK_STATE_SAVE_FAILED")

/-- Write the status, and mark the record when the write fails. -/
def settle (id : Bytes) (status : TaskState) (o : Outcome) : TaskNode × Reply :=
  match n.state.updatePersistedTask id status o.save with
  | (state, none) => ({ n with state }, none)
  | (state, some e) =>
      ({ n with state := state.markTaskStateUnsynced id status e },
        some "TASK_STATE_SAVE_FAILED")

/-- The branch `collect`. -/
def collect (id : Bytes) (o : Outcome) : TaskNode × Reply :=
  match n.provider.collect id o.answer with
  | (provider, .error _) => ({ n with provider }, some "TASK_COLLECT_FAILED")
  | (provider, .ok _) =>
  match provider.stateOf id with
  | none => ({ n with provider }, some "TASK_STATE_READ_FAILED")
  | some status => settle { n with provider } id status o

/-- The branch `cancel`. -/
def cancel (id : Bytes) (o : Outcome) : TaskNode × Reply :=
  match n.provider.cancel id o.answer with
  | (provider, .error _) => ({ n with provider }, some "TASK_CANCEL_FAILED")
  | (provider, .ok _) => settle { n with provider } id .cancelled o

/-- The branch `destroy`. -/
def destroy (id : Bytes) (o : Outcome) : TaskNode × Reply :=
  match n.provider.destroy id o.answer with
  | (provider, .error (.workspaceCleanup _)) =>
      (⟨provider, (n.state.updatePersistedTask id .awaitingHuman o.save).1⟩,
        some "TASK_CLEANUP_REQUIRED")
  | (provider, .error _) => ({ n with provider }, some "TASK_DESTROY_FAILED")
  | (provider, .ok _) => settle { n with provider } id .destroyed o

/-- The branch `sync`. -/
def sync (id : Bytes) (o : Outcome) : TaskNode × Reply :=
  if ((n.state.lookup id).map (·.stateSyncRequired)).getD false = false then
    (n, some "TASK_STATE_SYNC_NOT_REQUIRED")
  else
  match n.provider.stateOf id with
  | none => (n, some "TASK_STATE_SYNC_FAILED")
  | some status =>
  match n.state.updatePersistedTask id status o.save with
  | (state, some _) => ({ n with state }, some "TASK_STATE_SYNC_FAILED")
  | (state, none) => ({ n with state }, none)

/-- The branch `recover`. -/
def recover (id : Bytes) (o : Outcome) : TaskNode × Reply :=
  match n.provider.recoverInspect id o.answer with
  | (provider, .error _) => ({ n with provider }, some "TASK_RECOVERY_FAILED")
  | (provider, .ok status) =>
  match n.state.updatePersistedTask id status o.save with
  | (state, some _) => (⟨provider, state⟩, some "TASK_RECOVERY_SAVE_FAILED")
  | (state, none) => (⟨provider, state⟩, none)

end TaskNode

inductive TaskOperation where
  | recover
  | sync
  | start (granted : Bool)
  | collect
  | cancel
  | destroy

/-- `operateSandboxTask`, once the request has been read. -/
def TaskNode.operateSandboxTask (n : TaskNode) (op : TaskOperation) (id : Bytes) (o : Outcome) :
    TaskNode × Reply :=
  if id = [] then (n, some "TASK_ID_REQUIRED")
  else
  match op with
  | .recover => n.recover id o
  | .sync => n.sync id o
  | .start granted => n.start id granted o
  | .collect => n.collect id o
  | .cancel => n.cancel id o
  | .destroy => n.destroy id o

/-! ## A new process -/

/-- The handle that is made of a record. -/
def TaskItem.handle (item : TaskItem) : TaskHandle where
  taskID := item.taskID
  sandboxID := trimSpace item.sandboxID
  imageDigest := trimSpace item.imageDigest
  sandboxType := trimSpace item.sandboxType
  backend := trimSpace item.backend
  workspaceRef := trimSpace item.workspaceRef
  state := item.status

/-- The handles that `RestoreAndInspect` answers with. -/
def TaskProvider.inspected (p : TaskProvider) (saved : List SavedHandle) : List TaskHandle :=
  (saved.filter (·.usable)).map fun s => p.restored s.handle s.answer

/-- The records of the tasks that were inspected, with the writes that fail. -/
def ExecutionState.updateAll (s : ExecutionState) (save : Bytes → Option String) :
    List TaskHandle → ExecutionState
  | [] => s
  | h :: rest =>
      ExecutionState.updateAll (s.updatePersistedTask h.taskID h.state (save h.taskID)).1 save rest

/-- What the backend says of each task of a new process, and which writes fail. -/
structure Resumption where
  answer : Bytes → Except String TaskInspection
  save : Bytes → Option String

/-- The handles of a new process with the answers of `Inspect`. -/
def ExecutionState.handles (s : ExecutionState) (answer : Bytes → Except String TaskInspection) :
    List SavedHandle :=
  s.records.items.map fun item => ⟨item.handle, answer item.taskID⟩

/-- A new process reads the records, and its first request for the provider has every task
inspected and its record written. -/
def TaskNode.restart (n : TaskNode) (r : Resumption) : TaskNode :=
  let state := n.state.reload
  let handles := state.handles r.answer
  { provider := n.provider.fresh.restoreAndInspect handles
    state := state.updateAll r.save (n.provider.fresh.inspected handles) }

inductive NodeEvent where
  | create (host : Host) (capabilities : Except String SandboxCapabilities) (spec : TaskSpec)
      (outcome : Outcome)
  | operate (op : TaskOperation) (id : Bytes) (outcome : Outcome)
  | restart (resumption : Resumption)

def TaskNode.step (n : TaskNode) : NodeEvent → TaskNode
  | .create host capabilities spec o => (n.createSandboxTask host capabilities spec o).1
  | .operate op id o => (n.operateSandboxTask op id o).1
  | .restart r => n.restart r

/-- A node without tasks. -/
def TaskNode.begin (requireCapabilities inspects : Bool) : TaskNode where
  provider := { requireCapabilities, inspects }
  state := .empty

end WorkMesh.Sandbox
