import WorkMesh.Sandbox.Policy
import WorkMesh.StateMachine.Table

/-!
# The task provider

The provider keeps a handle for every task. Creating a sandbox holds the lock
while the backend works. Every other operation has a first section that reads
the handle, a call of the backend without the lock, and a last section that
writes the new state. Handles are replaced only when a process starts, before
any operation, so a pointer to a handle always leads to that of its task.
-/

namespace WorkMesh.Sandbox

open Encoding StateMachine

inductive TaskState where
  | created
  | running
  | cancelled
  | completed
  | failed
  | awaitingHuman
  | destroyed
  | unknown
deriving DecidableEq

def TaskState.text : TaskState → String
  | .created => "created"
  | .running => "running"
  | .cancelled => "cancelled"
  | .completed => "completed"
  | .failed => "failed"
  | .awaitingHuman => "awaiting_human"
  | .destroyed => "destroyed"
  | .unknown => "unknown"

structure TaskHandle where
  taskID : Bytes
  sandboxID : Bytes
  imageDigest : Bytes := []
  sandboxType : Bytes := []
  backend : Bytes := []
  workspaceRef : Bytes := []
  state : TaskState
deriving DecidableEq

/-- What the backend tells of a sandbox. A state that is no text of a `TaskState` is `none`. -/
structure TaskInspection where
  found : Bool
  state : Option TaskState := none
deriving DecidableEq

/-- The provider. Whether the backend can be inspected and has to prove its abilities is
settled when it is made. -/
structure TaskProvider where
  tasks : Table Bytes TaskHandle := ∅
  requireCapabilities : Bool := false
  inspects : Bool := true

inductive TaskError where
  | message (text : String)
  | capability (text : String)
  | workspaceCleanup (text : String)
deriving DecidableEq

def validInspectedState : Option TaskState → Bool
  | none => false
  | some state => state ≠ .unknown

/-- The state that an inspection leads to. -/
def TaskInspection.recovered (inspection : TaskInspection) : TaskState :=
  match inspection.state with
  | some state =>
      if inspection.found && validInspectedState (some state) then state else .awaitingHuman
  | none => .awaitingHuman

namespace TaskProvider

variable (p : TaskProvider)

def setState (id : Bytes) (state : TaskState) : TaskProvider :=
  match p.tasks.lookup id with
  | some h => { p with tasks := p.tasks.insert id { h with state } }
  | none => p

/-- The part of `Create` before the lock: the specification with its limits normalised. -/
def createBegin (host : Host) (capabilities : Except String SandboxCapabilities)
    (spec : TaskSpec) : Except TaskError TaskSpec :=
  match validateSpec host spec with
  | some e => .error (.message e)
  | none =>
  match normalizeResourceLimits spec.resourceProfile spec.resourceLimits with
  | .error e => .error (.message e)
  | .ok (profile, limits) =>
  let spec := { spec with resourceProfile := profile, resourceLimits := limits }
  if !p.requireCapabilities then .ok spec
  else
  match capabilities with
  | .error e => .error (.capability s!"Sandbox 能力探测失败: {e}")
  | .ok caps =>
  match validateSandboxCapabilities caps spec with
  | some e => .error (.capability s!"Sandbox 能力不足: {e}")
  | none => .ok spec

/-- The part under the lock, with the answer of `backend.Create`, which is called with the
specification unless the task is there already. -/
def createEnd (spec : TaskSpec) (answer : Except String Bytes) :
    TaskProvider × Except TaskError TaskHandle :=
  if spec.taskID ∈ p.tasks then (p, .error (.message s!"taskId 已存在: {shown spec.taskID}"))
  else
  match answer with
  | .error e => (p, .error (.message s!"创建任务沙盒失败: {e}"))
  | .ok sandboxID =>
  let policy := spec.runtimePolicy.normalized
  let h : TaskHandle :=
    { taskID := spec.taskID, sandboxID, imageDigest := spec.imageDigest
      sandboxType := policy.sandboxType, backend := policy.backend
      workspaceRef := policy.workspaceRef, state := .created }
  ({ p with tasks := p.tasks.insert spec.taskID h }, .ok h)

def transitionBegin (id : Bytes) (start stop : TaskState) : Except TaskError TaskHandle :=
  match p.tasks.lookup id with
  | none => .error (.message "任务不存在")
  | some h =>
  if h.state ≠ start then
    .error (.message s!"任务状态 {h.state.text} 不允许转换到 {stop.text}")
  else .ok h

def transitionEnd (id : Bytes) (stop : TaskState) (answer : Option String) :
    TaskProvider × Except TaskError Unit :=
  match answer with
  | some e => (p, .error (.message e))
  | none => (p.setState id stop, .ok ())

/-! ## Collecting and destroying -/

/-- The handle as `Collect` and `Destroy` copy it. -/
def copy (id : Bytes) : Except TaskError TaskHandle :=
  match p.tasks.lookup id with
  | none => .error (.message "任务不存在")
  | some h => .ok h

def collectEnd (id : Bytes) (h : TaskHandle) (answer : Option String) :
    TaskProvider × Except TaskError Unit :=
  match answer with
  | some e => (p, .error (.message e))
  | none =>
  if h.state = .running ∧ (p.tasks.lookup id).map (·.state) = some .running then
    (p.setState id .completed, .ok ())
  else (p, .ok ())

def destroyBegin (id : Bytes) : Except TaskError TaskHandle :=
  match p.copy id with
  | .error e => .error e
  | .ok h =>
  if h.state = .running then .error (.message "运行中的任务必须先取消或收集结果后才能销毁")
  else if h.state = .destroyed then .error (.message "任务已销毁")
  else if h.state = .unknown then .error (.message "任务后端状态未知，必须先通过 inspect 核验")
  else .ok h

/-- The rest of `Destroy`. The backend is not called again for a task that waits for a human,
and `cleanup` is the error of removing the temporary files of a project. -/
def destroyEnd (id : Bytes) (h : TaskHandle) (answer cleanup : Option String) :
    TaskProvider × Except TaskError Unit :=
  match if h.state ≠ .awaitingHuman then answer else none with
  | some e => (p, .error (.message s!"销毁任务沙盒失败: {e}"))
  | none =>
  match if h.workspaceRef ≠ [] then cleanup else none with
  | some e => (p.setState id .awaitingHuman, .error (.workspaceCleanup e))
  | none => (p.setState id .destroyed, .ok ())

/-! ## Recovery -/

def recoverBegin (id : Bytes) : Except TaskError TaskHandle :=
  if !p.inspects then .error (.message "任务后端不支持只读 inspect")
  else
  match p.copy id with
  | .error e => .error e
  | .ok h => if h.state = .destroyed then .error (.message "已销毁任务不需要恢复核验") else .ok h

def recoverEnd (id : Bytes) (h : TaskHandle) (answer : Except String TaskInspection) :
    TaskProvider × Except TaskError TaskState :=
  match answer with
  | .error e => (p, .error (.message e))
  | .ok inspection =>
  let state := inspection.recovered
  if (p.tasks.lookup id).map (·.sandboxID) = some h.sandboxID then
    (p.setState id state, .ok state)
  else (p, .ok state)

/-- The handle of a saved one at the start of a process. Every task that was not destroyed is
inspected. -/
def restored (h : TaskHandle) (answer : Except String TaskInspection) : TaskHandle :=
  if h.state = .destroyed then h
  else if p.inspects then
    match answer with
    | .error _ => { h with state := .unknown }
    | .ok inspection => { h with state := inspection.recovered }
  else { h with state := .unknown }

end TaskProvider

/-- A saved handle with the answer of `Inspect` for it. -/
structure SavedHandle where
  handle : TaskHandle
  answer : Except String TaskInspection

def SavedHandle.usable (saved : SavedHandle) : Bool :=
  isTaskID saved.handle.taskID ∧ trimSpace saved.handle.sandboxID ≠ []

namespace TaskProvider

/-- `RestoreAndInspect`. Of two handles of a task the later one counts. -/
def restoreAndInspect (p : TaskProvider) : List SavedHandle → TaskProvider
  | [] => p
  | saved :: rest =>
      let tasks := if saved.usable then
          p.tasks.insert saved.handle.taskID (p.restored saved.handle saved.answer)
        else p.tasks
      restoreAndInspect { p with tasks } rest

/-- A handle after the start of a process was there before or is made of a saved one. -/
theorem restore_lookup {p : TaskProvider} {saved : List SavedHandle} {id : Bytes}
    {h : TaskHandle} (hlookup : (p.restoreAndInspect saved).tasks.lookup id = some h) :
    p.tasks.lookup id = some h ∨ ∃ s ∈ saved, s.usable = true ∧ s.handle.taskID = id ∧
      h = p.restored s.handle s.answer := by
  induction saved generalizing p with
  | nil => exact .inl hlookup
  | cons s rest ih =>
      rw [restoreAndInspect] at hlookup
      rcases ih hlookup with hp | ⟨s', hs', husable, hid, hh⟩
      · simp only at hp
        split at hp
        · rename_i husable
          rw [Table.lookup_insert] at hp
          split at hp
          · rename_i heq
            exact .inr ⟨s, List.mem_cons_self, husable, heq.symm, (Option.some.inj hp).symm⟩
          · exact .inl hp
        · exact .inl hp
      · exact .inr ⟨s', List.mem_cons_of_mem _ hs', husable, hid, hh⟩

/-- Tasks without a saved handle stay as they are. -/
theorem restore_lookup_of_notMem {p : TaskProvider} {saved : List SavedHandle} {id : Bytes}
    (hid : ∀ s ∈ saved, s.handle.taskID ≠ id) :
    (p.restoreAndInspect saved).tasks.lookup id = p.tasks.lookup id := by
  induction saved generalizing p with
  | nil => rfl
  | cons s rest ih =>
      rw [restoreAndInspect, ih fun s' hs' => hid s' (List.mem_cons_of_mem _ hs')]
      simp only
      split
      · rw [Table.lookup_insert, if_neg (hid s List.mem_cons_self).symm]
      · rfl

/-- Without repeated tasks every usable handle is restored. -/
theorem restore_lookup_of_mem {p : TaskProvider} {saved : List SavedHandle}
    (hnodup : (saved.map (·.handle.taskID)).Nodup) {s : SavedHandle} (hs : s ∈ saved)
    (husable : s.usable = true) :
    (p.restoreAndInspect saved).tasks.lookup s.handle.taskID =
      some (p.restored s.handle s.answer) := by
  induction saved generalizing p with
  | nil => cases hs
  | cons first rest ih =>
      rw [List.map_cons, List.nodup_cons] at hnodup
      rw [restoreAndInspect]
      rcases List.mem_cons.mp hs with rfl | hrest
      · have hnone : ∀ s' ∈ rest, s'.handle.taskID ≠ s.handle.taskID := by
          intro s' hs' heq
          exact hnodup.1 (List.mem_map.mpr ⟨s', hs', heq⟩)
        rw [restore_lookup_of_notMem hnone]
        simp only [if_pos husable, Table.lookup_insert, if_true]
      · exact ih hnodup.2 hrest

end TaskProvider

end WorkMesh.Sandbox
