import WorkMesh.Sandbox.Provider
import WorkMesh.StateMachine.Handlers

/-!
# The provider under concurrent requests

Requests arrive in any order, the backend answers each call in any way and at
any time, and the process can be started again from the saved handles. The
state has the provider and what a bystander notes down: the calls of
`backend.Create`, how often the state of a task changed, how often its `Start`
succeeded, and which sandboxes are known to be gone.
-/

namespace WorkMesh.Sandbox

open Encoding StateMachine

inductive Operation where
  | start
  | cancel
  | collect
  | destroy
  | recover
deriving DecidableEq

/-- What the call of the backend, and for `Destroy` the removal of files, came to. -/
structure Answer where
  error : Option String := none
  sandboxID : Bytes := []
  cleanup : Option String := none
  inspection : TaskInspection := ⟨false, none⟩

def Answer.inspected (a : Answer) : Except String TaskInspection :=
  match a.error with
  | some e => .error e
  | none => .ok a.inspection

def Answer.created (a : Answer) : Except String Bytes :=
  match a.error with
  | some e => .error e
  | none => .ok a.sandboxID

/-- The first section. -/
def Operation.begin (op : Operation) (p : TaskProvider) (id : Bytes) :
    Except TaskError TaskHandle :=
  match op with
  | .start => p.transitionBegin id .created .running
  | .cancel => p.transitionBegin id .running .cancelled
  | .collect => p.copy id
  | .destroy => p.destroyBegin id
  | .recover => p.recoverBegin id

/-- The last section. -/
def Operation.finish (op : Operation) (p : TaskProvider) (id : Bytes) (h : TaskHandle)
    (a : Answer) : TaskProvider :=
  match op with
  | .start => (p.transitionEnd id .running a.error).1
  | .cancel => (p.transitionEnd id .cancelled a.error).1
  | .collect => (p.collectEnd id h a.error).1
  | .destroy => (p.destroyEnd id h a.error a.cleanup).1
  | .recover => (p.recoverEnd id h a.inspected).1

/-- A call of `backend.Create`. -/
structure Creation where
  spec : TaskSpec
  succeeded : Bool

structure World where
  provider : TaskProvider
  /-- The calls of `backend.Create` in this process, the latest first. -/
  creations : List Creation := []
  /-- How often the state of a task has changed. -/
  changes : Bytes → ℕ := fun _ => 0
  /-- How often the backend has started the sandbox of a task. -/
  starts : Bytes → ℕ := fun _ => 0
  /-- The backend has destroyed the sandbox of a task, or has not found it. -/
  gone : Bytes → Bool := fun _ => false
  /-- The provider has had the task as destroyed. -/
  reported : Bytes → Bool := fun _ => false

/-- An operation between its sections, with the count of changes when it began. -/
inductive Waiting where
  | creation (spec : TaskSpec)
  | operation (op : Operation) (id : Bytes) (handle : TaskHandle) (seen : ℕ)

inductive Request where
  | create (host : Host) (capabilities : Except String SandboxCapabilities) (spec : TaskSpec)
  | operate (op : Operation) (id : Bytes)

def TaskProvider.stateOf (p : TaskProvider) (id : Bytes) : Option TaskState :=
  (p.tasks.lookup id).map (·.state)

/-- The answer shows that the sandbox is gone. -/
def Operation.shows (op : Operation) (h : TaskHandle) (a : Answer) : Bool :=
  match op with
  | .destroy => h.state ≠ .awaitingHuman ∧ a.error = none
  | .recover => a.error = none ∧ !a.inspection.found
  | _ => false

def World.createEnd (w : World) (spec : TaskSpec) (a : Answer) : World :=
  if spec.taskID ∈ w.provider.tasks then w
  else
    let w := { w with
      provider := (w.provider.createEnd spec a.created).1
      creations := ⟨spec, a.error = none⟩ :: w.creations }
    if a.error = none then
      { w with
        starts := Function.update w.starts spec.taskID 0
        gone := Function.update w.gone spec.taskID false
        reported := Function.update w.reported spec.taskID false }
    else w

def World.finish (w : World) (op : Operation) (id : Bytes) (h : TaskHandle) (a : Answer) :
    World :=
  let provider := op.finish w.provider id h a
  { w with
    provider
    changes := if provider.stateOf id = w.provider.stateOf id then w.changes
      else Function.update w.changes id (w.changes id + 1)
    starts := if op = .start ∧ a.error = none then
        Function.update w.starts id (w.starts id + 1)
      else w.starts
    gone := Function.update w.gone id (w.gone id || op.shows h a)
    reported := Function.update w.reported id
      (w.reported id || provider.stateOf id = some .destroyed) }

def sections : Sections World Waiting Request Answer where
  arrive w request :=
    match request with
    | .create host capabilities spec =>
        match w.provider.createBegin host capabilities spec with
        | .error _ => (w, none)
        | .ok spec => (w, some (.creation spec))
    | .operate op id =>
        match op.begin w.provider id with
        | .error _ => (w, none)
        | .ok h => (w, some (.operation op id h (w.changes id)))
  resume w waiting a :=
    match waiting with
    | .creation spec => (w.createEnd spec a, none)
    | .operation op id h _ => (w.finish op id h a, none)

/-- The backend does not find the sandbox of a saved handle. -/
def SavedHandle.showsGone (p : TaskProvider) (saved : SavedHandle) : Bool :=
  saved.usable && saved.handle.state ≠ .destroyed && p.inspects &&
    match saved.answer with
    | .ok inspection => !inspection.found
    | .error _ => false

/-- The provider of a process that has just started. -/
def TaskProvider.fresh (p : TaskProvider) : TaskProvider := { p with tasks := ∅ }

def World.restart (w : World) (saved : List SavedHandle) : World :=
  let provider := w.provider.fresh.restoreAndInspect saved
  { w with
    provider
    creations := []
    gone := fun id => w.gone id ||
      saved.any fun s => s.handle.taskID = id ∧ s.showsGone w.provider }

/-- A request arrives, the backend answers one, or the process is started again. -/
inductive Event where
  | turn (turn : Turn Request Answer)
  | restart (saved : List SavedHandle)

abbrev System := Concurrent World Waiting

def System.step (c : System) : Event → System
  | .turn turn => sections.step c turn
  | .restart saved => ⟨c.shared.restart saved, []⟩

/-- A process without tasks. -/
def System.start (requireCapabilities inspects : Bool) : System :=
  ⟨{ provider := { requireCapabilities, inspects } }, []⟩

/-! ## What the sections read and write -/

namespace TaskProvider

variable {p : TaskProvider} {id : Bytes} {h : TaskHandle}

theorem stateOf_eq (hp : p.tasks.lookup id = some h) : p.stateOf id = some h.state := by
  rw [stateOf, hp, Option.map_some]

theorem mem_of_stateOf {state : TaskState} (hs : p.stateOf id = some state) : id ∈ p.tasks := by
  obtain ⟨h, hh, -⟩ := Option.map_eq_some_iff.mp hs
  exact AList.lookup_isSome.mp (by rw [hh]; rfl)

theorem stateOf_setState (p : TaskProvider) (id other : Bytes) (state : TaskState) :
    (p.setState id state).stateOf other =
      if other = id then (p.stateOf id).map (fun _ => state) else p.stateOf other := by
  rw [setState]
  cases hid : p.tasks.lookup id with
  | none =>
      simp only [stateOf, hid, Option.map_none]
      split
      · rename_i heq
        rw [heq, hid, Option.map_none]
      · rfl
  | some h =>
      simp only [stateOf, Table.lookup_insert, hid]
      split
      · rfl
      · rfl

theorem setState_tasks (p : TaskProvider) (id : Bytes) (state : TaskState) (other : Bytes) :
    other ∈ (p.setState id state).tasks ↔ other ∈ p.tasks := by
  rw [setState]
  split
  · rename_i h hid
    rw [AList.mem_insert]
    constructor
    · rintro (rfl | hmem)
      · exact AList.lookup_isSome.mp (by rw [hid]; rfl)
      · exact hmem
    · exact Or.inr
  · rfl

end TaskProvider

/-- The state that the last section writes if it writes at all. -/
def Operation.target (op : Operation) (h : TaskHandle) (a : Answer) : TaskState :=
  match op with
  | .start => .running
  | .cancel => .cancelled
  | .collect => .completed
  | .destroy => if h.workspaceRef ≠ [] ∧ a.cleanup ≠ none then .awaitingHuman else .destroyed
  | .recover => a.inspection.recovered

/-- What the last section of an operation can do. `Collect` and the recovery look at the
handle again before they write. -/
theorem Operation.finish_cases (op : Operation) (p : TaskProvider) (id : Bytes) (h : TaskHandle)
    (a : Answer) :
    op.finish p id h a = p ∨ op.finish p id h a = p.setState id (op.target h a) ∧
      (op = .collect → h.state = .running ∧ p.stateOf id = some .running) ∧
      (op = .destroy → h.state = .awaitingHuman ∨ a.error = none) ∧
      (op ≠ .destroy → a.error = none) := by
  cases op with
  | start =>
      simp only [finish, TaskProvider.transitionEnd]
      cases herror : a.error with
      | some e => exact .inl rfl
      | none => exact .inr ⟨rfl, by simp, by simp, by simp⟩
  | cancel =>
      simp only [finish, TaskProvider.transitionEnd]
      cases herror : a.error with
      | some e => exact .inl rfl
      | none => exact .inr ⟨rfl, by simp, by simp, by simp⟩
  | collect =>
      simp only [finish, TaskProvider.collectEnd]
      cases herror : a.error with
      | some e => exact .inl rfl
      | none =>
          simp only
          split
          · rename_i hrunning
            exact .inr ⟨rfl, fun _ => hrunning, by simp, by simp⟩
          · exact .inl rfl
  | destroy =>
      simp only [finish, TaskProvider.destroyEnd]
      split
      · exact .inl rfl
      · rename_i hbackend
        have hdone : h.state = .awaitingHuman ∨ a.error = none := by
          by_cases hstate : h.state = .awaitingHuman
          · exact .inl hstate
          · rw [if_pos hstate] at hbackend
            exact .inr hbackend
        refine .inr ⟨?_, by simp, fun _ => hdone, by simp⟩
        split
        · rename_i e hcleanup
          split_ifs at hcleanup with hproject
          have hfailed : a.cleanup ≠ none := by simp [hcleanup]
          rw [target, if_pos ⟨hproject, hfailed⟩]
        · rename_i hcleanup
          rw [target, if_neg]
          rintro ⟨hproject, hfailed⟩
          rw [if_pos hproject] at hcleanup
          exact hfailed hcleanup
  | recover =>
      simp only [finish, TaskProvider.recoverEnd, Answer.inspected]
      cases herror : a.error with
      | some e => exact .inl rfl
      | none =>
          simp only
          split
          · exact .inr ⟨rfl, by simp, by simp, by simp⟩
          · exact .inl rfl

theorem Operation.finish_tasks (op : Operation) (p : TaskProvider) (id : Bytes) (h : TaskHandle)
    (a : Answer) (other : Bytes) : other ∈ (op.finish p id h a).tasks ↔ other ∈ p.tasks := by
  rcases op.finish_cases p id h a with heq | ⟨heq, -⟩
  · rw [heq]
  · rw [heq, TaskProvider.setState_tasks]

/-- A last section leaves the other tasks. -/
theorem Operation.finish_other (op : Operation) (p : TaskProvider) (id : Bytes) (h : TaskHandle)
    (a : Answer) {other : Bytes} (hne : other ≠ id) :
    (op.finish p id h a).stateOf other = p.stateOf other := by
  rcases op.finish_cases p id h a with heq | ⟨heq, -⟩
  · rw [heq]
  · rw [heq, TaskProvider.stateOf_setState, if_neg hne]

/-- What `Create` can do under the lock: nothing to the tasks, or one more of them. -/
theorem World.createEnd_cases (w : World) (spec : TaskSpec) (a : Answer) :
    ((w.createEnd spec a).provider = w.provider ∧ (w.createEnd spec a).starts = w.starts ∧
      (w.createEnd spec a).gone = w.gone ∧ (w.createEnd spec a).reported = w.reported) ∨
    (spec.taskID ∉ w.provider.tasks ∧ ∃ h : TaskHandle, h.state = .created ∧
      (w.createEnd spec a).provider =
        { w.provider with tasks := w.provider.tasks.insert spec.taskID h } ∧
      (w.createEnd spec a).starts = Function.update w.starts spec.taskID 0 ∧
      (w.createEnd spec a).gone = Function.update w.gone spec.taskID false ∧
      (w.createEnd spec a).reported = Function.update w.reported spec.taskID false) := by
  by_cases hmem : spec.taskID ∈ w.provider.tasks
  · rw [createEnd, if_pos hmem]
    exact .inl ⟨rfl, rfl, rfl, rfl⟩
  · rw [createEnd, if_neg hmem]
    cases herror : a.error with
    | some e =>
        have hsame : (w.provider.createEnd spec a.created).1 = w.provider := by
          simp only [TaskProvider.createEnd, if_neg hmem, Answer.created, herror]
        simp only [reduceCtorEq, if_false, hsame]
        exact .inl ⟨trivial, trivial, trivial, trivial⟩
    | none =>
        simp only [if_true, TaskProvider.createEnd, if_neg hmem, Answer.created, herror]
        exact .inr ⟨hmem, _, rfl, rfl, trivial, trivial, trivial⟩

theorem World.createEnd_changes (w : World) (spec : TaskSpec) (a : Answer) :
    (w.createEnd spec a).changes = w.changes := by
  rw [createEnd]
  split
  · rfl
  · simp only
    split
    · rfl
    · rfl

/-- `Create` leaves the tasks that are there. -/
theorem World.createEnd_stateOf (w : World) (spec : TaskSpec) (a : Answer) {id : Bytes}
    (hmem : id ∈ w.provider.tasks) :
    (w.createEnd spec a).provider.stateOf id = w.provider.stateOf id := by
  rcases w.createEnd_cases spec a with ⟨heq, -⟩ | ⟨hnew, h, -, heq, -⟩
  · rw [heq]
  · have hne : id ≠ spec.taskID := by
      rintro rfl
      exact hnew hmem
    rw [heq, TaskProvider.stateOf, AList.lookup_insert_ne hne]
    rfl

/-- The first section of a request leaves the provider as it is. -/
theorem System.step_arrive (c : System) (request : Request) :
    (c.step (.turn (.arrive request))).shared = c.shared := by
  cases request with
  | create host capabilities spec =>
      simp only [System.step, Sections.step, sections]
      split
      · rfl
      · rfl
  | operate op id =>
      simp only [System.step, Sections.step, sections]
      split
      · rfl
      · rfl

theorem System.step_resume (c : System) (i : ℕ) (a : Answer) :
    (c.step (.turn (.resume i a))).shared =
      match c.waiting[i]? with
      | none => c.shared
      | some (.creation spec) => c.shared.createEnd spec a
      | some (.operation op id h _) => c.shared.finish op id h a := by
  simp only [System.step, Sections.step]
  cases c.waiting[i]? with
  | none => rfl
  | some waiting =>
      cases waiting with
      | creation spec => rfl
      | operation op id h seen => rfl

end WorkMesh.Sandbox
