import WorkMesh.Sandbox.Handlers
import WorkMesh.StateMachine.Run

/-!
# Records that follow the provider

After a request the record of a task says the state that the provider has, or
it is marked. A handler that cannot write the record marks it, except in four
places: a creation that cannot be recorded, files that could not be removed, a
recovery, and the start of a process.
-/

namespace WorkMesh.Sandbox

open Encoding StateMachine

namespace TaskNode

/-- The record of a task tells the state that the provider has for it. -/
def Follows (n : TaskNode) (id : Bytes) : Prop :=
  ∀ state ∈ n.provider.stateOf id, n.state.Tells id state

/-- The records tell the states of all tasks. -/
def InStep (n : TaskNode) : Prop := ∀ id, n.Follows id

end TaskNode

/-- The state of a new task after the attempt to destroy it again. -/
def stateLeft (workspaceRef : Bytes) (undo : Answer) : TaskState :=
  if undo.error ≠ none then .created
  else if workspaceRef ≠ [] ∧ undo.cleanup ≠ none then .awaitingHuman
  else .destroyed

/-- In the four places the record is written, or it tells the state already. -/
def Recorded (n : TaskNode) : NodeEvent → Prop
  | .create host capabilities spec o =>
      ∀ checked, n.provider.createBegin host capabilities spec = .ok checked →
        checked.taskID ∉ n.provider.tasks → o.answer.error = none → o.save ≠ none →
          n.state.Tells checked.taskID
            (stateLeft checked.runtimePolicy.normalized.workspaceRef o.undo)
  | .operate .destroy id o =>
      ∀ h, id ≠ [] → n.provider.destroyBegin id = .ok h →
        (h.state = .awaitingHuman ∨ o.answer.error = none) → h.workspaceRef ≠ [] →
          o.answer.cleanup ≠ none → o.save ≠ none → n.state.Tells id .awaitingHuman
  | .operate .recover id o =>
      ∀ h, id ≠ [] → n.provider.recoverBegin id = .ok h → o.answer.error = none →
        o.save ≠ none → n.state.Tells id o.answer.inspection.recovered
  | .operate _ _ _ => True
  | .restart r =>
      ∀ item ∈ n.state.saved.1, (⟨item.handle, r.answer item.taskID⟩ : SavedHandle).usable →
        r.save item.taskID ≠ none →
          item.Tells (n.provider.restored item.handle (r.answer item.taskID)).state

/-! ## One task at a time -/

/-- Only one task is touched. -/
structure Elsewhere (n m : TaskNode) (id : Bytes) : Prop where
  provider : ∀ other, other ≠ id → m.provider.stateOf other = n.provider.stateOf other
  state : ∀ other, other ≠ id → m.state.lookup other = n.state.lookup other

variable {n m : TaskNode} {p : TaskProvider} {id : Bytes}

/-- Records stay in step exactly if that of the task does. -/
theorem Elsewhere.inStep_iff (h : Elsewhere n m id) (hn : n.InStep) :
    m.InStep ↔ m.Follows id := by
  constructor
  · intro hm
    exact hm id
  · intro hid other
    by_cases heq : other = id
    · rw [heq]
      exact hid
    · intro state hstate
      rw [h.provider other heq] at hstate
      exact (ExecutionState.tells_congr (h.state other heq) state).mpr (hn other state hstate)

theorem follows_of_stateOf {state : TaskState} (hstate : m.provider.stateOf id = some state) :
    m.Follows id ↔ m.state.Tells id state := by
  constructor
  · intro h
    exact h state hstate
  · intro h other hother
    rw [hstate] at hother
    rwa [← Option.some.inj hother]

theorem stateOf_setState_self {state old : TaskState} (hold : p.stateOf id = some old) :
    (p.setState id state).stateOf id = some state := by
  rw [p.stateOf_setState, if_pos rfl, hold, Option.map_some]

theorem stateOf_setState_other {state : TaskState} {other : Bytes} (hne : other ≠ id) :
    (p.setState id state).stateOf other = p.stateOf other := by
  rw [p.stateOf_setState, if_neg hne]

/-! ## The operations of the provider -/

theorem transition_cases (p : TaskProvider) (id : Bytes) (start stop : TaskState) (a : Answer) :
    (∃ e, p.transition id start stop a = (p, .error e)) ∨
      p.transition id start stop a = (p.setState id stop, .ok ()) ∧
        p.stateOf id = some start := by
  rw [TaskProvider.transition, TaskProvider.transitionBegin]
  cases hlookup : p.tasks.lookup id with
  | none => exact .inl ⟨_, rfl⟩
  | some h =>
      simp only
      by_cases hstate : h.state = start
      · rw [if_neg (not_not.mpr hstate)]
        simp only [TaskProvider.transitionEnd]
        cases a.error with
        | some e => exact .inl ⟨_, rfl⟩
        | none => exact .inr ⟨rfl, hstate ▸ TaskProvider.stateOf_eq hlookup⟩
      · rw [if_pos hstate]
        exact .inl ⟨_, rfl⟩

theorem collect_cases (p : TaskProvider) (id : Bytes) (a : Answer) :
    (∃ e, p.collect id a = (p, .error e)) ∨
      ∃ state, p.stateOf id = some state ∧ (p.collect id a = (p, .ok ()) ∨
        p.collect id a = (p.setState id .completed, .ok ())) := by
  rw [TaskProvider.collect, TaskProvider.copy]
  cases hlookup : p.tasks.lookup id with
  | none => exact .inl ⟨_, rfl⟩
  | some h =>
      simp only [TaskProvider.collectEnd]
      cases a.error with
      | some e => exact .inl ⟨_, rfl⟩
      | none =>
          refine .inr ⟨h.state, TaskProvider.stateOf_eq hlookup, ?_⟩
          simp only
          split
          · exact .inr rfl
          · exact .inl rfl

theorem destroyBegin_ok {h : TaskHandle} (hok : p.destroyBegin id = .ok h) :
    p.stateOf id = some h.state := by
  rw [TaskProvider.destroyBegin, TaskProvider.copy] at hok
  cases hlookup : p.tasks.lookup id with
  | none =>
      rw [hlookup] at hok
      cases hok
  | some found =>
      rw [hlookup] at hok
      simp only at hok
      split_ifs at hok
      rw [← Except.ok.inj hok]
      exact TaskProvider.stateOf_eq hlookup

theorem destroyBegin_error {e : TaskError} (herror : p.destroyBegin id = .error e) :
    ∃ text, e = .message text := by
  rw [TaskProvider.destroyBegin, TaskProvider.copy] at herror
  cases hlookup : p.tasks.lookup id with
  | none =>
      rw [hlookup] at herror
      exact ⟨_, (Except.error.inj herror).symm⟩
  | some found =>
      rw [hlookup] at herror
      simp only at herror
      split_ifs at herror
      · exact ⟨_, (Except.error.inj herror).symm⟩
      · exact ⟨_, (Except.error.inj herror).symm⟩
      · exact ⟨_, (Except.error.inj herror).symm⟩

/-- What `Destroy` comes to once it has begun. -/
theorem destroyEnd_cases (p : TaskProvider) (id : Bytes) (h : TaskHandle) (a : Answer) :
    (∃ text, p.destroyEnd id h a.error a.cleanup = (p, .error (.message text))) ∧
        ¬ (h.state = .awaitingHuman ∨ a.error = none) ∨
      (h.state = .awaitingHuman ∨ a.error = none) ∧
        ((∃ e, p.destroyEnd id h a.error a.cleanup =
              (p.setState id .awaitingHuman, .error (.workspaceCleanup e))) ∧
            h.workspaceRef ≠ [] ∧ a.cleanup ≠ none ∨
          p.destroyEnd id h a.error a.cleanup = (p.setState id .destroyed, .ok ()) ∧
            ¬ (h.workspaceRef ≠ [] ∧ a.cleanup ≠ none)) := by
  rw [TaskProvider.destroyEnd]
  by_cases hdone : h.state = .awaitingHuman ∨ a.error = none
  · have hbackend : (if h.state ≠ .awaitingHuman then a.error else none) = none := by
      rcases hdone with hstate | herror
      · rw [if_neg (not_not.mpr hstate)]
      · rw [herror, ite_self]
    rw [hbackend]
    refine .inr ⟨hdone, ?_⟩
    simp only
    by_cases hproject : h.workspaceRef ≠ []
    · rw [if_pos hproject]
      cases a.cleanup with
      | some e => exact .inl ⟨⟨e, rfl⟩, hproject, by simp⟩
      | none => exact .inr ⟨rfl, fun hboth => hboth.2 rfl⟩
    · rw [if_neg hproject]
      exact .inr ⟨rfl, fun hboth => hproject hboth.1⟩
  · rw [not_or] at hdone
    obtain ⟨e, herror⟩ := Option.ne_none_iff_exists'.mp hdone.2
    rw [if_pos hdone.1, herror]
    exact .inl ⟨⟨_, rfl⟩, by simpa [herror] using hdone.1⟩

/-! ## The handlers -/

theorem elsewhere_provider {state : TaskState} :
    Elsewhere n { n with provider := n.provider.setState id state } id :=
  ⟨fun _ hne => stateOf_setState_other hne, fun _ _ => rfl⟩

theorem Elsewhere.trans {k : TaskNode} (h : Elsewhere n m id) (hk : Elsewhere m k id) :
    Elsewhere n k id :=
  ⟨fun other hne => (hk.provider other hne).trans (h.provider other hne),
    fun other hne => (hk.state other hne).trans (h.state other hne)⟩

/-- A handler that leaves one task in step leaves them all. -/
theorem Elsewhere.inStep (h : Elsewhere n m id) (hn : n.InStep) (hm : m.Follows id) : m.InStep :=
  (h.inStep_iff hn).mpr hm

theorem elsewhere_settle (status : TaskState) (o : Outcome) :
    Elsewhere n (n.settle id status o).1 id := by
  rw [TaskNode.settle]
  cases hsave : o.save with
  | none => exact ⟨fun _ _ => rfl, fun _ hne => ExecutionState.update_other none hne⟩
  | some e => exact ⟨fun _ _ => rfl, fun _ hne => ExecutionState.mark_other e hne⟩

theorem settle_follows {status : TaskState} (o : Outcome)
    (hstatus : n.provider.stateOf id = some status) : (n.settle id status o).1.Follows id := by
  rw [TaskNode.settle]
  cases o.save with
  | none =>
      let m : TaskNode := { n with state := (n.state.updatePersistedTask id status none).1 }
      exact (follows_of_stateOf (m := m) hstatus).mpr ExecutionState.tells_update
  | some e =>
      let m : TaskNode := { n with state := n.state.markTaskStateUnsynced id status e }
      exact (follows_of_stateOf (m := m) hstatus).mpr (ExecutionState.tells_mark e status)

theorem inStep_start (hn : n.InStep) (granted : Bool) (o : Outcome) :
    (n.start id granted o).1.InStep := by
  rw [TaskNode.start]
  split
  · exact hn
  · rw [TaskProvider.start]
    rcases transition_cases n.provider id .created .running o.answer with
      ⟨e, heq⟩ | ⟨heq, hcreated⟩
    · rw [heq]
      exact hn
    · rw [heq]
      have hrunning := @stateOf_setState_self _ _ .running _ hcreated
      have hprovider := @elsewhere_provider n id .running
      cases hsave : o.save with
      | none =>
          have hstate : Elsewhere n ⟨n.provider.setState id .running,
              (n.state.updatePersistedTask id .running none).1⟩ id :=
            ⟨hprovider.provider, fun _ hne => ExecutionState.update_other none hne⟩
          exact hstate.inStep hn ((follows_of_stateOf hrunning).mpr ExecutionState.tells_update)
      | some e =>
          simp only [ExecutionState.updatePersistedTask, ExecutionState.write,
            ExecutionState.saveLocked]
          rw [TaskProvider.cancel]
          rcases transition_cases (n.provider.setState id .running) id .running .cancelled o.undo
            with ⟨e', hcancel⟩ | ⟨hcancel, -⟩
          · rw [hcancel]
            have hmarked : Elsewhere n ⟨n.provider.setState id .running,
                n.state.markTaskStateUnsynced id .running e'.text⟩ id :=
              ⟨hprovider.provider, fun _ hne => ExecutionState.mark_other _ hne⟩
            exact hmarked.inStep hn
              ((follows_of_stateOf hrunning).mpr (ExecutionState.tells_mark _ _))
          · rw [hcancel]
            have hcancelled := @stateOf_setState_self _ _ .cancelled _ hrunning
            have hstate : Elsewhere n ⟨(n.provider.setState id .running).setState id .cancelled,
                n.state.updateTaskStateAfterSaveFailure id .cancelled o.resave⟩ id :=
              ⟨fun other hne => (stateOf_setState_other hne).trans (stateOf_setState_other hne),
                fun _ hne => ExecutionState.updateAfterSaveFailure_other _ hne⟩
            exact hstate.inStep hn ((follows_of_stateOf hcancelled).mpr
              (ExecutionState.tells_updateAfterSaveFailure _))

theorem inStep_cancel (hn : n.InStep) (o : Outcome) : (n.cancel id o).1.InStep := by
  rw [TaskNode.cancel, TaskProvider.cancel]
  rcases transition_cases n.provider id .running .cancelled o.answer with
    ⟨e, heq⟩ | ⟨heq, hrunning⟩
  · rw [heq]
    exact hn
  · rw [heq]
    have hcancelled := @stateOf_setState_self _ _ .cancelled _ hrunning
    have hother := elsewhere_provider.trans (@elsewhere_settle { n with
      provider := n.provider.setState id .cancelled } id .cancelled o)
    exact hother.inStep hn (settle_follows o hcancelled)

theorem inStep_collect (hn : n.InStep) (o : Outcome) : (n.collect id o).1.InStep := by
  rw [TaskNode.collect]
  rcases collect_cases n.provider id o.answer with ⟨e, heq⟩ | ⟨state, hstate, heq | heq⟩
  · rw [heq]
    exact hn
  · rw [heq]
    simp only [hstate]
    exact (elsewhere_settle state o).inStep hn (settle_follows o hstate)
  · rw [heq]
    have hcompleted := @stateOf_setState_self _ _ .completed _ hstate
    simp only [hcompleted]
    have hother := elsewhere_provider.trans (@elsewhere_settle { n with
      provider := n.provider.setState id .completed } id .completed o)
    exact hother.inStep hn (settle_follows o hcompleted)

theorem inStep_sync (hn : n.InStep) (o : Outcome) : (n.sync id o).1.InStep := by
  rw [TaskNode.sync]
  split
  · exact hn
  · cases hstate : n.provider.stateOf id with
    | none => exact hn
    | some status =>
        cases o.save with
        | none =>
            let m : TaskNode := { n with state := (n.state.updatePersistedTask id status none).1 }
            have hother : Elsewhere n m id :=
              ⟨fun _ _ => rfl, fun _ hne => ExecutionState.update_other none hne⟩
            exact hother.inStep hn
              ((follows_of_stateOf (m := m) hstate).mpr ExecutionState.tells_update)
        | some e => exact hn

/-- A write that may fail without a mark. -/
theorem follows_update_iff {state : TaskState} (hstate : m.provider.stateOf id = some state)
    {s : ExecutionState} {save : Option String}
    (hwrite : m.state = (s.updatePersistedTask id state save).1) :
    m.Follows id ↔ (save ≠ none → s.Tells id state) := by
  rw [follows_of_stateOf hstate, hwrite]
  cases save with
  | none =>
      constructor
      · intro _ hsave
        exact absurd rfl hsave
      · intro _
        exact ExecutionState.tells_update
  | some e =>
      constructor
      · intro htells _
        exact htells
      · intro htells
        exact htells (by simp)

theorem inStep_destroy_iff (hn : n.InStep) (hid : id ≠ []) (o : Outcome) :
    (n.destroy id o).1.InStep ↔ Recorded n (.operate .destroy id o) := by
  rw [TaskNode.destroy, TaskProvider.destroy, Recorded]
  cases hbegin : n.provider.destroyBegin id with
  | error e =>
      obtain ⟨text, rfl⟩ := destroyBegin_error hbegin
      constructor
      · intro _ h _ hok
        cases hok
      · intro _
        exact hn
  | ok h =>
      have hstate := destroyBegin_ok hbegin
      simp only
      rcases destroyEnd_cases n.provider id h o.answer with
        ⟨⟨text, heq⟩, hnot⟩ | ⟨hdone, ⟨⟨e, heq⟩, hproject, hcleanup⟩ | ⟨heq, hclean⟩⟩
      · rw [heq]
        constructor
        · intro _ h' _ hok hdone
          rw [← Except.ok.inj hok] at hdone
          exact absurd hdone hnot
        · intro _
          exact hn
      · rw [heq]
        have hawaiting := @stateOf_setState_self _ _ .awaitingHuman _ hstate
        have hother : Elsewhere n ⟨n.provider.setState id .awaitingHuman,
            (n.state.updatePersistedTask id .awaitingHuman o.save).1⟩ id :=
          ⟨elsewhere_provider.provider, fun _ hne => ExecutionState.update_other _ hne⟩
        rw [hother.inStep_iff hn, follows_update_iff hawaiting rfl]
        constructor
        · intro hsaved h' _ _ _ _ _ hsave
          exact hsaved hsave
        · intro hrecorded
          exact hrecorded h hid rfl hdone hproject hcleanup
      · rw [heq]
        have hdestroyed := @stateOf_setState_self _ _ .destroyed _ hstate
        have hother := elsewhere_provider.trans (@elsewhere_settle { n with
          provider := n.provider.setState id .destroyed } id .destroyed o)
        constructor
        · intro _ h' _ hok _ hproject hcleanup
          rw [← Except.ok.inj hok] at hproject
          exact absurd ⟨hproject, hcleanup⟩ hclean
        · intro _
          exact hother.inStep hn (settle_follows o hdestroyed)

theorem recoverBegin_ok {h : TaskHandle} (hok : p.recoverBegin id = .ok h) :
    p.tasks.lookup id = some h := by
  rw [TaskProvider.recoverBegin, TaskProvider.copy] at hok
  cases hlookup : p.tasks.lookup id with
  | none =>
      rw [hlookup] at hok
      split at hok
      · cases hok
      · cases hok
  | some found =>
      rw [hlookup] at hok
      simp only at hok
      split_ifs at hok
      rw [← Except.ok.inj hok]

/-- What a recovery does once the backend has answered. -/
theorem recover_eq {h : TaskHandle} {o : Outcome} (hbegin : n.provider.recoverBegin id = .ok h)
    (herror : o.answer.error = none) :
    (n.recover id o).1 = ⟨n.provider.setState id o.answer.inspection.recovered,
      (n.state.updatePersistedTask id o.answer.inspection.recovered o.save).1⟩ := by
  have hsame : (n.provider.tasks.lookup id).map (·.sandboxID) = some h.sandboxID := by
    rw [recoverBegin_ok hbegin, Option.map_some]
  simp only [TaskNode.recover, TaskProvider.recoverInspect, hbegin, TaskProvider.recoverEnd,
    Answer.inspected, herror, if_pos hsame]
  cases o.save with
  | none => rfl
  | some e => rfl

theorem inStep_recover_iff (hn : n.InStep) (hid : id ≠ []) (o : Outcome) :
    (n.recover id o).1.InStep ↔ Recorded n (.operate .recover id o) := by
  rw [Recorded]
  cases hbegin : n.provider.recoverBegin id with
  | error e =>
      rw [TaskNode.recover, TaskProvider.recoverInspect, hbegin]
      constructor
      · intro _ h _ hok
        cases hok
      · intro _
        exact hn
  | ok h =>
      cases herror : o.answer.error with
      | some e =>
          simp only [TaskNode.recover, TaskProvider.recoverInspect, hbegin,
            TaskProvider.recoverEnd, Answer.inspected, herror]
          constructor
          · intro _ h' _ _ hnone
            cases hnone
          · intro _
            exact hn
      | none =>
          have hrecovered := @stateOf_setState_self _ _ o.answer.inspection.recovered _
            (TaskProvider.stateOf_eq (recoverBegin_ok hbegin))
          rw [recover_eq hbegin herror]
          have hother : Elsewhere n ⟨n.provider.setState id o.answer.inspection.recovered,
              (n.state.updatePersistedTask id o.answer.inspection.recovered o.save).1⟩ id :=
            ⟨elsewhere_provider.provider, fun _ hne => ExecutionState.update_other _ hne⟩
          rw [hother.inStep_iff hn, follows_update_iff hrecovered rfl]
          constructor
          · intro hsaved h' _ _ _ hsave
            exact hsaved hsave
          · intro hrecorded
            exact hrecorded h hid rfl rfl

/-! ## Creation -/

/-- What an attempt to destroy a new task leaves. -/
theorem destroy_created {h : TaskHandle} (hlookup : p.tasks.lookup id = some h)
    (hcreated : h.state = .created) (a : Answer) :
    (p.destroy id a).1.stateOf id = some (stateLeft h.workspaceRef a) ∧
      ∀ other, other ≠ id → (p.destroy id a).1.stateOf other = p.stateOf other := by
  have hbegin : p.destroyBegin id = .ok h := by
    rw [TaskProvider.destroyBegin, TaskProvider.copy, hlookup]
    simp [hcreated]
  have hstate := TaskProvider.stateOf_eq hlookup
  have hnot : h.state ≠ .awaitingHuman := by simp [hcreated]
  rw [TaskProvider.destroy, hbegin, stateLeft]
  simp only
  rcases destroyEnd_cases p id h a with
    ⟨⟨text, heq⟩, herror⟩ | ⟨hdone, ⟨⟨e, heq⟩, hproject, hcleanup⟩ | ⟨heq, hclean⟩⟩
  · rw [heq, if_pos fun hnone => herror (.inr hnone), hstate, hcreated]
    exact ⟨rfl, fun _ _ => rfl⟩
  · rw [heq, if_neg (not_not.mpr (hdone.resolve_left hnot)), if_pos ⟨hproject, hcleanup⟩]
    exact ⟨stateOf_setState_self hstate, fun _ hne => stateOf_setState_other hne⟩
  · rw [heq, if_neg (not_not.mpr (hdone.resolve_left hnot)), if_neg hclean]
    exact ⟨stateOf_setState_self hstate, fun _ hne => stateOf_setState_other hne⟩

/-- A creation that does not come to a sandbox changes nothing. -/
theorem create_failed {host : Host} {capabilities : Except String SandboxCapabilities}
    {spec checked : TaskSpec} {o : Outcome}
    (hbegin : n.provider.createBegin host capabilities spec = .ok checked)
    (hnot : ¬ (checked.taskID ∉ n.provider.tasks ∧ o.answer.error = none)) :
    (n.createSandboxTask host capabilities spec o).1 = n := by
  simp only [TaskNode.createSandboxTask, TaskProvider.create, hbegin, TaskProvider.createEnd]
  by_cases hmem : checked.taskID ∈ n.provider.tasks
  · simp only [if_pos hmem]
  · cases herror : o.answer.error with
    | some e => simp only [if_neg hmem, Answer.created, herror]
    | none => exact absurd ⟨hmem, herror⟩ hnot

/-- The handle of a sandbox that was created. -/
def newHandle (checked : TaskSpec) (sandboxID : Bytes) : TaskHandle where
  taskID := checked.taskID
  sandboxID
  imageDigest := checked.imageDigest
  sandboxType := checked.runtimePolicy.normalized.sandboxType
  backend := checked.runtimePolicy.normalized.backend
  workspaceRef := checked.runtimePolicy.normalized.workspaceRef
  state := .created

/-- The provider with one more task. -/
def withTask (p : TaskProvider) (h : TaskHandle) : TaskProvider :=
  { p with tasks := p.tasks.insert h.taskID h }

theorem withTask_lookup (h : TaskHandle) : (withTask p h).tasks.lookup h.taskID = some h := by
  rw [withTask, Table.lookup_insert, if_pos rfl]

theorem withTask_other (h : TaskHandle) {other : Bytes} (hne : other ≠ h.taskID) :
    (withTask p h).stateOf other = p.stateOf other := by
  rw [withTask, TaskProvider.stateOf, AList.lookup_insert_ne hne, TaskProvider.stateOf]

theorem create_made {host : Host} {capabilities : Except String SandboxCapabilities}
    {spec checked : TaskSpec} {o : Outcome}
    (hbegin : n.provider.createBegin host capabilities spec = .ok checked)
    (hnew : checked.taskID ∉ n.provider.tasks) (herror : o.answer.error = none) :
    let h := newHandle checked o.answer.sandboxID
    (n.createSandboxTask host capabilities spec o).1 =
      match o.save with
      | none => ⟨withTask n.provider h, (n.state.persistTaskHandle h none).1⟩
      | some _ => ⟨((withTask n.provider h).destroy h.taskID o.undo).1, n.state⟩ := by
  simp only [TaskNode.createSandboxTask, TaskProvider.create, hbegin, TaskProvider.createEnd,
    if_neg hnew, Answer.created, herror]
  cases o.save with
  | none => rfl
  | some e => rfl

theorem inStep_create_iff (hn : n.InStep) (host : Host)
    (capabilities : Except String SandboxCapabilities) (spec : TaskSpec) (o : Outcome) :
    (n.createSandboxTask host capabilities spec o).1.InStep ↔
      Recorded n (.create host capabilities spec o) := by
  rw [Recorded]
  cases hbegin : n.provider.createBegin host capabilities spec with
  | error e =>
      rw [TaskNode.createSandboxTask, TaskProvider.create, hbegin]
      constructor
      · intro _ checked hok
        cases hok
      · intro _
        cases e with
        | message text => exact hn
        | capability text => exact hn
        | workspaceCleanup text => exact hn
  | ok checked =>
      by_cases hmade : checked.taskID ∉ n.provider.tasks ∧ o.answer.error = none
      · obtain ⟨hnew, herror⟩ := hmade
        rw [create_made hbegin hnew herror]
        let h := newHandle checked o.answer.sandboxID
        have hlookup : (withTask n.provider h).tasks.lookup h.taskID = some h := withTask_lookup h
        cases hsave : o.save with
        | none =>
            let m : TaskNode := ⟨withTask n.provider h, (n.state.persistTaskHandle h none).1⟩
            have hother : Elsewhere n m h.taskID :=
              ⟨fun _ hne => withTask_other h hne,
                fun _ hne => ExecutionState.write_other _ none hne⟩
            have hfollows : m.Follows h.taskID :=
              (follows_of_stateOf (m := m) (TaskProvider.stateOf_eq hlookup)).mpr
                (ExecutionState.tells_persist h)
            constructor
            · intro _ checked' _ _ _ hnone
              exact absurd rfl hnone
            · intro _
              exact hother.inStep hn hfollows
        | some e =>
            obtain ⟨hleft, hsame⟩ := destroy_created hlookup rfl o.undo
            let m : TaskNode := ⟨((withTask n.provider h).destroy h.taskID o.undo).1, n.state⟩
            have hother : Elsewhere n m h.taskID :=
              ⟨fun other hne => (hsame other hne).trans (withTask_other h hne), fun _ _ => rfl⟩
            change m.InStep ↔ _
            rw [hother.inStep_iff hn, follows_of_stateOf (m := m) hleft]
            constructor
            · intro htells checked' hok _ _ _
              rw [← Except.ok.inj hok]
              exact htells
            · intro hrecorded
              exact hrecorded checked rfl hnew herror (by simp)
      · rw [create_failed hbegin hmade]
        constructor
        · intro _ checked' hok hnew herror
          rw [← Except.ok.inj hok] at hnew
          exact absurd ⟨hnew, herror⟩ hmade
        · intro _
          exact hn

/-! ## A new process -/

namespace ExecutionState

variable {s : ExecutionState} {save : Bytes → Option String} {handles : List TaskHandle}

theorem updateAll_other (hid : ∀ h ∈ handles, h.taskID ≠ id) :
    (s.updateAll save handles).lookup id = s.lookup id := by
  induction handles generalizing s with
  | nil => rfl
  | cons h rest ih =>
      rw [updateAll, ih fun h' hh' => hid h' (List.mem_cons_of_mem _ hh')]
      exact update_other _ (hid h List.mem_cons_self).symm

/-- The state of an inspected task is told if the write succeeds or it was told before. -/
theorem tells_updateAll (hnodup : (handles.map (·.taskID)).Nodup) {h : TaskHandle}
    (hh : h ∈ handles) :
    (s.updateAll save handles).Tells h.taskID h.state ↔
      (save h.taskID ≠ none → s.Tells h.taskID h.state) := by
  induction handles generalizing s with
  | nil => cases hh
  | cons first rest ih =>
      rw [List.map_cons, List.nodup_cons] at hnodup
      rw [updateAll]
      rcases List.mem_cons.mp hh with rfl | hrest
      · have hlater : ∀ h' ∈ rest, h'.taskID ≠ h.taskID := by
          intro h' hh' heq
          exact hnodup.1 (List.mem_map.mpr ⟨h', hh', heq⟩)
        rw [tells_congr (updateAll_other hlater)]
        cases save h.taskID with
        | none =>
            constructor
            · intro _ hsave
              exact absurd rfl hsave
            · intro _
              exact tells_update
        | some e =>
            constructor
            · intro htells _
              exact htells
            · intro htells
              exact htells (by simp)
      · have hne : h.taskID ≠ first.taskID := by
          intro heq
          exact hnodup.1 (List.mem_map.mpr ⟨h, hrest, heq⟩)
        rw [ih hnodup.2 hrest, tells_congr (update_other _ hne)]

end ExecutionState

/-- The saved handle of a record. -/
def Resumption.saved (r : Resumption) (item : TaskItem) : SavedHandle :=
  ⟨item.handle, r.answer item.taskID⟩

theorem usable_taskID {saved : SavedHandle} (h : saved.usable = true) :
    saved.handle.taskID ≠ [] := by
  intro hempty
  simp [SavedHandle.usable, hempty, isTaskID] at h

theorem restored_taskID (p : TaskProvider) (h : TaskHandle)
    (answer : Except String TaskInspection) : (p.restored h answer).taskID = h.taskID := by
  rw [TaskProvider.restored.eq_def]
  split
  · rfl
  · split
    · split
      · rfl
      · rfl
    · rfl

theorem nodup_inspected {p : TaskProvider} {saved : List SavedHandle}
    (h : (saved.map (·.handle.taskID)).Nodup) :
    ((p.inspected saved).map (·.taskID)).Nodup := by
  have hmap : (p.inspected saved).map (·.taskID) =
      (saved.filter (·.usable)).map (·.handle.taskID) := by
    rw [TaskProvider.inspected, List.map_map]
    apply List.map_congr_left
    intro s _
    exact restored_taskID p s.handle s.answer
  rw [hmap]
  exact h.sublist (List.filter_sublist.map _)

theorem nodup_handles (s : ExecutionState) (answer : Bytes → Except String TaskInspection) :
    ((s.handles answer).map (·.handle.taskID)).Nodup := by
  have hmap : (s.handles answer).map (·.handle.taskID) = s.records.items.map (·.taskID) := by
    rw [ExecutionState.handles, List.map_map]
    rfl
  rw [hmap]
  exact s.records.nodup

/-- The record of a task in a new process tells its state if the write succeeds or it does
already. -/
theorem follows_restart_iff (n : TaskNode) (r : Resumption) {item : TaskItem}
    (hitem : item ∈ n.state.saved.1) (husable : (r.saved item).usable = true) :
    (n.restart r).Follows item.taskID ↔ (r.save item.taskID ≠ none →
      item.Tells (n.provider.restored item.handle (r.answer item.taskID)).state) := by
  let p := n.provider.fresh
  let s := n.state.reload
  have hmem : r.saved item ∈ s.handles r.answer := List.mem_map_of_mem hitem
  have hnodup := nodup_handles s r.answer
  have hlookup := TaskProvider.restore_lookup_of_mem (p := p) hnodup hmem husable
  have hinspected : p.restored item.handle (r.answer item.taskID) ∈
      p.inspected (s.handles r.answer) :=
    List.mem_map.mpr ⟨r.saved item, List.mem_filter.mpr ⟨hmem, husable⟩, rfl⟩
  have htask : (p.restored item.handle (r.answer item.taskID)).taskID = item.taskID :=
    restored_taskID p item.handle _
  have htells := @ExecutionState.tells_updateAll s r.save _
    (nodup_inspected (p := p) hnodup) _ hinspected
  rw [htask] at htells
  have hrecord : s.lookup item.taskID = some item := by
    change (loadTasks ∅ n.state.saved.1).lookup item.taskID = some item
    have hid : item.taskID ≠ [] := usable_taskID husable
    rw [lookup_loadTasks n.state.saved.2 hid, recordOf, lookupKey_of_mem n.state.saved.2 hitem]
    rfl
  have hstate : (n.restart r).provider.stateOf item.taskID =
      some (p.restored item.handle (r.answer item.taskID)).state :=
    TaskProvider.stateOf_eq hlookup
  rw [follows_of_stateOf hstate]
  refine htells.trans ?_
  rw [ExecutionState.Tells, hrecord]
  constructor
  · intro h hsave
    obtain ⟨found, hfound, hsays⟩ := h hsave
    obtain rfl : item = found := Option.some.inj hfound
    exact hsays
  · intro h hsave
    exact ⟨item, rfl, h hsave⟩

theorem inStep_restart_iff (n : TaskNode) (r : Resumption) :
    (n.restart r).InStep ↔ Recorded n (.restart r) := by
  constructor
  · intro h item hitem husable
    exact (follows_restart_iff n r hitem husable).mp (h item.taskID)
  · intro hrecorded id state hstate
    obtain ⟨h, hlookup, -⟩ := Option.map_eq_some_iff.mp hstate
    rcases TaskProvider.restore_lookup hlookup with hnone | ⟨saved, hsaved, husable, hid, -⟩
    · cases hnone
    · obtain ⟨item, hitem, rfl⟩ := List.mem_map.mp hsaved
      obtain rfl : item.taskID = id := hid
      exact (follows_restart_iff n r hitem husable).mpr (hrecorded item hitem husable) state hstate

/-! ## Runs -/

theorem inStep_step_iff (hn : n.InStep) (e : NodeEvent) : (n.step e).InStep ↔ Recorded n e := by
  cases e with
  | create host capabilities spec o => exact inStep_create_iff hn host capabilities spec o
  | restart r => exact inStep_restart_iff n r
  | operate op id o =>
      rw [TaskNode.step, TaskNode.operateSandboxTask.eq_def]
      by_cases hid : id = []
      · rw [if_pos hid]
        refine ⟨fun _ => ?_, fun _ => hn⟩
        cases op with
        | recover => exact fun h hne => absurd hid hne
        | sync => trivial
        | start granted => trivial
        | collect => trivial
        | cancel => trivial
        | destroy => exact fun h hne => absurd hid hne
      · rw [if_neg hid]
        cases op with
        | recover => exact inStep_recover_iff hn hid o
        | sync => exact iff_of_true (inStep_sync hn o) trivial
        | start granted => exact iff_of_true (inStep_start hn granted o) trivial
        | collect => exact iff_of_true (inStep_collect hn o) trivial
        | cancel => exact iff_of_true (inStep_cancel hn o) trivial
        | destroy => exact inStep_destroy_iff hn hid o

/-- The records tell the states of all tasks after every request of a run exactly if each
request records what it did in the four places. -/
theorem in_step_iff (requireCapabilities inspects : Bool) (events : List NodeEvent) :
    Meets TaskNode.step (fun n e => (n.step e).InStep)
        (TaskNode.begin requireCapabilities inspects) events ↔
      Meets TaskNode.step Recorded (TaskNode.begin requireCapabilities inspects) events := by
  have hbegin : (TaskNode.begin requireCapabilities inspects).InStep := by
    intro id state hstate
    cases hstate
  exact meets_congr (P := TaskNode.InStep)
    (fun n e hn hrecorded => (inStep_step_iff hn e).mpr hrecorded)
    (fun n e hn => inStep_step_iff hn e) hbegin

/-- A task of a project. -/
def projectTask : TaskSpec where
  taskID := bytes "t"
  imageDigest := bytes "sha256:" ++ List.replicate 64 48
  worktree := bytes "/w/p/worktrees/t"
  entrypoint := [bytes "/opt/workmesh/task-bootstrap"]
  runtimePolicy := { workspaceRef := bytes "p" }

/-- A host whose workspaces are below `/w`, and there are none yet. -/
def newHost : Host where
  workspaceRoot := bytes "/w"
  lstat path := if path = bytes "/w" then .found false true else .notExist

/-- The sandbox of a task is destroyed, its files cannot be removed, and the disk is full. The
provider has the task waiting for a human while its record still says created. -/
theorem record_left_behind :
    ¬ Meets TaskNode.step (fun n e => (n.step e).InStep) (TaskNode.begin false true)
      [.create newHost (.error "") projectTask {},
        .operate .destroy (bytes "t")
          { answer := { cleanup := some "directory not empty" }, save := some "disk full" }] := by
  intro h
  have htells := h.2.1 (bytes "t") .awaitingHuman (by decide +kernel)
  revert htells
  decide +kernel

end WorkMesh.Sandbox
