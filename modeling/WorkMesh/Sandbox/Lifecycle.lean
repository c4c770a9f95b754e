import WorkMesh.StateMachine.Run
import WorkMesh.Sandbox.System

/-!
# The lifecycle of a task

`Start`, `Cancel`, `Destroy` and the recovery read the state in their first
section and write another one in their last section without looking at the
state again. `Collect` looks again. So the states follow the lifecycle as long as
nobody changes the state of a task between the two sections of an operation
that goes on to write.
-/

namespace WorkMesh.Sandbox

open Encoding StateMachine

/-- The changes of state that an operation stands for. -/
def Operation.Permits : Operation → TaskState → TaskState → Prop
  | .start, s, t => s = .created ∧ t = .running
  | .cancel, s, t => s = .running ∧ t = .cancelled
  | .collect, s, t => s = .running ∧ t = .completed
  | .destroy, s, t => s ∉ [.running, .destroyed, .unknown] ∧ t ∈ [.destroyed, .awaitingHuman]
  | .recover, s, t => s ≠ .destroyed ∧ t ≠ .unknown

/-- A change of state by an event is one that its operation stands for. A new process may
find any state, but that of a destroyed task. -/
def System.Permits (c : System) (e : Event) (s t : TaskState) : Prop :=
  match e with
  | .turn (.arrive _) => False
  | .turn (.resume i _) =>
      match c.waiting[i]? with
      | some (.operation op _ _ _) => op.Permits s t
      | _ => False
  | .restart _ => s ≠ .destroyed

/-- An event takes each task along its lifecycle. -/
structure Lawful (c : System) (e : Event) : Prop where
  path : ∀ id s t, c.shared.provider.stateOf id = some s →
    (c.step e).shared.provider.stateOf id = some t → s ≠ t → c.Permits e s t
  terminal : ∀ id t, c.shared.provider.stateOf id = some .destroyed →
    (c.step e).shared.provider.stateOf id = some t → t = .destroyed
  /-- Who changes the state of a cancelled or completed task began when it was in that state. -/
  settled : ∀ i a op id h seen s t, e = .turn (.resume i a) →
    c.waiting[i]? = some (.operation op id h seen) →
    c.shared.provider.stateOf id = some s → s ∈ [.cancelled, .completed] →
    (c.step e).shared.provider.stateOf id = some t → s ≠ t → seen = c.shared.changes id
  once : ∀ id, (c.step e).shared.starts id ≤ 1

/-- The last section writes without looking at the state again. -/
def Operation.overwrites (op : Operation) (h : TaskHandle) (a : Answer) : Bool :=
  match op with
  | .start | .cancel | .recover => a.error = none
  | .collect => false
  | .destroy => h.state = .awaitingHuman ∨ a.error = none

/-- Nobody has changed the state since the operation began, if it writes now, and no
inspection takes a task that was started for one that was not. -/
def Waiting.Undisturbed (w : World) (a : Answer) : Waiting → Prop
  | .creation _ => True
  | .operation op id h seen =>
      (op.overwrites h a = true → seen = w.changes id) ∧
        (op = .recover → a.error = none → a.inspection.recovered = .created → w.starts id = 0)

/-- A new process finds exactly the destroyed tasks saved as destroyed, and its inspection
takes no task that was started for one that was not. -/
def SavedHandle.Undisturbed (w : World) (s : SavedHandle) : Prop :=
  (∀ t ∈ w.provider.stateOf s.handle.taskID, (s.handle.state = .destroyed ↔ t = .destroyed)) ∧
    ((w.provider.restored s.handle s.answer).state = .created → w.starts s.handle.taskID = 0)

def Undisturbed (c : System) : Event → Prop
  | .turn (.arrive _) => True
  | .turn (.resume i a) => ∀ waiting ∈ c.waiting[i]?, waiting.Undisturbed c.shared a
  | .restart saved => ∀ s ∈ saved, s.usable = true → s.Undisturbed c.shared

instance (w : World) (a : Answer) : DecidablePred (Waiting.Undisturbed w a) := fun
  | .creation _ => .isTrue trivial
  | .operation op id h seen => inferInstanceAs (Decidable (
      (op.overwrites h a = true → seen = w.changes id) ∧
        (op = .recover → a.error = none → a.inspection.recovered = .created → w.starts id = 0)))

instance (w : World) : DecidablePred (SavedHandle.Undisturbed w) := fun s =>
  inferInstanceAs (Decidable (
    (∀ t ∈ w.provider.stateOf s.handle.taskID,
      (s.handle.state = .destroyed ↔ t = .destroyed)) ∧
    ((w.provider.restored s.handle s.answer).state = .created →
      w.starts s.handle.taskID = 0)))

instance (c : System) : DecidablePred (Undisturbed c) := fun
  | .turn (.arrive _) => .isTrue trivial
  | .turn (.resume i a) =>
      inferInstanceAs (Decidable (∀ waiting ∈ c.waiting[i]?, waiting.Undisturbed c.shared a))
  | .restart saved =>
      inferInstanceAs (Decidable (∀ s ∈ saved, s.usable = true → s.Undisturbed c.shared))

/-! ## Between the sections -/

/-- What the first section of an operation has found. -/
def Operation.Begun : Operation → TaskState → Prop
  | .start, s => s = .created
  | .cancel, s => s = .running
  | .collect, _ => True
  | .destroy, s => s ∉ [.running, .destroyed, .unknown]
  | .recover, s => s ≠ .destroyed

theorem begin_ok {op : Operation} {p : TaskProvider} {id : Bytes} {h : TaskHandle}
    (hok : op.begin p id = .ok h) : p.tasks.lookup id = some h ∧ op.Begun h.state := by
  cases op with
  | start =>
      rw [Operation.begin, TaskProvider.transitionBegin] at hok
      split at hok
      · cases hok
      · rename_i h' hlookup
        split_ifs at hok with hstate
        rw [← Except.ok.inj hok]
        exact ⟨hlookup, not_not.mp hstate⟩
  | cancel =>
      rw [Operation.begin, TaskProvider.transitionBegin] at hok
      split at hok
      · cases hok
      · rename_i h' hlookup
        split_ifs at hok with hstate
        rw [← Except.ok.inj hok]
        exact ⟨hlookup, not_not.mp hstate⟩
  | collect =>
      rw [Operation.begin, TaskProvider.copy] at hok
      split at hok
      · cases hok
      · rename_i h' hlookup
        rw [← Except.ok.inj hok]
        exact ⟨hlookup, trivial⟩
  | destroy =>
      rw [Operation.begin, TaskProvider.destroyBegin, TaskProvider.copy] at hok
      split at hok
      · cases hok
      · rename_i h' hcopy
        split at hcopy
        · cases hcopy
        · rename_i h'' hlookup
          rw [← Except.ok.inj hcopy] at hok
          split_ifs at hok with hrunning hdestroyed hunknown
          rw [← Except.ok.inj hok]
          refine ⟨hlookup, ?_⟩
          simp [Operation.Begun, hrunning, hdestroyed, hunknown]
  | recover =>
      rw [Operation.begin, TaskProvider.recoverBegin, TaskProvider.copy] at hok
      split at hok
      · cases hok
      · split at hok
        · cases hok
        · rename_i h' hcopy
          split at hcopy
          · cases hcopy
          · rename_i h'' hlookup
            rw [← Except.ok.inj hcopy] at hok
            split_ifs at hok with hdestroyed
            rw [← Except.ok.inj hok]
            exact ⟨hlookup, hdestroyed⟩

/-- A task that was started is not in the state before its start, and it was started once. -/
structure StartedOnce (w : World) : Prop where
  once : ∀ id, w.starts id ≤ 1
  left : ∀ id, w.starts id = 1 → w.provider.stateOf id ≠ some .created

/-- An operation that waits knows the state as long as nobody changes it. -/
def Knows (w : World) : Waiting → Prop
  | .creation _ => True
  | .operation op id h seen =>
      op.Begun h.state ∧ seen ≤ w.changes id ∧
        (seen = w.changes id → w.provider.stateOf id = some h.state)

variable {w : World} {op : Operation} {id : Bytes} {h : TaskHandle} {a : Answer}

theorem finish_other {other : Bytes} (hne : other ≠ id) :
    (w.finish op id h a).provider.stateOf other = w.provider.stateOf other ∧
      (w.finish op id h a).changes other = w.changes other := by
  constructor
  · exact op.finish_other w.provider id h a hne
  · simp only [World.finish]
    split
    · rfl
    · exact Function.update_of_ne hne _ _

/-- A last section that leads to another state leads to its target. -/
theorem finish_target (hne : (w.finish op id h a).provider.stateOf id ≠ w.provider.stateOf id) :
    (w.finish op id h a).provider.stateOf id = some (op.target h a) ∧
      (op = .collect → w.provider.stateOf id = some .running) ∧
      (op ≠ .collect → op.overwrites h a = true) := by
  change (op.finish w.provider id h a).stateOf id ≠ _ at hne
  change (op.finish w.provider id h a).stateOf id = _ ∧ _
  rcases op.finish_cases w.provider id h a with heq | ⟨heq, hcollect, hdestroy, herror⟩
  · rw [heq] at hne
    exact absurd rfl hne
  · rw [heq, TaskProvider.stateOf_setState, if_pos rfl] at hne ⊢
    refine ⟨?_, fun hop => (hcollect hop).2, fun hop => ?_⟩
    · cases hs : w.provider.stateOf id with
      | none =>
          rw [hs] at hne
          exact absurd rfl hne
      | some s => rfl
    · cases op with
      | start => exact decide_eq_true (herror (by simp))
      | cancel => exact decide_eq_true (herror (by simp))
      | collect => exact absurd rfl hop
      | destroy => exact decide_eq_true (hdestroy rfl)
      | recover => exact decide_eq_true (herror (by simp))

/-- A last section changes the count with the state. -/
theorem finish_changes :
    (w.finish op id h a).changes id = w.changes id ∧
        (w.finish op id h a).provider.stateOf id = w.provider.stateOf id ∨
      (w.finish op id h a).changes id = w.changes id + 1 := by
  by_cases heq : (op.finish w.provider id h a).stateOf id = w.provider.stateOf id
  · refine .inl ⟨?_, heq⟩
    simp only [World.finish, if_pos heq]
  · refine .inr ?_
    simp only [World.finish, if_neg heq, Function.update_self]

theorem Knows.finish {waiting : Waiting} (hknows : Knows w waiting) :
    Knows (w.finish op id h a) waiting := by
  cases waiting with
  | creation spec => trivial
  | operation op' other h' seen =>
      obtain ⟨hbegun, hle, hstate⟩ := hknows
      by_cases heq : other = id
      · subst heq
        rcases @finish_changes w op other h a with
          ⟨hchanges, hsame⟩ | hchanges
        · refine ⟨hbegun, by rw [hchanges]; exact hle, fun hseen => ?_⟩
          rw [hsame]
          exact hstate (hseen.trans hchanges)
        · refine ⟨hbegun, by rw [hchanges]; omega, fun hseen => ?_⟩
          rw [hchanges] at hseen
          omega
      · obtain ⟨hsame, hchanges⟩ := @finish_other w op _ h a _ heq
        refine ⟨hbegun, by rw [hchanges]; exact hle, fun hseen => ?_⟩
        rw [hsame]
        exact hstate (hseen.trans hchanges)

theorem target_ne_created (hop : op ≠ .recover) : op.target h a ≠ .created := by
  cases op with
  | start => simp [Operation.target]
  | cancel => simp [Operation.target]
  | collect => simp [Operation.target]
  | destroy =>
      rw [Operation.target]
      split
      · simp
      · simp
  | recover => exact absurd rfl hop

theorem finish_start_state (herror : a.error = none) {state : TaskState}
    (hs : w.provider.stateOf id = some state) :
    (w.finish .start id h a).provider.stateOf id = some .running := by
  change (Operation.finish .start w.provider id h a).stateOf id = _
  simp only [Operation.finish, TaskProvider.transitionEnd, herror]
  rw [TaskProvider.stateOf_setState, if_pos rfl, hs, Option.map_some]

theorem starts_finish_of_start (herror : a.error = none) :
    (w.finish .start id h a).starts = Function.update w.starts id (w.starts id + 1) := by
  simp [World.finish, herror]

theorem starts_finish_of_not (hnot : ¬ (op = .start ∧ a.error = none)) :
    (w.finish op id h a).starts = w.starts := by
  simp only [World.finish, if_neg hnot]

theorem StartedOnce.finish {seen : ℕ} (hw : StartedOnce w)
    (hknows : Knows w (.operation op id h seen))
    (hseen : op.overwrites h a = true → seen = w.changes id)
    (hinspect : op = .recover → a.error = none → a.inspection.recovered = .created →
      w.starts id = 0) : StartedOnce (w.finish op id h a) := by
  by_cases hstart : op = .start ∧ a.error = none
  · obtain ⟨rfl, herror⟩ := hstart
    obtain ⟨hbegun, -, hstate⟩ := hknows
    have hcreated : w.provider.stateOf id = some .created := by
      rw [hstate (hseen (decide_eq_true herror)), hbegun]
    have hzero : w.starts id = 0 := by
      have honce := hw.once id
      by_contra hne
      exact hw.left id (by omega) hcreated
    refine ⟨fun other => ?_, fun other hone => ?_⟩
    · rw [starts_finish_of_start herror]
      by_cases heq : other = id
      · rw [heq, Function.update_self, hzero]
      · rw [Function.update_of_ne heq]
        exact hw.once other
    · by_cases heq : other = id
      · subst heq
        rw [finish_start_state herror hcreated]
        simp
      · rw [starts_finish_of_start herror, Function.update_of_ne heq] at hone
        rw [(finish_other heq).1]
        exact hw.left other hone
  · refine ⟨fun other => ?_, fun other hone => ?_⟩
    · rw [starts_finish_of_not hstart]
      exact hw.once other
    · rw [starts_finish_of_not hstart] at hone
      by_cases heq : other = id
      · subst heq
        by_cases hsame : (w.finish op other h a).provider.stateOf other =
            w.provider.stateOf other
        · rw [hsame]
          exact hw.left other hone
        · obtain ⟨htarget, -, hoverwrites⟩ := finish_target hsame
          rw [htarget]
          intro hcreated
          have hop : op = .recover := by
            by_contra hop
            exact target_ne_created hop (Option.some.inj hcreated)
          subst hop
          have herror : a.error = none := of_decide_eq_true (hoverwrites (by simp))
          have hzero := hinspect rfl herror (Option.some.inj hcreated)
          omega
      · rw [(finish_other heq).1]
        exact hw.left other hone

theorem Knows.createEnd {spec : TaskSpec} {waiting : Waiting} (hknows : Knows w waiting) :
    Knows (w.createEnd spec a) waiting := by
  cases waiting with
  | creation spec => trivial
  | operation op id h seen =>
      obtain ⟨hbegun, hle, hstate⟩ := hknows
      rw [Knows, w.createEnd_changes]
      refine ⟨hbegun, hle, fun hseen => ?_⟩
      have hs := hstate hseen
      rw [w.createEnd_stateOf spec a (TaskProvider.mem_of_stateOf hs), hs]

theorem StartedOnce.createEnd {spec : TaskSpec} (hw : StartedOnce w) :
    StartedOnce (w.createEnd spec a) := by
  rcases w.createEnd_cases spec a with ⟨hprovider, hstarts, -⟩ |
    ⟨hnew, h, -, hprovider, hstarts, -⟩
  · refine ⟨fun id => ?_, fun id hone => ?_⟩
    · rw [hstarts]
      exact hw.once id
    · rw [hprovider]
      rw [hstarts] at hone
      exact hw.left id hone
  · refine ⟨fun id => ?_, fun id hone => ?_⟩
    · rw [hstarts]
      by_cases heq : id = spec.taskID
      · rw [heq, Function.update_self]
        exact Nat.zero_le 1
      · rw [Function.update_of_ne heq]
        exact hw.once id
    · rw [hstarts] at hone
      by_cases heq : id = spec.taskID
      · rw [heq, Function.update_self] at hone
        omega
      · rw [Function.update_of_ne heq] at hone
        have hsame : (w.createEnd spec a).provider.stateOf id = w.provider.stateOf id := by
          rw [hprovider, TaskProvider.stateOf, AList.lookup_insert_ne heq]
          rfl
        rw [hsame]
        exact hw.left id hone

/-- The state of a task in a new process. -/
theorem restart_stateOf {saved : List SavedHandle} {t : TaskState}
    (ht : (w.restart saved).provider.stateOf id = some t) :
    ∃ s ∈ saved, s.usable = true ∧ s.handle.taskID = id ∧
      t = (w.provider.restored s.handle s.answer).state := by
  obtain ⟨h, hh, rfl⟩ := Option.map_eq_some_iff.mp ht
  rcases TaskProvider.restore_lookup hh with hnone | ⟨s, hs, husable, hid, heq⟩
  · cases hnone
  · refine ⟨s, hs, husable, hid, ?_⟩
    rw [heq]
    rfl

theorem StartedOnce.restart {saved : List SavedHandle} (hw : StartedOnce w)
    (hinspect : ∀ s ∈ saved, s.usable = true →
      (w.provider.restored s.handle s.answer).state = .created →
        w.starts s.handle.taskID = 0) : StartedOnce (w.restart saved) := by
  refine ⟨hw.once, fun id hone hcreated => ?_⟩
  obtain ⟨s, hs, husable, rfl, hstate⟩ := restart_stateOf hcreated
  have hzero := hinspect s hs husable hstate.symm
  change w.starts s.handle.taskID = 1 at hone
  omega

/-! ## Steps and runs -/

variable {c : System} {e : Event}

theorem holds_step (hc : Holds StartedOnce Knows c) (hcond : Undisturbed c e) :
    Holds StartedOnce Knows (c.step e) := by
  cases e with
  | turn turn =>
      change Holds StartedOnce Knows (sections.step c turn)
      refine hc.step ?_ ?_
      · intro request _
        simp only [sections]
        split
        · split
          · exact hc.ends
          · exact hc.waits trivial
        · split
          · exact hc.ends
          · rename_i hbegin
            obtain ⟨hlookup, hbegun⟩ := begin_ok hbegin
            exact hc.waits ⟨hbegun, le_refl _, fun _ => TaskProvider.stateOf_eq hlookup⟩
      · intro i a waiting hturn hmem hwaiting
        subst hturn
        cases waiting with
        | creation spec =>
            refine ⟨hc.shared.createEnd, ?_, fun other _ hother => hother.createEnd⟩
            intro _ hnext
            cases hnext
        | operation op id h seen =>
            obtain ⟨hseen, hinspect⟩ := hcond _ hwaiting
            refine ⟨hc.shared.finish (hc.waiting _ hmem) hseen hinspect, ?_,
              fun other _ hother => hother.finish⟩
            intro _ hnext
            cases hnext
  | restart saved =>
      refine ⟨hc.shared.restart fun s hs husable => (hcond s hs husable).2, ?_⟩
      intro waiting hmem
      cases hmem

theorem recovered_ne_unknown (inspection : TaskInspection) : inspection.recovered ≠ .unknown := by
  rw [TaskInspection.recovered]
  split
  · split
    · rename_i state _ hvalid
      intro hunknown
      rw [hunknown] at hvalid
      simp [validInspectedState] at hvalid
    · simp
  · simp

/-- A change of state by the last section of an operation that knows the state. -/
theorem permits_finish {seen : ℕ} {s t : TaskState}
    (hknows : Knows w (.operation op id h seen))
    (hseen : op.overwrites h a = true → seen = w.changes id)
    (hs : w.provider.stateOf id = some s)
    (ht : (w.finish op id h a).provider.stateOf id = some t) (hne : s ≠ t) :
    op.Permits s t ∧ (op ≠ .collect → seen = w.changes id) := by
  obtain ⟨hbegun, -, hstate⟩ := hknows
  have hchange : (w.finish op id h a).provider.stateOf id ≠ w.provider.stateOf id := by
    rw [hs, ht]
    exact fun heq => hne (Option.some.inj heq).symm
  obtain ⟨htarget, hcollect, hoverwrites⟩ := finish_target hchange
  obtain rfl : t = op.target h a := Option.some.inj (ht.symm.trans htarget)
  have hfound : op ≠ .collect → s = h.state := by
    intro hop
    have hknown := hstate (hseen (hoverwrites hop))
    exact Option.some.inj (hs.symm.trans hknown)
  refine ⟨?_, fun hop => hseen (hoverwrites hop)⟩
  cases op with
  | start =>
      obtain rfl := hfound (by simp)
      exact ⟨hbegun, rfl⟩
  | cancel =>
      obtain rfl := hfound (by simp)
      exact ⟨hbegun, rfl⟩
  | collect => exact ⟨Option.some.inj (hs.symm.trans (hcollect rfl)), rfl⟩
  | destroy =>
      obtain rfl := hfound (by simp)
      refine ⟨hbegun, ?_⟩
      rw [Operation.target]
      split
      · simp
      · simp
  | recover =>
      obtain rfl := hfound (by simp)
      exact ⟨hbegun, recovered_ne_unknown a.inspection⟩

theorem Operation.Permits.ne_destroyed {s t : TaskState} (hpermits : op.Permits s t) :
    s ≠ .destroyed := by
  cases op with
  | start =>
      rw [hpermits.1]
      simp
  | cancel =>
      rw [hpermits.1]
      simp
  | collect =>
      rw [hpermits.1]
      simp
  | destroy =>
      rintro rfl
      exact hpermits.1 (by simp)
  | recover => exact hpermits.1

/-- A change of state in a step that the condition covers. -/
theorem permits_step (hc : Holds StartedOnce Knows c) (hcond : Undisturbed c e) {id : Bytes}
    {s t : TaskState} (hs : c.shared.provider.stateOf id = some s)
    (ht : (c.step e).shared.provider.stateOf id = some t) (hne : s ≠ t) :
    c.Permits e s t ∧ s ≠ .destroyed ∧
      ∀ i a op other h seen, e = .turn (.resume i a) →
        c.waiting[i]? = some (.operation op other h seen) →
          (op = .collect → s = .running) ∧ (op ≠ .collect → seen = c.shared.changes id) := by
  have hmoved : (c.step e).shared.provider.stateOf id ≠ c.shared.provider.stateOf id := by
    rw [hs, ht]
    exact fun heq => hne (Option.some.inj heq).symm
  cases e with
  | turn turn =>
      cases turn with
      | arrive request =>
          rw [c.step_arrive] at hmoved
          exact absurd rfl hmoved
      | resume i a =>
          rw [c.step_resume] at hmoved ht
          cases hwaiting : c.waiting[i]? with
          | none =>
              rw [hwaiting] at hmoved
              exact absurd rfl hmoved
          | some waiting =>
              rw [hwaiting] at hmoved ht
              cases waiting with
              | creation spec =>
                  exact absurd (c.shared.createEnd_stateOf spec a
                    (TaskProvider.mem_of_stateOf hs)) hmoved
              | operation op other h seen =>
                  obtain rfl : id = other := by
                    by_contra hother
                    exact hmoved (finish_other hother).1
                  obtain ⟨hseen, -⟩ := hcond _ hwaiting
                  have hknows := hc.waiting _ (List.mem_of_getElem? hwaiting)
                  obtain ⟨hpermits, hwriter⟩ := permits_finish hknows hseen hs ht hne
                  refine ⟨?_, hpermits.ne_destroyed, ?_⟩
                  · rw [System.Permits, hwaiting]
                    exact hpermits
                  · intro j b op' other' h' seen' he hsame
                    obtain ⟨rfl, rfl⟩ : i = j ∧ a = b := by simpa using he
                    obtain ⟨rfl, rfl, rfl, rfl⟩ : op = op' ∧ id = other' ∧ h = h' ∧ seen = seen' := by
                      simpa using hwaiting.symm.trans hsame
                    refine ⟨?_, hwriter⟩
                    rintro rfl
                    exact hpermits.1
  | restart saved =>
      have hs' : s ≠ .destroyed := by
        rintro rfl
        obtain ⟨row, hrow, husable, rfl, hstate⟩ := restart_stateOf ht
        have hsaved := ((hcond row hrow husable).1 .destroyed hs).mpr rfl
        simp only [TaskProvider.restored, if_pos hsaved] at hstate
        exact hne (hsaved.symm.trans hstate.symm)
      refine ⟨hs', hs', ?_⟩
      intro i a op other h seen he
      cases he

theorem lawful_step (hc : Holds StartedOnce Knows c) (hcond : Undisturbed c e) : Lawful c e where
  path id s t hs ht hne := (permits_step hc hcond hs ht hne).1
  terminal id t hs ht := by
    by_contra hne
    exact (permits_step hc hcond hs ht (Ne.symm hne)).2.1 rfl
  settled i a op id h seen s t he hwaiting hs hsettled ht hne := by
    obtain ⟨-, -, hwriter⟩ := permits_step hc hcond hs ht hne
    obtain ⟨hcollect, hseen⟩ := hwriter i a op id h seen he hwaiting
    apply hseen
    rintro hop
    rw [hcollect hop] at hsettled
    simp at hsettled
  once id := (holds_step hc hcond).shared.once id

theorem holds_start (requireCapabilities inspects : Bool) :
    Holds StartedOnce Knows (System.start requireCapabilities inspects) := by
  refine ⟨⟨fun id => Nat.zero_le 1, fun id hone => ?_⟩, ?_⟩
  · cases hone
  · intro waiting hmem
    cases hmem

/-- In every run whose steps are all undisturbed, every step takes each task along its
lifecycle. -/
theorem lifecycle_followed (requireCapabilities inspects : Bool) (events : List Event)
    (hrun : Meets System.step Undisturbed (System.start requireCapabilities inspects) events) :
    Meets System.step Lawful (System.start requireCapabilities inspects) events := by
  have hboth := hrun.with_invariant (P := Holds StartedOnce Knows)
    (fun c e hc hcond => holds_step hc hcond) (holds_start requireCapabilities inspects)
  exact hboth.mono fun c e h => lawful_step h.2 h.1

/-- A task as a new process finds it saved, with what the backend says of it. -/
def savedTask (state : TaskState) (inspection : TaskInspection) : SavedHandle where
  handle := { taskID := bytes "t", sandboxID := bytes "s", state }
  answer := .ok inspection

/-- The task has been created and not started. -/
def createdTask : SavedHandle := savedTask .created ⟨true, some .created⟩

def operate (op : Operation) : Event := .turn (.arrive (.operate op (bytes "t")))

def answered (i : ℕ) : Event := .turn (.resume i {})

/-- A task is started and cancelled. -/
theorem lifecycle_followed_cancel :
    Meets System.step Lawful (System.start false true)
      [.restart [createdTask], operate .start, answered 0, operate .cancel, answered 0] :=
  lifecycle_followed false true _ (by decide +kernel)

/-- A task is destroyed while its `Start` waits for the backend, and then it runs. -/
theorem started_after_destroyed :
    ¬ Meets System.step Lawful (System.start false true)
      [.restart [createdTask], operate .start, operate .destroy, answered 0, answered 0] := by
  intro h
  have hlast := h.2.2.2.2.1
  have hrunning := hlast.terminal (bytes "t") .running (by decide +kernel) (by decide +kernel)
  cases hrunning

end WorkMesh.Sandbox
