import WorkMesh.Sandbox.Lifecycle

/-!
# Destroyed tasks and their sandboxes

`Destroy` does not call the backend for a task that awaits a human: its
sandbox is taken to be destroyed already. A task comes to that state when its
files could not be removed after the sandbox was destroyed, when an inspection
does not find the sandbox, and also when an inspection finds one whose state
is called so, or, with a backend that lets it through, a state that the
provider does not know.
-/

namespace WorkMesh.Sandbox

open Encoding StateMachine

/-- The states that `Destroy` leads to. -/
def TaskState.ended : TaskState → Bool
  | .awaitingHuman | .destroyed => true
  | _ => false

/-- A sandbox that is found is in a state that the provider knows, and it is neither destroyed
nor waiting for a human. -/
def TaskInspection.Telling (inspection : TaskInspection) : Prop :=
  inspection.found = true → inspection.recovered.ended = false

def Answer.Telling (a : Answer) : Waiting → Prop
  | .operation .recover _ _ _ => a.error = none → a.inspection.Telling
  | _ => True

/-- A row says destroyed only of a task that was, and the inspection is telling. -/
def SavedHandle.Telling (w : World) (saved : SavedHandle) : Prop :=
  (saved.handle.state = .destroyed → w.reported saved.handle.taskID = true) ∧
    ∀ inspection ∈ saved.answer.toOption, inspection.Telling

/-- The condition on one event. -/
def Telling (c : System) : Event → Prop
  | .turn (.arrive _) => True
  | .turn (.resume i a) => ∀ waiting ∈ c.waiting[i]?, a.Telling waiting
  | .restart saved => ∀ s ∈ saved, s.usable = true → s.Telling c.shared

instance : DecidablePred TaskInspection.Telling := fun inspection =>
  inferInstanceAs (Decidable (inspection.found = true → inspection.recovered.ended = false))

instance (a : Answer) : DecidablePred a.Telling := fun
  | .operation .recover _ _ _ =>
      inferInstanceAs (Decidable (a.error = none → a.inspection.Telling))
  | .operation .start _ _ _ | .operation .cancel _ _ _ | .operation .collect _ _ _
  | .operation .destroy _ _ _ | .creation _ => .isTrue trivial

instance (w : World) : DecidablePred (SavedHandle.Telling w) := fun saved =>
  inferInstanceAs (Decidable (
    (saved.handle.state = .destroyed → w.reported saved.handle.taskID = true) ∧
      ∀ inspection ∈ saved.answer.toOption, inspection.Telling))

instance (c : System) : DecidablePred (Telling c) := fun
  | .turn (.arrive _) => .isTrue trivial
  | .turn (.resume i a) =>
      inferInstanceAs (Decidable (∀ waiting ∈ c.waiting[i]?, a.Telling waiting))
  | .restart saved =>
      inferInstanceAs (Decidable (∀ s ∈ saved, s.usable = true → s.Telling c.shared))

/-! ## The invariant -/

/-- A task that `Destroy` can have led to its state has no sandbox any more. -/
structure Accounted (w : World) : Prop where
  ended : ∀ id s, w.provider.stateOf id = some s → s.ended = true → w.gone id = true
  reported : ∀ id, w.reported id = true → w.gone id = true

/-- Its task is there, and a `Destroy` that will not call the backend does not have to. -/
def Entitled (w : World) : Waiting → Prop
  | .creation _ => True
  | .operation op id h _ =>
      id ∈ w.provider.tasks ∧ (op = .destroy → h.state = .awaitingHuman → w.gone id = true)

variable {w : World} {op : Operation} {id : Bytes} {h : TaskHandle} {a : Answer}

theorem finish_gone (hgone : w.gone id = true) (other : Bytes) :
    (w.finish op other h a).gone id = true := by
  simp only [World.finish]
  by_cases heq : id = other
  · rw [heq, Function.update_self, ← heq, hgone, Bool.true_or]
  · rw [Function.update_of_ne heq, hgone]

theorem finish_shows (hshows : op.shows h a = true) : (w.finish op id h a).gone id = true := by
  simp only [World.finish, Function.update_self, hshows, Bool.or_true]

/-- Where an operation leads to an end, it knows that the sandbox is gone. -/
theorem gone_of_target {seen : ℕ} (hentitled : Entitled w (.operation op id h seen))
    (htelling : a.Telling (.operation op id h seen))
    (hdestroy : op = .destroy → h.state = .awaitingHuman ∨ a.error = none)
    (herror : op ≠ .destroy → a.error = none) (hended : (op.target h a).ended = true) :
    (w.finish op id h a).gone id = true := by
  cases op with
  | start => cases hended
  | cancel => cases hended
  | collect => cases hended
  | destroy =>
      by_cases hstate : h.state = .awaitingHuman
      · exact finish_gone (hentitled.2 rfl hstate) id
      · have hdone : a.error = none := (hdestroy rfl).resolve_left hstate
        apply finish_shows
        simp [Operation.shows, hstate, hdone]
  | recover =>
      have hok : a.error = none := herror (by simp)
      have hmissing : a.inspection.found = false := by
        by_contra hfound
        have hnot := htelling hok (Bool.eq_true_of_not_eq_false hfound)
        exact Bool.false_ne_true (hnot.symm.trans hended)
      apply finish_shows
      simp [Operation.shows, hok, hmissing]

theorem Accounted.finish {seen : ℕ} (hw : Accounted w)
    (hentitled : Entitled w (.operation op id h seen))
    (htelling : a.Telling (.operation op id h seen)) : Accounted (w.finish op id h a) := by
  have hends : ∀ s, (w.finish op id h a).provider.stateOf id = some s → s.ended = true →
      (w.finish op id h a).gone id = true := by
    intro s hs hended
    change (op.finish w.provider id h a).stateOf id = some s at hs
    rcases op.finish_cases w.provider id h a with heq | ⟨heq, -, hdestroy, herror⟩
    · rw [heq] at hs
      exact finish_gone (hw.ended id s hs hended) id
    · rw [heq, TaskProvider.stateOf_setState, if_pos rfl] at hs
      obtain ⟨-, -, rfl⟩ := Option.map_eq_some_iff.mp hs
      exact gone_of_target hentitled htelling hdestroy herror hended
  constructor
  · intro other s hs hended
    by_cases heq : other = id
    · subst heq
      exact hends s hs hended
    · rw [(finish_other heq).1] at hs
      exact finish_gone (hw.ended other s hs hended) id
  · intro other hreported
    by_cases heq : other = id
    · subst heq
      simp only [World.finish, Function.update_self, Bool.or_eq_true, decide_eq_true_eq]
        at hreported
      rcases hreported with hbefore | hnow
      · exact finish_gone (hw.reported other hbefore) other
      · exact hends .destroyed hnow rfl
    · simp only [World.finish, Function.update_of_ne heq] at hreported
      exact finish_gone (hw.reported other hreported) id

theorem Entitled.finish {waiting : Waiting} (hentitled : Entitled w waiting) :
    Entitled (w.finish op id h a) waiting := by
  cases waiting with
  | creation spec => trivial
  | operation op' other h' seen =>
      obtain ⟨hmem, hgone⟩ := hentitled
      refine ⟨?_, fun hop hstate => finish_gone (hgone hop hstate) id⟩
      exact (op.finish_tasks w.provider id h a other).mpr hmem

theorem Accounted.createEnd (hw : Accounted w) (spec : TaskSpec) (a : Answer) :
    Accounted (w.createEnd spec a) := by
  rcases w.createEnd_cases spec a with ⟨hprovider, -, hgone, hreported⟩ |
    ⟨-, h, hcreated, hprovider, -, hgone, hreported⟩
  · constructor
    · rw [hprovider, hgone]
      exact hw.ended
    · rw [hreported, hgone]
      exact hw.reported
  · constructor
    · intro id s hs hended
      rw [hprovider, TaskProvider.stateOf, Table.lookup_insert] at hs
      rw [hgone]
      split at hs
      · have hs' : h.state = s := Option.some.inj hs
        rw [← hs', hcreated] at hended
        cases hended
      · rename_i hne
        rw [Function.update_of_ne hne]
        exact hw.ended id s hs hended
    · intro id hid
      rw [hreported] at hid
      rw [hgone]
      by_cases heq : id = spec.taskID
      · rw [heq, Function.update_self] at hid
        cases hid
      · rw [Function.update_of_ne heq] at hid ⊢
        exact hw.reported id hid

theorem Entitled.createEnd {waiting : Waiting} (hentitled : Entitled w waiting)
    (spec : TaskSpec) (a : Answer) : Entitled (w.createEnd spec a) waiting := by
  cases waiting with
  | creation spec => trivial
  | operation op id h seen =>
      obtain ⟨hmem, hgone⟩ := hentitled
      rcases w.createEnd_cases spec a with ⟨hprovider, -, hsame, -⟩ |
        ⟨hnew, h', -, hprovider, -, hsame, -⟩
      · rw [Entitled, hprovider, hsame]
        exact ⟨hmem, hgone⟩
      · have hne : id ≠ spec.taskID := by
          rintro rfl
          exact hnew hmem
        rw [Entitled, hprovider, hsame, Function.update_of_ne hne]
        exact ⟨(AList.mem_insert _).mpr (.inr hmem), hgone⟩

theorem Accounted.restart {saved : List SavedHandle} (hw : Accounted w)
    (htelling : ∀ s ∈ saved, s.usable = true → s.Telling w) : Accounted (w.restart saved) := by
  constructor
  · intro id t ht hended
    obtain ⟨s, hs, husable, rfl, hstate⟩ := restart_stateOf ht
    obtain ⟨hdestroyed, hfound⟩ := htelling s hs husable
    change (w.gone s.handle.taskID || _) = true
    rw [Bool.or_eq_true]
    simp only [TaskProvider.restored] at hstate
    split at hstate
    · rename_i hrow
      exact .inl (hw.reported _ (hdestroyed hrow))
    · rename_i hrow
      split at hstate
      · rename_i hinspects
        cases hanswer : s.answer with
        | error e =>
            rw [hanswer] at hstate
            rw [hstate] at hended
            cases hended
        | ok inspection =>
            rw [hanswer] at hstate
            have hmissing : inspection.found = false := by
              by_contra hthere
              have hnot := hfound inspection (by rw [hanswer]; rfl)
                (Bool.eq_true_of_not_eq_false hthere)
              rw [hstate, hnot] at hended
              cases hended
            refine .inr (List.any_eq_true.mpr ⟨s, hs, ?_⟩)
            simp [SavedHandle.showsGone, husable, hrow, hinspects, hanswer, hmissing]
      · rw [hstate] at hended
        cases hended
  · intro id hid
    change (w.gone id || _) = true
    rw [hw.reported id hid, Bool.true_or]

/-! ## Runs -/

end WorkMesh.Sandbox
