import Mathlib.Tactic.Basic

/-!
# Programs whose steps may fail

A program changes a state and may end in an error; what it changed before the
error stays changed. At most one of its steps fails by itself: the state carries
how many steps go well before that one. A program that catches an error goes on
with steps that go well, as those that undo the changes do.
-/

namespace StateMachine

/-- A state, and how many of the steps to come go well before the one that fails. -/
structure Strained (σ : Type) where
  state : σ
  fault : Option Nat := none

/-- The programs over a state. -/
abbrev Fallible (ε σ : Type) := EStateM ε (Strained σ)

namespace Fallible

variable {ε σ α β ι : Type}

/-- A step that fails when its turn has come. -/
def step (e : ε) : Fallible ε σ Unit := fun s =>
  match s.fault with
  | none => .ok () s
  | some 0 => .error e { s with fault := none }
  | some (n + 1) => .ok () { s with fault := some n }

/-- Read the state. -/
def look (f : σ → α) : Fallible ε σ α := fun s => .ok (f s.state) s

/-- Change the state. -/
def change (f : σ → σ) : Fallible ε σ Unit := fun s => .ok () { s with state := f s.state }

/-- The value of an option, or an error. -/
def demand (e : ε) : Option α → Fallible ε σ α
  | some a => pure a
  | none => throw e

/-- The value of a check, or its error. -/
def accept : Except ε α → Fallible ε σ α
  | .ok a => pure a
  | .error e => throw e

/-- Run a program and hand over its error as a value. The steps after an error go well. -/
def attempt (m : Fallible ε σ α) : Fallible ε σ (Except ε α) := fun s =>
  match m s with
  | .ok a t => .ok (.ok a) t
  | .error e t => .ok (.error e) { t with fault := none }

/-- The value or the error of a program, and the state it ends in. -/
def outcome (m : Fallible ε σ α) (s : Strained σ) : Except ε α × Strained σ :=
  match m s with
  | .ok a t => (.ok a, t)
  | .error e t => (.error e, t)

/-! ## Equations -/

@[simp] theorem outcome_pure (a : α) (s : Strained σ) :
    outcome (pure a : Fallible ε σ α) s = (.ok a, s) := rfl

@[simp] theorem outcome_throw (e : ε) (s : Strained σ) :
    outcome (throw e : Fallible ε σ α) s = (.error e, s) := rfl

@[simp] theorem outcome_look (f : σ → α) (s : Strained σ) :
    outcome (look f : Fallible ε σ α) s = (.ok (f s.state), s) := rfl

@[simp] theorem outcome_change (f : σ → σ) (s : Strained σ) :
    outcome (change f : Fallible ε σ Unit) s = (.ok (), { s with state := f s.state }) := rfl

theorem outcome_bind (m : Fallible ε σ α) (f : α → Fallible ε σ β) (s : Strained σ) :
    outcome (m >>= f) s =
      match outcome m s with
      | (.ok a, t) => outcome (f a) t
      | (.error e, t) => (.error e, t) := by
  change outcome (EStateM.bind m f) s = _
  unfold outcome EStateM.bind
  cases m s <;> rfl

theorem outcome_bind_ok {m : Fallible ε σ α} {f : α → Fallible ε σ β} {s t : Strained σ} {a : α}
    (h : outcome m s = (.ok a, t)) : outcome (m >>= f) s = outcome (f a) t := by
  rw [outcome_bind, h]

theorem outcome_bind_error {m : Fallible ε σ α} {f : α → Fallible ε σ β} {s t : Strained σ}
    {e : ε} (h : outcome m s = (.error e, t)) : outcome (m >>= f) s = (.error e, t) := by
  rw [outcome_bind, h]

theorem outcome_look_bind (g : σ → α) (f : α → Fallible ε σ β) (s : Strained σ) :
    outcome (look g >>= f) s = outcome (f (g s.state)) s := rfl

theorem outcome_change_bind (g : σ → σ) (f : Unit → Fallible ε σ β) (s : Strained σ) :
    outcome (change g >>= f) s = outcome (f ()) { s with state := g s.state } := rfl

theorem outcome_some_bind (e : ε) (a : α) (f : α → Fallible ε σ β) (s : Strained σ) :
    outcome (demand e (some a) >>= f) s = outcome (f a) s := rfl

theorem outcome_none_bind (e : ε) (f : α → Fallible ε σ β) (s : Strained σ) :
    outcome (demand e none >>= f) s = (.error e, s) := rfl

theorem outcome_refuse_bind (e : ε) (f : α → Fallible ε σ β) (s : Strained σ) :
    outcome (accept (.error e) >>= f) s = (.error e, s) := rfl

theorem outcome_attempt (m : Fallible ε σ α) (s : Strained σ) :
    outcome (attempt m) s =
      match outcome m s with
      | (.ok a, t) => (.ok (.ok a), t)
      | (.error e, t) => (.ok (.error e), { t with fault := none }) := by
  unfold outcome attempt
  cases m s <;> rfl

theorem outcome_attempt_ok {m : Fallible ε σ α} {s t : Strained σ} {a : α}
    (h : outcome m s = (.ok a, t)) : outcome (attempt m) s = (.ok (.ok a), t) := by
  rw [outcome_attempt, h]

theorem outcome_attempt_error {m : Fallible ε σ α} {s t : Strained σ} {e : ε}
    (h : outcome m s = (.error e, t)) :
    outcome (attempt m) s = (.ok (.error e), { t with fault := none }) := by
  rw [outcome_attempt, h]

/-- A step puts a later failure off by one. -/
theorem outcome_step_later (e : ε) (state : σ) (fault : Option Nat) :
    outcome (step e) ⟨state, fault.map (· + 1)⟩ = (.ok (), ⟨state, fault⟩) := by
  cases fault <;> rfl

theorem step_state (e : ε) (s : Strained σ) : (outcome (step e) s).2.state = s.state := by
  unfold outcome step
  match hfault : s.fault with
  | none | some 0 | some (n + 1) => rfl

/-! ## Invariants

What every part of a program keeps is kept by the program, whether it ends well
or not.
-/

/-- From a state with the property the program leads to states with it. -/
def Keeps (P : σ → Prop) (m : Fallible ε σ α) : Prop :=
  ∀ s, P s.state → P (outcome m s).2.state

/-- What the program gives from a state with the property. -/
def Yields (P : σ → Prop) (m : Fallible ε σ α) (A : α → Prop) : Prop :=
  ∀ s a t, P s.state → outcome m s = (.ok a, t) → A a

section Keeps
variable {P : σ → Prop} {m : Fallible ε σ α} {f : α → Fallible ε σ β}

theorem keeps_pure (a : α) : Keeps P (pure a : Fallible ε σ α) := fun _ h => h

theorem keeps_throw (e : ε) : Keeps P (throw e : Fallible ε σ α) := fun _ h => h

theorem keeps_look (f : σ → α) : Keeps P (look f : Fallible ε σ α) := fun _ h => h

theorem keeps_step (e : ε) : Keeps P (step e : Fallible ε σ Unit) := by
  intro s h
  rwa [step_state]

theorem keeps_change {f : σ → σ} (h : ∀ s, P s → P (f s)) :
    Keeps P (change f : Fallible ε σ Unit) := fun s hs => h s.state hs

theorem Keeps.attempt (h : Keeps P m) : Keeps P (attempt m) := by
  intro s hs
  have hm := h s hs
  rw [outcome_attempt]
  split <;> simp_all

theorem Keeps.bind_of {A : α → Prop} (hm : Keeps P m) (hA : Yields P m A)
    (hf : ∀ a, A a → Keeps P (f a)) : Keeps P (m >>= f) := by
  intro s hs
  have hfirst := hm s hs
  rw [outcome_bind]
  split
  · rename_i a t heq
    rw [heq] at hfirst
    exact hf a (hA s a t hs heq) t hfirst
  · rename_i e t heq
    rwa [heq] at hfirst

theorem Keeps.bind (hm : Keeps P m) (hf : ∀ a, Keeps P (f a)) : Keeps P (m >>= f) :=
  hm.bind_of (A := fun _ => True) (fun _ _ _ _ _ => trivial) fun a _ => hf a

theorem keeps_look_bind {g : σ → α} (h : ∀ s, P s → Keeps P (f (g s))) :
    Keeps P (look g >>= f) := fun s hs => h s.state hs s hs

theorem keeps_demand_bind {e : ε} {a : Option α} (h : ∀ b, a = some b → Keeps P (f b)) :
    Keeps P (demand e a >>= f) := by
  cases a with
  | none => exact keeps_throw e
  | some b => exact h b rfl

theorem keeps_forM {visit : ι → Fallible ε σ Unit} {items : List ι}
    (h : ∀ i ∈ items, Keeps P (visit i)) : Keeps P (items.forM visit) := by
  induction items with
  | nil => exact keeps_pure ()
  | cons i items ih =>
      change Keeps P (visit i >>= fun _ => items.forM visit)
      exact (h i List.mem_cons_self).bind fun _ =>
        ih fun j hj => h j (List.mem_cons_of_mem _ hj)

end Keeps

/-! ## What a program ends with -/

/-- From a state with the property the program ends in one value and state, or in one error and
state. -/
def Ends (P : σ → Prop) (m : Fallible ε σ α) (Q : α → σ → Prop) (E : ε → σ → Prop) : Prop :=
  ∀ s, P s.state →
    match outcome m s with
    | (.ok a, t) => Q a t.state
    | (.error e, t) => E e t.state

section Ends
variable {P : σ → Prop} {m : Fallible ε σ α} {f : α → Fallible ε σ β} {Q : α → σ → Prop}
  {R : β → σ → Prop} {E : ε → σ → Prop}

theorem Ends.bind (hm : Ends P m Q E) (hf : ∀ a, Ends (Q a) (f a) R E) :
    Ends P (m >>= f) R E := by
  intro s hs
  have hfirst := hm s hs
  rw [outcome_bind]
  split
  · rename_i h
    split at h
    · rename_i a t heq
      rw [heq] at hfirst
      have hrest := hf a t hfirst
      rwa [h] at hrest
    · cases h
  · rename_i h
    split at h
    · rename_i a t heq
      rw [heq] at hfirst
      have hrest := hf a t hfirst
      rwa [h] at hrest
    · rename_i e t heq
      rw [heq] at hfirst
      cases h
      exact hfirst

theorem ends_forM {J : σ → Prop} {visit : ι → Fallible ε σ Unit} {items : List ι}
    (h : ∀ i ∈ items, Ends J (visit i) (fun _ => J) E) :
    Ends J (items.forM visit) (fun _ => J) E := by
  induction items with
  | nil => exact fun s hs => hs
  | cons i items ih =>
      change Ends J (visit i >>= fun _ => items.forM visit) _ _
      exact (h i List.mem_cons_self).bind fun _ =>
        ih fun j hj => h j (List.mem_cons_of_mem _ hj)

theorem Ends.ok (h : Ends P m Q E) {s t : Strained σ} {a : α} (hs : P s.state)
    (hout : outcome m s = (.ok a, t)) : Q a t.state := by
  have hm := h s hs
  rwa [hout] at hm

theorem Ends.error (h : Ends P m Q E) {s t : Strained σ} {e : ε} (hs : P s.state)
    (hout : outcome m s = (.error e, t)) : E e t.state := by
  have hm := h s hs
  rwa [hout] at hm

end Ends

end Fallible

end StateMachine
