import Mathlib

/-!
# Runs of a deterministic machine

A machine is a next-state function reading one input at a time. A run is the
fold over its inputs. Conditions on a run are conditions on each step, about
the state before it and its input; properties of a run come from one step by
the rules below.
-/

namespace StateMachine

variable {σ ι β : Type*} (next : σ → ι → σ)

/-- The state after a list of inputs. -/
def run (s : σ) (inputs : List ι) : σ := inputs.foldl next s

@[simp] theorem run_nil (s : σ) : run next s [] = s := rfl

@[simp] theorem run_cons (s : σ) (i : ι) (inputs : List ι) :
    run next s (i :: inputs) = run next (next s i) inputs := rfl

theorem run_append (s : σ) (first second : List ι) :
    run next s (first ++ second) = run next (run next s first) second :=
  List.foldl_append

/-- Every step of the run meets a condition on the state before it and its input. -/
def Meets (C : σ → ι → Prop) : σ → List ι → Prop
  | _, [] => True
  | s, i :: inputs => C s i ∧ Meets C (next s i) inputs

variable {next} {C D : σ → ι → Prop}

instance Meets.decidable [∀ s i, Decidable (C s i)] :
    ∀ (s : σ) (inputs : List ι), Decidable (Meets next C s inputs)
  | _, [] => .isTrue trivial
  | s, i :: inputs => by
      have := Meets.decidable (next s i) inputs
      exact inferInstanceAs (Decidable (C s i ∧ Meets next C (next s i) inputs))

theorem Meets.mono (hCD : ∀ s i, C s i → D s i) {s : σ} {inputs : List ι}
    (h : Meets next C s inputs) : Meets next D s inputs := by
  induction inputs generalizing s with
  | nil => trivial
  | cons i inputs ih => exact ⟨hCD s i h.1, ih h.2⟩

theorem meets_append {s : σ} {first second : List ι} :
    Meets next C s (first ++ second) ↔
      Meets next C s first ∧ Meets next C (run next s first) second := by
  induction first generalizing s with
  | nil => simp [Meets]
  | cons i first ih => simp [Meets, ih, and_assoc]

theorem meets_true (s : σ) (inputs : List ι) : Meets next (fun _ _ => True) s inputs := by
  induction inputs generalizing s with
  | nil => trivial
  | cons i inputs ih => exact ⟨trivial, ih _⟩

theorem Meets.and {s : σ} {inputs : List ι} (hC : Meets next C s inputs)
    (hD : Meets next D s inputs) : Meets next (fun s i => C s i ∧ D s i) s inputs := by
  induction inputs generalizing s with
  | nil => trivial
  | cons i inputs ih => exact ⟨⟨hC.1, hD.1⟩, ih hC.2 hD.2⟩

/-- A property that each step keeps under the condition holds after the run. -/
theorem run_invariant {P : σ → Prop} (hstep : ∀ s i, P s → C s i → P (next s i))
    {s : σ} {inputs : List ι} (hs : P s) (hm : Meets next C s inputs) :
    P (run next s inputs) := by
  induction inputs generalizing s with
  | nil => exact hs
  | cons i inputs ih => exact ih (hstep s i hs hm.1) hm.2

/-- A property that every step keeps holds after every run. -/
theorem run_preserves {P : σ → Prop} (hstep : ∀ s i, P s → P (next s i))
    {s : σ} (hs : P s) (inputs : List ι) : P (run next s inputs) :=
  run_invariant (C := fun _ _ => True) (fun s i h _ => hstep s i h) hs (meets_true s inputs)

/-- Condition and invariant together hold at every step of a run. -/
theorem Meets.with_invariant {P : σ → Prop}
    (hstep : ∀ s i, P s → C s i → P (next s i)) {s : σ} {inputs : List ι} (hs : P s)
    (hm : Meets next C s inputs) : Meets next (fun s i => C s i ∧ P s) s inputs := by
  induction inputs generalizing s with
  | nil => trivial
  | cons i inputs ih => exact ⟨⟨hm.1, hs⟩, ih (hstep s i hs hm.1) hm.2⟩

/-- Two conditions that agree wherever an invariant of one of them holds are met by the
same runs. -/
theorem meets_congr {P : σ → Prop} (hstep : ∀ s i, P s → C s i → P (next s i))
    (hcongr : ∀ s i, P s → (D s i ↔ C s i)) {s : σ} {inputs : List ι} (hs : P s) :
    Meets next D s inputs ↔ Meets next C s inputs := by
  induction inputs generalizing s with
  | nil => exact Iff.rfl
  | cons i inputs ih =>
      constructor
      · rintro ⟨hi, hrest⟩
        have hcond := (hcongr s i hs).mp hi
        exact ⟨hcond, (ih (hstep s i hs hcond)).mp hrest⟩
      · rintro ⟨hi, hrest⟩
        exact ⟨(hcongr s i hs).mpr hi, (ih (hstep s i hs hi)).mpr hrest⟩

variable (next) in
/-- What a run emits, one list for each step. -/
def outputs (emit : σ → ι → List β) : σ → List ι → List β
  | _, [] => []
  | s, i :: inputs => emit s i ++ outputs emit (next s i) inputs

theorem outputs_append (emit : σ → ι → List β) (s : σ) (first second : List ι) :
    outputs next emit s (first ++ second) =
      outputs next emit s first ++ outputs next emit (run next s first) second := by
  induction first generalizing s with
  | nil => rfl
  | cons i first ih => simp [outputs, ih]

end StateMachine
