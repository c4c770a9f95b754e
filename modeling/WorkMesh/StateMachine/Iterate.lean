import Mathlib

/-!
# Passes repeated until nothing changes

A pass visits a list of items in order; a visit may change the state and says
whether it did. A loop repeats the pass until a pass reports no change. When
every change lowers a measure, the loop reaches a state that the pass leaves
alone, within a number of passes that the measure bounds.
-/

namespace StateMachine

variable {σ ι : Type*}

/-- Visit the items in order and report whether any visit changed the state. -/
def visitAll (visit : σ → ι → σ × Bool) : List ι → σ → σ × Bool
  | [], s => (s, false)
  | i :: items, s =>
      let first := visit s i
      let rest := visitAll visit items first.1
      (rest.1, first.2 || rest.2)

/-- Repeat a pass until it reports no change, at most `n` times. -/
def repeatPass (pass : σ → σ × Bool) : Nat → σ → σ
  | 0, s => s
  | n + 1, s => if (pass s).2 then repeatPass pass n (pass s).1 else (pass s).1

/-- A loop over the indices that rewrites each record in place rewrites them all. -/
theorem foldl_range_map {α : Type*} {r : σ → List α} {f : α → α} {visit : σ → Nat → σ}
    (hvisit : ∀ s i a, (r s)[i]? = some a → r (visit s i) = (r s).set i (f a))
    (s : σ) :
    r ((List.range (r s).length).foldl visit s) = (r s).map f := by
  have hdone : ∀ n ≤ (r s).length,
      r ((List.range n).foldl visit s) =
        ((r s).map f).take n ++ (r s).drop n := by
    intro n hn
    induction n with
    | zero => simp
    | succ n ih =>
        have ih := ih (by omega)
        have hlen : (((r s).map f).take n).length = n := by simp; omega
        have hget : (r ((List.range n).foldl visit s))[n]? =
            some ((r s).get ⟨n, by omega⟩) := by
          rw [ih, List.getElem?_append_right (by omega), hlen, Nat.sub_self]
          simp [List.getElem?_drop]
        rw [List.range_succ, List.foldl_append, List.foldl_cons, List.foldl_nil,
          hvisit _ n _ hget, ih, List.drop_eq_getElem_cons (by omega),
          List.set_append_right _ _ (by omega), hlen, Nat.sub_self, List.set_cons_zero,
          List.take_add_one]
        simp [List.getElem?_eq_getElem (show n < (r s).length by omega)]
  rw [hdone _ (Nat.le_refl _), List.drop_length, List.append_nil,
    List.take_of_length_le (by simp)]

section Visit
variable {visit : σ → ι → σ × Bool} {P : σ → Prop}

theorem visitAll_preserves (hvisit : ∀ s i, P s → P (visit s i).1) (items : List ι) {s : σ}
    (hs : P s) : P (visitAll visit items s).1 := by
  induction items generalizing s with
  | nil => exact hs
  | cons i items ih => exact ih (hvisit s i hs)

/-- A pass without a change leaves the state alone at every item. -/
theorem visitAll_unchanged (hsame : ∀ s i, (visit s i).2 = false → (visit s i).1 = s)
    {items : List ι} {s : σ} (h : (visitAll visit items s).2 = false) :
    (visitAll visit items s).1 = s ∧ ∀ i ∈ items, (visit s i).2 = false := by
  induction items generalizing s with
  | nil => exact ⟨rfl, by simp⟩
  | cons i items ih =>
      simp only [visitAll, Bool.or_eq_false_iff] at h
      have hi := hsame s i h.1
      obtain ⟨hrest, hall⟩ := ih h.2
      rw [hi] at hrest hall
      refine ⟨by simp only [visitAll, hi, hrest], ?_⟩
      intro j hj
      rcases List.mem_cons.mp hj with rfl | hj
      · exact h.1
      · exact hall j hj

/-- A pass that reports a change has lowered the measure. -/
theorem visitAll_decreases {m : σ → Nat}
    (hsame : ∀ s i, (visit s i).2 = false → (visit s i).1 = s)
    (hkeep : ∀ s i, P s → P (visit s i).1)
    (hdec : ∀ s i, P s → (visit s i).2 = true → m (visit s i).1 < m s)
    (items : List ι) {s : σ} (hs : P s) :
    m (visitAll visit items s).1 ≤ m s ∧
      ((visitAll visit items s).2 = true → m (visitAll visit items s).1 < m s) := by
  induction items generalizing s with
  | nil => exact ⟨Nat.le_refl _, by simp [visitAll]⟩
  | cons i items ih =>
      obtain ⟨hle, hlt⟩ := ih (hkeep s i hs)
      simp only [visitAll, Bool.or_eq_true]
      cases hv : (visit s i).2 with
      | false =>
          rw [hsame s i hv] at hle hlt ⊢
          exact ⟨hle, by simpa using hlt⟩
      | true =>
          have hi := hdec s i hs hv
          exact ⟨by omega, fun _ => by omega⟩

end Visit

section Repeat
variable {pass : σ → σ × Bool} {P : σ → Prop}

theorem repeatPass_preserves (hpass : ∀ s, P s → P (pass s).1) (n : Nat) {s : σ}
    (hs : P s) : P (repeatPass pass n s) := by
  induction n generalizing s with
  | zero => exact hs
  | succ n ih =>
      simp only [repeatPass]
      split
      · exact ih (hpass s hs)
      · exact hpass s hs

/-- Enough rounds for the measure end in a state that the pass leaves alone. -/
theorem repeatPass_settles {m : σ → Nat} (hkeep : ∀ s, P s → P (pass s).1)
    (hsame : ∀ s, (pass s).2 = false → (pass s).1 = s)
    (hdec : ∀ s, P s → (pass s).2 = true → m (pass s).1 < m s)
    {n : Nat} {s : σ} (hs : P s) (hn : m s < n) :
    pass (repeatPass pass n s) = (repeatPass pass n s, false) := by
  induction n generalizing s with
  | zero => omega
  | succ n ih =>
      simp only [repeatPass]
      cases hp : (pass s).2 with
      | true =>
          have hlt := hdec s hs hp
          simpa using ih (hkeep s hs) (by omega)
      | false =>
          have heq := hsame s hp
          simpa [heq] using Prod.ext heq hp

/-- A state that the pass leaves alone is left alone by the loop. -/
theorem repeatPass_of_settled {s : σ} (h : pass s = (s, false)) (n : Nat) :
    repeatPass pass n s = s := by
  cases n with
  | zero => rfl
  | succ n => simp [repeatPass, h]

/-- Once the loop has come to rest, further rounds change nothing. -/
theorem repeatPass_add {n : Nat} {s : σ}
    (h : pass (repeatPass pass n s) = (repeatPass pass n s, false)) (k : Nat) :
    repeatPass pass (n + k) s = repeatPass pass n s := by
  induction n generalizing s with
  | zero =>
      rw [Nat.zero_add]
      exact repeatPass_of_settled h k
  | succ n ih =>
      rw [Nat.add_right_comm]
      simp only [repeatPass] at h ⊢
      split_ifs at h ⊢ with hpass
      · exact ih h
      · rfl

end Repeat

end StateMachine
