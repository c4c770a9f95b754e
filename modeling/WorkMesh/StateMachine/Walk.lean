import Mathlib.Data.Finmap
import Mathlib.Data.List.Sort

/-!
# Walking the keys of a map

A loop over a map visits its keys in an order that nothing fixes. The order is
given as a hint: the keys that the hint names come first, in its order, and the
others follow in increasing order. Every order is the walk of some hint.
-/

namespace StateMachine

variable {κ : Type} [DecidableEq κ] [LE κ] [DecidableLE κ]
  [Std.Total (fun a b : κ => a ≤ b)] [Std.Antisymm (fun a b : κ => a ≤ b)]
  [IsTrans κ fun a b => a ≤ b]

/-- The elements of a finite set in increasing order. -/
def increasing (s : Finset κ) : List κ :=
  Quot.liftOn s.val (fun l => l.insertionSort fun a b => a ≤ b) fun _ _ h =>
    ((List.perm_insertionSort _ _).trans (h.trans (List.perm_insertionSort _ _).symm)).eq_of_pairwise
      (fun _ _ _ _ => Std.Antisymm.antisymm _ _)
      (List.pairwise_insertionSort _ _) (List.pairwise_insertionSort _ _)

omit [DecidableEq κ] in
theorem coe_increasing (s : Finset κ) : (increasing s : Multiset κ) = s.val := by
  obtain ⟨l, hl⟩ := s
  induction l using Quot.inductionOn with
  | h l => exact Quot.sound (List.perm_insertionSort _ l)

omit [DecidableEq κ] in
@[simp] theorem mem_increasing {s : Finset κ} {k : κ} : k ∈ increasing s ↔ k ∈ s := by
  rw [← Multiset.mem_coe, coe_increasing]
  rfl

/-- The keys in the order that a hint gives. -/
def walk (hint : List κ) (s : Finset κ) : List κ :=
  hint.dedup.filter (· ∈ s) ++ increasing (s \ hint.toFinset)

@[simp] theorem mem_walk {hint : List κ} {s : Finset κ} {k : κ} : k ∈ walk hint s ↔ k ∈ s := by
  simp only [walk, List.mem_append, List.mem_filter, List.mem_dedup, decide_eq_true_eq,
    mem_increasing, Finset.mem_sdiff, List.mem_toFinset]
  tauto

theorem walk_of_nodup {hint : List κ} {s : Finset κ} (hnodup : hint.Nodup)
    (hmem : ∀ k ∈ hint, k ∈ s) : ∃ rest, walk hint s = hint ++ rest := by
  refine ⟨increasing (s \ hint.toFinset), ?_⟩
  rw [walk, hnodup.dedup, List.filter_eq_self.mpr fun k hk => decide_eq_true (hmem k hk)]

/-- A function on all values of a map. -/
def mapValues {α β : Type} (f : α → β) (m : Finmap fun _ : κ => α) : Finmap fun _ : κ => β :=
  (increasing m.keys).foldl
    (fun out k => match m.lookup k with
      | some a => out.insert k (f a)
      | none => out) ∅

@[simp] theorem lookup_mapValues {α β : Type} (f : α → β) (m : Finmap fun _ : κ => α) (k : κ) :
    (mapValues f m).lookup k = (m.lookup k).map f := by
  have hfold : ∀ (keys : List κ) (out : Finmap fun _ : κ => β),
      (keys.foldl (fun out k => match m.lookup k with
        | some a => out.insert k (f a)
        | none => out) out).lookup k =
        if k ∈ keys ∧ k ∈ m then (m.lookup k).map f else out.lookup k := by
    intro keys
    induction keys with
    | nil => simp
    | cons l keys ih =>
        intro out
        rw [List.foldl_cons, ih]
        by_cases hk : k ∈ keys ∧ k ∈ m
        · rw [if_pos hk, if_pos ⟨List.mem_cons_of_mem l hk.1, hk.2⟩]
        · rw [if_neg hk]
          by_cases hkl : k = l
          · subst hkl
            cases hlook : m.lookup k with
            | none =>
                have hmem : k ∉ m := Finmap.lookup_eq_none.mp hlook
                simp [hmem]
            | some a =>
                have hmem : k ∈ m := Finmap.mem_of_lookup_eq_some hlook
                simp [hmem]
          · have hne : ¬ (k ∈ l :: keys ∧ k ∈ m) := by simpa [hkl] using hk
            rw [if_neg hne]
            cases m.lookup l with
            | none => rfl
            | some a => exact Finmap.lookup_insert_of_ne _ hkl
  rw [mapValues, hfold, Finmap.lookup_empty]
  simp only [mem_increasing, Finmap.mem_keys, and_self]
  split
  · rfl
  · rename_i hmem
    rw [Finmap.lookup_eq_none.mpr hmem, Option.map_none]

example : walk [4, 9] ({1, 4, 3} : Finset ℕ) = [4, 1, 3] := by decide

end StateMachine
