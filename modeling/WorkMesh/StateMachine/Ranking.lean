import Mathlib.Data.List.Sort

/-!
# Stable sorting by a key

The ranking of a list has its elements in ascending order of a key, those with
one key in the order of the list. What comes first in the ranking is compared
with what comes first in the list.
-/

namespace StateMachine

variable {α β κ : Type*} [LinearOrder κ] (key : α → κ)

def ranked (l : List α) : List α := l.insertionSort fun a b => key a ≤ key b

theorem ranked_perm (l : List α) : (ranked key l).Perm l := List.perm_insertionSort _ l

theorem ranked_pairwise (l : List α) : (ranked key l).Pairwise fun a b => key a ≤ key b := by
  have : Std.Total fun a b : α => key a ≤ key b := ⟨fun a b => le_total (key a) (key b)⟩
  have : IsTrans α fun a b => key a ≤ key b := ⟨fun _ _ _ => le_trans⟩
  exact List.pairwise_insertionSort _ l

/-- Where no two elements have one key, the ranking does not depend on the order of the list. -/
theorem ranked_eq_of_perm {key : α → κ} (hkey : Function.Injective key) {l l' : List α}
    (h : l.Perm l') : ranked key l = ranked key l' := by
  apply List.Perm.eq_of_pairwise _ (ranked_pairwise key l) (ranked_pairwise key l')
  · exact ((ranked_perm key l).trans h).trans (ranked_perm key l').symm
  · intro a b _ _ hab hba
    exact hkey (le_antisymm hab hba)

section Insertion
variable {key} {a b : α}

theorem orderedInsert_of_le (h : key a ≤ key b) (l : List α) :
    (b :: l).orderedInsert (fun a b => key a ≤ key b) a = a :: b :: l := if_pos h

theorem orderedInsert_of_not_le (h : ¬key a ≤ key b) (l : List α) :
    (b :: l).orderedInsert (fun a b => key a ≤ key b) a =
      b :: l.orderedInsert (fun a b => key a ≤ key b) a := if_neg h

end Insertion

theorem ranked_cons (a : α) (l : List α) :
    ranked key (a :: l) = (ranked key l).orderedInsert (fun a b => key a ≤ key b) a := rfl

theorem filter_orderedInsert (p : α → Bool) (a : α) {l : List α}
    (h : l.Pairwise fun a b => key a ≤ key b) :
    (l.orderedInsert (fun a b => key a ≤ key b) a).filter p =
      if p a then (l.filter p).orderedInsert (fun a b => key a ≤ key b) a else l.filter p := by
  induction l with
  | nil => simp [List.filter_cons]
  | cons b l ih =>
      obtain ⟨hb, hl⟩ := List.pairwise_cons.mp h
      by_cases hab : key a ≤ key b
      · have hall : ∀ c ∈ (b :: l).filter p, key a ≤ key c := by
          intro c hc
          rcases List.mem_cons.mp (List.mem_of_mem_filter hc) with rfl | hmem
          · exact hab
          · exact hab.trans (hb c hmem)
        rw [orderedInsert_of_le hab, List.filter_cons]
        split_ifs with hp
        · cases hrest : (b :: l).filter p with
          | nil => rfl
          | cons c rest =>
              have hac := hall c (by rw [hrest]; exact List.mem_cons_self)
              exact (orderedInsert_of_le hac rest).symm
        · rfl
      · rw [orderedInsert_of_not_le hab, List.filter_cons, List.filter_cons, ih hl]
        split_ifs with hpb hpa
        · rw [orderedInsert_of_not_le hab]
        · rfl
        · rfl
        · rfl

/-- Dropping elements does not change the order of the others. -/
theorem filter_ranked (p : α → Bool) (l : List α) :
    (ranked key l).filter p = ranked key (l.filter p) := by
  induction l with
  | nil => rfl
  | cons a l ih =>
      rw [ranked_cons, filter_orderedInsert key p a (ranked_pairwise key l), ih, List.filter_cons]
      split_ifs <;> rfl

/-- The first of a ranking is the first element with the least key. -/
theorem exists_head?_ranked {l : List α} (hl : l ≠ []) :
    ∃ (i : ℕ) (a : α), l[i]? = some a ∧ (ranked key l).head? = some a ∧
      ∀ (j : ℕ) (b : α), l[j]? = some b → key a < key b ∨ key a = key b ∧ i ≤ j := by
  induction l with
  | nil => exact absurd rfl hl
  | cons a l ih =>
      by_cases hnil : l = []
      · subst hnil
        refine ⟨0, a, rfl, rfl, fun j b hb => ?_⟩
        cases j with
        | zero => exact .inr ⟨by rw [Option.some.inj hb], le_rfl⟩
        | succ j => cases hb
      · obtain ⟨i, first, hi, hhead, hleast⟩ := ih hnil
        obtain ⟨rest, hrest⟩ := List.head?_eq_some_iff.mp hhead
        have hinsert : ranked key (a :: l) =
            (first :: rest).orderedInsert (fun a b => key a ≤ key b) a := by
          rw [ranked_cons, hrest]
        by_cases hle : key a ≤ key first
        · refine ⟨0, a, rfl, ?_, fun j b hb => ?_⟩
          · rw [hinsert, orderedInsert_of_le hle]
            rfl
          · cases j with
            | zero => exact .inr ⟨by rw [Option.some.inj hb], le_rfl⟩
            | succ j =>
                have hlater : key first ≤ key b :=
                  (hleast j b hb).elim le_of_lt fun h => h.1.le
                rcases (hle.trans hlater).lt_or_eq with hlt | heq
                · exact .inl hlt
                · exact .inr ⟨heq, Nat.zero_le _⟩
        · refine ⟨i + 1, first, hi, ?_, fun j b hb => ?_⟩
          · rw [hinsert, orderedInsert_of_not_le hle]
            rfl
          · cases j with
            | zero => exact .inl (by rw [← Option.some.inj hb]; exact not_le.mp hle)
            | succ j =>
                rcases hleast j b hb with hlt | ⟨heq, hij⟩
                · exact .inl hlt
                · exact .inr ⟨heq, Nat.succ_le_succ hij⟩

/-- Ahead of each element that is of another class than the first one stands, in the order of
the keys, an element of the class of the first one. -/
def FirstLeads (f : α → β) (l : List α) : Prop :=
  ∀ first ∈ l.head?, ∀ (j : ℕ) (b : α), l[j]? = some b → f b ≠ f first →
    ∃ (i : ℕ) (a : α), l[i]? = some a ∧ f a = f first ∧
      (key a < key b ∨ key a = key b ∧ i < j)

/-- The ranking begins with the class that the list begins with exactly if that class leads. -/
theorem head?_ranked_iff (f : α → β) (l : List α) :
    (ranked key l).head?.map f = l.head?.map f ↔ FirstLeads key f l := by
  cases l with
  | nil => simp [FirstLeads, ranked]
  | cons first l =>
      obtain ⟨i, a, hi, hhead, hleast⟩ := exists_head?_ranked key (List.cons_ne_nil first l)
      rw [hhead, List.head?_cons, Option.map_some, Option.map_some, Option.some_inj]
      constructor
      · intro hclass first' hfirst j b hb hother
        obtain rfl := Option.some.inj hfirst
        refine ⟨i, a, hi, hclass, (hleast j b hb).imp_right fun h => ⟨h.1, ?_⟩⟩
        refine h.2.lt_of_ne fun hij => hother ?_
        subst hij
        rw [← hclass, Option.some.inj (hi.symm.trans hb)]
      · intro h
        by_contra hclass
        obtain ⟨k, c, hk, hsame, horder⟩ := h first rfl i a hi hclass
        rcases hleast k c hk with hlt | ⟨heq, hik⟩
        · rcases horder with hlt' | ⟨heq', -⟩
          · exact absurd hlt hlt'.asymm
          · exact hlt.ne' heq'
        · rcases horder with hlt' | ⟨-, hki⟩
          · exact hlt'.ne' heq
          · omega

end StateMachine
