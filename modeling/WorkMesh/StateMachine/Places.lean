import Mathlib.Data.List.InsertIdx
import Mathlib.Data.Nat.Init
import Mathlib.Data.List.Perm.Basic

/-!
# Places in a list

An element that is found by what it is and taken out leaves the list that the
element at a given place leaves if only copies stand between the two.
-/

namespace StateMachine

variable {α : Type*} [BEq α] [LawfulBEq α] {L : List α} {a b d l n : α} {i : ℕ}

/-- From the first copy of an element to a place there are copies only. -/
def Adjoins (L : List α) (i : ℕ) (a : α) : Prop := ∀ j, L.idxOf a ≤ j → j ≤ i → L[j]? = some a

theorem idxOf_le_of_getElem? (h : L[i]? = some a) : L.idxOf a ≤ i := by
  obtain ⟨hi, hget⟩ := List.getElem?_eq_some_iff.mp h
  by_contra hlt
  have hnot : (L[i] == a) = false := List.not_of_lt_findIdx (Nat.lt_of_not_le hlt)
  rw [hget, beq_self_eq_true] at hnot
  cases hnot

theorem adjoins_of_step (hi : L[i]? = some a)
    (hstep : ∀ j, L.idxOf a ≤ j → j < i → L[j + 1]? = L[j]?) : Adjoins L i a := by
  intro j hfirst
  induction j, hfirst using Nat.le_induction with
  | base => exact fun _ => List.getElem?_idxOf (List.mem_of_getElem? hi)
  | succ j hj ih => exact fun hle => (hstep j hj hle).trans (ih (Nat.le_of_lt hle))

/-- The first copy is taken out for the element at a place. -/
theorem erase_eq_eraseIdx_iff (hi : L[i]? = some a) :
    L.erase a = L.eraseIdx i ↔ Adjoins L i a := by
  have hfirst : L.idxOf a ≤ i := idxOf_le_of_getElem? hi
  rw [← List.eraseIdx_idxOf_eq_erase]
  constructor
  · intro heq
    refine adjoins_of_step hi fun j hj hlt => ?_
    have hat : (L.eraseIdx (L.idxOf a))[j]? = (L.eraseIdx i)[j]? := by rw [heq]
    rwa [List.getElem?_eraseIdx_of_ge hj, List.getElem?_eraseIdx_of_lt hlt] at hat
  · intro hcopies
    apply List.ext_getElem?
    intro j
    rw [List.getElem?_eraseIdx, List.getElem?_eraseIdx]
    by_cases hbefore : j < L.idxOf a
    · rw [if_pos hbefore, if_pos (Nat.lt_of_lt_of_le hbefore hfirst)]
    · rw [if_neg hbefore]
      split
      · rename_i hlt
        rw [hcopies j (by omega) (by omega), hcopies (j + 1) (by omega) hlt]
      · rfl

omit [BEq α] [LawfulBEq α] in
/-- An element goes from one end of a list to the other if the others are its copies. -/
theorem append_eq_cons_iff (L : List α) (a : α) : L ++ [a] = a :: L ↔ ∀ b ∈ L, b = a := by
  induction L with
  | nil => simp
  | cons b L ih =>
      constructor
      · intro h
        obtain ⟨rfl, htail⟩ := List.cons.inj h
        simpa using ih.mp htail
      · intro h
        obtain rfl := h b List.mem_cons_self
        rw [List.cons_append, ih.mpr fun x hx => h x (List.mem_cons_of_mem _ hx)]

/-- What is taken out and put at the end stands where it stood if only copies follow it. -/
theorem erase_append_eq_iff (hd : d ∈ L) :
    L.erase d ++ [d] = L ↔ ∀ b ∈ L.drop (L.idxOf d), b = d := by
  obtain ⟨front, back, hfront, rfl, herase⟩ := List.exists_erase_eq hd
  rw [herase, List.append_assoc, List.append_cancel_left_eq, append_eq_cons_iff,
    List.idxOf_append_of_notMem hfront, List.idxOf_cons_self, Nat.add_zero, List.drop_left]
  simp

/-- A list with one element taken out and another put in has lost the one and won the other. -/
theorem taken_eq (hd : d ∈ L) (hi : L[i]? = some l) (h : (L.erase d).Perm (L.eraseIdx i)) :
    d = l := by
  obtain ⟨hlt, hget⟩ := List.getElem?_eq_some_iff.mp hi
  have hleft : L.Perm (d :: L.erase d) := List.perm_cons_erase hd
  have hright : (l :: L.eraseIdx i).Perm L := by
    rw [← hget]
    exact List.getElem_cons_eraseIdx_perm hlt
  have hcount : (d :: L.erase d).count d = (l :: L.eraseIdx i).count d :=
    (hleft.symm.trans hright.symm).count_eq d
  rw [List.count_cons_self, List.count_cons, h.count_eq d] at hcount
  by_contra hne
  rw [if_neg (by simpa using fun heq : l = d => hne heq.symm)] at hcount
  omega

/-- Taken out and put at the end, an element is replaced in its place by the new one. -/
theorem erase_append_eq_set_iff (hd : d ∈ L) (hi : L[i]? = some l) :
    L.erase d ++ [n] = L.set i n ↔
      d = l ∧ Adjoins L i l ∧ ∀ b ∈ L.drop (i + 1), b = n := by
  obtain ⟨hlt, -⟩ := List.getElem?_eq_some_iff.mp hi
  have hset : L.set i n = L.take i ++ n :: L.drop (i + 1) := by
    rw [List.set_eq_take_append_cons_drop, if_pos hlt]
  constructor
  · intro heq
    have hperm : (n :: L.erase d).Perm (n :: L.eraseIdx i) := by
      calc (n :: L.erase d).Perm (L.erase d ++ [n]) := (List.perm_append_singleton n _).symm
        _ = L.set i n := heq
        (L.set i n).Perm (n :: L.eraseIdx i) := List.set_perm_cons_eraseIdx hlt n
    obtain rfl : d = l := taken_eq hd hi hperm.cons_inv
    have hadjoins : Adjoins L i d := by
      refine adjoins_of_step hi fun j hj hji => ?_
      have hat : (L.erase d ++ [n])[j]? = (L.set i n)[j]? := by rw [heq]
      have hlen : j < (L.erase d).length := by
        rw [List.length_erase_of_mem hd]
        omega
      rwa [List.getElem?_append_left hlen, ← List.eraseIdx_idxOf_eq_erase,
        List.getElem?_eraseIdx_of_ge hj, List.getElem?_set_ne (by omega)] at hat
    refine ⟨rfl, hadjoins, ?_⟩
    rwa [(erase_eq_eraseIdx_iff hi).mpr hadjoins, List.eraseIdx_eq_take_drop_succ, hset,
      List.append_assoc, List.append_cancel_left_eq, append_eq_cons_iff] at heq
  · rintro ⟨rfl, hadjoins, hback⟩
    rwa [(erase_eq_eraseIdx_iff hi).mpr hadjoins, List.eraseIdx_eq_take_drop_succ, hset,
      List.append_assoc, List.append_cancel_left_eq, append_eq_cons_iff]

/-- Taken out and put in at a place, an element is moved there. -/
theorem erase_insertIdx_eq_iff {p : ℕ} (hd : d ∈ L) (hi : L[i]? = some l) (hp : p < L.length) :
    (L.erase d).insertIdx p d = (L.eraseIdx i).insertIdx p l ↔ d = l ∧ Adjoins L i l := by
  obtain ⟨hlt, -⟩ := List.getElem?_eq_some_iff.mp hi
  have hleft : p ≤ (L.erase d).length := by
    rw [List.length_erase_of_mem hd]
    omega
  have hright : p ≤ (L.eraseIdx i).length := by
    rw [List.length_eraseIdx_of_lt hlt]
    omega
  constructor
  · intro heq
    have hat : ((L.erase d).insertIdx p d)[p]? = ((L.eraseIdx i).insertIdx p l)[p]? := by rw [heq]
    rw [List.getElem?_insertIdx_self, List.getElem?_insertIdx_self, if_pos hleft, if_pos hright]
      at hat
    obtain rfl := Option.some.inj hat
    refine ⟨rfl, (erase_eq_eraseIdx_iff hi).mp ?_⟩
    exact List.insertIdx_injective p d heq
  · rintro ⟨rfl, hadjoins⟩
    rw [(erase_eq_eraseIdx_iff hi).mpr hadjoins]

end StateMachine
