import Mathlib.Data.List.Basic

/-!
# A list put together from its pieces

A list is cut into pieces, and each piece is written at the place where it stood.
A write beyond the end leaves a gap, which is filled. The list has come back once
every piece was written and nothing longer was there before.
-/

namespace StateMachine

variable {α : Type}

/-- A list with other entries from a position on. A gap before the position is filled. -/
def writeAt (filler : α) (l : List α) (offset : ℕ) (part : List α) : List α :=
  if part = [] then l
  else (l ++ List.replicate (offset - l.length) filler).take offset ++ part ++
    l.drop (offset + part.length)

section Write
variable {filler : α} {l : List α} {offset : ℕ} {part : List α}

theorem length_filled (filler : α) (l : List α) (offset : ℕ) :
    ((l ++ List.replicate (offset - l.length) filler).take offset).length = offset := by
  rw [List.length_take, List.length_append, List.length_replicate]
  omega

theorem length_writeAt_le (filler : α) (l : List α) (offset : ℕ) (part : List α) :
    (writeAt filler l offset part).length ≤ max l.length (offset + part.length) := by
  unfold writeAt
  split
  · exact Nat.le_max_left ..
  · rw [List.length_append, List.length_append, length_filled, List.length_drop]
    omega

/-- What is written stands there. -/
theorem writeAt_inside {k : ℕ} (hk : k < part.length) :
    (writeAt filler l offset part)[offset + k]? = part[k]? := by
  have hne : part ≠ [] := List.ne_nil_of_length_pos (by omega)
  have hlen : ((l ++ List.replicate (offset - l.length) filler).take offset ++ part).length =
      offset + part.length := by rw [List.length_append, length_filled]
  rw [writeAt, if_neg hne, List.getElem?_append_left (by omega),
    List.getElem?_append_right (by rw [length_filled]; omega), length_filled,
    Nat.add_sub_cancel_left]

/-- What stood elsewhere stays. -/
theorem writeAt_outside {k : ℕ} (hk : k < l.length) (hout : k < offset ∨ offset + part.length ≤ k) :
    (writeAt filler l offset part)[k]? = l[k]? := by
  unfold writeAt
  split
  · rfl
  · have hlen : ((l ++ List.replicate (offset - l.length) filler).take offset ++ part).length =
        offset + part.length := by rw [List.length_append, length_filled]
    rcases hout with hbefore | hbehind
    · rw [List.getElem?_append_left (by omega), List.getElem?_append_left (by
        rw [length_filled]
        exact hbefore), List.getElem?_take_of_lt hbefore, List.getElem?_append_left hk]
    · rw [List.getElem?_append_right (by omega), hlen, List.getElem?_drop]
      congr 1
      omega

end Write

/-! ## Agreement with the whole -/

/-- The list agrees with the whole between two positions. -/
def Agrees (whole l : List α) (first last : ℕ) : Prop :=
  ∀ k, first ≤ k → k < last → l[k]? = whole[k]?

section Agreement
variable {whole l part : List α} {first last offset : ℕ} {filler : α}

/-- A part of the whole is written at its place: what agreed still does. -/
theorem Agrees.writeAt (h : Agrees whole l first last) (hlast : last ≤ whole.length)
    (hc : ∀ k < part.length, part[k]? = whole[offset + k]?) :
    Agrees whole (writeAt filler l offset part) first last := by
  intro k hfirst hk
  have hl := h k hfirst hk
  have hlen : k < l.length := by
    by_contra hcon
    rw [List.getElem?_eq_none (by omega), List.getElem?_eq_getElem (by omega)] at hl
    cases hl
  by_cases hin : offset ≤ k ∧ k < offset + part.length
  · obtain ⟨j, rfl⟩ := Nat.exists_eq_add_of_le hin.1
    rw [writeAt_inside (by omega), hc j (by omega)]
  · rw [writeAt_outside hlen (by omega), hl]

/-- And what is written agrees. -/
theorem agrees_writeAt (filler : α) (l : List α)
    (hc : ∀ k < part.length, part[k]? = whole[offset + k]?) :
    Agrees whole (writeAt filler l offset part) offset (offset + part.length) := by
  intro k hfirst hk
  obtain ⟨j, rfl⟩ := Nat.exists_eq_add_of_le hfirst
  rw [writeAt_inside (by omega), hc j (by omega)]

theorem eq_of_agrees (h : Agrees whole l 0 whole.length) (hlen : l.length ≤ whole.length) :
    l = whole := by
  apply List.ext_getElem?
  intro k
  by_cases hk : k < whole.length
  · exact h k (Nat.zero_le k) hk
  · rw [List.getElem?_eq_none (by omega), List.getElem?_eq_none (by omega)]

end Agreement

/-! ## Pieces -/

/-- Where a piece stands in the whole. -/
def offsetOf (pieces : List (List α)) (i : ℕ) : ℕ := (pieces.take i).flatten.length

section Pieces
variable {pieces : List (List α)} {i : ℕ} {part : List α}

theorem flatten_split (h : pieces[i]? = some part) :
    pieces.flatten = (pieces.take i).flatten ++ (part ++ (pieces.drop (i + 1)).flatten) := by
  obtain ⟨hi, rfl⟩ := List.getElem?_eq_some_iff.mp h
  rw [← List.flatten_cons, ← List.drop_eq_getElem_cons hi, ← List.flatten_append,
    List.take_append_drop]

theorem piece_agrees (h : pieces[i]? = some part) {k : ℕ} (hk : k < part.length) :
    part[k]? = pieces.flatten[offsetOf pieces i + k]? := by
  rw [flatten_split h, List.getElem?_append_right (by rw [offsetOf]; omega), offsetOf,
    Nat.add_sub_cancel_left, List.getElem?_append_left hk]

theorem offsetOf_add_le (h : pieces[i]? = some part) :
    offsetOf pieces i + part.length ≤ pieces.flatten.length := by
  rw [flatten_split h, List.length_append, List.length_append, offsetOf]
  omega

/-- Every position of the whole lies in a piece. -/
theorem exists_piece {k : ℕ} (hk : k < pieces.flatten.length) :
    ∃ i part, pieces[i]? = some part ∧ offsetOf pieces i ≤ k ∧ k < offsetOf pieces i + part.length := by
  induction pieces generalizing k with
  | nil => simp at hk
  | cons part pieces ih =>
      by_cases hfirst : k < part.length
      · exact ⟨0, part, rfl, by simp [offsetOf], by simpa [offsetOf] using hfirst⟩
      · rw [List.flatten_cons, List.length_append] at hk
        obtain ⟨i, d, hd, hlow, hhigh⟩ := ih (k := k - part.length) (by omega)
        have hoffset : offsetOf (part :: pieces) (i + 1) = part.length + offsetOf pieces i := by
          simp [offsetOf]
        exact ⟨i + 1, d, hd, by omega, by omega⟩

/-- Once every piece agrees, the whole is there. -/
theorem eq_flatten_of_pieces {l : List α}
    (h : ∀ i part, pieces[i]? = some part →
      Agrees pieces.flatten l (offsetOf pieces i) (offsetOf pieces i + part.length))
    (hlen : l.length ≤ pieces.flatten.length) : l = pieces.flatten := by
  apply eq_of_agrees _ hlen
  intro k _ hk
  obtain ⟨i, part, hc, hlow, hhigh⟩ := exists_piece hk
  exact h i part hc k hlow hhigh

end Pieces

end StateMachine
