import WorkMesh.StateMachine.Ranking

/-!
# The last elements of a ranking

What is kept of a list when all but its last elements, by a key, are dropped.
Whether an element is kept depends only on how many elements come behind it;
dropping after every addition keeps the same elements as dropping at the end.
-/

namespace StateMachine

variable {α κ : Type*} [LinearOrder κ] (key : α → κ)

/-- The last `n` elements by their keys. -/
def newest (n : ℕ) (l : List α) : List α := (ranked key l).drop (l.length - n)

/-- How many elements come behind a key. -/
def behind (k : κ) (l : List α) : ℕ := l.countP fun b => k < key b

section Count
variable {key} {a b : α} {l l' : List α} {n : ℕ}

theorem behind_perm (h : l.Perm l') (k : κ) : behind key k l = behind key k l' :=
  h.countP_eq _

theorem behind_cons (k : κ) (a : α) (l : List α) :
    behind key k (a :: l) = behind key k l + if k < key a then 1 else 0 := by
  simp [behind, List.countP_cons]

/-- Elements with the same order have as many of them behind. -/
theorem behind_map {β κ' : Type*} [LinearOrder κ'] {key' : β → κ'} {f : β → α} {c : β} {m : List β}
    (h : ∀ d ∈ m, key (f c) < key (f d) ↔ key' c < key' d) :
    behind key (key (f c)) (m.map f) = behind key' (key' c) m := by
  rw [behind, List.countP_map, behind]
  apply List.countP_congr
  intro d hd
  rw [Function.comp_apply, decide_eq_true_eq, decide_eq_true_eq]
  exact h d hd

theorem behind_le_length (k : κ) (l : List α) : behind key k l ≤ l.length :=
  List.countP_le_length

theorem behind_mono {k k' : κ} (h : k ≤ k') (l : List α) : behind key k' l ≤ behind key k l :=
  List.countP_mono_left fun b _ hb => by
    have hlt : k' < key b := by simpa using hb
    simpa using h.trans_lt hlt

/-- In ascending order, the elements behind a key are the last ones. -/
theorem behind_drop (k : κ) {s : List α} (hs : s.Pairwise fun a b => key a ≤ key b) (m : ℕ) :
    behind key k (s.drop m) = min (s.length - m) (behind key k s) := by
  induction s generalizing m with
  | nil => simp [behind]
  | cons a s ih =>
      obtain ⟨ha, hs⟩ := List.pairwise_cons.mp hs
      cases m with
      | zero =>
          rw [List.drop_zero, Nat.sub_zero]
          exact (Nat.min_eq_right (behind_le_length k _)).symm
      | succ m =>
          rw [List.drop_succ_cons, ih hs, behind_cons, List.length_cons, Nat.add_sub_add_right]
          split_ifs with hk
          · have hall : behind key k s = s.length := by
              rw [behind, List.countP_eq_length]
              intro b hb
              simpa using hk.trans_le (ha b hb)
            rw [hall]
            omega
          · rfl

theorem newest_perm_sub (n : ℕ) (l : List α) : (newest key n l).Subperm l :=
  (List.drop_sublist _ _).subperm.trans (ranked_perm key l).subperm

theorem mem_of_mem_newest (h : a ∈ newest key n l) : a ∈ l := (newest_perm_sub n l).subset h

theorem newest_nodup (h : l.Nodup) : (newest key n l).Nodup :=
  ((ranked_perm key l).nodup_iff.mpr h).sublist (List.drop_sublist _ _)

/-- Behind a key, as many elements are kept as there are places. -/
theorem behind_newest (k : κ) (n : ℕ) (l : List α) :
    behind key k (newest key n l) = min n (behind key k l) := by
  have hle : behind key k l ≤ l.length := behind_le_length k l
  rw [newest, behind_drop k (ranked_pairwise key l), (ranked_perm key l).length_eq,
    behind_perm (ranked_perm key l)]
  omega

/-- An element is kept exactly if fewer than `n` come behind it. -/
theorem mem_newest_iff (hkey : Function.Injective key) (hl : l.Nodup) :
    a ∈ newest key n l ↔ a ∈ l ∧ behind key (key a) l < n := by
  have hnodup : (ranked key l).Nodup := (ranked_perm key l).nodup_iff.mpr hl
  constructor
  · intro h
    refine ⟨mem_of_mem_newest h, ?_⟩
    obtain ⟨front, back, hsplit⟩ := List.append_of_mem h
    -- Only the elements that stand behind it in the ranking come behind it.
    have hsorted : (newest key n l).Pairwise fun a b => key a ≤ key b :=
      (ranked_pairwise key l).sublist (List.drop_sublist _ _)
    have hlength : (newest key n l).length ≤ n := by
      rw [newest, List.length_drop, (ranked_perm key l).length_eq]
      omega
    have hcount : behind key (key a) (newest key n l) < n := by
      rw [hsplit] at hsorted hlength ⊢
      have hfront : ∀ b ∈ front, key b ≤ key a := fun b hb =>
        (List.pairwise_append.mp hsorted).2.2 b hb a List.mem_cons_self
      have hzero : front.countP (fun b => decide (key a < key b)) = 0 := by
        rw [List.countP_eq_zero]
        intro b hb
        simpa using hfront b hb
      rw [behind, List.countP_append, hzero, List.countP_cons]
      have hback : back.countP (fun b => decide (key a < key b)) ≤ back.length :=
        List.countP_le_length
      simp only [List.length_append, List.length_cons] at hlength
      simp only [lt_irrefl, decide_false, Bool.false_eq_true, if_false]
      omega
    rw [behind_newest] at hcount
    omega
  · rintro ⟨ha, hcount⟩
    have hmem : a ∈ ranked key l := (ranked_perm key l).mem_iff.mpr ha
    by_contra hdropped
    have htake : a ∈ (ranked key l).take (l.length - n) := by
      rw [← List.take_append_drop (l.length - n) (ranked key l)] at hmem
      exact (List.mem_append.mp hmem).resolve_right hdropped
    -- What is kept all comes behind it, and fills the places.
    have hbehind : ∀ b ∈ newest key n l, key a < key b := by
      intro b hb
      have hsorted := ranked_pairwise key l
      rw [← List.take_append_drop (l.length - n) (ranked key l)] at hsorted
      refine ((List.pairwise_append.mp hsorted).2.2 a htake b hb).lt_of_ne fun heq => ?_
      exact hdropped (hkey heq ▸ hb)
    have hfull : behind key (key a) (newest key n l) = (newest key n l).length := by
      rw [behind, List.countP_eq_length]
      intro b hb
      simpa using hbehind b hb
    have hlong : n < l.length := by
      by_contra hshort
      rw [Nat.sub_eq_zero_of_le (not_lt.mp hshort), List.take_zero] at htake
      cases htake
    rw [behind_newest, newest, List.length_drop, (ranked_perm key l).length_eq] at hfull
    omega

/-- What is kept depends on what a list has, not on its order. -/
theorem mem_newest_congr (hkey : Function.Injective key) (hl : l.Nodup)
    (hl' : l'.Nodup) (h : ∀ b, b ∈ l ↔ b ∈ l') : a ∈ newest key n l ↔ a ∈ newest key n l' := by
  rw [mem_newest_iff hkey hl, mem_newest_iff hkey hl', h,
    behind_perm ((List.perm_ext_iff_of_nodup hl hl').mpr h)]

end Count

/-! ## Adding and dropping -/

variable [DecidableEq α]

/-- An element is added to a list that may have it already. -/
def addTo (l : List α) (a : α) : List α := if a ∈ l then l else a :: l

section Add
variable {key} {a b : α} {l : List α} {n : ℕ}

@[simp] theorem mem_addTo : b ∈ addTo l a ↔ b = a ∨ b ∈ l := by
  rw [addTo]
  split_ifs with h
  · exact ⟨.inr, fun hb => hb.elim (fun heq => heq ▸ h) id⟩
  · exact List.mem_cons

theorem addTo_nodup (h : l.Nodup) : (addTo l a).Nodup := by
  rw [addTo]
  split_ifs with ha
  · exact h
  · exact List.nodup_cons.mpr ⟨ha, h⟩

/-- Dropping before an element is added makes no difference to what is kept after it. -/
theorem mem_newest_addTo_newest (hkey : Function.Injective key) (hl : l.Nodup) :
    b ∈ newest key n (addTo (newest key n l) a) ↔ b ∈ newest key n (addTo l a) := by
  rw [mem_newest_iff hkey (addTo_nodup (newest_nodup hl)), mem_newest_iff hkey (addTo_nodup hl),
    mem_addTo, mem_addTo]
  by_cases hkept : a ∈ newest key n l
  · have ha := mem_of_mem_newest hkept
    rw [addTo, addTo, if_pos hkept, if_pos ha, behind_newest]
    constructor
    · rintro ⟨hb, hcount⟩
      exact ⟨hb.imp_right mem_of_mem_newest, by omega⟩
    · rintro ⟨hb, hcount⟩
      refine ⟨hb.imp_right fun hmem => (mem_newest_iff hkey hl).mpr ⟨hmem, hcount⟩, by omega⟩
  by_cases ha : a ∈ l
  · rw [addTo, addTo, if_neg hkept, if_pos ha, behind_cons, behind_newest]
    have hfull : n ≤ behind key (key a) l := by
      by_contra hfew
      exact hkept ((mem_newest_iff hkey hl).mpr ⟨ha, not_le.mp hfew⟩)
    constructor
    · rintro ⟨hb, hcount⟩
      exact ⟨hb.imp_right mem_of_mem_newest, by omega⟩
    · rintro ⟨hb, hcount⟩
      have hnot : ¬key b < key a := fun hlt =>
        absurd (hfull.trans (behind_mono hlt.le l)) (not_le.mpr hcount)
      rw [if_neg hnot]
      refine ⟨hb.imp_right fun hmem => (mem_newest_iff hkey hl).mpr ⟨hmem, hcount⟩, by omega⟩
  · rw [addTo, addTo, if_neg hkept, if_neg ha, behind_cons, behind_cons, behind_newest]
    constructor
    · rintro ⟨hb, hcount⟩
      exact ⟨hb.imp_right mem_of_mem_newest, by omega⟩
    · rintro ⟨hb, hcount⟩
      refine ⟨hb.imp_right fun hmem => (mem_newest_iff hkey hl).mpr ⟨hmem, by omega⟩, by omega⟩

theorem mem_foldl_addTo (added : List α) : b ∈ added.foldl addTo l ↔ b ∈ l ∨ b ∈ added := by
  induction added generalizing l with
  | nil => simp
  | cons a added ih =>
      rw [List.foldl_cons, ih, mem_addTo, List.mem_cons]
      tauto

theorem foldl_addTo_nodup (h : l.Nodup) (added : List α) : (added.foldl addTo l).Nodup := by
  induction added generalizing l with
  | nil => exact h
  | cons a added ih => exact ih (addTo_nodup h)

/-- Dropping before some additions makes no difference to what is kept after them. -/
theorem mem_newest_foldl_addTo (hkey : Function.Injective key) (hl : l.Nodup) (added : List α) :
    b ∈ newest key n (added.foldl addTo (newest key n l)) ↔
      b ∈ newest key n (added.foldl addTo l) := by
  induction added generalizing l with
  | nil =>
      rw [List.foldl_nil, List.foldl_nil, mem_newest_iff hkey (newest_nodup hl), behind_newest,
        mem_newest_iff hkey hl]
      constructor
      · exact And.left
      · intro h
        exact ⟨h, by omega⟩
  | cons a added ih =>
      have hkept : (newest key n (addTo (newest key n l) a)).Nodup :=
        newest_nodup (addTo_nodup (newest_nodup hl))
      have hall : (newest key n (addTo l a)).Nodup := newest_nodup (addTo_nodup hl)
      rw [List.foldl_cons, List.foldl_cons, ← ih (addTo_nodup (newest_nodup hl)),
        ← ih (addTo_nodup hl)]
      apply mem_newest_congr hkey (foldl_addTo_nodup hkept added) (foldl_addTo_nodup hall added)
      intro c
      rw [mem_foldl_addTo, mem_foldl_addTo, mem_newest_addTo_newest hkey hl]

end Add

end StateMachine
