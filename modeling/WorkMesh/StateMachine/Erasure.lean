import Mathlib

/-!
# Deleting from a list

Elements are deleted one after another, the first one with a key or the one at a
position, where the positions behind a deleted element fall by one. Which
elements are left is said by the list before the first deletion.
-/

namespace StateMachine

variable {α κ : Type*}

/-! ## Deleting by key -/

section Keys
variable [DecidableEq κ] (key : α → κ)

/-- The first elements of each key are left out, as many as counted. -/
def leaveOut : (κ → ℕ) → List α → List α
  | _, [] => []
  | n, a :: l =>
      if n (key a) = 0 then a :: leaveOut n l
      else leaveOut (Function.update n (key a) (n (key a) - 1)) l

theorem leaveOut_zero (l : List α) : leaveOut key (fun _ => 0) l = l := by
  induction l with
  | nil => rfl
  | cons a l ih => rw [leaveOut, if_pos rfl, ih]

theorem leaveOut_sublist (n : κ → ℕ) (l : List α) : (leaveOut key n l).Sublist l := by
  induction l generalizing n with
  | nil => exact List.Sublist.refl _
  | cons a l ih =>
      rw [leaveOut]
      split
      · exact (ih n).cons_cons a
      · exact (ih _).cons a

/-- One more deletion of a key counts one more of it. -/
theorem eraseP_leaveOut (n : κ → ℕ) (k : κ) (l : List α) :
    (leaveOut key n l).eraseP (fun a => key a = k) =
      leaveOut key (Function.update n k (n k + 1)) l := by
  induction l generalizing n with
  | nil => rfl
  | cons a l ih =>
      rw [leaveOut, leaveOut]
      by_cases hk : key a = k
      · subst hk
        by_cases hn : n (key a) = 0
        · rw [if_pos hn, List.eraseP_cons_of_pos (by simp)]
          have hself : Function.update n (key a) 0 = n := by rw [← hn, Function.update_eq_self]
          simp [hn, hself]
        · rw [if_neg hn, ih]
          simp only [Function.update_self, Nat.add_eq_zero_iff, Nat.succ_ne_self, and_false,
            if_false, Nat.add_sub_cancel, Function.update_idem, Function.update_eq_self]
          rw [Nat.sub_add_cancel (Nat.one_le_iff_ne_zero.mpr hn), Function.update_eq_self]
      · have hother : Function.update n k (n k + 1) (key a) = n (key a) :=
          Function.update_of_ne hk _ _
        rw [hother]
        by_cases hn : n (key a) = 0
        · rw [if_pos hn, if_pos hn, List.eraseP_cons_of_neg (by simpa using hk), ih]
        · rw [if_neg hn, if_neg hn, ih, Function.update_of_ne (Ne.symm hk),
            Function.update_comm hk]

/-- Deletions by key leave what their numbers say, in whatever order they come. -/
theorem foldl_eraseP (keys : List κ) (l : List α) :
    keys.foldl (fun l k => l.eraseP fun a => key a = k) l = leaveOut key (keys.count ·) l := by
  induction keys using List.reverseRecOn with
  | nil => simp [leaveOut_zero]
  | append_singleton keys k ih =>
      rw [List.foldl_append, ih, List.foldl_cons, List.foldl_nil, eraseP_leaveOut]
      congr 1
      funext other
      by_cases hk : other = k
      · subst hk
        simp [List.count_append]
      · rw [Function.update_of_ne hk, List.count_append, List.count_singleton]
        simp [Ne.symm hk]

/-- An element that stands behind so many of its key is left. -/
theorem filter_sublist_leaveOut (p : α → Bool) (n : κ → ℕ) (l : List α)
    (h : ∀ front a back, l = front ++ a :: back → p a = true →
      n (key a) ≤ front.countP fun b => key b = key a) :
    (l.filter p).Sublist (leaveOut key n l) := by
  induction l generalizing n with
  | nil => exact List.Sublist.refl _
  | cons a l ih =>
      rw [leaveOut]
      by_cases hn : n (key a) = 0
      · rw [if_pos hn]
        have ih := ih n fun front b back hl hb => by
          have hcount := h (a :: front) b back (by rw [hl]; rfl) hb
          by_cases hk : key a = key b
          · rw [← hk, hn]
            exact Nat.zero_le _
          · simpa [List.countP_cons, hk] using hcount
        by_cases hp : p a = true
        · rw [List.filter_cons_of_pos hp]
          exact ih.cons_cons a
        · rw [List.filter_cons_of_neg hp]
          exact ih.cons a
      · rw [if_neg hn]
        have hp : ¬ p a = true := by
          intro hp
          have hcount := h [] a l rfl hp
          simp only [List.countP_nil] at hcount
          omega
        rw [List.filter_cons_of_neg hp]
        refine ih _ fun front b back hl hb => ?_
        have hcount := h (a :: front) b back (by rw [hl]; rfl) hb
        by_cases hk : key b = key a
        · rw [hk, Function.update_self]
          rw [List.countP_cons, hk] at hcount
          simp only [decide_true, if_true] at hcount
          omega
        · rw [Function.update_of_ne hk]
          simpa [List.countP_cons, Ne.symm hk] using hcount

theorem forall_split {Q : List α → α → Prop} {a : α} {l : List α} :
    (∀ front b back, a :: l = front ++ b :: back → Q front b) ↔
      Q [] a ∧ ∀ front b back, l = front ++ b :: back → Q (a :: front) b := by
  constructor
  · intro h
    exact ⟨h [] a l rfl, fun front b back hl => h (a :: front) b back (by rw [hl]; rfl)⟩
  · rintro ⟨hhead, htail⟩ front b back hl
    cases front with
    | nil =>
        injection hl with hab
        exact hab ▸ hhead
    | cons c front =>
        injection hl with hac hl
        exact hac ▸ htail front b back hl

/-- Exactly the elements outside a set are left where an element is outside as long as fewer of
its key stand before it than are deleted. -/
theorem leaveOut_eq_filter_iff (p : α → Bool) (n : κ → ℕ) (l : List α) :
    leaveOut key n l = l.filter p ↔
      ∀ front a back, l = front ++ a :: back →
        (p a = true ↔ n (key a) ≤ front.countP fun b => key b = key a) := by
  induction l generalizing n with
  | nil => simp [leaveOut]
  | cons a l ih =>
      rw [forall_split (Q := fun front b =>
        p b = true ↔ n (key b) ≤ front.countP fun c => key c = key b)]
      rw [leaveOut]
      by_cases hn : n (key a) = 0
      · rw [if_pos hn]
        by_cases hp : p a = true
        · have htail : (∀ front b back, l = front ++ b :: back →
              (p b = true ↔ n (key b) ≤ (a :: front).countP fun c => key c = key b)) ↔
              leaveOut key n l = l.filter p := by
            rw [ih]
            refine forall_congr' fun front => forall_congr' fun b => forall_congr' fun back =>
              imp_congr_right fun _ => ?_
            by_cases hk : key a = key b
            · simp [← hk, hn]
            · simp [hk]
          rw [htail, List.filter_cons_of_pos hp]
          simp [hn, hp]
        · rw [List.filter_cons_of_neg hp]
          constructor
          · intro h
            have hmem : a ∈ l.filter p := h ▸ List.mem_cons_self
            exact absurd (List.of_mem_filter hmem) hp
          · rintro ⟨hhead, -⟩
            exact absurd (hhead.mpr (by simp [hn])) hp
      · rw [if_neg hn]
        by_cases hp : p a = true
        · rw [List.filter_cons_of_pos hp]
          constructor
          · intro h
            have hlen : (a :: l.filter p).countP p ≤ l.countP p := by
              rw [← h]
              exact (leaveOut_sublist key _ l).countP_le
            rw [List.countP_cons_of_pos hp, List.countP_filter] at hlen
            simp only [Bool.and_self] at hlen
            exact absurd hlen (Nat.not_succ_le_self _)
          · rintro ⟨hhead, -⟩
            have hzero := hhead.mp hp
            simp only [List.countP_nil] at hzero
            omega
        · rw [List.filter_cons_of_neg hp, ih]
          have hhead : (p a = true ↔ n (key a) ≤ [].countP fun c => key c = key a) := by
            simp [hp, hn]
          rw [and_iff_right hhead]
          refine forall_congr' fun front => forall_congr' fun b => forall_congr' fun back =>
            imp_congr_right fun _ => ?_
          by_cases hk : key b = key a
          · simp only [hk, Function.update_self, List.countP_cons, decide_true, if_true]
            rw [Nat.sub_le_iff_le_add]
          · rw [Function.update_of_ne hk]
            simp [Ne.symm hk]

/-- A property of all that is left is one of the elements that stand behind so many of their
key. -/
theorem forall_mem_leaveOut {p : α → Prop} (n : κ → ℕ) (l : List α) :
    (∀ a ∈ leaveOut key n l, p a) ↔
      ∀ front a back, l = front ++ a :: back →
        n (key a) ≤ (front.countP fun b => key b = key a) → p a := by
  induction l generalizing n with
  | nil => simp [leaveOut]
  | cons a l ih =>
      rw [forall_split (Q := fun front b => n (key b) ≤ (front.countP fun c => key c = key b) → p b),
        leaveOut]
      by_cases hn : n (key a) = 0
      · rw [if_pos hn]
        have hhead : (n (key a) ≤ ([] : List α).countP (fun c => key c = key a) → p a) ↔ p a := by
          simp [hn]
        rw [hhead, List.forall_mem_cons, ih]
        refine and_congr_right fun _ => forall_congr' fun front => forall_congr' fun b =>
          forall_congr' fun back => imp_congr_right fun _ => ?_
        by_cases hk : key a = key b
        · simp [← hk, hn]
        · simp [hk]
      · rw [if_neg hn]
        have hhead : (n (key a) ≤ ([] : List α).countP (fun c => key c = key a) → p a) := by
          intro hle
          simp only [List.countP_nil] at hle
          omega
        rw [and_iff_right hhead, ih]
        refine forall_congr' fun front => forall_congr' fun b => forall_congr' fun back =>
          imp_congr_right fun _ => ?_
        by_cases hk : key b = key a
        · simp only [hk, Function.update_self, List.countP_cons, decide_true, if_true]
          rw [Nat.sub_le_iff_le_add]
        · rw [Function.update_of_ne hk]
          simp [Ne.symm hk]

/-- Elements none of whose keys are deleted are left. -/
theorem filter_leaveOut {p : α → Bool} (n : κ → ℕ) (l : List α)
    (h : ∀ a, p a = true → n (key a) = 0) : (leaveOut key n l).filter p = l.filter p := by
  induction l generalizing n with
  | nil => rfl
  | cons a l ih =>
      rw [leaveOut]
      by_cases hn : n (key a) = 0
      · rw [if_pos hn]
        by_cases hp : p a = true
        · rw [List.filter_cons_of_pos hp, List.filter_cons_of_pos hp, ih n h]
        · rw [List.filter_cons_of_neg hp, List.filter_cons_of_neg hp, ih n h]
      · rw [if_neg hn]
        have hp : ¬ p a = true := fun hp => hn (h a hp)
        rw [List.filter_cons_of_neg hp]
        refine ih _ fun b hb => ?_
        by_cases hk : key b = key a
        · rw [hk, Function.update_self]
          have hzero := h b hb
          rw [hk] at hzero
          omega
        · rw [Function.update_of_ne hk]
          exact h b hb

end Keys

/-! ## Deleting by position -/

/-- The elements at the positions are deleted one after another, each at its position in the
list that the deletions before it left. -/
def eraseEach (positions : List ℕ) (l : List α) : List α := positions.foldl List.eraseIdx l

/-- The elements outside a set of positions. -/
def keptAt (gone : ℕ → Bool) (l : List α) : List α :=
  ((List.finRange l.length).filter fun i : Fin l.length => !gone i).map l.get

section Positions
variable {ps : List ℕ}

theorem eraseEach_map {β : Type*} (f : α → β) (ps : List ℕ) (l : List α) :
    eraseEach ps (l.map f) = (eraseEach ps l).map f := by
  induction ps generalizing l with
  | nil => rfl
  | cons p ps ih =>
      change eraseEach ps ((l.map f).eraseIdx p) = (eraseEach ps (l.eraseIdx p)).map f
      rw [List.eraseIdx_map, ih]

theorem length_le_eraseEach (ps : List ℕ) (l : List α) :
    l.length ≤ (eraseEach ps l).length + ps.length := by
  induction ps generalizing l with
  | nil => exact Nat.le_refl _
  | cons p ps ih =>
      have hrest := ih (l.eraseIdx p)
      have hone := List.le_length_eraseIdx l p
      change l.length ≤ (eraseEach ps (l.eraseIdx p)).length + (ps.length + 1)
      omega

/-- Where each deletion takes an element, the first position is within the list. -/
theorem inside_of_length {p : ℕ} {l : List α}
    (h : (eraseEach (p :: ps) l).length + (p :: ps).length = l.length) :
    p < l.length ∧
      (eraseEach ps (l.eraseIdx p)).length + ps.length = (l.eraseIdx p).length := by
  change (eraseEach ps (l.eraseIdx p)).length + (ps.length + 1) = l.length at h
  have hrest := length_le_eraseEach ps (l.eraseIdx p)
  by_cases hp : p < l.length
  · refine ⟨hp, ?_⟩
    rw [List.length_eraseIdx_of_lt hp]
    omega
  · rw [List.eraseIdx_of_length_le (by omega)] at hrest h
    omega

/-! ### The numbers of the positions -/

theorem le_getElem {L : List ℕ} (hL : L.Pairwise (· < ·)) {i : ℕ} (hi : i < L.length) :
    i ≤ L[i] := by
  induction i with
  | zero => exact Nat.zero_le _
  | succ i ih =>
      have hbelow := ih (by omega)
      have hstep : L[i] < L[i + 1] :=
        List.pairwise_iff_getElem.mp hL i (i + 1) (by omega) hi (by omega)
      omega

/-- A number at its own position has all smaller numbers before it. -/
theorem mem_of_getElem_eq {L : List ℕ} (hL : L.Pairwise (· < ·)) {p : ℕ} (hp : p < L.length)
    (hself : L[p] = p) : ∀ x ≤ p, x ∈ L := by
  induction p with
  | zero =>
      intro x hx
      obtain rfl : x = 0 := by omega
      exact hself ▸ List.getElem_mem hp
  | succ p ih =>
      intro x hx
      rcases Nat.lt_or_eq_of_le hx with hlt | rfl
      · have hstep : L[p] < L[p + 1] :=
          List.pairwise_iff_getElem.mp hL p (p + 1) (by omega) hp (by omega)
        have hbelow := le_getElem hL (show p < L.length by omega)
        exact ih (by omega) (by omega) x (by omega)
      · exact hself ▸ List.getElem_mem hp

theorem sum_eraseIdx {L : List ℕ} {p : ℕ} (hp : p < L.length) :
    L[p] + (L.eraseIdx p).sum = L.sum := by
  rw [← (List.getElem_cons_eraseIdx_perm hp).sum_eq, List.sum_cons]

/-- The positions fall behind the numbers that are deleted at them. -/
theorem sum_le_eraseEach {L : List ℕ} (hL : L.Pairwise (· < ·))
    (hlen : (eraseEach ps L).length + ps.length = L.length) :
    ps.sum + (eraseEach ps L).sum ≤ L.sum := by
  induction ps generalizing L with
  | nil => simp [eraseEach]
  | cons p ps ih =>
      obtain ⟨hp, hlen⟩ := inside_of_length hlen
      have hrest := ih (hL.eraseIdx p) hlen
      have hsum := sum_eraseIdx hp
      have hself := le_getElem hL hp
      change (p :: ps).sum + (eraseEach ps (L.eraseIdx p)).sum ≤ L.sum
      rw [List.sum_cons]
      omega

/-- If each number is deleted at its own position, the positions fall. -/
theorem falling_of_sum {L : List ℕ} (hL : L.Pairwise (· < ·))
    (hlen : (eraseEach ps L).length + ps.length = L.length)
    (hsum : L.sum ≤ ps.sum + (eraseEach ps L).sum) :
    ps.Pairwise (· > ·) ∧ ∀ q ∈ ps, ∀ x ≤ q, x ∈ L := by
  induction ps generalizing L with
  | nil => exact ⟨.nil, by simp⟩
  | cons p ps ih =>
      obtain ⟨hp, hlen⟩ := inside_of_length hlen
      have hrest := sum_le_eraseEach (hL.eraseIdx p) hlen
      have hone := sum_eraseIdx hp
      have hself := le_getElem hL hp
      change L.sum ≤ (p :: ps).sum + (eraseEach ps (L.eraseIdx p)).sum at hsum
      rw [List.sum_cons] at hsum
      obtain ⟨hfall, hbelow⟩ := ih (hL.eraseIdx p) hlen (by omega)
      have heq : L[p] = p := by omega
      constructor
      · refine List.pairwise_cons.mpr ⟨fun q hq => ?_, hfall⟩
        -- The number `p` has gone, so no later position reaches up to it.
        by_contra hle
        obtain ⟨i, hi, hiL⟩ :=
          List.mem_eraseIdx_iff_getElem?.mp (hbelow q hq p (by omega)) |>.imp fun i h => h
        have hnodup : L.Nodup := hL.imp fun h => Nat.ne_of_lt h
        obtain ⟨hlt, hget⟩ := List.getElem?_eq_some_iff.mp hiL
        exact hi (hnodup.getElem_inj_iff.mp (hget.trans heq.symm))
      · intro q hq x hx
        rcases List.mem_cons.mp hq with rfl | hq
        · exact mem_of_getElem_eq hL hp heq x hx
        · exact List.mem_of_mem_eraseIdx (hbelow q hq x hx)

/-- Positions that fall name the numbers of the first list. -/
theorem eraseEach_range (hfall : ps.Pairwise (· > ·)) (n : ℕ) :
    eraseEach ps (List.range n) = (List.range n).filter fun i => i ∉ ps := by
  induction ps using List.reverseRecOn with
  | nil => simp [eraseEach]
  | append_singleton ps q ih =>
      obtain ⟨hps, -, habove⟩ := List.pairwise_append.mp hfall
      have habove : ∀ p ∈ ps, q < p := fun p hp => habove p hp q List.mem_cons_self
      have hsplit : eraseEach (ps ++ [q]) (List.range n) =
          (eraseEach ps (List.range n)).eraseIdx q := by simp [eraseEach]
      rw [hsplit, ih hps]
      have hfilter : (List.range n).filter (fun i => decide (i ∉ ps ++ [q])) =
          ((List.range n).filter fun i => decide (i ∉ ps)).filter (fun i => i ≠ q) := by
        rw [List.filter_filter]
        refine List.filter_congr fun i _ => ?_
        simp only [List.mem_append, List.mem_singleton, not_or, Bool.decide_and, Bool.and_comm]
      rw [hfilter]
      have hnodup : ((List.range n).filter fun i => decide (i ∉ ps)).Nodup :=
        List.nodup_range.filter _
      by_cases hq : q < n
      · have hfront : (List.range n).filter (fun i => decide (i ∉ ps)) =
            List.range (q + 1) ++
              ((List.range (n - (q + 1))).map (q + 1 + ·)).filter fun i => decide (i ∉ ps) := by
          have hn : List.range n =
              List.range (q + 1) ++ (List.range (n - (q + 1))).map (q + 1 + ·) := by
            rw [← List.range_add]
            congr 1
            omega
          rw [hn, List.filter_append, List.filter_eq_self.mpr]
          intro i hi
          have hle := List.mem_range.mp hi
          simp only [decide_eq_true_eq]
          intro hmem
          have := habove i hmem
          omega
        have hlt : q < ((List.range n).filter fun i => decide (i ∉ ps)).length := by
          rw [hfront, List.length_append, List.length_range]
          omega
        have hget : ((List.range n).filter fun i => decide (i ∉ ps))[q] = q := by
          simp only [hfront]
          rw [List.getElem_append_left (by simp)]
          simp
        rw [← hnodup.erase_getElem q hlt, hget, hnodup.erase_eq_filter]
        refine List.filter_congr fun i _ => ?_
        by_cases hi : i = q <;> simp [hi]
      · have hlen : ((List.range n).filter fun i => decide (i ∉ ps)).length ≤ q :=
          (List.length_filter_le _ _).trans (by rw [List.length_range]; omega)
        rw [List.eraseIdx_of_length_le hlen]
        refine (List.filter_eq_self.mpr fun i hi => ?_).symm
        have hlt := List.mem_range.mp (List.mem_of_mem_filter hi)
        simp only [decide_eq_true_eq]
        omega

/-! ### The elements at the positions -/

theorem eraseEach_finRange (ps : List ℕ) (n : ℕ) :
    (eraseEach ps (List.finRange n)).map Fin.val = eraseEach ps (List.range n) := by
  rw [← eraseEach_map, List.map_coe_finRange_eq_range]

theorem eraseEach_eq_map (ps : List ℕ) (l : List α) :
    eraseEach ps l = (eraseEach ps (List.finRange l.length)).map l.get := by
  rw [← eraseEach_map, List.map_get_finRange]

theorem filter_finRange (gone : ℕ → Bool) (n : ℕ) :
    ((List.finRange n).filter fun i : Fin n => !gone i).map Fin.val =
      (List.range n).filter fun i => !gone i := by
  rw [← List.map_coe_finRange_eq_range, List.filter_map]
  rfl

/-- Positions that fall delete exactly the elements at them. -/
theorem eraseEach_of_falling (hfall : ps.Pairwise (· > ·)) (l : List α) :
    eraseEach ps l = keptAt (fun i => decide (i ∈ ps)) l := by
  rw [eraseEach_eq_map, keptAt]
  congr 1
  apply List.map_injective_iff.mpr Fin.val_injective
  rw [eraseEach_finRange, eraseEach_range hfall, filter_finRange fun i => decide (i ∈ ps)]
  refine List.filter_congr fun i _ => ?_
  simp

theorem keptAt_sublist {gone : ℕ → Bool} (hfall : ps.Pairwise (· > ·))
    (hps : ∀ p ∈ ps, gone p = true) (l : List α) : (keptAt gone l).Sublist (eraseEach ps l) := by
  rw [eraseEach_of_falling hfall]
  refine List.Sublist.map _ (List.monotone_filter_right _ fun i hi => ?_)
  simp only [Bool.not_eq_true', decide_eq_false_iff_not] at hi ⊢
  exact fun hmem => by simp [hps i hmem] at hi

/-- Where the positions are those of a set and each takes an element, the elements of the set
are deleted exactly if the positions fall. -/
theorem eraseEach_eq_keptAt_iff {gone : ℕ → Bool} {l : List α} (hl : l.Nodup)
    (hlen : (eraseEach ps l).length + ps.length = l.length)
    (hps : ∀ p ∈ ps, p < l.length ∧ gone p = true) (hgone : ∀ i < l.length, gone i = true → i ∈ ps) :
    eraseEach ps l = keptAt gone l ↔ ps.Pairwise (· > ·) := by
  constructor
  · intro heq
    rw [eraseEach_eq_map, keptAt] at heq
    have heq := List.map_injective_iff.mpr (List.nodup_iff_injective_get.mp hl) heq
    have heq := congrArg (List.map Fin.val) heq
    rw [eraseEach_finRange, filter_finRange] at heq
    -- As many positions as elements of the set, so each of them comes once.
    have hcount : ps.length = ((List.range l.length).filter gone).length := by
      have hsame : (eraseEach ps l).length = (eraseEach ps (List.range l.length)).length := by
        rw [eraseEach_eq_map, List.length_map, ← eraseEach_finRange, List.length_map]
      have hparts := List.length_eq_length_filter_add (l := List.range l.length) gone
      rw [hsame, heq] at hlen
      rw [List.length_range] at hparts
      omega
    have hperm : ps.Perm ((List.range l.length).filter gone) := by
      refine ((List.nodup_range.filter _).subperm fun i hi => ?_).perm_of_length_le hcount.le
        |>.symm
      obtain ⟨hi, hin⟩ := List.mem_filter.mp hi
      exact hgone i (List.mem_range.mp hi) hin
    have hsum : (List.range l.length).sum =
        ps.sum + ((List.range l.length).filter fun i => !gone i).sum := by
      rw [hperm.sum_eq, ← List.sum_append]
      exact (List.filter_append_perm gone _).sum_eq.symm
    have hlenRange : (eraseEach ps (List.range l.length)).length + ps.length =
        (List.range l.length).length := by
      rw [← eraseEach_finRange, List.length_map, List.length_range]
      rw [eraseEach_eq_map, List.length_map] at hlen
      exact hlen
    exact (falling_of_sum List.pairwise_lt_range hlenRange (by rw [heq, hsum])).1
  · intro hfall
    rw [eraseEach_of_falling hfall, keptAt, keptAt]
    congr 1
    refine List.filter_congr fun i _ => ?_
    have hiff : (i : ℕ) ∈ ps ↔ gone i = true := ⟨fun h => (hps i h).2, hgone i i.isLt⟩
    by_cases hi : gone i = true
    · simp [hi, hiff.mpr hi]
    · simp [hi, mt hiff.mp hi]

end Positions

end StateMachine
