import WorkMesh.Encoding.Search

/-!
# Trimmed texts

A text between marks of white space is found again by trimming, whatever the marks are, as long
as no mark stands at its ends. So white space may be taken off or put on at either side without
a difference to what is left.
-/

namespace Encoding

/-- No mark of white space stands at either end. -/
structure Tight (text : Bytes) : Prop where
  front : ∀ m ∈ spaceMarks, ¬ m <+: text
  back : ∀ m ∈ spaceMarks, ¬ m <:+ text

/-! ## The marks -/

/-- No mark starts inside another. -/
theorem spaceMarks_apart : ∀ m ∈ spaceMarks, ∀ m' ∈ spaceMarks, ∀ c ∈ m'.head?, c ∉ m.tail := by
  have h : spaceMarks.all (fun m => spaceMarks.all fun m' =>
      m'.head?.all fun c => !m.tail.contains c) = true := by decide +kernel
  simp only [List.all_eq_true, Option.all_eq_true, Bool.not_eq_true', List.contains_eq_mem,
    decide_eq_false_iff_not] at h
  exact fun m hm m' hm' c hc => h m hm m' hm' c hc

theorem spaceMarks_prefix : ∀ m ∈ spaceMarks, ∀ m' ∈ spaceMarks, m <+: m' → m = m' := by
  have h : spaceMarks.all (fun m => spaceMarks.all fun m' =>
      !m.isPrefixOf m' || m == m') = true := by decide +kernel
  simp only [List.all_eq_true, Bool.or_eq_true, Bool.not_eq_true', beq_iff_eq] at h
  intro m hm m' hm' hfirst
  exact (h m hm m' hm').resolve_left (by simpa using List.isPrefixOf_iff_prefix.mpr hfirst)

theorem spaceMarks_ne_nil {m : Bytes} (hm : m ∈ spaceMarks) : m ≠ [] :=
  (space_not_printable m hm).1

theorem spaceMarks_suffix : ∀ m ∈ spaceMarks, ∀ m' ∈ spaceMarks, m <:+ m' → m = m' := by
  rintro m hm _ hm' ⟨front, rfl⟩
  cases front with
  | nil => rfl
  | cons d front =>
      obtain ⟨c, rest, rfl⟩ := List.exists_cons_of_ne_nil (spaceMarks_ne_nil hm)
      exact absurd (by simp) (spaceMarks_apart _ hm' _ hm c rfl)

/-! ## Dropping -/

section Drop
variable {marks ms : List Bytes} {rest text : Bytes} {n : ℕ}

/-- All marks in front are dropped. -/
theorem dropMarks_marks (hfree : ∀ m ∈ marks, ∀ m' ∈ marks, m <+: m' → m = m')
    (hms : ∀ m ∈ ms, m ∈ marks) (hrest : ∀ m ∈ marks, ¬ m <+: rest) (hn : ms.length ≤ n) :
    dropMarks marks n (ms.flatten ++ rest) = rest := by
  induction ms generalizing n with
  | nil =>
      cases n with
      | zero => rfl
      | succ n =>
          have hnone : marks.find? (·.isPrefixOf rest) = none := by
            rw [List.find?_eq_none]
            exact fun m hm h => hrest m hm (List.isPrefixOf_iff_prefix.mp h)
          rw [List.flatten_nil, List.nil_append, dropMarks, hnone]
  | cons m ms ih =>
      cases n with
      | zero => simp at hn
      | succ n =>
          have hm := hms m List.mem_cons_self
          have hself : m <+: m ++ (ms.flatten ++ rest) := List.prefix_append _ _
          rw [List.flatten_cons, List.append_assoc, dropMarks]
          cases hfind : marks.find? (·.isPrefixOf (m ++ (ms.flatten ++ rest))) with
          | none =>
              exact absurd (List.isPrefixOf_iff_prefix.mpr hself)
                (List.find?_eq_none.mp hfind m hm)
          | some m' =>
              have hfirst : m' <+: m ++ (ms.flatten ++ rest) := by
                apply List.isPrefixOf_iff_prefix.mp
                simpa using List.find?_some hfind
              have hm' := List.mem_of_find?_eq_some hfind
              obtain rfl : m' = m := by
                rcases List.prefix_or_prefix_of_prefix hfirst hself with h | h
                · exact hfree m' hm' m hm h
                · exact (hfree m hm m' hm' h).symm
              dsimp only
              rw [List.drop_left]
              exact ih (fun q hq => hms q (List.mem_cons_of_mem _ hq)) (Nat.le_of_succ_le_succ hn)

/-- No mark is left in front. -/
theorem not_prefix_dropMarks (hmarks : [] ∉ marks) (hn : text.length ≤ n) :
    ∀ m ∈ marks, ¬ m <+: dropMarks marks n text := by
  induction n generalizing text with
  | zero =>
      intro m hm hfirst
      obtain rfl := List.length_eq_zero_iff.mp (Nat.le_zero.mp hn)
      exact hmarks (List.prefix_nil.mp hfirst ▸ hm)
  | succ n ih =>
      rw [dropMarks]
      cases hfind : marks.find? (·.isPrefixOf text) with
      | none =>
          exact fun m hm h => List.find?_eq_none.mp hfind m hm (List.isPrefixOf_iff_prefix.mpr h)
      | some mark =>
          have hne : mark ≠ [] := fun h => hmarks (h ▸ List.mem_of_find?_eq_some hfind)
          have hlength := List.length_pos_iff.mpr hne
          apply ih
          rw [List.length_drop]
          omega

/-- A byte that no mark has ends the dropping. -/
theorem dropMarks_append {c : UInt8} (hc : ∀ m ∈ marks, c ∉ m) (text : Bytes) :
    dropMarks marks n (rest ++ c :: text) = dropMarks marks n rest ++ c :: text := by
  have hsame : ∀ w : Bytes, ∀ m ∈ marks, m <+: w ++ c :: text ↔ m <+: w := by
    intro w m hm
    refine ⟨fun h => ?_, fun h => h.trans (List.prefix_append _ _)⟩
    apply List.prefix_of_prefix_length_le h (List.prefix_append _ _)
    by_contra hlong
    obtain ⟨back, hback⟩ := h
    have hget : (m ++ back)[w.length]? = some c := by rw [hback]; simp
    rw [List.getElem?_append_left (by omega)] at hget
    exact hc m hm (List.mem_of_getElem? hget)
  induction n generalizing rest with
  | zero => rfl
  | succ n ih =>
      have hfind : marks.find? (·.isPrefixOf (rest ++ c :: text)) =
          marks.find? (·.isPrefixOf rest) := by
        apply List.find?_congr
        intro m hm
        rw [Bool.eq_iff_iff, List.isPrefixOf_iff_prefix, List.isPrefixOf_iff_prefix, hsame rest m hm]
      rw [dropMarks, dropMarks, hfind]
      cases hfound : marks.find? (·.isPrefixOf rest) with
      | none => rfl
      | some mark =>
          have hfirst : mark <+: rest := by
            apply List.isPrefixOf_iff_prefix.mp
            simpa using List.find?_some hfound
          dsimp only
          rw [List.drop_append_of_le_length hfirst.length_le]
          exact ih

end Drop

/-! ## Trimming -/

section Trim
variable {ms ns : List Bytes} {text : Bytes}

/-- The marks as they are met from behind. -/
theorem reversed_prefix : ∀ m ∈ spaceMarks.map List.reverse, ∀ m' ∈ spaceMarks.map List.reverse,
    m <+: m' → m = m' := by
  intro m hm m' hm' hfirst
  obtain ⟨a, ha, rfl⟩ := List.mem_map.mp hm
  obtain ⟨b, hb, rfl⟩ := List.mem_map.mp hm'
  rw [spaceMarks_suffix a ha b hb (List.reverse_prefix.mp hfirst)]

theorem nil_notMem_reversed : [] ∉ spaceMarks.map List.reverse := by
  intro h
  obtain ⟨m, hm, hnil⟩ := List.mem_map.mp h
  exact spaceMarks_ne_nil hm (List.reverse_eq_nil_iff.mp hnil)

theorem tight_trimSpace (text : Bytes) : Tight (trimSpace text) := by
  have hfront : ∀ m ∈ spaceMarks, ¬ m <+: dropMarks spaceMarks text.length text :=
    not_prefix_dropMarks (fun h => spaceMarks_ne_nil h rfl) (Nat.le_refl _)
  have hback : ∀ m ∈ spaceMarks.map List.reverse, ¬ m <+:
      dropMarks (spaceMarks.map List.reverse) (dropMarks spaceMarks text.length text).length
        (dropMarks spaceMarks text.length text).reverse :=
    not_prefix_dropMarks nil_notMem_reversed (Nat.le_of_eq List.length_reverse)
  constructor
  · intro m hm hfirst
    obtain ⟨ns, -, hsplit⟩ := dropMarks_split (spaceMarks.map List.reverse)
      (dropMarks spaceMarks text.length text).length
      (dropMarks spaceMarks text.length text).reverse
    have hrest := congrArg List.reverse hsplit
    rw [List.reverse_reverse, List.reverse_append] at hrest
    exact hfront m hm (hfirst.trans ⟨_, hrest.symm⟩)
  · intro m hm hsuffix
    apply hback m.reverse (List.mem_map_of_mem hm)
    have h := List.reverse_prefix.mpr hsuffix
    rwa [trimSpace, List.reverse_reverse] at h

/-- A mark stands in front of a text between marks only where one stands in front of the text. -/
theorem not_prefix_append (hne : text ≠ []) (h : ∀ m ∈ spaceMarks, ¬ m <+: text)
    (hns : ∀ m ∈ ns, m ∈ spaceMarks) : ∀ m ∈ spaceMarks, ¬ m <+: text ++ ns.flatten := by
  intro m hm hfirst
  rcases List.prefix_or_prefix_of_prefix hfirst (List.prefix_append _ _) with hin | ⟨tail, rfl⟩
  · exact h m hm hin
  · -- the mark would reach into the white space behind the text
    have htail : tail <+: ns.flatten := (List.prefix_append_right_inj text).mp hfirst
    cases tail with
    | nil => exact h _ hm (by rw [List.append_nil])
    | cons c tail =>
        obtain ⟨d, front, rfl⟩ := List.exists_cons_of_ne_nil hne
        cases ns with
        | nil => exact absurd (List.prefix_nil.mp htail) (List.cons_ne_nil _ _)
        | cons n ns =>
            have hn := hns n List.mem_cons_self
            obtain ⟨e, rest, rfl⟩ := List.exists_cons_of_ne_nil (spaceMarks_ne_nil hn)
            obtain rfl : c = e := (List.cons_prefix_cons.mp htail).1
            exact spaceMarks_apart _ hm _ hn c rfl (by simp)

/-- What stands between marks, tight as it is, is what trimming leaves. -/
theorem trimSpace_of_tight (h : Tight text) (hms : ∀ m ∈ ms, m ∈ spaceMarks)
    (hns : ∀ m ∈ ns, m ∈ spaceMarks) : trimSpace (ms.flatten ++ (text ++ ns.flatten)) = text := by
  have hflat : (ns.flatten).reverse = (ns.reverse.map List.reverse).flatten := by
    rw [List.reverse_flatten, List.map_reverse]
  have hreversed : ∀ m ∈ ns.reverse.map List.reverse, m ∈ spaceMarks.map List.reverse := by
    intro m hm
    obtain ⟨n, hn, rfl⟩ := List.mem_map.mp hm
    exact List.mem_map_of_mem (hns n (List.mem_reverse.mp hn))
  by_cases hne : text = []
  · -- nothing but white space
    have hall : ∀ m ∈ ms ++ ns, m ∈ spaceMarks := by
      intro m hm
      rcases List.mem_append.mp hm with hm | hm
      · exact hms m hm
      · exact hns m hm
    have hdrop : dropMarks spaceMarks ((ms ++ ns).flatten ++ []).length ((ms ++ ns).flatten ++ []) =
        [] := by
      apply dropMarks_marks spaceMarks_prefix hall
      · exact fun m hm hfirst => spaceMarks_ne_nil hm (List.prefix_nil.mp hfirst)
      · rw [List.append_nil]
        exact length_le_flatten hall
    rw [hne, List.nil_append, ← List.flatten_append, ← List.append_nil (ms ++ ns).flatten, trimSpace]
    change (dropMarks (spaceMarks.map List.reverse) (dropMarks spaceMarks _ _).length
      (dropMarks spaceMarks _ _).reverse).reverse = []
    rw [hdrop]
    rfl
  · have hlength : ms.length ≤ (ms.flatten ++ (text ++ ns.flatten)).length := by
      rw [List.length_append]
      exact Nat.le_trans (length_le_flatten hms) (Nat.le_add_right _ _)
    have hfront : dropMarks spaceMarks (ms.flatten ++ (text ++ ns.flatten)).length
        (ms.flatten ++ (text ++ ns.flatten)) = text ++ ns.flatten :=
      dropMarks_marks spaceMarks_prefix hms (not_prefix_append hne h.front hns) hlength
    have hback : dropMarks (spaceMarks.map List.reverse) (text ++ ns.flatten).length
        (text ++ ns.flatten).reverse = text.reverse := by
      rw [List.reverse_append, hflat]
      apply dropMarks_marks reversed_prefix hreversed
      · intro m hm hfirst
        obtain ⟨n, hn, rfl⟩ := List.mem_map.mp hm
        exact h.back n hn (List.reverse_prefix.mp hfirst)
      · rw [List.length_map, List.length_reverse, List.length_append]
        exact Nat.le_trans (length_le_flatten hns) (Nat.le_add_left _ _)
    rw [trimSpace]
    change (dropMarks (spaceMarks.map List.reverse) (dropMarks spaceMarks _ _).length
      (dropMarks spaceMarks _ _).reverse).reverse = text
    rw [hfront, hback, List.reverse_reverse]

/-- White space at the sides makes no difference. -/
theorem trimSpace_marks (hms : ∀ m ∈ ms, m ∈ spaceMarks) (hns : ∀ m ∈ ns, m ∈ spaceMarks)
    (text : Bytes) : trimSpace (ms.flatten ++ (text ++ ns.flatten)) = trimSpace text := by
  obtain ⟨front, back, hfront, hback, hsplit⟩ := trimSpace_split text
  have hall : ∀ {as bs : List Bytes}, (∀ m ∈ as, m ∈ spaceMarks) → (∀ m ∈ bs, m ∈ spaceMarks) →
      ∀ m ∈ as ++ bs, m ∈ spaceMarks := by
    intro as bs has hbs m hm
    rcases List.mem_append.mp hm with hm | hm
    · exact has m hm
    · exact hbs m hm
  calc trimSpace (ms.flatten ++ (text ++ ns.flatten))
      = trimSpace ((ms ++ front).flatten ++ (trimSpace text ++ (back ++ ns).flatten)) := by
        conv_lhs => rw [hsplit]
        simp only [List.flatten_append, List.append_assoc]
    _ = trimSpace text :=
        trimSpace_of_tight (tight_trimSpace text) (hall hms hfront) (hall hback hns)

theorem trimSpace_trimSpace (text : Bytes) : trimSpace (trimSpace text) = trimSpace text := by
  simpa using trimSpace_of_tight (tight_trimSpace text) (List.forall_mem_nil _)
    (List.forall_mem_nil _)

theorem trimSpace_blank (text : Bytes) : trimSpace (32 :: text) = trimSpace text := by
  have hblank : ∀ m ∈ [[(32 : UInt8)]], m ∈ spaceMarks := by
    rw [spaceMarks, spaceRunes_bytes]
    decide
  simpa using trimSpace_marks hblank (List.forall_mem_nil _) text

end Trim

end Encoding
