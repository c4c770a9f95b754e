import WorkMesh.Encoding.Address
import WorkMesh.Encoding.Trimmed

/-!
# Lines of texts

The lines of a file, the lines that a scanner with a limited buffer yields of it, and the two
sides of a mark on a line.
-/

namespace Encoding

/-! ## The sides of a mark -/

/-- `strings.Cut`: what stands before the first mark and behind it, and whether there is one. -/
def cut (mark : UInt8) (text : Bytes) : Bytes × Bytes × Bool :=
  (text.takeWhile (· ≠ mark), (text.dropWhile (· ≠ mark)).tail, text.contains mark)

section Cut
variable {c : UInt8} {text front back : Bytes}

theorem cut_of_notMem (h : c ∉ text) : cut c text = (text, [], false) := by
  have hall : ∀ d ∈ text, decide (d ≠ c) = true := by
    intro d hd
    exact decide_eq_true fun heq => h (heq ▸ hd)
  rw [cut, List.takeWhile_eq_self_iff.mpr hall, List.dropWhile_eq_nil_iff.mpr hall]
  simp [h]

theorem cut_append (h : c ∉ front) : cut c (front ++ c :: back) = (front, back, true) := by
  have hall : ∀ d ∈ front, decide (d ≠ c) = true := by
    intro d hd
    exact decide_eq_true fun heq => h (heq ▸ hd)
  rw [cut, List.takeWhile_append_of_pos hall, List.dropWhile_append_of_pos hall]
  simp

theorem exists_cut (h : c ∈ text) : ∃ front back, c ∉ front ∧ text = front ++ c :: back := by
  obtain ⟨front, back, hsplit, hfront⟩ := List.eq_append_cons_of_mem h
  exact ⟨front, back, hfront, hsplit⟩

/-- A mark that is no white space keeps its sides apart when the text is trimmed. -/
theorem trimSpace_sides (hc : isPrintable c = true) (front back : Bytes) :
    ∃ ns : List Bytes, ∃ right, (∀ m ∈ ns, m ∈ spaceMarks) ∧ trimSpace right = trimSpace back ∧
      trimSpace (front ++ c :: back) = (trimSpace front ++ ns.flatten) ++ c :: right := by
  have hfree : ∀ m ∈ spaceMarks, c ∉ m := by
    intro m hm hin
    rw [(space_not_printable m hm).2 c hin] at hc
    cases hc
  have hreversed : ∀ m ∈ spaceMarks.map List.reverse, c ∉ m := by
    intro m hm hin
    obtain ⟨n, hn, rfl⟩ := List.mem_map.mp hm
    exact hfree n hn (List.mem_reverse.mp hin)
  obtain ⟨ms, hms, hleft⟩ := dropMarks_split spaceMarks (front ++ c :: back).length front
  generalize hsize : dropMarks spaceMarks (front ++ c :: back).length front = left at hleft
  have hdrop : dropMarks spaceMarks (front ++ c :: back).length (front ++ c :: back) =
      left ++ c :: back := by
    rw [dropMarks_append hfree, hsize]
  -- what is left in front ends in white space at most
  have htight : ∀ m ∈ spaceMarks, ¬ m <+: left := by
    rw [← hsize]
    apply not_prefix_dropMarks fun h => spaceMarks_ne_nil h rfl
    simp
  obtain ⟨ks, ns, hks, hns, hsplit⟩ := trimSpace_split left
  have hnone : ks = [] := by
    cases ks with
    | nil => rfl
    | cons k ks =>
        have hk : k <+: left := by
          rw [hsplit, List.flatten_cons, List.append_assoc]
          exact List.prefix_append _ _
        exact absurd hk (htight k (hks k List.mem_cons_self))
  have hsame : trimSpace left = trimSpace front := by
    have h := trimSpace_marks hms (List.forall_mem_nil _) left
    rw [List.flatten_nil, List.append_nil, ← hleft] at h
    exact h.symm
  rw [hnone, List.flatten_nil, List.nil_append, hsame] at hsplit
  -- the same from behind
  obtain ⟨qs, hqs, hright⟩ := dropMarks_split (spaceMarks.map List.reverse)
    (left ++ c :: back).length back.reverse
  refine ⟨ns, (dropMarks (spaceMarks.map List.reverse) (left ++ c :: back).length
    back.reverse).reverse, hns, ?_, ?_⟩
  · have hrest := congrArg List.reverse hright
    rw [List.reverse_reverse, List.reverse_append, List.reverse_flatten] at hrest
    have hmarks : ∀ m ∈ (qs.map List.reverse).reverse, m ∈ spaceMarks := by
      intro m hm
      obtain ⟨q, hq, rfl⟩ := List.mem_map.mp (List.mem_reverse.mp hm)
      obtain ⟨n, hn, rfl⟩ := List.mem_map.mp (hqs q hq)
      rwa [List.reverse_reverse]
    have h := trimSpace_marks (List.forall_mem_nil _) hmarks (dropMarks
      (spaceMarks.map List.reverse) (left ++ c :: back).length back.reverse).reverse
    rw [List.flatten_nil, List.nil_append, ← hrest] at h
    exact h.symm
  · rw [← hsplit, trimSpace]
    change (dropMarks (spaceMarks.map List.reverse) (dropMarks spaceMarks _ _).length
      (dropMarks spaceMarks _ _).reverse).reverse = _
    rw [hdrop, List.reverse_append, List.reverse_cons, List.append_assoc, List.singleton_append,
      dropMarks_append hreversed]
    simp

/-- The two sides of a mark on a trimmed line, trimmed. -/
theorem cut_trimSpace (hc : isPrintable c = true) (hfront : c ∉ front) (back : Bytes) :
    ∃ left right, cut c (trimSpace (front ++ c :: back)) = (left, right, true) ∧
      trimSpace left = trimSpace front ∧ trimSpace right = trimSpace back := by
  obtain ⟨ns, right, hns, hright, hsides⟩ := trimSpace_sides hc front back
  obtain ⟨ms, qs, -, -, hsplit⟩ := trimSpace_split front
  have hleft : c ∉ trimSpace front ++ ns.flatten := by
    intro hin
    rcases List.mem_append.mp hin with hin | hin
    · apply hfront
      rw [hsplit]
      exact List.mem_append_right _ (List.mem_append_left _ hin)
    · obtain ⟨n, hn, hin⟩ := List.mem_flatten.mp hin
      rw [(space_not_printable n (hns n hn)).2 c hin] at hc
      cases hc
  refine ⟨trimSpace front ++ ns.flatten, right, ?_, ?_, hright⟩
  · rw [hsides, cut_append hleft]
  · have h := trimSpace_marks (List.forall_mem_nil _) hns (trimSpace front)
    rwa [List.flatten_nil, List.nil_append, trimSpace_trimSpace] at h

theorem notMem_trimSpace (h : c ∉ text) : c ∉ trimSpace text := by
  obtain ⟨ms, ns, -, -, hsplit⟩ := trimSpace_split text
  intro hin
  apply h
  rw [hsplit]
  exact List.mem_append_right _ (List.mem_append_left _ hin)

end Cut

/-! ## The lines of a text -/

/-- The lines of a text. The last one need not end in a line feed. -/
def textLines (text : Bytes) : List Bytes :=
  let pieces := text.splitOn 10
  if pieces.getLast? = some [] then pieces.dropLast else pieces

/-- A line without the carriage return at its end. -/
def dropCR (line : Bytes) : Bytes := if line.getLast? = some 13 then line.dropLast else line

/-- `bufio.MaxScanTokenSize`. -/
def maxScanTokenSize : ℕ := 65536

/-- The lines that a `bufio.Scanner` yields. It ends at a line that its buffer has no room for. -/
def scanLines (text : Bytes) : List Bytes :=
  ((textLines text).takeWhile fun line => line.length < maxScanTokenSize).map dropCR

section Lines
variable {lines : List Bytes} {line text : Bytes}

theorem notMem_of_mem_splitOn {sep : UInt8} (h : line ∈ text.splitOn sep) : sep ∉ line := by
  induction text generalizing line with
  | nil =>
      rw [List.splitOn_nil, List.mem_singleton] at h
      rw [h]
      exact List.not_mem_nil
  | cons c text ih =>
      rw [List.splitOn_cons_eq_if_modifyHead] at h
      split_ifs at h with hc
      · obtain rfl | hline := List.mem_cons.mp h
        · exact List.not_mem_nil
        · exact ih hline
      · obtain ⟨first, rest, htail⟩ := List.exists_cons_of_ne_nil (List.splitOn_ne_nil sep text)
        rw [htail, List.modifyHead_cons] at h
        obtain rfl | hline := List.mem_cons.mp h
        · intro hmem
          obtain rfl | hmem := List.mem_cons.mp hmem
          · exact hc (beq_self_eq_true _)
          · exact ih (htail ▸ List.mem_cons_self) hmem
        · exact ih (htail ▸ List.mem_cons_of_mem _ hline)

theorem notMem_of_mem_textLines (h : line ∈ textLines text) : 10 ∉ line := by
  apply @notMem_of_mem_splitOn line text
  unfold textLines at h
  dsimp only at h
  split at h
  · exact List.mem_of_mem_dropLast h
  · exact h

/-- Lines that are each ended by a line feed are read again. -/
theorem textLines_joined (hne : lines ≠ []) (h : ∀ line ∈ lines, 10 ∉ line) :
    textLines ([10].intercalate lines ++ [10]) = lines := by
  have hsplit : ([10].intercalate lines ++ [10]).splitOn 10 = lines ++ [[]] := by
    rw [List.splitOn_append_cons_self, List.splitOn_intercalate 10 h hne, List.splitOn_nil]
  rw [textLines, hsplit]
  simp

theorem dropCR_append (line : Bytes) : ∃ ms : List Bytes, (∀ m ∈ ms, m ∈ spaceMarks) ∧
    line = dropCR line ++ ms.flatten := by
  unfold dropCR
  split
  · rename_i hlast
    refine ⟨[[13]], ?_, ?_⟩
    · rw [spaceMarks, spaceRunes_bytes]
      decide
    · obtain ⟨front, rfl⟩ := List.getLast?_eq_some_iff.mp hlast
      simp
  · exact ⟨[], List.forall_mem_nil _, (List.append_nil line).symm⟩

@[simp] theorem trimSpace_dropCR (line : Bytes) : trimSpace (dropCR line) = trimSpace line := by
  obtain ⟨ms, hms, hline⟩ := dropCR_append line
  have h := trimSpace_marks (List.forall_mem_nil _) hms (dropCR line)
  rw [List.flatten_nil, List.nil_append, ← hline] at h
  exact h.symm

theorem mem_of_mem_dropCR {c : UInt8} (h : c ∈ dropCR line) : c ∈ line := by
  obtain ⟨ms, -, hline⟩ := dropCR_append line
  rw [hline]
  exact List.mem_append_left _ h

theorem dropCR_eq_self_iff : dropCR line = line ↔ line.getLast? ≠ some 13 := by
  unfold dropCR
  split
  · rename_i hlast
    refine iff_of_false (fun heq => ?_) (not_not_intro hlast)
    have hlength := congrArg List.length heq
    rw [List.length_dropLast] at hlength
    rw [List.length_eq_zero_iff.mp (by omega : line.length = 0)] at hlast
    cases hlast
  · exact iff_of_true rfl ‹_›

theorem mem_scanLines (h : line ∈ scanLines text) :
    ∃ whole ∈ textLines text, whole.length < maxScanTokenSize ∧ dropCR whole = line := by
  obtain ⟨whole, hmem, hwhole⟩ := List.mem_map.mp h
  have hshort := List.mem_takeWhile_imp hmem
  exact ⟨whole, (List.takeWhile_sublist _).subset hmem, by simpa using hshort, hwhole⟩

end Lines

end Encoding
