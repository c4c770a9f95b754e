import WorkMesh.Encoding.Text

/-!
# Searching in texts

The functions of `strings` that look for a text within another one.
-/

namespace Encoding

/-- `strings.Index`. -/
def indexOf (mark : Bytes) : Bytes → Option ℕ
  | [] => if mark = [] then some 0 else none
  | c :: text =>
      if mark.isPrefixOf (c :: text) then some 0 else (indexOf mark text).map (· + 1)

/-- `strings.Contains`. -/
def containsText (text mark : Bytes) : Bool := (indexOf mark text).isSome

/-- `strings.ReplaceAll` of a mark that is not empty. The number counts the bytes of the last mark
that are still to be passed over. -/
def replaceFrom (old new : Bytes) : ℕ → Bytes → Bytes
  | _, [] => []
  | skip + 1, _ :: text => replaceFrom old new skip text
  | 0, c :: text =>
      if old.isPrefixOf (c :: text) then new ++ replaceFrom old new (old.length - 1) text
      else c :: replaceFrom old new 0 text

def replaceAll (text old new : Bytes) : Bytes := replaceFrom old new 0 text

/-- The marks of white space. -/
def spaceMarks : List Bytes := spaceRunes.map String.utf8EncodeChar

/-- `strings.Fields` behind the bytes of a word that is not over, the last of them first. The
number counts the bytes of the last space that are still to be passed over. -/
def wordsFrom : ℕ → Bytes → Bytes → List Bytes
  | _, word, [] => if word = [] then [] else [word.reverse]
  | skip + 1, word, _ :: text => wordsFrom skip word text
  | 0, word, c :: text =>
      match spaceMarks.find? (·.isPrefixOf (c :: text)) with
      | some mark =>
          let rest := wordsFrom (mark.length - 1) [] text
          if word = [] then rest else word.reverse :: rest
      | none => wordsFrom 0 (c :: word) text

/-- `strings.Fields`. -/
def words (text : Bytes) : List Bytes := wordsFrom 0 [] text

theorem spaceMarks_find_printable {c : UInt8} (hc : isPrintable c = true) (text : Bytes) :
    spaceMarks.find? (·.isPrefixOf (c :: text)) = none := by
  rw [List.find?_eq_none]
  intro mark hmark hprefix
  obtain ⟨hne, hbytes⟩ := space_not_printable mark hmark
  obtain ⟨d, rest, rfl⟩ := List.exists_cons_of_ne_nil hne
  have hd : d = c := (List.cons_prefix_cons.mp (List.isPrefixOf_iff_prefix.mp hprefix)).1
  rw [← hd, hbytes d List.mem_cons_self] at hc
  cases hc

theorem spaceMarks_find_blank (text : Bytes) :
    spaceMarks.find? (·.isPrefixOf (32 :: text)) = some [32] := by
  rw [spaceMarks, spaceRunes_bytes]
  simp [List.find?, List.isPrefixOf]

theorem wordsFrom_printable {w : Bytes} (hw : ∀ c ∈ w, isPrintable c = true) (word text : Bytes) :
    wordsFrom 0 word (w ++ text) = wordsFrom 0 (w.reverse ++ word) text := by
  induction w generalizing word with
  | nil => rfl
  | cons c w ih =>
      rw [List.cons_append, wordsFrom, spaceMarks_find_printable (hw c List.mem_cons_self)]
      dsimp only
      rw [ih (fun d hd => hw d (List.mem_cons_of_mem c hd)), List.reverse_cons,
        List.append_assoc, List.singleton_append]

theorem wordsFrom_blank {word : Bytes} (hword : word ≠ []) (text : Bytes) :
    wordsFrom 0 word (32 :: text) = word.reverse :: wordsFrom 0 [] text := by
  rw [wordsFrom, spaceMarks_find_blank]
  simp [hword]

/-- Words joined by blanks are split again. -/
theorem words_intercalate {ws : List Bytes} (hws : ∀ w ∈ ws, w ≠ [] ∧ ∀ c ∈ w, isPrintable c = true) :
    words ([32].intercalate ws) = ws := by
  unfold words
  induction ws with
  | nil => rfl
  | cons w ws ih =>
      obtain ⟨hne, hw⟩ := hws w List.mem_cons_self
      have ih := ih fun v hv => hws v (List.mem_cons_of_mem w hv)
      have hrev : w.reverse ≠ [] := by simpa using hne
      cases ws with
      | nil =>
          have hjoin : [32].intercalate [w] = w ++ [] := by simp [List.intercalate]
          rw [hjoin, wordsFrom_printable hw, List.append_nil, wordsFrom, if_neg hrev,
            List.reverse_reverse]
      | cons v ws =>
          have hjoin : [32].intercalate (w :: v :: ws) = w ++ 32 :: [32].intercalate (v :: ws) := by
            simp [List.intercalate]
          rw [hjoin, wordsFrom_printable hw, List.append_nil, wordsFrom_blank hrev,
            List.reverse_reverse, ih]

/-- No mark reaches over a character that none of them has. -/
theorem dropMarks_before {marks : List Bytes} {c : UInt8} (hc : ∀ mark ∈ marks, c ∉ mark)
    (n : ℕ) (w text : Bytes) :
    ∃ rest, dropMarks marks n (w ++ c :: text) = rest ++ c :: text := by
  induction n generalizing w with
  | zero => exact ⟨w, rfl⟩
  | succ n ih =>
      rw [dropMarks]
      cases hfind : marks.find? (·.isPrefixOf (w ++ c :: text)) with
      | none => exact ⟨w, rfl⟩
      | some mark =>
          have hmark := List.mem_of_find?_eq_some hfind
          have hprefix : mark.isPrefixOf (w ++ c :: text) = true := by
            simpa using List.find?_some hfind
          obtain ⟨rest, hrest⟩ := List.isPrefixOf_iff_prefix.mp hprefix
          have hle : mark.length ≤ w.length := by
            by_contra hlong
            have hin : c ∈ mark := by
              have hget : (mark ++ rest)[w.length]? = some c := by rw [hrest]; simp
              rw [List.getElem?_append_left (by omega)] at hget
              exact List.mem_of_getElem? hget
            exact hc mark hmark hin
          dsimp only
          rw [List.drop_append_of_le_length hle]
          exact ih _

/-- A text between two printable characters stands in front of the trimmed text. -/
theorem trimSpace_front {c d : UInt8} (hc : isPrintable c = true) (hd : isPrintable d = true)
    (front text : Bytes) :
    ∃ rest, trimSpace (c :: front ++ d :: text) = c :: front ++ d :: rest := by
  have hfree : ∀ mark ∈ spaceRunes.map String.utf8EncodeChar, ∀ c, isPrintable c = true →
      c ∉ mark := by
    intro mark hmark c hc hin
    rw [(space_not_printable mark hmark).2 c hin] at hc
    cases hc
  have hempty : [] ∉ spaceRunes.map String.utf8EncodeChar := fun h =>
    (space_not_printable [] h).1 rfl
  have hheads : ∀ mark ∈ spaceRunes.map String.utf8EncodeChar, mark.head? ≠ some c :=
    fun mark hmark h => hfree mark hmark c hc (List.mem_of_mem_head? h)
  have htails : ∀ mark ∈ (spaceRunes.map String.utf8EncodeChar).map List.reverse, d ∉ mark := by
    intro mark hmark hin
    obtain ⟨front, hfront, rfl⟩ := List.mem_map.mp hmark
    exact hfree front hfront d hd (List.mem_reverse.mp hin)
  simp only [trimSpace]
  rw [List.cons_append, dropMarks_of_head hempty hheads, ← List.cons_append]
  have hback : (c :: front ++ d :: text).reverse = text.reverse ++ d :: (c :: front).reverse := by
    simp
  rw [hback]
  obtain ⟨rest, hrest⟩ := dropMarks_before htails
    (c :: front ++ d :: text).length text.reverse (c :: front).reverse
  exact ⟨rest.reverse, by rw [hrest]; simp⟩

/-! ## Words between marks -/

theorem dropMarks_split (marks : List Bytes) (n : ℕ) (text : Bytes) :
    ∃ ms : List Bytes, (∀ m ∈ ms, m ∈ marks) ∧ text = ms.flatten ++ dropMarks marks n text := by
  induction n generalizing text with
  | zero => exact ⟨[], by simp, rfl⟩
  | succ n ih =>
      rw [dropMarks]
      cases hfind : marks.find? (·.isPrefixOf text) with
      | none => exact ⟨[], by simp, rfl⟩
      | some mark =>
          have hprefix : mark.isPrefixOf text = true := by simpa using List.find?_some hfind
          obtain ⟨rest, hrest⟩ := List.isPrefixOf_iff_prefix.mp hprefix
          obtain ⟨ms, hms, hsplit⟩ := ih rest
          refine ⟨mark :: ms, ?_, ?_⟩
          · intro m hm
            rcases List.mem_cons.mp hm with rfl | hm
            · exact List.mem_of_find?_eq_some hfind
            · exact hms m hm
          · dsimp only
            rw [← hrest, List.drop_left, List.flatten_cons, List.append_assoc, ← hsplit]

/-- A text is its trimmed text between marks of white space. -/
theorem trimSpace_split (text : Bytes) :
    ∃ ms ns : List Bytes, (∀ m ∈ ms, m ∈ spaceMarks) ∧ (∀ m ∈ ns, m ∈ spaceMarks) ∧
      text = ms.flatten ++ (trimSpace text ++ ns.flatten) := by
  obtain ⟨ms, hms, hfront⟩ := dropMarks_split spaceMarks text.length text
  obtain ⟨ns, hns, hback⟩ := dropMarks_split (spaceMarks.map List.reverse)
    (dropMarks spaceMarks text.length text).length
    (dropMarks spaceMarks text.length text).reverse
  refine ⟨ms, ns.reverse.map List.reverse, hms, ?_, ?_⟩
  · intro m hm
    obtain ⟨n, hn, rfl⟩ := List.mem_map.mp hm
    obtain ⟨m, hm, rfl⟩ := List.mem_map.mp (hns n (List.mem_reverse.mp hn))
    rwa [List.reverse_reverse]
  · have hrest := congrArg List.reverse hback
    rw [List.reverse_reverse, List.reverse_append, List.reverse_flatten] at hrest
    conv_lhs => rw [hfront, hrest]
    rw [List.map_reverse]
    rfl

/-- A text between two printable characters is trimmed. -/
theorem trimSpace_of_ends {text : Bytes} {c d : UInt8} (hc : isPrintable c = true)
    (hd : isPrintable d = true) (hfirst : text.head? = some c) (hlast : text.getLast? = some d) :
    trimSpace text = text := by
  have hmarks : ∀ m ∈ spaceMarks, m ≠ [] ∧ ∀ e ∈ m, isPrintable e = false := space_not_printable
  obtain ⟨ms, ns, hms, hns, hsplit⟩ := trimSpace_split text
  have hfront : ms.flatten = [] := by
    cases hflat : ms.flatten with
    | nil => rfl
    | cons e rest =>
        obtain ⟨m, hm, he⟩ := List.mem_flatten.mp (hflat ▸ List.mem_cons_self)
        rw [hsplit, hflat] at hfirst
        cases hfirst
        exact absurd hc (by rw [(hmarks m (hms m hm)).2 _ he]; decide)
  have hback : ns.flatten = [] := by
    rcases List.eq_nil_or_concat ns.flatten with hnil | ⟨rest, e, hflat⟩
    · exact hnil
    · obtain ⟨m, hm, he⟩ := List.mem_flatten.mp
        (show e ∈ ns.flatten by rw [hflat, List.concat_eq_append]; simp)
      rw [hsplit, hflat, List.concat_eq_append, ← List.append_assoc, ← List.append_assoc,
        List.getLast?_concat] at hlast
      cases hlast
      exact absurd hd (by rw [(hmarks m (hns m hm)).2 _ he]; decide)
  rw [hfront, hback, List.nil_append, List.append_nil] at hsplit
  exact hsplit.symm

/-- White space is passed over up to a printable character. -/
theorem dropMarks_flatten {ms : List Bytes} (hms : ∀ m ∈ ms, m ∈ spaceMarks) {c : UInt8}
    (hc : isPrintable c = true) (text : Bytes) {n : ℕ} (hn : ms.length ≤ n) :
    dropMarks spaceMarks n (ms.flatten ++ c :: text) = c :: text := by
  have hfree : ∀ m ∈ spaceMarks, ∀ m' ∈ spaceMarks, m.isPrefixOf m' = true → m = m' := by
    have h : spaceMarks.all (fun m => spaceMarks.all fun m' =>
        !m.isPrefixOf m' || m == m') = true := by decide +kernel
    simp only [List.all_eq_true, Bool.or_eq_true, Bool.not_eq_true', beq_iff_eq] at h
    intro m hm m' hm' hprefix
    exact (h m hm m' hm').resolve_left (by simp [ hprefix])
  induction ms generalizing n with
  | nil =>
      cases n with
      | zero => rfl
      | succ n =>
          rw [List.flatten_nil, List.nil_append, dropMarks, spaceMarks_find_printable hc]
  | cons m ms ih =>
      cases n with
      | zero => simp at hn
      | succ n =>
          have hm := hms m List.mem_cons_self
          rw [List.flatten_cons, List.append_assoc, dropMarks]
          have hself : m.isPrefixOf (m ++ (ms.flatten ++ c :: text)) = true :=
            List.isPrefixOf_iff_prefix.mpr (List.prefix_append _ _)
          cases hfind : spaceMarks.find? (·.isPrefixOf (m ++ (ms.flatten ++ c :: text))) with
          | none => exact absurd hself (List.find?_eq_none.mp hfind m hm)
          | some m' =>
              have hprefix : m'.isPrefixOf (m ++ (ms.flatten ++ c :: text)) = true := by
                simpa using List.find?_some hfind
              have hm' := List.mem_of_find?_eq_some hfind
              have hsame : m' = m := by
                rcases List.prefix_or_prefix_of_prefix (List.isPrefixOf_iff_prefix.mp hprefix)
                  (List.isPrefixOf_iff_prefix.mp hself) with h | h
                · exact hfree m' hm' m hm (List.isPrefixOf_iff_prefix.mpr h)
                · exact (hfree m hm m' hm' (List.isPrefixOf_iff_prefix.mpr h)).symm
              dsimp only
              rw [hsame, List.drop_left]
              exact ih (fun q hq => hms q (List.mem_cons_of_mem m hq)) (Nat.le_of_succ_le_succ hn)

/-- What stands behind the first word and the white space behind it. -/
def behindWord (text : Bytes) : Bytes :=
  let rest := (dropMarks spaceMarks text.length text).dropWhile isPrintable
  dropMarks spaceMarks rest.length rest

theorem length_le_flatten {ms : List Bytes} (hms : ∀ m ∈ ms, m ∈ spaceMarks) :
    ms.length ≤ ms.flatten.length := by
  have hlong : ∀ m ∈ spaceMarks, 1 ≤ m.length := fun m hm =>
    List.length_pos_of_ne_nil (space_not_printable m hm).1
  induction ms with
  | nil => exact Nat.le_refl _
  | cons m ms ih =>
      have hm := hlong m (hms m List.mem_cons_self)
      have ih := ih fun q hq => hms q (List.mem_cons_of_mem m hq)
      rw [List.flatten_cons, List.length_append, List.length_cons]
      omega

theorem behindWord_of_word {x text : Bytes} {c : UInt8} (hx : trimSpace x ≠ [])
    (hword : ∀ d ∈ trimSpace x, isPrintable d = true) (hc : isPrintable c = true) :
    behindWord (x ++ 32 :: c :: text) = c :: text := by
  obtain ⟨ms, ns, hms, hns, hsplit⟩ := trimSpace_split x
  have hmark : ∀ m ∈ spaceMarks, ∀ d, m.head? = some d → isPrintable d = false :=
    fun m hm d hd => (space_not_printable m hm).2 d (List.mem_of_mem_head? hd)
  have hblank : [32] ∈ spaceMarks := by simp [spaceMarks, spaceRunes_bytes]
  have hns' : ∀ m ∈ ns ++ [[32]], m ∈ spaceMarks := by
    intro m hm
    rcases List.mem_append.mp hm with hm | hm
    · exact hns m hm
    · obtain rfl := List.mem_singleton.mp hm
      exact hblank
  have hall : x ++ 32 :: c :: text =
      ms.flatten ++ (trimSpace x ++ ((ns ++ [[32]]).flatten ++ c :: text)) := by
    conv_lhs => rw [hsplit]
    simp
  rw [behindWord, hall]
  have hfirst : dropMarks spaceMarks (ms.flatten ++ (trimSpace x ++
      ((ns ++ [[32]]).flatten ++ c :: text))).length
        (ms.flatten ++ (trimSpace x ++ ((ns ++ [[32]]).flatten ++ c :: text))) =
      trimSpace x ++ ((ns ++ [[32]]).flatten ++ c :: text) := by
    cases hx' : trimSpace x with
    | nil => exact absurd hx' hx
    | cons d word =>
        rw [List.cons_append]
        refine dropMarks_flatten hms (hword d (by rw [hx']; exact List.mem_cons_self)) _ ?_
        rw [List.length_append]
        have hlen := length_le_flatten hms
        omega
  have hrest : (trimSpace x ++ ((ns ++ [[32]]).flatten ++ c :: text)).dropWhile isPrintable =
      (ns ++ [[32]]).flatten ++ c :: text := by
    rw [List.dropWhile_append_of_pos hword]
    cases hn : ns ++ [[32]] with
    | nil => simp at hn
    | cons m rest =>
        have hm : m ∈ spaceMarks := hns' m (by rw [hn]; exact List.mem_cons_self)
        cases m with
        | nil => exact absurd rfl (space_not_printable [] hm).1
        | cons d m =>
            rw [List.flatten_cons, List.cons_append, List.cons_append,
              List.dropWhile_cons_of_neg (by rw [hmark _ hm d rfl]; decide)]
  rw [hfirst, hrest]
  refine dropMarks_flatten hns' hc _ ((length_le_flatten hns').trans ?_)
  rw [List.length_append]
  exact Nat.le_add_right _ _

/-- Two texts that join a word and another text join the same. -/
theorem joined_injective {x y s t : Bytes} {c d : UInt8} (hx : trimSpace x ≠ [])
    (hxword : ∀ d ∈ trimSpace x, isPrintable d = true) (hy : trimSpace y ≠ [])
    (hyword : ∀ d ∈ trimSpace y, isPrintable d = true) (hc : isPrintable c = true)
    (hd : isPrintable d = true) (h : x ++ 32 :: c :: s = y ++ 32 :: d :: t) :
    x = y ∧ c :: s = d :: t := by
  have hrest : c :: s = d :: t := by
    rw [← behindWord_of_word hx hxword hc, h, behindWord_of_word hy hyword hd]
  rw [hrest] at h
  exact ⟨List.append_cancel_right h, hrest⟩

example : replaceAll (bytes "a--b-c--") (bytes "--") (bytes "+") = bytes "a+b-c+" := by
  decide +kernel

end Encoding
