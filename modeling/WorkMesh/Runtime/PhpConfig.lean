import WorkMesh.Encoding.BigEndian
import WorkMesh.Encoding.Lines
import WorkMesh.StateMachine.Walk
import Mathlib.Data.Finmap

/-!
# Settings of PHP

The reader and the editor of `php.ini` and of the configuration of FPM. The editor replaces the
lines that assign a key that is updated and appends a line for each key that no line assigns.
-/

namespace WorkMesh.Runtime

open Encoding StateMachine

/-! ## Reading and editing -/

/-- Settings by their keys. -/
abbrev Entries := Finmap fun _ : Bytes => Bytes

/-- `strings.Trim` with the double quote. -/
def trimQuotes (text : Bytes) : Bytes := (text.dropWhile (· = 34)).rdropWhile (· = 34)

/-- One line of `parseRuntimeINI`. -/
def parseLine (values : Entries) (line : Bytes) : Entries :=
  let line := trimSpace line
  if line = [] ∨ line.head? ∈ [some 59, some 35, some 91] then values
  else
    let parts := cut 61 line
    if parts.2.2 = true ∧ trimSpace parts.1 ≠ [] then
      values.insert (trimSpace parts.1) (trimQuotes (trimSpace parts.2.1))
    else values

def parseRuntimeINI (content : Bytes) : Entries := (content.splitOn 10).foldl parseLine ∅

/-- `phpINIKeyPattern`. -/
def isINIKey (key : Bytes) : Bool :=
  key.length ≤ 128 && key.head?.any isLetter && key.all fun c =>
    isLetter c || (48 ≤ c && c ≤ 57) || c = 95 || c = 46 || c = 45
where
  isLetter (c : UInt8) : Bool := (65 ≤ c && c ≤ 90) || (97 ≤ c && c ≤ 122)

/-- The value has a carriage return, a line feed or a zero byte. -/
def breaksLine (value : Bytes) : Bool := value.any fun c => c = 13 || c = 10 || c = 0

/-- The updated key that a line assigns. -/
def updatedKey (updates : Entries) (line : Bytes) : Option Bytes :=
  let trimmed := trimSpace line
  if trimmed.head? ∈ [some 59, some 35] then none
  else
    let parts := cut 61 trimmed
    if parts.2.2 = true ∧ trimSpace parts.1 ∈ updates then some (trimSpace parts.1) else none

/-- The line that is written for a key. -/
def entryLine (updates : Entries) (key : Bytes) : Bytes :=
  key ++ bytes " = " ++ (updates.lookup key).getD []

def rewriteLine (updates : Entries) (line : Bytes) : Bytes :=
  ((updatedKey updates line).map (entryLine updates)).getD line

/-- The lines for the keys that no line assigns, in the order of the keys. -/
def missingLines (updates : Entries) (lines : List Bytes) : List Bytes :=
  (increasing (updates.keys.filter (· ∉ lines.filterMap (updatedKey updates)))).map
    (entryLine updates)

/-- `updateRuntimeINI`. The updates are checked in the order of the hint. -/
def updateRuntimeINI (hint : List Bytes) (content : Bytes) (updates : Entries) :
    Except Bytes Bytes :=
  match (walk hint updates.keys).find? fun key =>
      !isINIKey key || breaksLine ((updates.lookup key).getD []) with
  | some key => .error (bytes "PHP 配置项无效: " ++ key)
  | none =>
      let lines := content.splitOn 10
      .ok ([10].intercalate (lines.map (rewriteLine updates) ++ missingLines updates lines))

/-- What the reader makes of a value. -/
def readValue (value : Bytes) : Bytes := trimQuotes (trimSpace value)

/-! ## What a line assigns -/

/-- The key and the value of a line that is read. -/
def assignment (line : Bytes) : Option (Bytes × Bytes) :=
  let parts := cut 61 line
  let key := trimSpace parts.1
  if parts.2.2 = true ∧ key ≠ [] ∧ key.head? ∉ [some 59, some 35, some 91] then
    some (key, readValue parts.2.1)
  else none

section Line
variable {line key front back : Bytes} {updates : Entries}

/-- A trimmed line with an equals sign begins like its key. -/
theorem head?_trimSpace (h : trimSpace front ≠ []) :
    (trimSpace (front ++ 61 :: back)).head? = (trimSpace front).head? := by
  obtain ⟨ns, right, -, -, hsides⟩ := trimSpace_sides (c := 61) rfl front back
  obtain ⟨c, rest, hfront⟩ := List.exists_cons_of_ne_nil h
  rw [hsides, hfront]
  rfl

/-- A line is read as it stands, without the white space at its ends. -/
theorem parseLine_eq (values : Entries) (line : Bytes) :
    parseLine values line =
      ((assignment line).map fun entry => values.insert entry.1 entry.2).getD values := by
  unfold parseLine assignment
  dsimp only
  by_cases hmark : (61 : UInt8) ∈ line
  · obtain ⟨front, back, hfront, rfl⟩ := exists_cut hmark
    obtain ⟨left, right, hcut, hleft, hright⟩ := cut_trimSpace (c := 61) rfl hfront back
    rw [hcut, cut_append hfront]
    dsimp only
    rw [hleft, hright]
    by_cases hkey : trimSpace front = []
    · simp [hkey]
    · have hhead := @head?_trimSpace front back hkey
      have hne : trimSpace (front ++ 61 :: back) ≠ [] := by
        intro hnil
        rw [hnil] at hhead
        exact hkey (List.head?_eq_none_iff.mp hhead.symm)
      rw [hhead]
      by_cases hcomment : (trimSpace front).head? ∈ [some 59, some 35, some 91]
      · rw [if_pos (.inr hcomment), if_neg fun h => h.2.2 hcomment]
        rfl
      · rw [if_neg (not_or.mpr ⟨hne, hcomment⟩), if_pos ⟨rfl, hkey⟩, if_pos ⟨rfl, hkey, hcomment⟩]
        rfl
  · rw [cut_of_notMem hmark, cut_of_notMem (notMem_trimSpace hmark)]
    simp

/-- The lookup in a map of entries is decided by the last entry of the key. -/
theorem lookup_foldl_insert (entries : List (Bytes × Bytes)) (values : Entries) (key : Bytes) :
    (entries.foldl (fun m entry => m.insert entry.1 entry.2) values).lookup key =
      ((entries.filter (·.1 = key)).getLast?.map Prod.snd).or (values.lookup key) := by
  induction entries generalizing values with
  | nil => rfl
  | cons entry entries ih =>
      rw [List.foldl_cons, ih]
      by_cases hkey : entry.1 = key
      · rw [List.filter_cons_of_pos (by simpa using hkey), ← hkey, Finmap.lookup_insert,
          List.getLast?_cons]
        cases (entries.filter (·.1 = entry.1)).getLast? <;> rfl
      · rw [List.filter_cons_of_neg (by simpa using hkey),
          Finmap.lookup_insert_of_ne _ (Ne.symm hkey)]

theorem lookup_parseRuntimeINI (content key : Bytes) :
    (parseRuntimeINI content).lookup key =
      ((((content.splitOn 10).filterMap assignment).filter (·.1 = key)).getLast?.map Prod.snd) := by
  have hfold : ∀ (lines : List Bytes) (values : Entries), lines.foldl parseLine values =
      (lines.filterMap assignment).foldl (fun m entry => m.insert entry.1 entry.2) values := by
    intro lines
    induction lines with
    | nil => exact fun _ => rfl
    | cons line lines ih =>
        intro values
        rw [List.foldl_cons, ih, parseLine_eq]
        cases hline : assignment line with
        | none => rw [List.filterMap_cons_none hline]; rfl
        | some entry => rw [List.filterMap_cons_some hline]; rfl
  rw [parseRuntimeINI, hfold, lookup_foldl_insert, Finmap.lookup_empty, Option.or_none]

end Line

/-! ## Updates that are accepted -/

/-- The keys have the form of keys of PHP, and no value breaks its line. -/
structure Accepted (updates : Entries) : Prop where
  key : ∀ key ∈ updates, isINIKey key = true
  value : ∀ key, ∀ value ∈ updates.lookup key, breaksLine value = false

section Update
variable {updates : Entries} {hint : List Bytes} {content out line key : Bytes}

theorem updateRuntimeINI_ok (h : updateRuntimeINI hint content updates = .ok out) :
    Accepted updates ∧ out = [10].intercalate
      ((content.splitOn 10).map (rewriteLine updates) ++
        missingLines updates (content.splitOn 10)) := by
  unfold updateRuntimeINI at h
  cases hfind : (walk hint updates.keys).find? fun key =>
      !isINIKey key || breaksLine ((updates.lookup key).getD []) with
  | some key => rw [hfind] at h; cases h
  | none =>
      rw [hfind] at h
      have hvalid : ∀ key ∈ updates, isINIKey key = true ∧
          breaksLine ((updates.lookup key).getD []) = false := by
        intro key hkey
        have hnot := List.find?_eq_none.mp hfind key (mem_walk.mpr (Finmap.mem_keys.mpr hkey))
        simpa using hnot
      refine ⟨⟨fun key hkey => (hvalid key hkey).1, fun key value hvalue => ?_⟩,
        (Except.ok.inj h).symm⟩
      have hkey := (hvalid key (Finmap.mem_of_lookup_eq_some hvalue)).2
      rwa [Option.mem_def.mp hvalue] at hkey

theorem updateRuntimeINI_of_accepted (h : Accepted updates) :
    updateRuntimeINI hint content updates = .ok ([10].intercalate
      ((content.splitOn 10).map (rewriteLine updates) ++
        missingLines updates (content.splitOn 10))) := by
  have hfind : (walk hint updates.keys).find? (fun key =>
      !isINIKey key || breaksLine ((updates.lookup key).getD [])) = none := by
    rw [List.find?_eq_none]
    intro key hkey
    have hmem := Finmap.mem_keys.mp (mem_walk.mp hkey)
    obtain ⟨value, hvalue⟩ := Finmap.mem_iff.mp hmem
    simp [h.key key hmem, hvalue, h.value key value hvalue]
  rw [updateRuntimeINI, hfind]

/-- Keys are printable, have no equals sign and begin with a letter. -/
theorem isINIKey_spec (h : isINIKey key = true) :
    key ≠ [] ∧ (∀ c ∈ key, isPrintable c = true ∧ c ≠ 61 ∧ c ≠ 10) ∧
      key.head? ∉ [some 59, some 35, some 91] := by
  have hchars : ∀ c : UInt8, (isINIKey.isLetter c || (48 ≤ c && c ≤ 57) || c = 95 || c = 46 ||
      c = 45) = true → isPrintable c = true ∧ c ≠ 61 ∧ c ≠ 10 := by
    apply forall_byte
    decide +kernel
  have hletter : ∀ c : UInt8, isINIKey.isLetter c = true → c ≠ 59 ∧ c ≠ 35 ∧ c ≠ 91 := by
    apply forall_byte
    decide +kernel
  rw [isINIKey, Bool.and_eq_true, Bool.and_eq_true] at h
  obtain ⟨⟨-, hhead⟩, hall⟩ := h
  obtain ⟨c, hc, hfirst⟩ := (Option.any_eq_true _ _).mp hhead
  refine ⟨?_, fun d hd => hchars d (List.all_eq_true.mp hall d hd), ?_⟩
  · rintro rfl
    cases hc
  · rw [Option.mem_def.mp hc]
    simpa using hletter c hfirst

/-- The editor replaces the lines that are read with a key that is updated. -/
theorem updatedKey_eq (h : Accepted updates) (line : Bytes) :
    updatedKey updates line = ((assignment line).map Prod.fst).filter (· ∈ updates) := by
  unfold updatedKey assignment
  dsimp only
  by_cases hmark : (61 : UInt8) ∈ line
  · obtain ⟨front, back, hfront, rfl⟩ := exists_cut hmark
    obtain ⟨left, right, hcut, hleft, -⟩ := cut_trimSpace (c := 61) rfl hfront back
    rw [hcut, cut_append hfront]
    dsimp only
    rw [hleft]
    by_cases hmem : trimSpace front ∈ updates
    · obtain ⟨hne, -, hhead⟩ := isINIKey_spec (h.key _ hmem)
      have hcomment : (trimSpace (front ++ 61 :: back)).head? ∉ [some 59, some 35] := by
        rw [head?_trimSpace hne]
        intro hin
        exact hhead (List.mem_append_left [some 91] hin)
      rw [if_neg hcomment, if_pos ⟨rfl, hmem⟩, if_pos ⟨rfl, hne, hhead⟩, Option.map_some,
        Option.filter_some, if_pos (decide_eq_true hmem)]
    · have hnot : ¬ (true = true ∧ trimSpace front ∈ updates) := fun hboth => hmem hboth.2
      rw [if_neg hnot, ite_self]
      split
      · rw [Option.map_some, Option.filter_some, if_neg (by simpa using hmem)]
      · rfl
  · rw [cut_of_notMem hmark, cut_of_notMem (notMem_trimSpace hmark)]
    simp

/-- The line that is written for a key is read as its value. -/
theorem assignment_entryLine (h : Accepted updates) (hkey : key ∈ updates) :
    assignment (entryLine updates key) =
      some (key, readValue ((updates.lookup key).getD [])) := by
  obtain ⟨hne, hchars, hhead⟩ := isINIKey_spec (h.key key hkey)
  have hline : entryLine updates key =
      (key ++ [32]) ++ 61 :: 32 :: (updates.lookup key).getD [] := by
    have hmiddle : bytes " = " = [32, 61, 32] := by decide +kernel
    rw [entryLine, hmiddle]
    simp
  have hfront : (61 : UInt8) ∉ key ++ [32] := by
    intro hin
    rcases List.mem_append.mp hin with hin | hin
    · exact (hchars 61 hin).2.1 rfl
    · exact absurd (List.mem_singleton.mp hin) (by decide)
  have htrimmed : trimSpace (key ++ [32]) = key := by
    have hblank : ∀ m ∈ [[(32 : UInt8)]], m ∈ spaceMarks := by
      rw [spaceMarks, spaceRunes_bytes]
      decide
    have hmarks := trimSpace_marks (List.forall_mem_nil _) hblank key
    rw [trimSpace_of_printable fun c hc => (hchars c hc).1] at hmarks
    simpa using hmarks
  rw [assignment, hline, cut_append hfront]
  dsimp only
  rw [htrimmed, if_pos ⟨rfl, hne, hhead⟩, readValue, trimSpace_blank]
  rfl

theorem updatedKey_entryLine (h : Accepted updates) (hkey : key ∈ updates) :
    updatedKey updates (entryLine updates key) = some key := by
  rw [updatedKey_eq h, assignment_entryLine h hkey]
  simp [hkey]

theorem mem_of_updatedKey (h : updatedKey updates line = some key) : key ∈ updates := by
  unfold updatedKey at h
  dsimp only at h
  split_ifs at h with _ hboth
  rw [← Option.some.inj h]
  exact hboth.2

theorem rewriteLine_of_some (h : updatedKey updates line = some key) :
    rewriteLine updates line = entryLine updates key := by
  rw [rewriteLine, h]
  rfl

theorem rewriteLine_of_none (h : updatedKey updates line = none) :
    rewriteLine updates line = line := by
  rw [rewriteLine, h]
  rfl

theorem notMem_entryLine (h : Accepted updates) (hkey : key ∈ updates) :
    (10 : UInt8) ∉ entryLine updates key := by
  obtain ⟨value, hvalue⟩ := Finmap.mem_iff.mp hkey
  have hbreaks := h.value key value hvalue
  have hmiddle : bytes " = " = [32, 61, 32] := by decide +kernel
  rw [entryLine, hvalue, hmiddle]
  intro hin
  rcases List.mem_append.mp hin with hin | hin
  · rcases List.mem_append.mp hin with hin | hin
    · exact ((isINIKey_spec (h.key key hkey)).2.1 10 hin).2.2 rfl
    · exact absurd hin (by decide)
  · have hnot := List.any_eq_false.mp hbreaks 10 hin
    exact hnot (by decide)

/-! ## The edited text -/

/-- The lines of the edited text. -/
def editedLines (updates : Entries) (content : Bytes) : List Bytes :=
  (content.splitOn 10).map (rewriteLine updates) ++ missingLines updates (content.splitOn 10)

theorem splitOn_edited (h : Accepted updates) (content : Bytes) :
    ([10].intercalate (editedLines updates content)).splitOn 10 = editedLines updates content := by
  apply List.splitOn_intercalate
  · intro line hline
    rcases List.mem_append.mp hline with hline | hline
    · obtain ⟨old, hold, rfl⟩ := List.mem_map.mp hline
      cases hkey : updatedKey updates old with
      | none =>
          rw [rewriteLine_of_none hkey]
          exact notMem_of_mem_splitOn hold
      | some key =>
          rw [rewriteLine_of_some hkey]
          exact notMem_entryLine h (mem_of_updatedKey hkey)
    · obtain ⟨key, hkey, rfl⟩ := List.mem_map.mp hline
      have hmem := (Finset.mem_filter.mp (mem_increasing.mp hkey)).1
      exact notMem_entryLine h (Finmap.mem_keys.mp hmem)
  · rw [editedLines]
    simp

/-- Every updated key has its line. -/
theorem entryLine_mem_edited (hkey : key ∈ updates) (content : Bytes) :
    entryLine updates key ∈ editedLines updates content := by
  by_cases hseen : key ∈ (content.splitOn 10).filterMap (updatedKey updates)
  · obtain ⟨line, hline, hupdated⟩ := List.mem_filterMap.mp hseen
    apply List.mem_append_left
    rw [← rewriteLine_of_some hupdated]
    exact List.mem_map_of_mem hline
  · apply List.mem_append_right
    apply List.mem_map_of_mem
    exact mem_increasing.mpr (Finset.mem_filter.mpr ⟨Finmap.mem_keys.mpr hkey, hseen⟩)

/-- What the lines of the edited text assign to a key that is updated. -/
theorem assigned_of_mem_edited (h : Accepted updates) {entry : Bytes × Bytes}
    (hentry : entry ∈ (editedLines updates content).filterMap assignment)
    (hkey : entry.1 ∈ updates) : entry.2 = readValue ((updates.lookup entry.1).getD []) := by
  obtain ⟨line, hline, hassigned⟩ := List.mem_filterMap.mp hentry
  have hwritten : ∃ key ∈ updates, line = entryLine updates key := by
    rcases List.mem_append.mp hline with hline | hline
    · obtain ⟨old, -, rfl⟩ := List.mem_map.mp hline
      cases hupdated : updatedKey updates old with
      | none =>
          -- a line that is left assigns no updated key
          rw [rewriteLine_of_none hupdated] at hassigned
          rw [updatedKey_eq h, hassigned, Option.map_some, Option.filter_some,
            if_pos (decide_eq_true hkey)] at hupdated
          cases hupdated
      | some key => exact ⟨key, mem_of_updatedKey hupdated, rewriteLine_of_some hupdated⟩
    · obtain ⟨key, hmissing, rfl⟩ := List.mem_map.mp hline
      have hmem := (Finset.mem_filter.mp (mem_increasing.mp hmissing)).1
      exact ⟨key, Finmap.mem_keys.mp hmem, rfl⟩
  obtain ⟨key, hmem, rfl⟩ := hwritten
  rw [assignment_entryLine h hmem] at hassigned
  rw [← Option.some.inj hassigned]

/-- For a key that is not updated the assignments are those of the old text. -/
theorem filter_edited (h : Accepted updates) (hkey : key ∉ updates) :
    ((editedLines updates content).filterMap assignment).filter (·.1 = key) =
      ((content.splitOn 10).filterMap assignment).filter (·.1 = key) := by
  have hwritten : ∀ k ∈ updates, ((assignment (entryLine updates k)).toList.filter (·.1 = key)) =
      [] := by
    intro k hk
    have hne : k ≠ key := fun heq => hkey (heq ▸ hk)
    rw [assignment_entryLine h hk]
    simp [hne]
  have hline : ∀ line, (assignment (rewriteLine updates line)).toList.filter (·.1 = key) =
      (assignment line).toList.filter (·.1 = key) := by
    intro line
    cases hupdated : updatedKey updates line with
    | none => rw [rewriteLine_of_none hupdated]
    | some k =>
        rw [rewriteLine_of_some hupdated, hwritten k (mem_of_updatedKey hupdated)]
        cases hassigned : assignment line with
        | none => rfl
        | some entry =>
            have hne : entry.1 ≠ key := by
              intro heq
              rw [updatedKey_eq h, hassigned, Option.map_some, Option.filter_some, heq,
                if_neg (by simpa using hkey)] at hupdated
              cases hupdated
            simp [hne]
  have hflat : ∀ lines : List Bytes, (lines.filterMap assignment).filter (·.1 = key) =
      lines.flatMap fun line => (assignment line).toList.filter (·.1 = key) := by
    intro lines
    rw [List.filterMap_eq_flatMap_toList, List.filter_flatMap]
  have hmissing : ((missingLines updates (content.splitOn 10)).flatMap fun line =>
      (assignment line).toList.filter (·.1 = key)) = [] := by
    apply List.flatMap_eq_nil_iff.mpr
    intro line hmem
    obtain ⟨k, hk, rfl⟩ := List.mem_map.mp hmem
    exact hwritten k (Finmap.mem_keys.mp (Finset.mem_filter.mp (mem_increasing.mp hk)).1)
  rw [hflat, hflat, editedLines, List.flatMap_append, hmissing, List.append_nil, List.flatMap_map]
  simp only [hline]

/-- Editing a text again changes nothing. -/
theorem edited_edited (h : Accepted updates) (content : Bytes) :
    (editedLines updates content).map (rewriteLine updates) ++
      missingLines updates (editedLines updates content) = editedLines updates content := by
  have hwritten : ∀ key ∈ updates, rewriteLine updates (entryLine updates key) =
      entryLine updates key := fun key hkey => rewriteLine_of_some (updatedKey_entryLine h hkey)
  have hlines : (editedLines updates content).map (rewriteLine updates) =
      editedLines updates content := by
    conv_rhs => rw [← List.map_id (editedLines updates content)]
    apply List.map_congr_left
    intro line hline
    rcases List.mem_append.mp hline with hline | hline
    · obtain ⟨old, -, rfl⟩ := List.mem_map.mp hline
      cases hupdated : updatedKey updates old with
      | none => rw [rewriteLine_of_none hupdated, rewriteLine_of_none hupdated]; rfl
      | some key =>
          rw [rewriteLine_of_some hupdated]
          exact hwritten key (mem_of_updatedKey hupdated)
    · obtain ⟨key, hkey, rfl⟩ := List.mem_map.mp hline
      exact hwritten key (Finmap.mem_keys.mp (Finset.mem_filter.mp (mem_increasing.mp hkey)).1)
  have hmissing : missingLines updates (editedLines updates content) = [] := by
    apply List.eq_nil_iff_forall_not_mem.mpr
    intro line hline
    obtain ⟨key, hkey, -⟩ := List.mem_map.mp hline
    obtain ⟨hmem, hunseen⟩ := Finset.mem_filter.mp (mem_increasing.mp hkey)
    have hmem := Finmap.mem_keys.mp hmem
    exact hunseen (List.mem_filterMap.mpr
      ⟨_, entryLine_mem_edited hmem content, updatedKey_entryLine h hmem⟩)
  rw [hlines, hmissing, List.append_nil]

/-- An edited text is read with the given values, trimmed and without their quotes, and with the
old ones for all other keys. Editing it again changes nothing. -/
theorem updateRuntimeINI_read (h : updateRuntimeINI hint content updates = .ok out) :
    (∀ key, (parseRuntimeINI out).lookup key =
      ((updates.lookup key).map readValue).or ((parseRuntimeINI content).lookup key)) ∧
      ∀ again, updateRuntimeINI again out updates = .ok out := by
  obtain ⟨haccepted, hout⟩ := updateRuntimeINI_ok h
  change out = [10].intercalate (editedLines updates content) at hout
  subst hout
  constructor
  · intro key
    rw [lookup_parseRuntimeINI, splitOn_edited haccepted]
    cases hvalue : updates.lookup key with
    | none =>
        rw [filter_edited haccepted (Finmap.lookup_eq_none.mp hvalue), ← lookup_parseRuntimeINI]
        rfl
    | some value =>
        have hkey : key ∈ updates := Finmap.mem_of_lookup_eq_some hvalue
        have hmem : (key, readValue value) ∈
            ((editedLines updates content).filterMap assignment).filter (·.1 = key) := by
          refine List.mem_filter.mpr ⟨List.mem_filterMap.mpr
            ⟨_, entryLine_mem_edited hkey content, ?_⟩, by simp⟩
          rw [assignment_entryLine haccepted hkey, hvalue]
          rfl
        obtain ⟨last, hlast⟩ := Option.isSome_iff_exists.mp
          (List.getLast?_isSome.mpr (List.ne_nil_of_mem hmem))
        obtain ⟨hentry, hsame⟩ := List.mem_filter.mp (List.mem_of_getLast? hlast)
        have hsame : last.1 = key := by simpa using hsame
        have hread := assigned_of_mem_edited haccepted hentry (hsame ▸ hkey)
        rw [hlast, Option.map_some, hread, hsame, hvalue]
        rfl
  · intro again
    rw [updateRuntimeINI_of_accepted haccepted, splitOn_edited haccepted,
      edited_edited haccepted]

/-- One setting is replaced and one is appended. The comment stays. -/
theorem memory_limit_read :
    let updates : Entries := ((∅ : Entries).insert (bytes "memory_limit") (bytes "\"256M\"")).insert
      (bytes "post_max_size") (bytes "8M")
    let content := bytes ";memory_limit=1\n memory_limit = 128M\nengine=On"
    let out := bytes ";memory_limit=1\nmemory_limit = \"256M\"\nengine=On\npost_max_size = 8M"
    (∀ key, (parseRuntimeINI out).lookup key =
      ((updates.lookup key).map readValue).or ((parseRuntimeINI content).lookup key)) ∧
      ∀ again, updateRuntimeINI again out updates = .ok out := by
  exact @updateRuntimeINI_read _ [] _ _ (by decide +kernel)

end Update

end WorkMesh.Runtime
