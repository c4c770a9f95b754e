import WorkMesh.Encoding.Cookie
import WorkMesh.Encoding.Path
import WorkMesh.Runtime.PhpConfig

/-!
# Removing an extension from the files of a runtime

The editor of `.env` leaves one line for its key, and the editor of `php.ini` drops the lines that
load a module.
-/

namespace WorkMesh.Runtime

open Encoding

/-! ## The environment -/

/-- The line assigns the key. -/
def assigns (key line : Bytes) : Bool :=
  let parts := cut 61 (trimSpace line)
  parts.2.2 && trimSpace parts.1 = key

/-- The loop of `updateDotEnvValue` from some line on, where `written` tells that the entry stands
above. -/
def setEntry (entry key : Bytes) : Bool → List Bytes → List Bytes
  | written, [] => if written then [] else [entry]
  | written, line :: lines =>
      if assigns key line then
        if written then setEntry entry key true lines
        else entry :: setEntry entry key true lines
      else line :: setEntry entry key written lines

def updateDotEnvValue (content key value : Bytes) : Bytes :=
  [10].intercalate (setEntry (key ++ 61 :: value) key false (scanLines content)) ++ [10]

/-- Names of variables as they stand in `.env`. -/
structure IsVariable (key : Bytes) : Prop where
  trimmed : trimSpace key = key
  oneLine : 10 ∉ key
  noMark : 61 ∉ key

section Environment
variable {key value entry line content : Bytes} {lines : List Bytes}

/-- The line that is written assigns its key. -/
theorem assigns_entry (hkey : IsVariable key) (value : Bytes) :
    assigns key (key ++ 61 :: value) = true := by
  obtain ⟨left, right, hcut, hleft, -⟩ := cut_trimSpace (c := 61) rfl hkey.noMark value
  rw [assigns, hcut]
  simp [hleft, hkey.trimmed]

theorem assigns_dropCR (key line : Bytes) : assigns key (dropCR line) = assigns key line := by
  rw [assigns, assigns, trimSpace_dropCR]

/-- The other lines stay, in their order. -/
theorem filter_setEntry_other (hentry : assigns key entry = true) (written : Bool)
    (lines : List Bytes) : (setEntry entry key written lines).filter (!assigns key ·) =
      lines.filter (!assigns key ·) := by
  induction lines generalizing written with
  | nil => cases written <;> simp [setEntry, hentry]
  | cons line lines ih =>
      cases hline : assigns key line with
      | true => cases written <;> simp [setEntry, hline, hentry, ih]
      | false => simp [setEntry, hline, ih]

/-- The lines of the key make way for one. -/
theorem filter_setEntry_key (hentry : assigns key entry = true) (written : Bool)
    (lines : List Bytes) : (setEntry entry key written lines).filter (assigns key ·) =
      if written then [] else [entry] := by
  induction lines generalizing written with
  | nil => cases written <;> simp [setEntry, hentry]
  | cons line lines ih =>
      cases hline : assigns key line with
      | true => cases written <;> simp [setEntry, hline, hentry, ih]
      | false => simp [setEntry, hline, ih]

/-- An entry that is set again replaces the one that was set. -/
theorem setEntry_setEntry {later : Bytes} (hentry : assigns key entry = true) (written : Bool)
    (lines : List Bytes) : setEntry later key written (setEntry entry key written lines) =
      setEntry later key written lines := by
  induction lines generalizing written with
  | nil => cases written <;> simp [setEntry, hentry]
  | cons line lines ih =>
      cases hline : assigns key line with
      | true => cases written <;> simp [setEntry, hline, hentry, ih]
      | false => simp [setEntry, hline, ih]

theorem mem_setEntry {written : Bool} (h : line ∈ setEntry entry key written lines) :
    line = entry ∨ line ∈ lines := by
  induction lines generalizing written with
  | nil => cases written <;> simp_all [setEntry]
  | cons first lines ih =>
      rw [setEntry] at h
      split at h
      · split at h
        · exact (ih h).imp_right (List.mem_cons_of_mem _)
        · rcases List.mem_cons.mp h with rfl | h
          · exact .inl rfl
          · exact (ih h).imp_right (List.mem_cons_of_mem _)
      · rcases List.mem_cons.mp h with rfl | h
        · exact .inr List.mem_cons_self
        · exact (ih h).imp_right (List.mem_cons_of_mem _)

theorem setEntry_ne_nil (entry key : Bytes) (lines : List Bytes) :
    setEntry entry key false lines ≠ [] := by
  induction lines with
  | nil => simp [setEntry]
  | cons line lines ih =>
      rw [setEntry]
      split <;> simp

theorem notMem_of_mem_scanLines (h : line ∈ scanLines content) : 10 ∉ line := by
  obtain ⟨whole, hmem, -, rfl⟩ := mem_scanLines h
  exact fun hin => notMem_of_mem_textLines hmem (mem_of_mem_dropCR hin)

/-- The lines of the edited text. -/
theorem textLines_updated (hkey : IsVariable key) (hvalue : 10 ∉ value) :
    textLines (updateDotEnvValue content key value) =
      setEntry (key ++ 61 :: value) key false (scanLines content) := by
  apply textLines_joined (setEntry_ne_nil _ _ _)
  intro line hline
  rcases mem_setEntry hline with rfl | hline
  · intro hin
    rcases List.mem_append.mp hin with hin | hin
    · exact hkey.oneLine hin
    · rcases List.mem_cons.mp hin with hin | hin
      · exact absurd hin (by decide)
      · exact hvalue hin
  · exact notMem_of_mem_scanLines hline

/-- The lines that a scanner reads are all of them, as they stand, if they fit its buffer and none
ends in a carriage return. -/
theorem scanLines_eq_textLines
    (h : ∀ line ∈ textLines content, line.length < maxScanTokenSize ∧ line.getLast? ≠ some 13) :
    scanLines content = textLines content := by
  have htake : (textLines content).takeWhile (fun line => line.length < maxScanTokenSize) =
      textLines content :=
    List.takeWhile_eq_self_iff.mpr fun line hline => decide_eq_true (h line hline).1
  rw [scanLines, htake]
  conv_rhs => rw [← List.map_id (textLines content)]
  exact List.map_congr_left fun line hline => dropCR_eq_self_iff.mpr (h line hline).2

/-- The other lines that are kept. -/
theorem filter_scanLines (key content : Bytes) :
    (scanLines content).filter (!assigns key ·) =
      (((textLines content).takeWhile fun line => line.length < maxScanTokenSize).filter
        (!assigns key ·)).map dropCR := by
  rw [scanLines, List.filter_map]
  congr 1
  apply List.filter_congr
  intro line _
  rw [Function.comp_apply, assigns_dropCR]

/-- A list of entries that are mapped is a longer one only if nothing changes and nothing is
added. -/
theorem map_eq_append_iff {f : Bytes → Bytes} {front back : List Bytes} :
    front.map f = front ++ back ↔ (∀ line ∈ front, f line = line) ∧ back = [] := by
  constructor
  · intro h
    have hlength := congrArg List.length h
    rw [List.length_map, List.length_append] at hlength
    have hback : back = [] := List.length_eq_zero_iff.mp (by omega)
    rw [hback, List.append_nil] at h
    exact ⟨List.map_inj_left.mp (h.trans (List.map_id front).symm), hback⟩
  · rintro ⟨hsame, rfl⟩
    rw [List.append_nil]
    exact (List.map_congr_left hsame).trans (List.map_id front)

/-- The edited text has one line for the key, with the value. Its other lines are those of the old
text, in their order, if and only if they all stand above the first line that the buffer of a
scanner has no room for and none of them ends in a carriage return. A later value replaces the
one that was set if the edited text has no line of these two kinds. -/
theorem updateDotEnvValue_lines (hkey : IsVariable key) (hvalue : 10 ∉ value) :
    (textLines (updateDotEnvValue content key value)).filter (assigns key ·) =
        [key ++ 61 :: value] ∧
      ((textLines (updateDotEnvValue content key value)).filter (!assigns key ·) =
          (textLines content).filter (!assigns key ·) ↔
        (∀ line ∈ (textLines content).takeWhile (·.length < maxScanTokenSize),
            assigns key line = false → line.getLast? ≠ some 13) ∧
          ∀ line ∈ (textLines content).dropWhile (·.length < maxScanTokenSize),
            assigns key line = true) ∧
      ((∀ line ∈ textLines (updateDotEnvValue content key value),
          line.length < maxScanTokenSize ∧ line.getLast? ≠ some 13) → ∀ later,
        updateDotEnvValue (updateDotEnvValue content key value) key later =
          updateDotEnvValue content key later) := by
  have hentry := assigns_entry hkey value
  have hlines := @textLines_updated key value content hkey hvalue
  refine ⟨?_, ?_, ?_⟩
  · rw [hlines, filter_setEntry_key hentry]
    rfl
  · have hsplit : (textLines content).filter (!assigns key ·) =
        ((textLines content).takeWhile (·.length < maxScanTokenSize)).filter (!assigns key ·) ++
          ((textLines content).dropWhile (·.length < maxScanTokenSize)).filter
            (!assigns key ·) := by
      rw [← List.filter_append, List.takeWhile_append_dropWhile]
    rw [hlines, filter_setEntry_other hentry, filter_scanLines, hsplit, map_eq_append_iff,
      List.filter_eq_nil_iff]
    simp only [List.mem_filter, dropCR_eq_self_iff, Bool.not_eq_true', and_imp, Bool.not_eq_false]
  · intro hread later
    rw [updateDotEnvValue, scanLines_eq_textLines hread, hlines, setEntry_setEntry hentry]
    rfl

/-- One of the two lines of the key is replaced and the other one dropped. -/
theorem php_extensions_lines :
    let content := bytes "A=1\nPHP_EXTENSIONS=gd\n# x\n PHP_EXTENSIONS = zip\n"
    let out := updateDotEnvValue content (bytes "PHP_EXTENSIONS") (bytes "gd,redis")
    (textLines out).filter (assigns (bytes "PHP_EXTENSIONS") ·) =
        [bytes "PHP_EXTENSIONS" ++ 61 :: bytes "gd,redis"] ∧
      ((textLines out).filter (!assigns (bytes "PHP_EXTENSIONS") ·) =
          (textLines content).filter (!assigns (bytes "PHP_EXTENSIONS") ·) ↔
        (∀ line ∈ (textLines content).takeWhile (·.length < maxScanTokenSize),
            assigns (bytes "PHP_EXTENSIONS") line = false → line.getLast? ≠ some 13) ∧
          ∀ line ∈ (textLines content).dropWhile (·.length < maxScanTokenSize),
            assigns (bytes "PHP_EXTENSIONS") line = true) ∧
      ((∀ line ∈ textLines out, line.length < maxScanTokenSize ∧ line.getLast? ≠ some 13) →
        ∀ later, updateDotEnvValue out (bytes "PHP_EXTENSIONS") later =
          updateDotEnvValue content (bytes "PHP_EXTENSIONS") later) :=
  updateDotEnvValue_lines ⟨by decide +kernel, by decide +kernel, by decide +kernel⟩
    (by decide +kernel)

end Environment

/-! ## The configuration of PHP -/

/-- `strings.Trim` with the two quotation marks. -/
def trimAnyQuotes (text : Bytes) : Bytes :=
  (text.dropWhile fun c => c = 34 ∨ c = 39).rdropWhile fun c => c = 34 ∨ c = 39

/-- The line loads the module. -/
def loadsModule (moduleFile line : Bytes) : Bool :=
  let trimmed := trimSpace line
  if trimmed = [] ∨ trimmed.head? = some 59 ∨ trimmed.head? = some 35 then false
  else
    let parts := cut 61 trimmed
    let key := toLower (trimSpace parts.1)
    parts.2.2 && (key = bytes "extension" || key = bytes "zend_extension") &&
      basePath (trimAnyQuotes (trimSpace parts.2.1)) = moduleFile

def removePHPExtensionReference (content moduleFile : Bytes) : Bytes :=
  [10].intercalate ((content.splitOn 10).filter (!loadsModule moduleFile ·))

section Reference
variable {content moduleFile line key : Bytes} {lines : List Bytes}

/-- The lines of a text that is put together of lines. Without any there is an empty one. -/
theorem splitOn_joined (h : ∀ line ∈ lines, 10 ∉ line) :
    ([10].intercalate lines).splitOn 10 = if lines = [] then [[]] else lines := by
  split
  · rename_i hnil
    rw [hnil]
    rfl
  · exact List.splitOn_intercalate 10 h ‹_›

end Reference

end WorkMesh.Runtime
