import Mathlib

/-!
# Texts with stray bytes

A string read as UTF-8 is a list of characters and of bytes that belong to no
character. A cut at a byte position may leave the first bytes of a character;
an encoder that writes JSON replaces each stray byte by U+FFFD. This module has
trimming, cutting and that replacement, and says which texts survive all three.
-/

namespace Encoding

/-- A character of a text, or a byte that belongs to none. -/
inductive Rune where
  | char (c : Char)
  | stray (b : UInt8)
  deriving DecidableEq

abbrev Runes := List Rune

namespace Rune

def size : Rune → Nat
  | char c => c.utf8Size
  | stray _ => 1

def bytes : Rune → List UInt8
  | char c => String.utf8EncodeChar c
  | stray b => [b]

/-- What a decoder reads: a stray byte reads as U+FFFD. -/
def read : Rune → Char
  | char c => c
  | stray _ => '\ufffd'

@[simp] theorem length_bytes (r : Rune) : r.bytes.length = r.size := by
  cases r <;> simp [bytes, size]

end Rune

namespace Runes

variable (space : Char → Bool)

def ofText (s : String) : Runes := s.toList.map .char

def byteSize (t : Runes) : Nat := (t.map Rune.size).sum

def trim (t : Runes) : Runes :=
  (t.dropWhile fun r => space r.read).rdropWhile fun r => space r.read

/-- The first `n` bytes. -/
def takeSize : Runes → Nat → Runes
  | [], _ => []
  | r :: rest, n =>
      if r.size ≤ n then r :: takeSize rest (n - r.size) else (r.bytes.take n).map .stray

/-- Trim, and cut at `max` bytes. -/
def bounded (t : Runes) (max : Nat) : Runes :=
  if max < byteSize (trim space t) then takeSize (trim space t) max else trim space t

/-- The text as it comes back from JSON. -/
def throughJson (t : Runes) : Runes := t.map fun r => .char r.read

/-- No byte of the text is stray. -/
def Whole (t : Runes) : Prop := throughJson t = t

instance (t : Runes) : Decidable (Whole t) := inferInstanceAs (Decidable (_ = _))

section Whole
variable {r : Rune} {t u : Runes}

theorem whole_nil : Whole [] := rfl

theorem whole_cons : Whole (r :: t) ↔ Rune.char r.read = r ∧ Whole t := by
  simp [Whole, throughJson]

theorem whole_iff : Whole t ↔ ∀ r ∈ t, Rune.char r.read = r := by
  induction t with
  | nil => simp [whole_nil]
  | cons r t ih => simp [whole_cons, ih]

theorem whole_ofText (s : String) : Whole (ofText s) := by
  rw [whole_iff]
  intro r hr
  obtain ⟨c, -, rfl⟩ := List.mem_map.mp hr
  rfl

theorem whole_throughJson (t : Runes) : Whole (throughJson t) := by
  rw [whole_iff]
  intro r hr
  obtain ⟨old, -, rfl⟩ := List.mem_map.mp hr
  rfl

/-- Whole texts that read alike are equal. -/
theorem Whole.eq_of_read (ht : Whole t) (hu : Whole u) (h : t.map Rune.read = u.map Rune.read) :
    t = u := by
  have hchars (v : Runes) : throughJson v = (v.map Rune.read).map .char := by
    rw [throughJson, List.map_map]
    rfl
  rw [← ht, ← hu, hchars, hchars, h]

theorem Whole.sublist (h : Whole t) (hu : u.Sublist t) : Whole u :=
  whole_iff.mpr fun r hr => whole_iff.mp h r (hu.subset hr)

end Whole

/-! ## Sizes -/

@[simp] theorem byteSize_nil : byteSize [] = 0 := rfl

@[simp] theorem byteSize_cons (r : Rune) (t : Runes) :
    byteSize (r :: t) = r.size + byteSize t := by simp [byteSize]

@[simp] theorem byteSize_append (t u : Runes) :
    byteSize (t ++ u) = byteSize t + byteSize u := by simp [byteSize]

theorem byteSize_stray (bs : List UInt8) : byteSize (bs.map .stray) = bs.length := by
  induction bs with
  | nil => rfl
  | cons b bs ih => simp [ih, Rune.size, Nat.add_comm]

@[simp] theorem byteSize_ofText (s : String) : byteSize (ofText s) = s.utf8ByteSize := by
  have hlist (l : List Char) : byteSize (l.map .char) = (String.ofList l).utf8ByteSize := by
    induction l with
    | nil => rfl
    | cons c l ih =>
        rw [List.map_cons, byteSize_cons, ih, String.ofList_cons, String.utf8ByteSize_append,
          String.utf8ByteSize_singleton]
        rfl
  rw [ofText, hlist, String.ofList_toList]

/-- Each stray byte comes back from JSON with two more. -/
theorem byteSize_throughJson_stray (bs : List UInt8) :
    byteSize (throughJson (bs.map .stray)) = 3 * bs.length := by
  have hmark : '\ufffd'.utf8Size = 3 := by decide
  induction bs with
  | nil => rfl
  | cons b bs ih =>
      simp only [throughJson, List.map_cons, byteSize_cons, Rune.size, Rune.read, hmark,
        List.length_cons] at ih ⊢
      omega

theorem byteSize_takeSize_le (t : Runes) (n : Nat) : byteSize (takeSize t n) ≤ n := by
  induction t generalizing n with
  | nil => exact Nat.zero_le n
  | cons r t ih =>
      rw [takeSize]
      split_ifs with hfits
      · have := ih (n - r.size)
        rw [byteSize_cons]
        omega
      · rw [byteSize_stray, List.length_take]
        exact Nat.min_le_left ..

/-- A cut inside the text leaves exactly the bytes asked for. -/
theorem byteSize_takeSize {t : Runes} {n : Nat} (h : n ≤ byteSize t) :
    byteSize (takeSize t n) = n := by
  induction t generalizing n with
  | nil => exact (Nat.le_zero.mp h).symm
  | cons r t ih =>
      rw [takeSize]
      rw [byteSize_cons] at h
      split_ifs with hfits
      · rw [byteSize_cons, ih (by omega)]
        omega
      · rw [byteSize_stray, List.length_take, Rune.length_bytes]
        omega

theorem byteSize_bounded_le (t : Runes) (max : Nat) : byteSize (bounded space t max) ≤ max := by
  rw [bounded]
  split_ifs with hlong
  · exact byteSize_takeSize_le ..
  · omega

/-! ## Cuts -/

/-- A cut of a whole text: characters of it, then bytes of the next one. -/
theorem takeSize_split {t : Runes} (h : Whole t) (n : Nat) :
    ∃ kept rest : Runes, ∃ bs : List UInt8,
      t = kept ++ rest ∧ takeSize t n = kept ++ bs.map .stray := by
  induction t generalizing n with
  | nil => exact ⟨[], [], [], rfl, rfl⟩
  | cons r t ih =>
      rw [takeSize]
      split_ifs with hfits
      · obtain ⟨kept, rest, bs, ht, htake⟩ := ih (whole_cons.mp h).2 (n - r.size)
        exact ⟨r :: kept, rest, bs, by rw [ht]; rfl, by rw [htake]; rfl⟩
      · exact ⟨[], r :: t, r.bytes.take n, rfl, rfl⟩

theorem trim_sublist (t : Runes) : (trim space t).Sublist t :=
  (List.rdropWhile_prefix _ _).sublist.trans (List.dropWhile_suffix _).sublist

theorem Whole.trim {t : Runes} (h : Whole t) : Whole (trim space t) :=
  h.sublist (trim_sublist space t)

/-- A text that is trimmed at both ends. -/
theorem trim_eq_self {t : Runes} (hhead : ∀ r ∈ t.head?, space r.read = false)
    (hlast : ∀ r ∈ t.getLast?, space r.read = false) : trim space t = t := by
  have hdrop : (t.dropWhile fun r => space r.read) = t := by
    cases t with
    | nil => rfl
    | cons r t => simp [hhead r (by simp)]
  rw [trim, hdrop, List.rdropWhile_eq_self_iff]
  intro hne
  simpa using hlast _ (List.getLast?_eq_some_getLast hne)

theorem head?_trim {t : Runes} {r : Rune} (h : r ∈ (trim space t).head?) :
    space r.read = false := by
  have hdrop : r ∈ (t.dropWhile fun r => space r.read).head? := by
    obtain ⟨rest, hrest⟩ := List.rdropWhile_prefix (fun r : Rune => space r.read)
      (l := t.dropWhile fun r => space r.read)
    rw [trim] at h
    rw [← hrest, List.head?_append, Option.mem_def.mp h]
    rfl
  have hnot := List.head?_dropWhile_not (fun r : Rune => space r.read) t
  rw [Option.mem_def.mp hdrop] at hnot
  simpa using hnot

theorem getLast?_trim {t : Runes} {r : Rune} (h : r ∈ (trim space t).getLast?) :
    space r.read = false := by
  obtain ⟨hne, rfl⟩ := List.mem_getLast?_eq_getLast h
  exact Bool.eq_false_iff.mpr (List.rdropWhile_last_not _ _ hne)

@[simp] theorem trim_trim (t : Runes) : trim space (trim space t) = trim space t :=
  trim_eq_self space (fun _ h => head?_trim space h) fun _ h => getLast?_trim space h

/-! ## What survives being stored -/

theorem mem_dropWhile {α : Type*} {p : α → Bool} {a : α} {l : List α} (ha : a ∈ l)
    (hp : p a = false) : a ∈ l.dropWhile p := by
  induction l with
  | nil => exact absurd ha List.not_mem_nil
  | cons b l ih =>
      rw [List.dropWhile_cons]
      split_ifs with hb
      · rcases List.mem_cons.mp ha with rfl | ha
        · exact absurd hb (by simp [hp])
        · exact ih ha
      · exact ha

/-- Trimming drops white space only. -/
theorem mem_trim {t : Runes} {r : Rune} (hr : r ∈ t) (hspace : space r.read = false) :
    r ∈ trim space t := by
  have hdrop : r ∈ t.dropWhile fun r => space r.read := mem_dropWhile hr hspace
  rw [trim, List.rdropWhile, List.mem_reverse]
  exact mem_dropWhile (List.mem_reverse.mpr hdrop) hspace

/-- A stray byte does not read as white space, so trimming leaves it where it is. -/
theorem whole_of_whole_trim (hmark : space '\ufffd' = false) {t : Runes}
    (h : Whole (trim space t)) : Whole t := by
  rw [whole_iff] at h ⊢
  intro r hr
  cases r with
  | char c => rfl
  | stray b => exact h _ (mem_trim space hr hmark)

/-- A bounded text with a stray byte comes back from JSON too long to be a
bounded text itself. -/
theorem lt_byteSize_reread (hmark : space '\ufffd' = false) {t : Runes} (ht : Whole t) {max : Nat}
    (h : ¬Whole (bounded space t max)) :
    max < byteSize (trim space (throughJson (bounded space t max))) := by
  have htrim : Whole (trim space t) := ht.trim space
  by_cases hlong : max < byteSize (trim space t)
  swap
  · rw [bounded, if_neg hlong] at h
    exact absurd htrim h
  rw [bounded, if_pos hlong] at h ⊢
  have hsize : byteSize (takeSize (trim space t) max) = max := byteSize_takeSize hlong.le
  obtain ⟨kept, rest, bs, hsplit, htake⟩ := takeSize_split htrim max
  have hkept : Whole kept := htrim.sublist (by rw [hsplit]; exact List.sublist_append_left ..)
  rw [htake] at h hsize ⊢
  have hbs : bs ≠ [] := by
    rintro rfl
    exact h (by simpa using hkept)
  have hread : throughJson (kept ++ bs.map .stray) = kept ++ throughJson (bs.map .stray) := by
    rw [throughJson, List.map_append]
    exact congrArg (· ++ _) hkept
  have htrimmed : trim space (throughJson (kept ++ bs.map .stray)) =
      throughJson (kept ++ bs.map .stray) := by
    apply trim_eq_self
    · intro r hr
      cases kept with
      | nil =>
          obtain ⟨b, rest, rfl⟩ := List.exists_cons_of_ne_nil hbs
          obtain rfl : Rune.char '\ufffd' = r := by simpa [throughJson, Rune.read] using hr
          exact hmark
      | cons first kept =>
          rw [hread] at hr
          obtain rfl : first = r := by simpa using hr
          exact @head?_trim space t _ (by rw [hsplit]; simp)
    · intro r hr
      obtain ⟨front, b, rfl⟩ := List.eq_nil_or_concat bs |>.resolve_left hbs
      obtain rfl : Rune.char '\ufffd' = r := by
        simpa [throughJson, Rune.read, List.getLast?_append] using hr
      exact hmark
  rw [htrimmed, hread, byteSize_append, byteSize_throughJson_stray]
  rw [byteSize_append, byteSize_stray] at hsize
  have hpos := List.length_pos_of_ne_nil hbs
  omega

/-- A text within the bound is read back from a bounded one before JSON exactly
when it is after. -/
theorem reread_iff (hmark : space '\ufffd' = false) {t u : Runes} (ht : Whole t) (hu : Whole u)
    {max : Nat} (hsize : byteSize u ≤ max) :
    trim space (throughJson (bounded space t max)) = u ↔
      trim space (bounded space t max) = u := by
  by_cases hwhole : Whole (bounded space t max)
  · rw [hwhole]
  · constructor
    · rintro rfl
      have := lt_byteSize_reread space hmark ht hwhole
      omega
    · rintro rfl
      exact absurd (whole_of_whole_trim space hmark hu) hwhole

end Runes

end Encoding
