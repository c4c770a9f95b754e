import Mathlib

/-!
# Texts as bytes

A string is the list of its bytes, valid UTF-8 or not. This module has the
readers and writers of the standard library that a signed request goes
through: trimming, decimal numbers, hexadecimal and Base64.
-/

namespace Encoding

abbrev Bytes := List UInt8

instance : LawfulBEq Bytes := inferInstance

instance : Std.Total fun a b : Bytes => a ≤ b := inferInstance

instance : Std.Antisymm fun a b : Bytes => a ≤ b := inferInstance

instance : IsTrans Bytes fun a b => a ≤ b := inferInstance

/-- The bytes of a literal. -/
def bytes (text : String) : Bytes := text.toList.flatMap String.utf8EncodeChar

/-! ## White space -/

/-- The characters of `unicode.IsSpace`. -/
def spaceRunes : List Char :=
  ['\t', '\n', '\x0b', '\x0c', '\r', ' ', '\u0085', '\u00a0', '\u1680', '\u2000', '\u2001',
    '\u2002', '\u2003', '\u2004', '\u2005', '\u2006', '\u2007', '\u2008', '\u2009', '\u200a',
    '\u2028', '\u2029', '\u202f', '\u205f', '\u3000']

/-- Drops every mark that the text starts with. The number bounds the marks that are dropped. -/
def dropMarks (marks : List Bytes) : Nat → Bytes → Bytes
  | 0, text => text
  | n + 1, text =>
      match marks.find? (·.isPrefixOf text) with
      | some mark => dropMarks marks n (text.drop mark.length)
      | none => text

/-- `strings.TrimSpace`. -/
def trimSpace (text : Bytes) : Bytes :=
  let spaces := spaceRunes.map String.utf8EncodeChar
  let front := dropMarks spaces text.length text
  (dropMarks (spaces.map List.reverse) front.length front.reverse).reverse

theorem dropMarks_of_head {marks : List Bytes} {c : UInt8} (hmarks : [] ∉ marks)
    (h : ∀ mark ∈ marks, mark.head? ≠ some c) (n : Nat) (text : Bytes) :
    dropMarks marks n (c :: text) = c :: text := by
  have hnone : marks.find? (·.isPrefixOf (c :: text)) = none := by
    rw [List.find?_eq_none]
    intro mark hmark hprefix
    cases mark with
    | nil => exact hmarks hmark
    | cons d rest =>
        have hd : d = c := (List.cons_prefix_cons.mp (List.isPrefixOf_iff_prefix.mp hprefix)).1
        exact h _ hmark (by rw [hd]; rfl)
  cases n with
  | zero => rfl
  | succ n => rw [dropMarks, hnone]

/-- The printable characters of ASCII. -/
def isPrintable (c : UInt8) : Bool := 0x21 ≤ c && c ≤ 0x7e

/-- The characters of `unicode.IsSpace`, byte by byte. -/
theorem spaceRunes_bytes : spaceRunes.map String.utf8EncodeChar =
    [[9], [10], [11], [12], [13], [32], [194, 133], [194, 160], [225, 154, 128], [226, 128, 128],
      [226, 128, 129], [226, 128, 130], [226, 128, 131], [226, 128, 132], [226, 128, 133],
      [226, 128, 134], [226, 128, 135], [226, 128, 136], [226, 128, 137], [226, 128, 138],
      [226, 128, 168], [226, 128, 169], [226, 128, 175], [226, 129, 159], [227, 128, 128]] := by
  decide +kernel

/-- No byte of white space is printable. -/
theorem space_not_printable : ∀ mark ∈ spaceRunes.map String.utf8EncodeChar,
    mark ≠ [] ∧ ∀ c ∈ mark, isPrintable c = false := by
  have h : (spaceRunes.map String.utf8EncodeChar).all
      (fun mark => !mark.isEmpty && mark.all fun c => !isPrintable c) = true := by
    decide +kernel
  simpa using h

theorem dropMarks_of_printable {marks : List Bytes}
    (hmarks : ∀ mark ∈ marks, mark ≠ [] ∧ ∀ c ∈ mark, isPrintable c = false) (n : Nat)
    {text : Bytes} (h : ∀ c ∈ text, isPrintable c = true) : dropMarks marks n text = text := by
  cases n with
  | zero => rfl
  | succ n =>
      have hnone : marks.find? (·.isPrefixOf text) = none := by
        rw [List.find?_eq_none]
        intro mark hin hprefix
        obtain ⟨hne, hbytes⟩ := hmarks mark hin
        obtain ⟨c, rest, rfl⟩ := List.exists_cons_of_ne_nil hne
        have hc : c ∈ text :=
          (List.isPrefixOf_iff_prefix.mp hprefix).subset List.mem_cons_self
        have hprintable := h c hc
        rw [hbytes c List.mem_cons_self] at hprintable
        cases hprintable
      rw [dropMarks, hnone]

theorem trimSpace_of_printable {text : Bytes} (h : ∀ c ∈ text, isPrintable c = true) :
    trimSpace text = text := by
  have hback : ∀ mark ∈ (spaceRunes.map String.utf8EncodeChar).map List.reverse,
      mark ≠ [] ∧ ∀ c ∈ mark, isPrintable c = false := by
    intro mark hmark
    obtain ⟨front, hfront, rfl⟩ := List.mem_map.mp hmark
    obtain ⟨hne, hbytes⟩ := space_not_printable front hfront
    exact ⟨by simpa using hne, fun c hc => hbytes c (List.mem_reverse.mp hc)⟩
  simp only [trimSpace]
  rw [dropMarks_of_printable space_not_printable _ h,
    dropMarks_of_printable hback _ (by simpa using h), List.reverse_reverse]

/-! ## Decimal numbers -/

/-- A nonempty text of decimal digits. -/
def parseDigits (text : Bytes) : Option Nat :=
  if text ≠ [] ∧ text.all (fun c => 48 ≤ c && c ≤ 57) then
    some (Nat.ofDigits 10 (text.reverse.map fun c => c.toNat - 48))
  else none

/-- `strconv.ParseInt(text, 10, 64)`, `none` for an error. -/
def parseInt (text : Bytes) : Option Int :=
  let signed : Option Int :=
    match text with
    | c :: digits =>
        if c = 45 then (parseDigits digits).map fun n : Nat => -(n : Int)
        else if c = 43 then (parseDigits digits).map Int.ofNat
        else (parseDigits text).map Int.ofNat
    | [] => none
  signed.filter fun n => -2 ^ 63 ≤ n && n < 2 ^ 63

/-- `strconv.ParseUint(text, 10, 64)`, `none` for an error. -/
def parseUint (text : Bytes) : Option Nat :=
  (parseDigits text).filter fun n => n < 2 ^ 64

/-- `strconv.FormatUint(n, 10)`. -/
def formatUint (n : Nat) : Bytes :=
  if n = 0 then [48] else (Nat.digits 10 n).reverse.map fun d => UInt8.ofNat (48 + d)

/-- `strconv.FormatInt(n, 10)`. -/
def formatInt (n : Int) : Bytes :=
  if n < 0 then 45 :: formatUint n.natAbs else formatUint n.natAbs

theorem formatUint_digits (n : Nat) : ∀ c ∈ formatUint n, 48 ≤ c ∧ c ≤ 57 := by
  have hdigit : ∀ d < 10, 48 ≤ UInt8.ofNat (48 + d) ∧ UInt8.ofNat (48 + d) ≤ 57 := by decide
  intro c hc
  rw [formatUint] at hc
  split at hc
  · obtain rfl := List.mem_singleton.mp hc
    decide
  · obtain ⟨d, hd, rfl⟩ := List.mem_map.mp hc
    exact hdigit d (Nat.digits_lt_base (by decide) (List.mem_reverse.mp hd))

theorem formatUint_ne_nil (n : Nat) : formatUint n ≠ [] := by
  rw [formatUint]
  split
  · simp
  · rename_i hn
    simpa [Nat.digits_eq_nil_iff_eq_zero] using hn

theorem parseDigits_formatUint (n : Nat) : parseDigits (formatUint n) = some n := by
  have hdigits : (formatUint n).all (fun c => 48 ≤ c && c ≤ 57) = true := by
    rw [List.all_eq_true]
    intro c hc
    simpa using formatUint_digits n c hc
  have hback : ∀ d < 10, (UInt8.ofNat (48 + d)).toNat - 48 = d := by decide
  have hvalue : Nat.ofDigits 10 ((formatUint n).reverse.map fun c => c.toNat - 48) = n := by
    rw [formatUint]
    split
    · rename_i hn
      simp [hn]
    · rw [← List.map_reverse, List.reverse_reverse, List.map_map]
      have hsame : (Nat.digits 10 n).map ((fun c : UInt8 => c.toNat - 48) ∘
          fun d => UInt8.ofNat (48 + d)) = Nat.digits 10 n := by
        conv_rhs => rw [← List.map_id (Nat.digits 10 n)]
        apply List.map_congr_left
        intro d hd
        exact hback d (Nat.digits_lt_base (by decide) hd)
      rw [hsame, Nat.ofDigits_digits]
  rw [parseDigits, if_pos ⟨formatUint_ne_nil n, hdigits⟩, hvalue]

theorem formatInt_ne_nil (n : Int) : formatInt n ≠ [] := by
  rw [formatInt]
  split
  · exact List.cons_ne_nil _ _
  · exact formatUint_ne_nil _

theorem parseInt_formatInt {n : Int} (hlow : -2 ^ 63 ≤ n) (hhigh : n < 2 ^ 63) :
    parseInt (formatInt n) = some n := by
  by_cases hn : n < 0
  · have hneg : -(n.natAbs : Int) = n := by omega
    have hformat : formatInt n = 45 :: formatUint n.natAbs := if_pos hn
    have hvalue : (some n.natAbs).map (fun k : Nat => -(k : Int)) = some n := congrArg some hneg
    rw [hformat, parseInt, if_pos rfl, parseDigits_formatUint, hvalue]
    simpa using ⟨hlow, hhigh⟩
  · have hformat : formatInt n = formatUint n.natAbs := if_neg hn
    rw [hformat]
    have hpos : (n.natAbs : Int) = n := by omega
    cases hdigits : formatUint n.natAbs with
    | nil => exact absurd hdigits (formatUint_ne_nil _)
    | cons c digits =>
        have hc := formatUint_digits n.natAbs c (hdigits ▸ List.mem_cons_self)
        have hminus : c ≠ 45 := by
          rintro rfl
          exact absurd hc.1 (by decide)
        have hplus : c ≠ 43 := by
          rintro rfl
          exact absurd hc.1 (by decide)
        have hvalue : parseDigits (c :: digits) = some n.natAbs := by
          rw [← hdigits, parseDigits_formatUint]
        have hcast : (some n.natAbs).map Int.ofNat = some n := congrArg some hpos
        rw [parseInt, if_neg hminus, if_neg hplus, hvalue, hcast]
        simpa using ⟨hlow, hhigh⟩

theorem parseUint_formatUint {n : Nat} (h : n < 2 ^ 64) : parseUint (formatUint n) = some n := by
  rw [parseUint, parseDigits_formatUint]
  simpa using h

/-! ## Hexadecimal -/

def hexDigit (n : Nat) : UInt8 := UInt8.ofNat (if n < 10 then 48 + n else 87 + n)

/-- `hex.EncodeToString`. -/
def hexEncode (data : Bytes) : Bytes :=
  data.flatMap fun c => [hexDigit (c.toNat / 16), hexDigit (c.toNat % 16)]

def fromHexChar (c : UInt8) : Option Nat :=
  if 48 ≤ c ∧ c ≤ 57 then some (c.toNat - 48)
  else if 97 ≤ c ∧ c ≤ 102 then some (c.toNat - 87)
  else if 65 ≤ c ∧ c ≤ 70 then some (c.toNat - 55)
  else none

/-- `hex.DecodeString`, `none` for an error. -/
def hexDecode : Bytes → Option Bytes
  | [] => some []
  | [_] => none
  | a :: b :: rest => do
      let high ← fromHexChar a
      let low ← fromHexChar b
      let tail ← hexDecode rest
      return UInt8.ofNat (16 * high + low) :: tail

theorem fromHexChar_hexDigit : ∀ n < 16, fromHexChar (hexDigit n) = some n := by decide

theorem hexDecode_hexEncode (data : Bytes) : hexDecode (hexEncode data) = some data := by
  induction data with
  | nil => rfl
  | cons c data ih =>
      have hc : c.toNat < 256 := c.toNat_lt
      have hhigh := fromHexChar_hexDigit (c.toNat / 16) (by omega)
      have hlow := fromHexChar_hexDigit (c.toNat % 16) (by omega)
      have hsplit : 16 * (c.toNat / 16) + c.toNat % 16 = c.toNat := Nat.div_add_mod _ _
      calc hexDecode (hexEncode (c :: data)) =
            hexDecode (hexDigit (c.toNat / 16) :: hexDigit (c.toNat % 16) :: hexEncode data) := rfl
        _ = some (UInt8.ofNat (16 * (c.toNat / 16) + c.toNat % 16) :: data) := by
            rw [hexDecode, hhigh, hlow, ih]
            rfl
        _ = some (c :: data) := by rw [hsplit, UInt8.ofNat_toNat]

theorem hexEncode_printable (data : Bytes) : ∀ c ∈ hexEncode data, isPrintable c = true := by
  have hdigit : ∀ n < 16, isPrintable (hexDigit n) = true := by decide
  intro c hc
  obtain ⟨d, -, hc⟩ := List.mem_flatMap.mp hc
  have hd : d.toNat < 256 := d.toNat_lt
  rw [List.mem_cons, List.mem_singleton] at hc
  obtain rfl | rfl := hc
  · exact hdigit _ (by omega)
  · exact hdigit _ (by omega)

theorem hexEncode_eq_nil {data : Bytes} : hexEncode data = [] ↔ data = [] := by
  cases data <;> simp [hexEncode]

/-! ## Base64 -/

/-- The value of a character of the alphabet that ends in the two given ones. -/
def base64Digit (last : UInt8 × UInt8) (c : UInt8) : Option Nat :=
  if 65 ≤ c ∧ c ≤ 90 then some (c.toNat - 65)
  else if 97 ≤ c ∧ c ≤ 122 then some (c.toNat - 71)
  else if 48 ≤ c ∧ c ≤ 57 then some (c.toNat + 4)
  else if c = last.1 then some 62
  else if c = last.2 then some 63
  else none

/-- The bytes of three groups of eight bits. -/
def threeBytes (value : Nat) : Bytes :=
  [UInt8.ofNat (value / 2 ^ 16), UInt8.ofNat (value / 2 ^ 8), UInt8.ofNat value]

/-- Four characters make three bytes. The last group may be shorter: it is
filled up with `=` in a padded text and breaks off in one without padding. -/
def base64Groups (digit : UInt8 → Option Nat) (padded : Bool) : Bytes → Option Bytes
  | [] => some []
  | [_] => none
  | [a, b] => do
      guard (!padded)
      return (threeBytes (2 ^ 18 * (← digit a) + 2 ^ 12 * (← digit b))).take 1
  | [a, b, c] => do
      guard (!padded)
      return (threeBytes
        (2 ^ 18 * (← digit a) + 2 ^ 12 * (← digit b) + 2 ^ 6 * (← digit c))).take 2
  | a :: b :: c :: d :: rest =>
      if padded ∧ d = 61 then do
        guard rest.isEmpty
        if c = 61 then
          return (threeBytes (2 ^ 18 * (← digit a) + 2 ^ 12 * (← digit b))).take 1
        else
          return (threeBytes
            (2 ^ 18 * (← digit a) + 2 ^ 12 * (← digit b) + 2 ^ 6 * (← digit c))).take 2
      else do
        let value := 2 ^ 18 * (← digit a) + 2 ^ 12 * (← digit b) + 2 ^ 6 * (← digit c) + (← digit d)
        return threeBytes value ++ (← base64Groups digit padded rest)

/-- Line breaks inside the text are skipped. -/
def base64Decode (digit : UInt8 → Option Nat) (padded : Bool) (text : Bytes) : Option Bytes :=
  base64Groups digit padded (text.filter fun c => c ≠ 10 ∧ c ≠ 13)

/-- `base64.RawURLEncoding.DecodeString`. -/
def rawURLDecode : Bytes → Option Bytes := base64Decode (base64Digit (45, 95)) false

/-- `base64.StdEncoding.DecodeString`. -/
def stdDecode : Bytes → Option Bytes := base64Decode (base64Digit (43, 47)) true

end Encoding
