import WorkMesh.Stream.Framing

/-!
# Reasons for closing

A reason is cut at 123 bytes, the last bytes that only continue a character are
dropped, and what is not valid then is dropped as a whole. The first byte of
the character stays, so a long reason is lost unless it is cut behind a letter
of one byte.
-/

namespace WorkMesh.Stream

open Encoding

/-- The bytes of some characters. -/
def encode (cs : List Char) : Bytes := cs.flatMap String.utf8EncodeChar

/-- All characters of a text. -/
def characters : Runes → List Char
  | [] => []
  | .char c :: rest => c :: characters rest
  | .stray _ :: rest => characters rest

/-- The characters before the first stray byte. -/
def leading : Runes → List Char
  | .char c :: rest => c :: leading rest
  | _ => []

/-- A byte that continues a character. -/
def continues (c : UInt8) : Bool := c &&& 0xc0 = 0x80

def utf8Valid (data : Bytes) : Bool := data.toByteArray.validateUTF8

/-- The reason as it goes into a frame. -/
def closeReason (reason : Runes) : Bytes :=
  -- `strings.ToValidUTF8` drops the stray bytes.
  let valid := encode (characters reason)
  let cut := if 123 < valid.length then (valid.take 123).rdropWhile continues else valid
  if utf8Valid cut then cut else []

/-- What `closeWithCode` writes: nothing when the connection was closed before. -/
def closeWithCode (closed : Bool) (code : ℕ) (reason : Runes) : Except String Bytes :=
  if closed then .ok [] else writeStreamFrame 0x8 (bytesOf 2 code ++ closeReason reason)

/-- The longest part at the beginning of a text that is valid and has at most `n` bytes. -/
structure IsLongestPrefix (n : ℕ) (reason : Runes) (p : List Char) : Prop where
  start : p.map Rune.char <+: reason
  size : (encode p).length ≤ n
  longest : ∀ q : List Char, q.map Rune.char <+: reason → (encode q).length ≤ n →
    (encode q).length ≤ (encode p).length

/-- The frame has the longest valid part of the reason in it. -/
def KeepsReason (code : ℕ) (reason : Runes) : Prop :=
  ∃ frame p, closeWithCode false code reason = .ok frame ∧ IsLongestPrefix 123 reason p ∧
    rfcRead frame = some (0x8, bytesOf 2 code ++ encode p, [])

/-- Where a reason is kept: it is short, and no character stands behind a stray byte; it is cut
behind a letter of one byte, and what is kept is valid at its place; or nothing of it is valid at
its place, and it is lost. -/
def KeptReason (reason : Runes) : Prop :=
  if (encode (characters reason)).length ≤ 123 then characters reason = leading reason
  else if ∃ c ∈ (encode (characters reason))[122]?, c < 0x80 then
    123 ≤ (encode (leading reason)).length
  else leading reason = []

/-! ## Bytes of characters -/

section Characters
variable {c : Char} {cs ds : List Char} {reason : Runes} {n : ℕ}

/-- The shapes of the bytes of a character. -/
theorem continues_or (x : UInt8) : continues (x &&& 0x3f ||| 0x80) = true ∧
    (continues (x &&& 0x1f ||| 0xc0) = false ∧ 0x80 ≤ x &&& 0x1f ||| 0xc0) ∧
    (continues (x &&& 0x0f ||| 0xe0) = false ∧ 0x80 ≤ x &&& 0x0f ||| 0xe0) ∧
    (continues (x &&& 0x07 ||| 0xf0) = false ∧ 0x80 ≤ x &&& 0x07 ||| 0xf0) := by
  revert x
  apply forall_byte
  decide +kernel

theorem continues_iff (x : UInt8) : (x < 0x80 → continues x = false) ∧
    (continues x = true → 0x80 ≤ x) := by
  revert x
  apply forall_byte
  decide +kernel

/-- A character is a first byte and the bytes that continue it; there are none exactly if it is a
letter of one byte. -/
theorem utf8EncodeChar_split (c : Char) : ∃ first more, String.utf8EncodeChar c = first :: more ∧
    continues first = false ∧ (∀ b ∈ more, continues b = true) ∧ (first < 0x80 ↔ more = []) := by
  have hsize := c.utf8Size_pos
  have hmost := c.utf8Size_le_four
  by_cases h1 : c.utf8Size = 1
  · have hlt : c.val.toUInt8 < 0x80 := by
      have hval := Char.utf8Size_eq_one_iff.mp h1
      rw [UInt8.lt_iff_toNat_lt, UInt32.toNat_toUInt8]
      rw [UInt32.le_iff_toNat_le] at hval
      change c.val.toNat ≤ 127 at hval
      change c.val.toNat % 256 < 128
      omega
    refine ⟨_, _, String.utf8EncodeChar_eq_singleton h1, (continues_iff _).1 hlt, ?_,
      iff_of_true hlt rfl⟩
    exact fun b hb => absurd hb List.not_mem_nil
  have hnot {x : UInt8} {more : Bytes} (hx : 0x80 ≤ x) (hmore : more ≠ []) :
      x < 0x80 ↔ more = [] := iff_of_false (UInt8.not_lt.mpr hx) hmore
  by_cases h2 : c.utf8Size = 2
  · refine ⟨_, _, String.utf8EncodeChar_eq_cons_cons h2, (continues_or _).2.1.1, ?_,
      hnot (continues_or _).2.1.2 (by simp)⟩
    simp [continues_or]
  by_cases h3 : c.utf8Size = 3
  · refine ⟨_, _, String.utf8EncodeChar_eq_cons_cons_cons h3, (continues_or _).2.2.1.1, ?_,
      hnot (continues_or _).2.2.1.2 (by simp)⟩
    simp [continues_or]
  · refine ⟨_, _, String.utf8EncodeChar_eq_cons_cons_cons_cons (by omega),
      (continues_or _).2.2.2.1, ?_, hnot (continues_or _).2.2.2.2 (by simp)⟩
    simp [continues_or]

theorem encode_append (cs ds : List Char) : encode (cs ++ ds) = encode cs ++ encode ds :=
  List.flatMap_append

theorem encode_cons (c : Char) (cs : List Char) :
    encode (c :: cs) = String.utf8EncodeChar c ++ encode cs := List.flatMap_cons

theorem length_pos_of_encode (c : Char) : 0 < (String.utf8EncodeChar c).length := by
  rw [String.length_utf8EncodeChar]
  exact c.utf8Size_pos

theorem encode_eq_nil : encode cs = [] ↔ cs = [] := by
  cases cs with
  | nil => exact iff_of_true rfl rfl
  | cons c cs =>
      refine iff_of_false (fun h => ?_) (by simp)
      have hpos := length_pos_of_encode c
      rw [encode_cons] at h
      rw [(List.append_eq_nil_iff.mp h).1] at hpos
      exact absurd hpos (by decide)

theorem utf8Valid_iff (data : Bytes) : utf8Valid data = true ↔ ∃ cs, data = encode cs := by
  rw [utf8Valid, ByteArray.validateUTF8_eq_true_iff]
  constructor
  · rintro ⟨cs, hcs⟩
    refine ⟨cs, ?_⟩
    have hlist := congrArg (fun b : ByteArray => b.data.toList) hcs
    simpa [List.utf8Encode, encode] using hlist
  · rintro ⟨cs, rfl⟩
    exact ⟨cs, rfl⟩

theorem utf8Valid_encode (cs : List Char) : utf8Valid (encode cs) = true :=
  (utf8Valid_iff _).mpr ⟨cs, rfl⟩

/-- A text that ends in the first byte of a longer character is not valid. -/
theorem not_utf8Valid_of_first {front : Bytes} {first : UInt8} (hfirst : continues first = false)
    (hlong : 0x80 ≤ first) : utf8Valid (front ++ [first]) = false := by
  rw [Bool.eq_false_iff]
  intro h
  obtain ⟨cs, hcs⟩ := (utf8Valid_iff _).mp h
  rcases List.eq_nil_or_concat cs with rfl | ⟨ds, d, rfl⟩
  · simp [encode] at hcs
  · obtain ⟨start, more, hsplit, -, hmore, hsingle⟩ := utf8EncodeChar_split d
    rw [List.concat_eq_append, encode_append, encode_cons, hsplit] at hcs
    simp only [encode, List.flatMap_nil, List.append_nil] at hcs
    rcases List.eq_nil_or_concat more with rfl | ⟨mid, last, rfl⟩
    · have heq := (List.append_inj' hcs rfl).2
      rw [List.singleton_inj.mp heq] at hlong
      exact absurd (hsingle.mpr rfl) (UInt8.not_lt.mpr hlong)
    · rw [List.concat_eq_append, ← List.cons_append, ← List.append_assoc] at hcs
      have heq := (List.append_inj' hcs rfl).2
      have hlast := hmore last (by simp)
      rw [← List.singleton_inj.mp heq, hfirst] at hlast
      cases hlast

/-- Dropping the bytes that continue a character leaves its first one. -/
theorem rdropWhile_continues {front more : Bytes} {first : UInt8} (hfirst : continues first = false)
    (hmore : ∀ b ∈ more, continues b = true) :
    (front ++ first :: more).rdropWhile continues = front ++ [first] := by
  induction more using List.reverseRecOn with
  | nil => exact List.rdropWhile_concat_neg _ _ _ (by rw [hfirst]; decide)
  | append_singleton more last ih =>
      rw [← List.cons_append, ← List.append_assoc,
        List.rdropWhile_concat_pos _ _ _ (hmore last (by simp))]
      exact ih fun b hb => hmore b (List.mem_append_left _ hb)

/-! ## Prefixes that fit -/

/-- The first characters, as long as they fit. -/
def takeFit : ℕ → List Char → List Char
  | _, [] => []
  | n, c :: cs =>
      if (String.utf8EncodeChar c).length ≤ n then
        c :: takeFit (n - (String.utf8EncodeChar c).length) cs
      else []

theorem takeFit_start (n : ℕ) (cs : List Char) : takeFit n cs <+: cs := by
  induction cs generalizing n with
  | nil => exact List.nil_prefix
  | cons c cs ih =>
      rw [takeFit]
      split_ifs
      · exact List.cons_prefix_cons.mpr ⟨rfl, ih _⟩
      · exact List.nil_prefix

theorem length_takeFit (n : ℕ) (cs : List Char) : (encode (takeFit n cs)).length ≤ n := by
  induction cs generalizing n with
  | nil => exact Nat.zero_le n
  | cons c cs ih =>
      rw [takeFit]
      split_ifs with hfits
      · have hrest := ih (n - (String.utf8EncodeChar c).length)
        rw [encode_cons, List.length_append]
        omega
      · exact Nat.zero_le n

/-- A prefix that fits is one of what is taken. -/
theorem fits_takeFit (hds : ds <+: cs) (h : (encode ds).length ≤ n) : ds <+: takeFit n cs := by
  induction cs generalizing n ds with
  | nil => exact hds
  | cons c cs ih =>
      cases ds with
      | nil => exact List.nil_prefix
      | cons d ds =>
          obtain ⟨rfl, hrest⟩ := List.cons_prefix_cons.mp hds
          rw [encode_cons, List.length_append] at h
          rw [takeFit, if_pos (by omega)]
          exact List.cons_prefix_cons.mpr ⟨rfl, ih hrest (by omega)⟩

theorem takeFit_eq_self (h : (encode cs).length ≤ n) : takeFit n cs = cs :=
  (takeFit_start n cs).eq_of_length_le (fits_takeFit List.prefix_rfl h).length_le

/-- Behind what is taken stands a character that does not fit. -/
theorem takeFit_split (h : n < (encode cs).length) : ∃ c back, cs = takeFit n cs ++ c :: back ∧
    n < (encode (takeFit n cs)).length + (String.utf8EncodeChar c).length := by
  obtain ⟨rest, hrest⟩ := takeFit_start n cs
  cases rest with
  | nil =>
      rw [List.append_nil] at hrest
      have hle := length_takeFit n cs
      rw [hrest] at hle
      omega
  | cons c back =>
      refine ⟨c, back, hrest.symm, ?_⟩
      by_contra hfits
      have hmore : takeFit n cs ++ [c] <+: takeFit n cs := by
        apply fits_takeFit
        · exact ⟨back, by rw [List.append_assoc, List.singleton_append, hrest]⟩
        · rw [encode_append, List.length_append, encode_cons, List.length_append]
          simp only [encode, List.flatMap_nil, List.length_nil]
          simp only [encode] at hfits
          omega
      have hlength := hmore.length_le
      rw [List.length_append, List.length_singleton] at hlength
      omega

theorem leading_nil : leading [] = [] := rfl

theorem leading_stray (b : UInt8) (reason : Runes) : leading (.stray b :: reason) = [] := rfl

/-- A prefix of the runes is valid exactly if it is one of the leading characters. -/
theorem map_prefix_iff (ds : List Char) : ds.map Rune.char <+: reason ↔ ds <+: leading reason := by
  induction reason generalizing ds with
  | nil =>
      rw [leading_nil, List.prefix_nil, List.prefix_nil, List.map_eq_nil_iff]
  | cons r reason ih =>
      cases ds with
      | nil => exact iff_of_true List.nil_prefix List.nil_prefix
      | cons d ds =>
          cases r with
          | char c =>
              rw [leading, List.map_cons, List.cons_prefix_cons, List.cons_prefix_cons, ih,
                Rune.char.injEq]
          | stray b =>
              rw [leading_stray, List.map_cons, List.cons_prefix_cons, List.prefix_nil]
              exact iff_of_false (fun h => by cases h.1) (by simp)

theorem leading_start (reason : Runes) : leading reason <+: characters reason := by
  induction reason with
  | nil => exact List.nil_prefix
  | cons r reason ih =>
      cases r with
      | char c => exact List.cons_prefix_cons.mpr ⟨rfl, ih⟩
      | stray b => exact List.nil_prefix

theorem isLongestPrefix_iff (p : List Char) :
    IsLongestPrefix n reason p ↔ p = takeFit n (leading reason) := by
  have hfit : IsLongestPrefix n reason (takeFit n (leading reason)) := by
    refine ⟨(map_prefix_iff _).mpr (takeFit_start n _), length_takeFit n _, fun q hq hsize => ?_⟩
    obtain ⟨rest, hrest⟩ := fits_takeFit ((map_prefix_iff q).mp hq) hsize
    rw [← hrest, encode_append, List.length_append]
    exact Nat.le_add_right _ _
  constructor
  · intro h
    obtain ⟨rest, hrest⟩ := fits_takeFit ((map_prefix_iff p).mp h.start) h.size
    have hle := h.longest _ hfit.start hfit.size
    rw [← hrest, encode_append, List.length_append] at hle
    have hnil : encode rest = [] := List.eq_nil_of_length_eq_zero (by omega)
    rw [← hrest, encode_eq_nil.mp hnil, List.append_nil]
  · rintro rfl
    exact hfit

/-! ## Long reasons -/

theorem closeReason_short (h : (encode (characters reason)).length ≤ 123) :
    closeReason reason = encode (characters reason) := by
  rw [closeReason, if_neg (not_lt.mpr h), utf8Valid_encode, if_pos rfl]

/-- A cut that ends in a first byte and what continues it: a letter of one byte is kept, a longer
character takes all with it. -/
theorem closeReason_cut {front more : Bytes} {first : UInt8}
    (hlong : 123 < (encode (characters reason)).length)
    (hcut : (encode (characters reason)).take 123 = front ++ first :: more)
    (hfirst : continues first = false) (hmore : ∀ b ∈ more, continues b = true)
    (hlarge : 0x80 ≤ first) : closeReason reason = [] := by
  rw [closeReason, if_pos hlong, hcut, rdropWhile_continues hfirst hmore,
    not_utf8Valid_of_first hfirst hlarge]
  rfl

theorem mem_of_getLast?_append {front more : Bytes} {first b : UInt8}
    (h : b ∈ (front ++ first :: more).getLast?) : b ∈ first :: more := by
  rw [List.getLast?_append_of_ne_nil _ (List.cons_ne_nil _ _)] at h
  exact List.mem_of_getLast? h

/-- A long reason is kept if its last byte is a letter, and lost if not. -/
theorem closeReason_long (hlong : 123 < (encode (characters reason)).length) :
    (∃ c ∈ (encode (characters reason))[122]?, c < 0x80) ∧
        closeReason reason = encode (takeFit 123 (characters reason)) ∧
        (encode (takeFit 123 (characters reason))).length = 123 ∨
      (¬∃ c ∈ (encode (characters reason))[122]?, c < 0x80) ∧ closeReason reason = [] := by
  obtain ⟨c, back, hsplit, hover⟩ := takeFit_split hlong
  have hfit := length_takeFit 123 (characters reason)
  generalize hkept : takeFit 123 (characters reason) = kept at hsplit hover hfit ⊢
  have hbytes : encode (characters reason) =
      encode kept ++ (String.utf8EncodeChar c ++ encode back) := by
    rw [hsplit, encode_append, encode_cons]
  have htake : (encode (characters reason)).take 123 =
      encode kept ++ (String.utf8EncodeChar c).take (123 - (encode kept).length) := by
    rw [hbytes, List.take_append, List.take_of_length_le hfit,
      List.take_append_of_le_length (by omega)]
  have hlast : (encode (characters reason))[122]? =
      ((encode (characters reason)).take 123).getLast? := by
    rw [List.getLast?_eq_getElem?, List.length_take, Nat.min_eq_left hlong.le,
      List.getElem?_take_of_lt (by decide)]
  obtain ⟨first, more, hchar, hfirst, hmore, hsingle⟩ := utf8EncodeChar_split c
  rcases hfit.lt_or_eq with hless | hfull
  · -- The cut is within the next character, which is longer than one byte.
    obtain ⟨k, hk⟩ : ∃ k, 123 - (encode kept).length = k + 1 := ⟨122 - (encode kept).length, by omega⟩
    have hlarge : 0x80 ≤ first := by
      apply UInt8.not_lt.mp
      intro hone
      rw [hchar, hsingle.mp hone] at hover
      simp only [List.length_singleton] at hover
      omega
    rw [hk, hchar, List.take_succ_cons] at htake
    have hcontinued : ∀ b ∈ more.take k, continues b = true :=
      fun b hb => hmore b (List.mem_of_mem_take hb)
    refine .inr ⟨?_, closeReason_cut hlong htake hfirst hcontinued hlarge⟩
    rintro ⟨b, hb, hsmall⟩
    rw [hlast, htake] at hb
    obtain rfl | hmem := List.mem_cons.mp (mem_of_getLast?_append hb)
    · exact UInt8.not_lt.mpr hlarge hsmall
    · exact UInt8.not_lt.mpr ((continues_iff b).2 (hcontinued b hmem)) hsmall
  · -- The cut is behind a character.
    rw [hfull, Nat.sub_self, List.take_zero, List.append_nil] at htake
    rcases List.eq_nil_or_concat kept with rfl | ⟨front, d, rfl⟩
    · exact absurd hfull (by decide)
    obtain ⟨first', more', hchar', hfirst', hmore', hsingle'⟩ := utf8EncodeChar_split d
    have hend : encode (front.concat d) = encode front ++ first' :: more' := by
      rw [List.concat_eq_append, encode_append, encode_cons, hchar']
      simp [encode]
    by_cases hone : first' < 0x80
    · have hmore'nil := hsingle'.mp hone
      refine .inl ⟨⟨first', ?_, hone⟩, ?_, hfull⟩
      · rw [hlast, htake, hend, hmore'nil]
        simp
      · rw [closeReason, if_pos hlong, htake, hend, rdropWhile_continues hfirst' hmore', hmore'nil]
        rw [hmore'nil] at hend
        rw [← hend, utf8Valid_encode, if_pos rfl]
    · refine .inr ⟨?_, closeReason_cut hlong (htake.trans hend) hfirst' hmore' (UInt8.not_lt.mp hone)⟩
      rintro ⟨b, hb, hsmall⟩
      rw [hlast, htake, hend] at hb
      obtain rfl | hmem := List.mem_cons.mp (mem_of_getLast?_append hb)
      · exact hone hsmall
      · exact UInt8.not_lt.mpr ((continues_iff b).2 (hmore' b hmem)) hsmall

/-- The reason in a frame is the longest valid prefix exactly in the kept ones. -/
theorem closeReason_iff :
    closeReason reason = encode (takeFit 123 (leading reason)) ↔ KeptReason reason := by
  have hstart := leading_start reason
  obtain ⟨rest, hrest⟩ := hstart
  rw [KeptReason]
  split_ifs with hshort hletter
  · have hlead : (encode (leading reason)).length ≤ 123 := by
      rw [← hrest, encode_append, List.length_append] at hshort
      omega
    rw [closeReason_short hshort, takeFit_eq_self hlead]
    constructor
    · intro h
      rw [← hrest, encode_append] at h
      rw [← hrest, encode_eq_nil.mp (List.append_right_eq_self.mp h), List.append_nil]
    · exact congrArg encode
  · have hlong := not_le.mp hshort
    rcases closeReason_long hlong with ⟨-, hkept, hfull⟩ | ⟨hnone, -⟩
    swap
    · exact absurd hletter hnone
    rw [hkept]
    constructor
    · intro h
      rw [h] at hfull
      obtain ⟨others, hothers⟩ := takeFit_start 123 (leading reason)
      rw [← hothers, encode_append, List.length_append]
      omega
    · intro hlead
      have hin : takeFit 123 (characters reason) <+: leading reason := by
        refine List.prefix_of_prefix_length_le (takeFit_start 123 _) ⟨rest, hrest⟩ ?_
        by_contra hmore
        have hless : leading reason <+: takeFit 123 (characters reason) :=
          List.prefix_of_prefix_length_le ⟨rest, hrest⟩ (takeFit_start 123 _) (not_le.mp hmore).le
        obtain ⟨extra, hextra⟩ := hless
        have hsum := congrArg (fun cs => (encode cs).length) hextra
        simp only [encode_append, List.length_append, hfull] at hsum
        have hnil : encode extra = [] := List.eq_nil_of_length_eq_zero (by omega)
        rw [encode_eq_nil.mp hnil, List.append_nil] at hextra
        rw [hextra] at hmore
        exact hmore le_rfl
      have hout := fits_takeFit hin hfull.le
      have hback : takeFit 123 (leading reason) <+: takeFit 123 (characters reason) :=
        fits_takeFit ((takeFit_start 123 _).trans ⟨rest, hrest⟩) (length_takeFit 123 _)
      rw [hout.eq_of_length_le hback.length_le]
  · have hlong := not_le.mp hshort
    rcases closeReason_long hlong with ⟨hsome, -⟩ | ⟨-, hlost⟩
    · exact absurd hsome hletter
    rw [hlost, eq_comm, encode_eq_nil]
    constructor
    · intro h
      cases hlead : leading reason with
      | nil => rfl
      | cons c cs =>
          have hfits := c.utf8Size_le_four
          rw [hlead, takeFit, if_pos (by rw [String.length_utf8EncodeChar]; omega)] at h
          cases h
    · intro h
      rw [h]
      rfl

theorem length_closeReason (reason : Runes) : (closeReason reason).length ≤ 123 := by
  by_cases hshort : (encode (characters reason)).length ≤ 123
  · rw [closeReason_short hshort]
    exact hshort
  · rcases closeReason_long (not_le.mp hshort) with ⟨-, hkept, hfull⟩ | ⟨-, hlost⟩
    · rw [hkept, hfull]
    · rw [hlost]
      exact Nat.zero_le _

theorem keepsReason_iff (code : ℕ) (reason : Runes) :
    KeepsReason code reason ↔ KeptReason reason := by
  have hlength : (bytesOf 2 code ++ closeReason reason).length ≤ 125 := by
    have := length_closeReason reason
    rw [List.length_append, length_bytesOf]
    omega
  have hread := written_iff.mpr (.inr ⟨by decide, fun _ => hlength⟩ :
    maxWebSocketMessage < (bytesOf 2 code ++ closeReason reason).length ∨ (0x8 : UInt8) ∈ rfcOpcodes ∧
      (8 ≤ (0x8 : UInt8) → (bytesOf 2 code ++ closeReason reason).length ≤ 125))
  have hwritten : ∃ frame, writeStreamFrame 0x8 (bytesOf 2 code ++ closeReason reason) = .ok frame :=
    writes_iff.mpr (hlength.trans (by decide))
  rw [← closeReason_iff, KeepsReason]
  constructor
  · rintro ⟨frame, p, hclose, hlongest, hframe⟩
    rw [hread frame hclose] at hframe
    obtain ⟨-, hpayload⟩ := Prod.mk.inj (Option.some.inj hframe)
    rw [(isLongestPrefix_iff p).mp hlongest] at hpayload
    exact List.append_cancel_left (Prod.mk.inj hpayload).1
  · intro h
    obtain ⟨frame, hclose⟩ := hwritten
    refine ⟨frame, takeFit 123 (leading reason), hclose, (isLongestPrefix_iff _).mpr rfl, ?_⟩
    rw [hread frame hclose, h]

end Characters

/-! ## The framing -/

/-- Frames are read as they were sent exactly if none of their bytes came with the handshake;
streams that begin with no frame of a client are refused exactly if they do not begin with one that
is let through all the same; frames of up to 1 MiB are written, and read back exactly if they have
an opcode of a first frame and are short for a control frame; and a reason for closing is cut down
to its longest valid prefix exactly in the kept ones. -/
theorem framing_iff {site : Site} {request : UpgradeRequest} {hijacked : Hijacked} {response : Bytes}
    {r : BufReader} (h : upgradeStreamWebSocket site request (.ok hijacked) = .ok (response, r))
    {frames : List ClientFrame}
    (hsent : hijacked.early ++ hijacked.segments.flatten = frames.flatMap fun f => f.wire.bytes)
    (stream : BufReader) (opcode : UInt8) (payload : Bytes) (code : ℕ) (reason : Runes) :
    ((∃ r', readFrames frames.length r = .ok (frames.map ClientFrame.content, r')) ↔
        hijacked.early = []) ∧
      ((¬BeginsWithClientFrame stream.rest → ∃ e, readFrame stream = .error e) ↔
        ¬BeginsWithForeignFrame stream.rest) ∧
      ((∃ frame, writeStreamFrame opcode payload = .ok frame) ↔
        payload.length ≤ maxWebSocketMessage) ∧
      ((∀ frame, writeStreamFrame opcode payload = .ok frame →
          rfcRead frame = some (opcode, payload, [])) ↔
        maxWebSocketMessage < payload.length ∨
          opcode ∈ rfcOpcodes ∧ (8 ≤ opcode → payload.length ≤ 125)) ∧
      (KeepsReason code reason ↔ KeptReason reason) :=
  ⟨readFrames_iff h hsent, refused_iff, writes_iff, written_iff, keepsReason_iff code reason⟩

section Examples

def plainSite : Site where
  hostOf := fun _ => none
  allowedOrigins := []
  acceptOf := id

def plainUpgrade : UpgradeRequest where
  host := bytes "node"
  upgrade := bytes "websocket"
  connection := [bytes "keep-alive, Upgrade"]
  version := bytes "13"
  key := bytes "dGhlIHNhbXBsZSBub25jZQ=="
  origin := []

/-- A ping without a payload. -/
def emptyPing : ClientFrame where
  opcode := .ping
  mask := [1, 2, 3, 4]
  payload := []
  mask_length := rfl
  size := by decide

theorem upgrade_plain (hijacked : Hijacked) : ∃ response,
    upgradeStreamWebSocket plainSite plainUpgrade (.ok hijacked) =
      .ok (response, ⟨[], hijacked.segments⟩) := by
  apply Exists.intro
  rw [upgradeStreamWebSocket, if_neg (by decide +kernel), if_neg (by decide +kernel),
    if_neg (by decide +kernel), if_neg (by decide +kernel), if_neg (by decide +kernel),
    if_neg (by decide +kernel)]

/-- A ping that arrives in two pieces behind the handshake is read, and short texts and reasons are
kept. -/
theorem framing_right :
    (∃ r', readFrames 1 ⟨[], [[0x89], [0x80, 1, 2, 3, 4]]⟩ = .ok ([(0x9, [])], r')) ∧
      (∀ frame, writeStreamFrame 0x1 [97] = .ok frame → rfcRead frame = some (0x1, [97], [])) ∧
      KeepsReason 1000 [.char 'a'] := by
  obtain ⟨response, hresponse⟩ := upgrade_plain ⟨[], [[0x89], [0x80, 1, 2, 3, 4]]⟩
  have hsent : ([] : Bytes) ++ [[0x89], [0x80, 1, 2, 3, 4]].flatten =
      [emptyPing].flatMap fun f => f.wire.bytes := by decide +kernel
  obtain ⟨hframes, -, -, hwritten, hreason⟩ := framing_iff hresponse hsent ⟨[], []⟩ 0x1 [97] 1000
    [.char 'a']
  refine ⟨hframes.mpr rfl, hwritten.mpr (by decide), hreason.mpr ?_⟩
  rw [KeptReason, if_pos (by decide +kernel)]
  decide

/-- A ping that arrives with the handshake is lost, and a binary frame is let through. -/
theorem framing_fails :
    (∃ response, upgradeStreamWebSocket plainSite plainUpgrade (.ok ⟨emptyPing.wire.bytes, []⟩) =
        .ok (response, ⟨[], []⟩)) ∧
      readFrames 1 ⟨[], []⟩ = .error "EOF" ∧
      readFrame ⟨[0x82, 0x80, 0, 0, 0, 0], []⟩ = .ok (0x2, [], ⟨[], []⟩) :=
  ⟨upgrade_plain _, by decide +kernel, by decide +kernel⟩

end Examples

end WorkMesh.Stream
