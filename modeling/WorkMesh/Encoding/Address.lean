import WorkMesh.Encoding.Text

/-!
# Addresses of hosts

Which texts are IP addresses, with the number of their bits, and which are
networks.
-/

namespace Encoding

/-- A field of an IPv4 address: a number up to 255 without a leading zero. -/
def ipv4Field (field : Bytes) : Bool :=
  match parseDigits field with
  | some n => field.length ≤ 3 ∧ n ≤ 255 ∧ (field.head? = some 48 → field.length = 1)
  | none => false

def isIPv4 (text : Bytes) : Bool :=
  let fields := text.splitOn 46
  fields.length = 4 ∧ fields.all ipv4Field

/-- The fields of an IPv6 address, at most so many, and whether a double colon has come: how
many fields are left over. -/
def ipv6Fields : Nat → Bool → Bytes → Option (Nat × Bool)
  | 0, ellipsis, text => if text = [] then some (0, ellipsis) else none
  | n + 1, ellipsis, text =>
      let digits := text.takeWhile fun c => (fromHexChar c).isSome
      if digits.length = 0 ∨ 4 < digits.length then none
      else
        match text.drop digits.length with
        | [] => some (n, ellipsis)
        | c :: rest =>
            if c = 46 then
              -- The last two fields may be written as an IPv4 address.
              if (n = 1 ∨ ellipsis ∧ 1 ≤ n) ∧ isIPv4 text then some (n - 1, ellipsis) else none
            else if c ≠ 58 ∨ rest = [] then none
            else if rest.head? = some 58 then
              if ellipsis then none
              else if rest.tail = [] then some (n, true)
              else ipv6Fields n true rest.tail
            else ipv6Fields n ellipsis rest

def isIPv6 (text : Bytes) : Bool :=
  let opened := (bytes "::").isPrefixOf text
  let rest := if opened then text.drop 2 else text
  if opened ∧ rest = [] then true
  else
    match ipv6Fields 8 opened rest with
    | some (left, ellipsis) => (0 < left) = ellipsis
    | none => false

/-- The number of bits of the address that a text is. An address with a zone is none. -/
def parseAddress (text : Bytes) : Option Nat :=
  match text.find? fun c => c = 46 ∨ c = 58 ∨ c = 37 with
  | some c =>
      if c = 46 then if isIPv4 text then some 32 else none
      else if c = 58 ∧ isIPv6 text then some 128
      else none
  | none => none

/-- `net.ParseIP` gives an address. -/
def isAddress (text : Bytes) : Bool := (parseAddress text).isSome

/-- `net.ParseCIDR` gives a network. -/
def isNetwork (text : Bytes) : Bool :=
  let address := text.takeWhile (· ≠ 47)
  match parseAddress address, parseDigits (text.drop (address.length + 1)) with
  | some bits, some n => 47 ∈ text ∧ n ≤ bits
  | _, _ => false

/-! ## The characters of addresses -/

/-- The characters that addresses and networks are written with. -/
def isAddressChar (c : UInt8) : Bool := (fromHexChar c).isSome || c = 46 || c = 58 || c = 47

theorem digit_isAddressChar : ∀ c : UInt8, (decide (48 ≤ c) && decide (c ≤ 57)) = true →
    isAddressChar c = true := by
  decide +kernel

theorem isAddressChar_printable : ∀ c : UInt8, isAddressChar c = true → isPrintable c = true := by
  decide +kernel

theorem takeWhile_append_drop (p : UInt8 → Bool) (text : Bytes) :
    text.takeWhile p ++ text.drop (text.takeWhile p).length = text ∧
      text.drop (text.takeWhile p).length = text.dropWhile p := by
  have hparts : text.takeWhile p ++ text.dropWhile p = text := List.takeWhile_append_dropWhile
  have hdrop : text.drop (text.takeWhile p).length = text.dropWhile p := by
    have hleft : (text.takeWhile p ++ text.dropWhile p).drop (text.takeWhile p).length =
        text.dropWhile p := List.drop_left
    rwa [hparts] at hleft
  exact ⟨by rw [hdrop, hparts], hdrop⟩

theorem mem_intercalate {c : UInt8} {sep : Bytes} {fields : List Bytes}
    (hc : c ∈ sep.intercalate fields) : c ∈ sep ∨ ∃ field ∈ fields, c ∈ field := by
  rw [List.intercalate, List.mem_flatten] at hc
  obtain ⟨piece, hpiece, hc⟩ := hc
  induction fields with
  | nil => cases hpiece
  | cons field fields ih =>
      cases fields with
      | nil =>
          obtain rfl := List.mem_singleton.mp hpiece
          exact .inr ⟨piece, List.mem_cons_self, hc⟩
      | cons next fields =>
          rw [List.intersperse_cons_cons] at hpiece
          rcases List.mem_cons.mp hpiece with rfl | hpiece
          · exact .inr ⟨piece, List.mem_cons_self, hc⟩
          · rcases List.mem_cons.mp hpiece with rfl | hpiece
            · exact .inl hc
            · rcases ih hpiece with hsep | ⟨other, hother, hc⟩
              · exact .inl hsep
              · exact .inr ⟨other, List.mem_cons_of_mem _ hother, hc⟩

theorem splitOn_joined (text : Bytes) (c : UInt8) : [c].intercalate (text.splitOn c) = text :=
  List.intercalate_splitOn c

theorem digits_of_parseDigits {text : Bytes} {n : ℕ} (h : parseDigits text = some n) :
    ∀ c ∈ text, (decide (48 ≤ c) && decide (c ≤ 57)) = true := by
  unfold parseDigits at h
  split at h
  case isTrue hdigits => exact List.all_eq_true.mp hdigits.2
  case isFalse => cases h

theorem isIPv4_chars {text : Bytes} (h : isIPv4 text = true) :
    ∀ c ∈ text, isAddressChar c = true := by
  intro c hc
  have hfields : (text.splitOn 46).all ipv4Field = true := by
    simp only [isIPv4, Bool.decide_and, Bool.and_eq_true, decide_eq_true_eq] at h
    exact h.2
  rw [← splitOn_joined text 46] at hc
  rcases mem_intercalate hc with hsep | ⟨field, hfield, hc⟩
  · obtain rfl := List.mem_singleton.mp hsep
    decide
  · have hnumber := List.all_eq_true.mp hfields field hfield
    unfold ipv4Field at hnumber
    cases hparse : parseDigits field with
    | none => rw [hparse] at hnumber; cases hnumber
    | some n => exact digit_isAddressChar c (digits_of_parseDigits hparse c hc)

theorem ipv6Fields_chars {n : ℕ} {ellipsis : Bool} {text : Bytes} {r : ℕ × Bool}
    (h : ipv6Fields n ellipsis text = some r) : ∀ c ∈ text, isAddressChar c = true := by
  induction n generalizing ellipsis text r with
  | zero =>
      rw [ipv6Fields] at h
      split at h
      case isTrue hnil => simp [hnil]
      case isFalse => cases h
  | succ n ih =>
      have hdigits : ∀ c ∈ text.takeWhile (fun c => (fromHexChar c).isSome),
          isAddressChar c = true := fun c hc => by
        simp [isAddressChar, List.mem_takeWhile_imp hc]
      have hsplit : text = text.takeWhile (fun c => (fromHexChar c).isSome) ++
          text.drop (text.takeWhile fun c => (fromHexChar c).isSome).length :=
        (takeWhile_append_drop _ text).1.symm
      have hall : ∀ rest, text.drop
            (text.takeWhile fun c => (fromHexChar c).isSome).length = rest →
          (∀ c ∈ rest, isAddressChar c = true) → ∀ c ∈ text, isAddressChar c = true := by
        intro rest hrest hchars c hc
        rw [hsplit, hrest] at hc
        rcases List.mem_append.mp hc with hc | hc
        · exact hdigits c hc
        · exact hchars c hc
      have hcolon : isAddressChar 58 = true := by decide
      unfold ipv6Fields at h
      dsimp only at h
      split at h
      · cases h
      · split at h
        · exact hall _ ‹_› (by simp)
        · rename_i c rest hrest
          split at h
          · split at h
            · rename_i hv4
              exact isIPv4_chars hv4.2
            · cases h
          · split at h
            · cases h
            · rename_i hsep
              have hc : c = 58 := by
                by_contra hne
                exact hsep (.inl hne)
              subst hc
              split at h
              · rename_i hdouble
                split at h
                · cases h
                · have hrest' : rest = 58 :: rest.tail := by
                    cases rest with
                    | nil => cases hdouble
                    | cons d more =>
                        cases hdouble
                        rfl
                  refine hall _ hrest fun d hd => ?_
                  rcases List.mem_cons.mp hd with rfl | hd
                  · exact hcolon
                  · rw [hrest'] at hd
                    rcases List.mem_cons.mp hd with rfl | hd
                    · exact hcolon
                    · split at h
                      · rename_i hend
                        rw [hend] at hd
                        cases hd
                      · exact ih h d hd
              · refine hall _ hrest fun d hd => ?_
                rcases List.mem_cons.mp hd with rfl | hd
                · exact hcolon
                · exact ih h d hd

theorem isIPv6_chars {text : Bytes} (h : isIPv6 text = true) :
    ∀ c ∈ text, isAddressChar c = true := by
  have hfront : ∀ c ∈ text.take 2, (bytes "::").isPrefixOf text = true →
      isAddressChar c = true := by
    intro c hc hopened
    obtain ⟨rest, hrest⟩ := List.isPrefixOf_iff_prefix.mp hopened
    have htake : text.take 2 = [58, 58] := by rw [← hrest]; rfl
    rw [htake] at hc
    simp only [List.mem_cons, List.not_mem_nil, or_false, or_self] at hc
    rw [hc]
    decide
  unfold isIPv6 at h
  by_cases hopened : (bytes "::").isPrefixOf text = true
  · intro c hc
    rw [← List.take_append_drop 2 text] at hc
    rcases List.mem_append.mp hc with hc | hc
    · exact hfront c hc hopened
    · simp only [hopened, if_true, true_and] at h
      split at h
      · rename_i hnil
        rw [hnil] at hc
        cases hc
      · split at h
        · rename_i hfields
          exact ipv6Fields_chars hfields c hc
        · cases h
  · rw [if_neg (fun hboth => hopened hboth.1)] at h
    rw [if_neg hopened] at h
    split at h
    · rename_i hfields
      exact ipv6Fields_chars hfields
    · cases h

theorem parseAddress_chars {text : Bytes} {bits : ℕ} (h : parseAddress text = some bits) :
    ∀ c ∈ text, isAddressChar c = true := by
  unfold parseAddress at h
  split at h
  · split at h
    · split at h
      · rename_i hv4
        exact isIPv4_chars hv4
      · cases h
    · split at h
      · rename_i hv6
        exact isIPv6_chars hv6.2
      · cases h
  · cases h

theorem isAddress_chars {text : Bytes} (h : isAddress text = true) :
    ∀ c ∈ text, isAddressChar c = true := by
  obtain ⟨bits, hbits⟩ := Option.isSome_iff_exists.mp h
  exact parseAddress_chars hbits

theorem isNetwork_chars {text : Bytes} (h : isNetwork text = true) :
    ∀ c ∈ text, isAddressChar c = true := by
  unfold isNetwork at h
  dsimp only at h
  split at h
  · rename_i bits n haddress hdigits
    obtain ⟨hparts, hdrop⟩ := takeWhile_append_drop (fun c => decide (c ≠ 47)) text
    intro c hc
    rw [← hparts] at hc
    rcases List.mem_append.mp hc with hc | hc
    · exact parseAddress_chars haddress c hc
    · rw [← List.drop_drop, hdrop] at hdigits
      rw [hdrop] at hc
      cases hrest : text.dropWhile (fun c => decide (c ≠ 47)) with
      | nil => rw [hrest] at hc; cases hc
      | cons d rest =>
          have hd : d = 47 := by
            have hhead := List.head?_dropWhile_not (fun c : UInt8 => decide (c ≠ 47)) text
            rw [hrest] at hhead
            simpa using hhead
          rw [hrest, List.drop_one] at hdigits
          rw [hrest] at hc
          rcases List.mem_cons.mp hc with rfl | hc
          · rw [hd]
            decide
          · exact digit_isAddressChar c (digits_of_parseDigits hdigits c hc)
  · cases h

example : isAddress (bytes "fe80::1") ∧ isAddress (bytes "::ffff:10.0.0.1") ∧
    ¬ isAddress (bytes "1::2::3") ∧ ¬ isAddress (bytes "010.0.0.1") := by decide +kernel

end Encoding
