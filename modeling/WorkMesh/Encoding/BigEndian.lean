import WorkMesh.Encoding.Sha256

/-!
# Numbers of a fixed number of bytes

Writing a number with the highest byte first and reading it back, and a reader
that fills a buffer from the pieces in which a stream arrives.
-/

namespace Encoding

section Bytes
variable {c : UInt8} {data : Bytes} {width n : ℕ}

/-- What holds of the first 256 numbers holds of every byte. -/
theorem forall_byte {P : UInt8 → Prop} (h : ∀ n < 256, P (UInt8.ofNat n)) (c : UInt8) : P c := by
  have hc := h c.toNat c.toNat_lt
  rwa [UInt8.ofNat_toNat] at hc

theorem bigEndian_cons (c : UInt8) (data : Bytes) :
    bigEndian (c :: data) = c.toNat * 256 ^ data.length + bigEndian data := by
  have hfold (start : ℕ) (data : Bytes) :
      data.foldl (fun n c => 256 * n + c.toNat) start =
        start * 256 ^ data.length + bigEndian data := by
    induction data generalizing start with
    | nil => simp [bigEndian]
    | cons d data ih =>
        rw [bigEndian, List.foldl_cons, List.foldl_cons, ih, ih, List.length_cons, pow_succ]
        ring
  rw [bigEndian, List.foldl_cons, hfold, Nat.mul_zero, Nat.zero_add]

theorem bigEndian_lt (data : Bytes) : bigEndian data < 256 ^ data.length := by
  induction data with
  | nil => exact Nat.one_pos
  | cons c data ih =>
      have hc := c.toNat_lt
      rw [bigEndian_cons, List.length_cons, pow_succ]
      have hmul : c.toNat * 256 ^ data.length ≤ 255 * 256 ^ data.length :=
        Nat.mul_le_mul_right _ (by omega)
      omega

@[simp] theorem length_bytesOf (width n : ℕ) : (bytesOf width n).length = width := by
  rw [bytesOf, List.length_map, List.length_range]

theorem bytesOf_succ (width n : ℕ) :
    bytesOf (width + 1) n = UInt8.ofNat (n / 256 ^ width) :: bytesOf width n := by
  rw [bytesOf, List.range_succ_eq_map, List.map_cons, List.map_map]
  congr 1
  apply List.map_congr_left
  intro i hi
  have hlt := List.mem_range.mp hi
  rw [Function.comp_apply, show width + 1 - 1 - i.succ = width - 1 - i by omega]

theorem bytesOf_mod (width n : ℕ) : bytesOf width (n % 256 ^ width) = bytesOf width n := by
  have hlow (v w : ℕ) (hv : v ≤ w) : bytesOf v (n % 256 ^ w) = bytesOf v n := by
    induction v with
    | zero => rfl
    | succ v ih =>
        obtain ⟨k, rfl⟩ := Nat.exists_eq_add_of_le hv
        have hdigit : UInt8.ofNat (n % 256 ^ (v + 1 + k) / 256 ^ v) = UInt8.ofNat (n / 256 ^ v) := by
          rw [← UInt8.toNat_inj, UInt8.toNat_ofNat', UInt8.toNat_ofNat', pow_add, pow_succ, mul_assoc,
            Nat.mod_mul_right_div_self, Nat.mod_mul_right_mod]
        rw [bytesOf_succ, bytesOf_succ, hdigit, ih (by omega)]
  exact hlow width width le_rfl

/-- A number that fits is read back. -/
theorem bigEndian_bytesOf (h : n < 256 ^ width) : bigEndian (bytesOf width n) = n := by
  induction width generalizing n with
  | zero =>
      obtain rfl := Nat.lt_one_iff.mp h
      rfl
  | succ width ih =>
      have hpos : 0 < 256 ^ width := Nat.pow_pos (by decide)
      have hdigit : n / 256 ^ width < 256 := Nat.div_lt_of_lt_mul (by rw [← pow_succ]; exact h)
      rw [bytesOf_succ, bigEndian_cons, UInt8.toNat_ofNat', Nat.mod_eq_of_lt hdigit, length_bytesOf,
        ← bytesOf_mod, ih (Nat.mod_lt n hpos), Nat.mul_comm]
      exact Nat.div_add_mod n _

/-- Bytes are those of the number that they make. -/
theorem bytesOf_bigEndian (data : Bytes) : bytesOf data.length (bigEndian data) = data := by
  induction data with
  | nil => rfl
  | cons c data ih =>
      have hlt := bigEndian_lt data
      have hpos : 0 < 256 ^ data.length := Nat.pow_pos (by decide)
      have hdigit : (c.toNat * 256 ^ data.length + bigEndian data) / 256 ^ data.length = c.toNat := by
        rw [Nat.mul_comm, Nat.mul_add_div hpos, Nat.div_eq_of_lt hlt, Nat.add_zero]
      have hrest : (c.toNat * 256 ^ data.length + bigEndian data) % 256 ^ data.length =
          bigEndian data := by
        rw [Nat.mul_comm, Nat.mul_add_mod, Nat.mod_eq_of_lt hlt]
      rw [List.length_cons, bytesOf_succ, bigEndian_cons, hdigit, UInt8.ofNat_toNat, ← bytesOf_mod,
        hrest, ih]

end Bytes

/-! ## Buffered reading -/

/-- A reader with what it has buffered, and what the reads behind will return one after another
until the stream ends. -/
structure BufReader where
  buffered : Bytes
  segments : List Bytes
  deriving DecidableEq

namespace BufReader

/-- What is still to come, however it is cut. -/
def rest (r : BufReader) : Bytes := r.buffered ++ r.segments.flatten

/-- Fill the buffer until it has `n` bytes. -/
def fill (n : ℕ) (buffered : Bytes) : List Bytes → Except String (Bytes × BufReader)
  | [] =>
      if n ≤ buffered.length then .ok (buffered.take n, ⟨buffered.drop n, []⟩)
      else .error (if buffered = [] then "EOF" else "unexpected EOF")
  | segment :: segments =>
      if n ≤ buffered.length then .ok (buffered.take n, ⟨buffered.drop n, segment :: segments⟩)
      else fill n (buffered ++ segment) segments

/-- `io.ReadFull` of `n` bytes. -/
def readFull (n : ℕ) (r : BufReader) : Except String (Bytes × BufReader) := fill n r.buffered r.segments

/-- `ReadByte`. -/
def readByte (r : BufReader) : Except String (UInt8 × BufReader) :=
  match r.readFull 1 with
  | .ok (data, r) => .ok (data.headD 0, r)
  | .error e => .error e

variable {r r' : BufReader} {n : ℕ} {c : UInt8} {data : Bytes}

theorem fill_ok {buffered : Bytes} {segments : List Bytes}
    (h : fill n buffered segments = .ok (data, r')) :
    data.length = n ∧ buffered ++ segments.flatten = data ++ r'.rest := by
  induction segments generalizing buffered with
  | nil =>
      rw [fill] at h
      split_ifs at h with hlen
      obtain ⟨rfl, rfl⟩ := Prod.mk.inj (Except.ok.inj h)
      refine ⟨List.length_take_of_le hlen, ?_⟩
      rw [rest, ← List.append_assoc, List.take_append_drop]
  | cons segment segments ih =>
      rw [fill] at h
      split_ifs at h with hlen
      · obtain ⟨rfl, rfl⟩ := Prod.mk.inj (Except.ok.inj h)
        refine ⟨List.length_take_of_le hlen, ?_⟩
        rw [rest, ← List.append_assoc, List.take_append_drop]
      · obtain ⟨hdata, hrest⟩ := ih h
        exact ⟨hdata, by rw [List.flatten_cons, ← List.append_assoc, hrest]⟩

theorem exists_fill {buffered : Bytes} {segments : List Bytes}
    (h : n ≤ (buffered ++ segments.flatten).length) :
    ∃ data r', fill n buffered segments = .ok (data, r') := by
  induction segments generalizing buffered with
  | nil =>
      rw [fill, if_pos (by simpa using h)]
      exact ⟨_, _, rfl⟩
  | cons segment segments ih =>
      rw [fill]
      split_ifs with hlen
      · exact ⟨_, _, rfl⟩
      · exact ih (by rwa [List.append_assoc, ← List.flatten_cons])

/-- What was read is the beginning of what was to come. -/
theorem readFull_ok (h : r.readFull n = .ok (data, r')) :
    data.length = n ∧ r.rest = data ++ r'.rest := fill_ok h

/-- Bytes that are to come are read, however the stream is cut. -/
theorem exists_readFull {back : Bytes} (h : r.rest = data ++ back) :
    ∃ r', r.readFull data.length = .ok (data, r') ∧ r'.rest = back := by
  obtain ⟨read, r', hread⟩ := @exists_fill data.length r.buffered
    r.segments (by rw [← rest, h, List.length_append]; exact Nat.le_add_right _ _)
  obtain ⟨hlength, hrest⟩ := fill_ok hread
  rw [← rest, h] at hrest
  obtain ⟨rfl, hback⟩ := List.append_inj hrest hlength.symm
  exact ⟨r', hread, hback.symm⟩

theorem readByte_ok (h : r.readByte = .ok (c, r')) : r.rest = c :: r'.rest := by
  rw [readByte] at h
  cases hread : r.readFull 1 with
  | error e => simp [hread] at h
  | ok result =>
      obtain ⟨data, after⟩ := result
      rw [hread] at h
      obtain ⟨rfl, rfl⟩ := Prod.mk.inj (Except.ok.inj h)
      obtain ⟨hlength, hrest⟩ := readFull_ok hread
      obtain ⟨d, rfl⟩ := List.length_eq_one_iff.mp hlength
      exact hrest

theorem exists_readByte {back : Bytes} (h : r.rest = c :: back) :
    ∃ r', r.readByte = .ok (c, r') ∧ r'.rest = back := by
  obtain ⟨r', hread, hback⟩ := @exists_readFull r [c] _ h
  refine ⟨r', ?_, hback⟩
  rw [readByte, show (1 : ℕ) = [c].length from rfl, hread]
  rfl

end BufReader

end Encoding
