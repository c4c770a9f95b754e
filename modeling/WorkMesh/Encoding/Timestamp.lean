import WorkMesh.Encoding.Calendar
import WorkMesh.Encoding.Text

/-!
# Times in names

A time of UTC, to the second, as it stands in the name of a file. Names are
compared byte by byte; times with years of four digits are in the order of
their names.
-/

namespace Encoding

/-! ## The order of texts -/

/-- The bytes of a text as numbers; texts are ordered by them, the first ones first. -/
def byteOrder (text : Bytes) : List ℕ := text.map UInt8.toNat

theorem byteOrder_injective : Function.Injective byteOrder :=
  List.map_injective_iff.mpr fun _ _ h => UInt8.toNat_inj.mp h

theorem byteOrder_append (s t : Bytes) : byteOrder (s ++ t) = byteOrder s ++ byteOrder t :=
  List.map_append

theorem append_lt_append {a b : List ℕ} (hlength : a.length = b.length) (h : a < b)
    (c d : List ℕ) : a ++ c < b ++ d := by
  induction a generalizing b with
  | nil =>
      obtain rfl := List.length_eq_zero_iff.mp hlength.symm
      exact absurd h (lt_irrefl _)
  | cons m a ih =>
      cases b with
      | nil => cases hlength
      | cons n b =>
          rw [List.cons_append, List.cons_append, List.cons_lt_cons_iff]
          rcases List.cons_lt_cons_iff.mp h with hlt | ⟨heq, hlt⟩
          · exact .inl hlt
          · exact .inr ⟨heq, ih (Nat.succ.inj hlength) hlt⟩

/-! ## Numbers of a fixed width -/

/-- The last digits of a number. -/
def fixed : ℕ → ℕ → Bytes
  | 0, _ => []
  | width + 1, n => UInt8.ofNat (48 + n / 10 ^ width % 10) :: fixed width n

/-- A number with leading zeros up to a width. -/
def padded (width n : ℕ) : Bytes := if n < 10 ^ width then fixed width n else formatUint n

theorem length_fixed (width n : ℕ) : (fixed width n).length = width := by
  induction width with
  | zero => rfl
  | succ width ih => rw [fixed, List.length_cons, ih]

theorem fixed_mod (width n : ℕ) : fixed width (n % 10 ^ width) = fixed width n := by
  have hlow (v w : ℕ) (hv : v ≤ w) : fixed v (n % 10 ^ w) = fixed v n := by
    induction v with
    | zero => rfl
    | succ v ih =>
        have hdigit : n % 10 ^ w / 10 ^ v % 10 = n / 10 ^ v % 10 := by
          obtain ⟨k, rfl⟩ := Nat.exists_eq_add_of_le hv
          rw [pow_add, pow_succ, mul_assoc, Nat.mod_mul_right_div_self, Nat.mod_mul_right_mod]
        rw [fixed, fixed, hdigit, ih (by omega)]
  exact hlow width width le_rfl

theorem toNat_digit {d : ℕ} (hd : d < 10) : (UInt8.ofNat (48 + d)).toNat = 48 + d := by
  rw [UInt8.toNat_ofNat']
  omega

/-- Numbers of one width are in the order of their digits. -/
theorem fixed_lt {width m n : ℕ} (h : m < n) (hn : n < 10 ^ width) :
    byteOrder (fixed width m) < byteOrder (fixed width n) := by
  induction width generalizing m n with
  | zero => omega
  | succ width ih =>
      have hpos : 0 < 10 ^ width := Nat.pow_pos (by decide)
      have hdigit : n / 10 ^ width < 10 := Nat.div_lt_of_lt_mul (by rw [← pow_succ]; exact hn)
      have hle : m / 10 ^ width ≤ n / 10 ^ width := Nat.div_le_div_right h.le
      simp only [fixed, byteOrder, List.map_cons, List.cons_lt_cons_iff]
      rw [Nat.mod_eq_of_lt hdigit, Nat.mod_eq_of_lt (hle.trans_lt hdigit), toNat_digit hdigit,
        toNat_digit (hle.trans_lt hdigit)]
      rcases hle.lt_or_eq with hlt | heq
      · exact .inl (by omega)
      · refine .inr ⟨by rw [heq], ?_⟩
        have hrest := ih (m := m % 10 ^ width) (n := n % 10 ^ width) ?_ (Nat.mod_lt _ hpos)
        · rwa [fixed_mod, fixed_mod] at hrest
        · have hm := Nat.div_add_mod m (10 ^ width)
          have hnn := Nat.div_add_mod n (10 ^ width)
          rw [heq] at hm
          omega

theorem fixed_injective {width m n : ℕ} (hm : m < 10 ^ width) (hn : n < 10 ^ width)
    (h : fixed width m = fixed width n) : m = n := by
  rcases lt_trichotomy m n with hlt | heq | hlt
  · exact absurd (h ▸ fixed_lt hlt hn) (lt_irrefl _)
  · exact heq
  · exact absurd (h ▸ fixed_lt hlt hm) (lt_irrefl _)

theorem padded_injective (width : ℕ) : Function.Injective (padded width) := by
  have hlong {n : ℕ} (hn : ¬n < 10 ^ width) : width < (formatUint n).length := by
    have hpos : n ≠ 0 := by
      rintro rfl
      exact hn (Nat.pow_pos (by decide))
    rw [formatUint, if_neg hpos, List.length_map, List.length_reverse]
    by_contra hshort
    apply hn
    calc n < 10 ^ (Nat.digits 10 n).length := Nat.lt_base_pow_length_digits (by decide)
      _ ≤ 10 ^ width := Nat.pow_le_pow_right (by decide) (not_lt.mp hshort)
  intro m n h
  simp only [padded] at h
  split_ifs at h with hm hn hn
  · exact fixed_injective hm hn h
  · exact absurd (hlong hn) (by rw [← h, length_fixed]; exact lt_irrefl _)
  · exact absurd (hlong hm) (by rw [h, length_fixed]; exact lt_irrefl _)
  · exact Option.some_injective _
      (by rw [← parseDigits_formatUint m, h, parseDigits_formatUint])

/-- Texts that begin with numbers of one width are in the order of these, and behind equal ones
in the order of what follows. -/
theorem fixed_append_lt {width m n : ℕ} (hn : n < 10 ^ width) {c d : Bytes}
    (h : m < n ∨ m = n ∧ byteOrder c < byteOrder d) :
    byteOrder (fixed width m ++ c) < byteOrder (fixed width n ++ d) := by
  rw [byteOrder_append, byteOrder_append]
  rcases h with hlt | ⟨rfl, hrest⟩
  · apply append_lt_append _ (fixed_lt hlt hn)
    rw [byteOrder, byteOrder, List.length_map, List.length_map, length_fixed, length_fixed]
  · exact List.append_left_lt hrest

/-! ## Stamps -/

/-- `Format("20060102T150405")` of a second since 1970, in UTC. -/
def stamp (second : ℕ) : Bytes :=
  let date := dateOf (second / 86400 : ℕ)
  let rest := second % 86400
  padded 4 date.year.toNat ++ (fixed 2 date.month.toNat ++ (fixed 2 date.day.toNat ++
    84 :: (fixed 2 (rest / 3600) ++ (fixed 2 (rest / 60 % 60) ++ fixed 2 (rest % 60)))))

example : stamp 1709214245 = bytes "20240229T134405" := by decide +kernel

theorem le_of_mem_fixed {width n : ℕ} {c : UInt8} (h : c ∈ fixed width n) : 48 ≤ c := by
  induction width with
  | zero => cases h
  | succ width ih =>
      obtain rfl | h := List.mem_cons.mp h
      · have hdigit := toNat_digit (Nat.mod_lt (n / 10 ^ width) (show 0 < 10 by decide))
        rw [UInt8.le_iff_toNat_le, hdigit]
        exact Nat.le_add_right 48 _
      · exact ih h

/-- A stamp has digits and the sign between its date and its time. -/
theorem le_of_mem_stamp {second : ℕ} {c : UInt8} (h : c ∈ stamp second) : 48 ≤ c := by
  have hpadded {width n : ℕ} (h : c ∈ padded width n) : 48 ≤ c := by
    rw [padded] at h
    split_ifs at h
    · exact le_of_mem_fixed h
    · exact (formatUint_digits n c h).1
  simp only [stamp, List.mem_append, List.mem_cons] at h
  rcases h with h | h | h | rfl | h | h | h
  · exact hpadded h
  · exact le_of_mem_fixed h
  · exact le_of_mem_fixed h
  · decide
  · exact le_of_mem_fixed h
  · exact le_of_mem_fixed h
  · exact le_of_mem_fixed h

theorem mark_mem_stamp (second : ℕ) : 84 ∈ stamp second := by
  simp [stamp]

/-- The year of a second. -/
def yearOf (second : ℕ) : ℤ := (dateOf (second / 86400 : ℕ)).year

section Stamp
variable {second second' : ℕ}

theorem yearOf_nonneg (second : ℕ) : 0 ≤ yearOf second := by
  have hmonth := dateOf_month (second / 86400 : ℕ)
  have hday := dateOf_day (second / 86400 : ℕ)
  have hnumber := number_dateOf (second / 86400 : ℕ)
  rw [yearOf]
  by_contra hneg
  simp only [Date.number, yearStart] at hnumber
  split_ifs at hnumber <;> omega

theorem date_bounds (second : ℕ) :
    (dateOf (second / 86400 : ℕ)).month.toNat < 10 ^ 2 ∧
      (dateOf (second / 86400 : ℕ)).day.toNat < 10 ^ 2 := by
  have hmonth := dateOf_month (second / 86400 : ℕ)
  have hday := dateOf_day (second / 86400 : ℕ)
  omega

theorem clock_bounds (rest : ℕ) (h : rest < 86400) :
    rest / 3600 < 10 ^ 2 ∧ rest / 60 % 60 < 10 ^ 2 ∧ rest % 60 < 10 ^ 2 := by
  omega

/-- Two seconds never have the same stamp. -/
theorem stamp_injective : Function.Injective stamp := by
  intro second second' h
  obtain ⟨hmonth, hday⟩ := date_bounds second
  obtain ⟨hmonth', hday'⟩ := date_bounds second'
  have hclock := clock_bounds (second % 86400) (Nat.mod_lt _ (by decide))
  have hclock' := clock_bounds (second' % 86400) (Nat.mod_lt _ (by decide))
  simp only [stamp] at h
  obtain ⟨hyear, h⟩ := List.append_inj' h (by simp [length_fixed])
  obtain ⟨hm, h⟩ := List.append_inj h (by simp [length_fixed])
  obtain ⟨hd, h⟩ := List.append_inj h (by simp [length_fixed])
  obtain ⟨hhour, h⟩ := List.append_inj (List.cons.inj h).2 (by simp [length_fixed])
  obtain ⟨hminute, h⟩ := List.append_inj h (by simp [length_fixed])
  have hdate : dateOf (second / 86400 : ℕ) = dateOf (second' / 86400 : ℕ) := by
    have hy := padded_injective 4 hyear
    have hmn := fixed_injective hmonth hmonth' hm
    have hdn := fixed_injective hday hday' hd
    have hpos := yearOf_nonneg second
    have hpos' := yearOf_nonneg second'
    have hms := dateOf_month (second / 86400 : ℕ)
    have hms' := dateOf_month (second' / 86400 : ℕ)
    have hds := dateOf_day (second / 86400 : ℕ)
    have hds' := dateOf_day (second' / 86400 : ℕ)
    simp only [yearOf] at hpos hpos'
    cases hdate : dateOf (second / 86400 : ℕ) with
    | mk year month day =>
        cases hdate' : dateOf (second' / 86400 : ℕ) with
        | mk year' month' day' =>
            rw [hdate] at hy hmn hdn hpos hms hds
            rw [hdate'] at hy hmn hdn hpos' hms' hds'
            rw [Date.mk.injEq]
            simp only at hy hmn hdn hpos hpos' hms hms' hds hds'
            omega
  have hdays : ((second / 86400 : ℕ) : ℤ) = (second' / 86400 : ℕ) := by
    rw [← number_dateOf (second / 86400 : ℕ), hdate, number_dateOf]
  have hh := fixed_injective hclock.1 hclock'.1 hhour
  have hmin := fixed_injective hclock.2.1 hclock'.2.1 hminute
  have hs := fixed_injective hclock.2.2 hclock'.2.2 h
  omega

theorem length_stamp (hyear : yearOf second < 10000) : (stamp second).length = 15 := by
  have hpos := yearOf_nonneg second
  simp only [yearOf] at hpos hyear
  simp only [stamp, padded]
  rw [if_pos (by omega)]
  simp [length_fixed]

/-- In years of four digits, stamps are in the order of time. -/
theorem stamp_lt (h : second < second') (hyear : yearOf second' < 10000) :
    byteOrder (stamp second) < byteOrder (stamp second') := by
  obtain ⟨hmonth', hday'⟩ := date_bounds second'
  have hclock' := clock_bounds (second' % 86400) (Nat.mod_lt _ (by decide))
  have hpos := yearOf_nonneg second
  have hpos' := yearOf_nonneg second'
  have hbefore : dateOf (second / 86400 : ℕ) = dateOf (second' / 86400 : ℕ) ∧
        second % 86400 < second' % 86400 ∨
      (dateOf (second / 86400 : ℕ)).Before (dateOf (second' / 86400 : ℕ)) := by
    rcases (Nat.div_le_div_right (c := 86400) h.le).lt_or_eq with hlt | heq
    · exact .inr (dateOf_before (by exact_mod_cast hlt))
    · exact .inl ⟨by rw [heq], by omega⟩
  have hms := dateOf_month (second / 86400 : ℕ)
  have hds := dateOf_day (second / 86400 : ℕ)
  simp only [yearOf] at hpos hpos' hyear
  simp only [Date.Before] at hbefore
  simp only [stamp]
  generalize dateOf (second / 86400 : ℕ) = date at *
  generalize dateOf (second' / 86400 : ℕ) = date' at *
  have hyears : date.year ≤ date'.year := by
    rcases hbefore with ⟨rfl, -⟩ | hbefore
    · exact le_rfl
    · omega
  rw [padded, padded, if_pos (by omega), if_pos (by omega)]
  apply fixed_append_lt (by omega)
  rcases hyears.lt_or_eq with hlt | heq
  · exact .inl (by omega)
  refine .inr ⟨by rw [heq], ?_⟩
  apply fixed_append_lt hmonth'
  have hmonths : date.month ≤ date'.month := by
    rcases hbefore with ⟨rfl, -⟩ | hbefore
    · exact le_rfl
    · omega
  rcases hmonths.lt_or_eq with hlt | hsame
  · exact .inl (by omega)
  refine .inr ⟨by rw [hsame], ?_⟩
  apply fixed_append_lt hday'
  have hdays : date.day ≤ date'.day := by
    rcases hbefore with ⟨rfl, -⟩ | hbefore
    · exact le_rfl
    · omega
  rcases hdays.lt_or_eq with hlt | hday
  · exact .inl (by omega)
  refine .inr ⟨by rw [hday], ?_⟩
  have hrest : second % 86400 < second' % 86400 := by
    rcases hbefore with ⟨-, hrest⟩ | hbefore
    · exact hrest
    · omega
  rw [byteOrder, byteOrder, List.map_cons, List.map_cons, List.cons_lt_cons_iff]
  refine .inr ⟨rfl, ?_⟩
  apply fixed_append_lt hclock'.1
  rcases (Nat.div_le_div_right (c := 3600) hrest.le).lt_or_eq with hlt | heq
  · exact .inl hlt
  refine .inr ⟨heq, ?_⟩
  apply fixed_append_lt hclock'.2.1
  have hminutes : second % 86400 / 60 % 60 ≤ second' % 86400 / 60 % 60 := by omega
  rcases hminutes.lt_or_eq with hlt | heq
  · exact .inl hlt
  · exact .inr ⟨heq, fixed_lt (by omega) hclock'.2.2⟩

end Stamp

end Encoding
