import WorkMesh.Encoding.Calendar
import WorkMesh.Encoding.Search

/-!
# The next run of a cron job

`nextCronRun` tries one minute after another for 366 days. What an expression
says about an instant is given here apart from the code, field by field.
-/

namespace WorkMesh.Cron

open Encoding

/-! ## The code -/

/-- `cronField`. -/
def cronField (expr : Bytes) (value min max : ℤ) : Bool :=
  (expr.splitOn 44).any fun item =>
    let item := trimSpace item
    if item = bytes "*" then true
    else if (bytes "*/").isPrefixOf item then
      match parseInt (item.drop 2) with
      | some step => 0 < step && (value - min) % step = 0
      | none => false
    else if 45 ∈ item then
      let low := item.takeWhile (· ≠ 45)
      match parseInt low, parseInt (item.drop (low.length + 1)) with
      | some low, some high => low ≤ value && value ≤ high
      | _, _ => false
    else
      match parseInt item with
      | some n => min ≤ n && n ≤ max && n = value
      | none => false

/-- A minute of UTC. Minutes are numbered from the Unix epoch. -/
structure Moment where
  minute : ℤ
  hour : ℤ
  day : ℤ
  month : ℤ
  weekday : ℤ

def momentOf (number : ℤ) : Moment where
  minute := number % 60
  hour := number / 60 % 24
  day := (dateOf (number / 1440)).day
  month := (dateOf (number / 1440)).month
  weekday := weekdayOf (number / 1440)

/-- The condition of the loop, for the five fields of an expression. -/
def candidateMatches (parts : List Bytes) (number : ℤ) : Bool :=
  let moment := momentOf number
  let part (i : ℕ) := (parts[i]?).getD []
  let domMatch := cronField (part 2) moment.day 1 31
  let dowMatch := cronField (part 4) moment.weekday 0 6
  let domWildcard := part 2 = bytes "*"
  let dowWildcard := part 4 = bytes "*"
  let dayMatch := (domWildcard && dowMatch) || (dowWildcard && domMatch) ||
    (!domWildcard && !dowWildcard && (domMatch || dowMatch))
  cronField (part 0) moment.minute 0 59 && cronField (part 1) moment.hour 0 23 && dayMatch &&
    cronField (part 3) moment.month 1 12

/-- The first of so many minutes that matches. -/
def searchFrom (isMatch : ℤ → Bool) : ℕ → ℤ → Option ℤ
  | 0, _ => none
  | n + 1, number => if isMatch number then some number else searchFrom isMatch n (number + 1)

/-- A minute in nanoseconds. -/
def nanosPerMinute : ℤ := 60 * 10 ^ 9

/-- The minutes that are tried. -/
def searchedMinutes : ℕ := 366 * 24 * 60

/-- The first day of the month that is so many months after that of a day. -/
def firstOfMonth (day : ℤ) (later : ℤ) : ℤ :=
  let date := dateOf day
  let months := 12 * date.year + (date.month - 1) + later
  Date.number ⟨months / 12, months % 12 + 1, 1⟩

/-- `nextCronRun`, where `parseDuration` is `time.ParseDuration`. Instants are counted in
nanoseconds from the Unix epoch. -/
def nextCronRun (parseDuration : Bytes → Option ℤ) (spec : Bytes) (start : ℤ) : Option ℤ :=
  let spec := trimSpace spec
  let nanosPerDay := 1440 * nanosPerMinute
  let today := start / nanosPerDay
  if (bytes "@every ").isPrefixOf spec then
    (parseDuration (trimSpace (spec.drop 7))).bind fun d => if d ≤ 0 then none else some (start + d)
  else if spec = bytes "@hourly" then
    some ((start / (60 * nanosPerMinute) + 1) * (60 * nanosPerMinute))
  else if spec = bytes "@daily" then some ((today + 1) * nanosPerDay)
  else if spec = bytes "@weekly" then
    some ((today + (7 - weekdayOf today)) * nanosPerDay)
  else if spec = bytes "@monthly" then some (firstOfMonth today 1 * nanosPerDay)
  else if spec = bytes "@yearly" ∨ spec = bytes "@annually" then
    some (Date.number ⟨(dateOf today).year + 1, 1, 1⟩ * nanosPerDay)
  else
  let parts := words spec
  if parts.length ≠ 5 then none
  else
    (searchFrom (candidateMatches parts) searchedMinutes (start / nanosPerMinute + 1)).map
      (· * nanosPerMinute)

/-! ## What an expression says -/

/-- An item of a field. A text that is none of the first four says nothing about any value. -/
inductive Item where
  | any
  | step (n : ℤ)
  | range (low high : ℤ)
  | value (n : ℤ)
  | unread

/-- The values of an item in a field that goes from `min` to `max`. -/
def Item.Holds (min max v : ℤ) : Item → Prop
  | .any => True
  | .step n => 0 < n ∧ n ∣ v - min
  | .range low high => low ≤ v ∧ v ≤ high
  | .value n => min ≤ n ∧ n ≤ max ∧ v = n
  | .unread => False

def readItem (item : Bytes) : Item :=
  if item = bytes "*" then .any
  else if (bytes "*/").isPrefixOf item then
    match parseInt (item.drop 2) with
    | some n => .step n
    | none => .unread
  else if 45 ∈ item then
    let low := item.takeWhile (· ≠ 45)
    match parseInt low, parseInt (item.drop (low.length + 1)) with
    | some low, some high => .range low high
    | _, _ => .unread
  else
    match parseInt item with
    | some n => .value n
    | none => .unread

/-- A field of an expression: its items, and whether it is a lone star. -/
structure Field where
  items : List Item
  star : Bool

def readField (text : Bytes) : Field where
  items := (text.splitOn 44).map fun item => readItem (trimSpace item)
  star := text = bytes "*"

def Field.Holds (field : Field) (min max v : ℤ) : Prop :=
  ∃ item ∈ field.items, item.Holds min max v

structure Expression where
  minute : Field
  hour : Field
  day : Field
  month : Field
  weekday : Field

/-- The rule for the two fields about days: one of them is enough if neither is a star. -/
def Expression.HoldsDay (e : Expression) (moment : Moment) : Prop :=
  if e.day.star ∨ e.weekday.star then
    e.day.Holds 1 31 moment.day ∧ e.weekday.Holds 0 6 moment.weekday
  else e.day.Holds 1 31 moment.day ∨ e.weekday.Holds 0 6 moment.weekday

/-- An instant that has the fields of an expression. -/
def Expression.Holds (e : Expression) (moment : Moment) : Prop :=
  e.minute.Holds 0 59 moment.minute ∧ e.hour.Holds 0 23 moment.hour ∧
    e.month.Holds 1 12 moment.month ∧ e.HoldsDay moment

/-- The five fields of an expression. A schedule of the form `@every` is none. -/
def fiveFields (spec : Bytes) : Option Expression :=
  if (bytes "@every ").isPrefixOf (trimSpace spec) then none
  else
  match words (trimSpace spec) with
  | [minute, hour, day, month, weekday] =>
      some ⟨readField minute, readField hour, readField day, readField month, readField weekday⟩
  | _ => none

/-- A full minute behind an instant that an expression is satisfied at. -/
def Due (e : Expression) (start t : ℤ) : Prop :=
  start < t ∧ nanosPerMinute ∣ t ∧ e.Holds (momentOf (t / nanosPerMinute))

/-- The last full minute that is looked at. -/
def horizon (start : ℤ) : ℤ := (start / nanosPerMinute + searchedMinutes) * nanosPerMinute

/-! ## Fields -/

section Fields
variable {text : Bytes} {v min max : ℤ}

theorem cronField_iff :
    cronField text v min max = true ↔ (readField text).Holds min max v := by
  rw [cronField, List.any_eq_true, Field.Holds, readField]
  simp only [List.mem_map, exists_exists_and_eq_and]
  refine exists_congr fun item => and_congr_right fun _ => ?_
  generalize trimSpace item = item
  rw [readItem]
  by_cases hstar : item = bytes "*"
  · simp [hstar, Item.Holds]
  rw [if_neg hstar, if_neg hstar]
  by_cases hstep : (bytes "*/").isPrefixOf item = true
  · rw [if_pos hstep, if_pos hstep]
    cases parseInt (item.drop 2) with
    | none => simp [Item.Holds]
    | some n => simp [Item.Holds]
  rw [if_neg hstep, if_neg hstep]
  by_cases hrange : 45 ∈ item
  · rw [if_pos hrange, if_pos hrange]
    dsimp only
    cases parseInt (item.takeWhile (· ≠ 45)) with
    | none => simp [Item.Holds]
    | some low =>
        cases parseInt (item.drop ((item.takeWhile (· ≠ 45)).length + 1)) with
        | none => simp [Item.Holds]
        | some high => simp [Item.Holds]
  rw [if_neg hrange, if_neg hrange]
  cases parseInt item with
  | none => simp [Item.Holds]
  | some n => simp [Item.Holds, and_assoc, @eq_comm _ n]

/-- A star alone holds of every value. -/
theorem holds_of_star (h : (readField text).star = true) : (readField text).Holds min max v := by
  have hstar : text = bytes "*" := by simpa [readField] using h
  rw [← cronField_iff, hstar]
  rfl

end Fields

/-- The condition of the loop is that of the expression. -/
theorem candidateMatches_iff (minute hour day month weekday : Bytes) (number : ℤ) :
    candidateMatches [minute, hour, day, month, weekday] number = true ↔
      Expression.Holds ⟨readField minute, readField hour, readField day, readField month,
        readField weekday⟩ (momentOf number) := by
  generalize hmoment : momentOf number = moment
  have hday : (readField day).star = decide (day = bytes "*") := rfl
  have hweekday : (readField weekday).star = decide (weekday = bytes "*") := rfl
  have hdayStar (h : day = bytes "*") : (readField day).Holds 1 31 moment.day :=
    holds_of_star (by rw [hday, h]; rfl)
  have hweekdayStar (h : weekday = bytes "*") : (readField weekday).Holds 0 6 moment.weekday :=
    holds_of_star (by rw [hweekday, h]; rfl)
  simp only [candidateMatches, hmoment, List.getElem?_cons_zero, List.getElem?_cons_succ,
    Option.getD_some, Bool.and_eq_true, Bool.or_eq_true, Bool.not_eq_true', decide_eq_true_eq,
    decide_eq_false_iff_not, cronField_iff, Expression.Holds, Expression.HoldsDay, hday, hweekday]
  split_ifs with hstar
  · tauto
  · tauto

/-! ## The search -/

section Search
variable {isMatch : ℤ → Bool} {n : ℕ} {first number : ℤ}

theorem searchFrom_some : searchFrom isMatch n first = some number ↔
    first ≤ number ∧ number < first + n ∧ isMatch number = true ∧
      ∀ earlier, first ≤ earlier → earlier < number → isMatch earlier = false := by
  induction n generalizing first with
  | zero =>
      simp only [searchFrom, Nat.cast_zero, add_zero, reduceCtorEq, false_iff]
      omega
  | succ n ih =>
      rw [searchFrom]
      by_cases hmatch : isMatch first = true
      · rw [if_pos hmatch, Option.some_inj]
        constructor
        · rintro rfl
          exact ⟨le_rfl, by push_cast; omega, hmatch, fun earlier h h' => absurd h' (by omega)⟩
        · rintro ⟨hle, -, -, hearlier⟩
          by_contra hne
          have hfalse := hearlier first le_rfl (by omega)
          rw [hmatch] at hfalse
          cases hfalse
      · rw [if_neg hmatch, ih]
        have hfirst : isMatch first = false := by simpa using hmatch
        constructor
        · rintro ⟨hle, hlt, hfound, hearlier⟩
          refine ⟨by omega, by push_cast; omega, hfound, fun earlier h h' => ?_⟩
          rcases h.lt_or_eq with hlater | rfl
          · exact hearlier earlier (by omega) h'
          · exact hfirst
        · rintro ⟨hle, hlt, hfound, hearlier⟩
          have hne : number ≠ first := by
            rintro rfl
            exact hmatch hfound
          push_cast at hlt
          exact ⟨by omega, by omega, hfound, fun earlier h h' => hearlier earlier (by omega) h'⟩

theorem searchFrom_none : searchFrom isMatch n first = none ↔
    ∀ number, first ≤ number → number < first + n → isMatch number = false := by
  induction n generalizing first with
  | zero =>
      simp only [searchFrom, Nat.cast_zero, add_zero, true_iff]
      omega
  | succ n ih =>
      rw [searchFrom]
      by_cases hmatch : isMatch first = true
      · rw [if_pos hmatch]
        simp only [reduceCtorEq, false_iff]
        intro h
        have hfalse := h first le_rfl (by push_cast; omega)
        rw [hmatch] at hfalse
        cases hfalse
      · rw [if_neg hmatch, ih]
        push_cast
        constructor
        · intro h number hle hlt
          rcases hle.lt_or_eq with hlater | rfl
          · exact h number (by omega) (by omega)
          · simpa using hmatch
        · exact fun h number hle hlt => h number (by omega) (by omega)

end Search

/-- An expression of five fields is searched for. -/
theorem nextCronRun_of_fields {parseDuration : Bytes → Option ℤ} {spec : Bytes} {e : Expression}
    (h : fiveFields spec = some e) (start : ℤ) :
    ∃ isMatch : ℤ → Bool, (∀ number, isMatch number = true ↔ e.Holds (momentOf number)) ∧
      nextCronRun parseDuration spec start =
        (searchFrom isMatch searchedMinutes (start / nanosPerMinute + 1)).map
          (· * nanosPerMinute) := by
  rw [fiveFields] at h
  split at h
  · cases h
  rename_i hevery
  split at h
  swap
  · cases h
  rename_i minute hour day month weekday hwords
  obtain rfl := Option.some.inj h
  have hmacro (name : Bytes) (hname : (words name).length ≠ 5) : trimSpace spec ≠ name := by
    rintro rfl
    rw [hwords] at hname
    exact hname rfl
  refine ⟨candidateMatches [minute, hour, day, month, weekday],
    candidateMatches_iff minute hour day month weekday, ?_⟩
  have hnames : ∀ name ∈ [bytes "@hourly", bytes "@daily", bytes "@weekly", bytes "@monthly",
      bytes "@yearly", bytes "@annually"], trimSpace spec ≠ name := by
    have hlengths : [bytes "@hourly", bytes "@daily", bytes "@weekly", bytes "@monthly",
        bytes "@yearly", bytes "@annually"].all (fun name => (words name).length ≠ 5) = true := by
      decide +kernel
    intro name hname
    exact hmacro name (by simpa using List.all_eq_true.mp hlengths name hname)
  simp only [List.forall_mem_cons, List.not_mem_nil, false_implies, implies_true, and_true] at hnames
  obtain ⟨hhourly, hdaily, hweekly, hmonthly, hyearly, hannually⟩ := hnames
  simp [nextCronRun, hevery, hhourly, hdaily, hweekly, hmonthly, hyearly, hannually, hwords]

section Next
variable {e : Expression} {start t : ℤ}

theorem nanosPerMinute_pos : 0 < nanosPerMinute := by decide

/-- Full minutes behind an instant are those from the next one on. -/
theorem lt_mul_iff (number : ℤ) :
    start < number * nanosPerMinute ↔ start / nanosPerMinute + 1 ≤ number := by
  rw [← Int.ediv_lt_iff_lt_mul nanosPerMinute_pos]
  exact Int.lt_iff_add_one_le

theorem due_iff (number : ℤ) : Due e start (number * nanosPerMinute) ↔
    start / nanosPerMinute + 1 ≤ number ∧ e.Holds (momentOf number) := by
  rw [Due, lt_mul_iff, Int.mul_ediv_cancel _ nanosPerMinute_pos.ne']
  simp

theorem Due.exists_number (h : Due e start t) : ∃ number, t = number * nanosPerMinute := by
  obtain ⟨number, rfl⟩ := h.2.1
  exact ⟨number, mul_comm ..⟩

theorem le_horizon_iff (number : ℤ) : number * nanosPerMinute ≤ horizon start ↔
    number < start / nanosPerMinute + 1 + searchedMinutes := by
  rw [horizon, mul_le_mul_iff_left₀ nanosPerMinute_pos]
  omega

end Next

/-- For an expression of five fields, the next run is the first full minute behind the given
instant that satisfies it, among the minutes of the 366 days that follow; there is none exactly
if no minute among them satisfies it. -/
theorem nextCronRun_within_year (parseDuration : Bytes → Option ℤ) (spec : Bytes) (e : Expression)
    (start : ℤ) (h : fiveFields spec = some e) :
    (∀ t, nextCronRun parseDuration spec start = some t ↔
      Due e start t ∧ t ≤ horizon start ∧ ∀ earlier, Due e start earlier → t ≤ earlier) ∧
    (nextCronRun parseDuration spec start = none ↔ ∀ t, Due e start t → horizon start < t) := by
  obtain ⟨isMatch, hmatch, hrun⟩ := @nextCronRun_of_fields parseDuration spec e h start
  have hfalse (number : ℤ) : isMatch number = false ↔ ¬e.Holds (momentOf number) := by
    rw [← hmatch, Bool.not_eq_true]
  rw [hrun]
  constructor
  · intro t
    rw [Option.map_eq_some_iff]
    constructor
    · rintro ⟨number, hfound, rfl⟩
      obtain ⟨hle, hlt, hholds, hearlier⟩ := searchFrom_some.mp hfound
      refine ⟨(due_iff number).mpr ⟨hle, (hmatch number).mp hholds⟩,
        (le_horizon_iff number).mpr hlt, fun earlier hdue => ?_⟩
      obtain ⟨other, rfl⟩ := hdue.exists_number
      obtain ⟨hother, hsatisfied⟩ := (due_iff other).mp hdue
      refine Int.mul_le_mul_of_nonneg_right ?_ nanosPerMinute_pos.le
      by_contra hbefore
      exact (hfalse other).mp (hearlier other hother (by omega)) hsatisfied
    · rintro ⟨hdue, hwithin, hleast⟩
      obtain ⟨number, rfl⟩ := hdue.exists_number
      obtain ⟨hle, hholds⟩ := (due_iff number).mp hdue
      refine ⟨number, searchFrom_some.mpr ⟨hle, (le_horizon_iff number).mp hwithin,
        (hmatch number).mpr hholds, fun earlier hfirst hbefore => ?_⟩, rfl⟩
      rw [hfalse]
      intro hsatisfied
      have hmul := hleast _ ((due_iff earlier).mpr ⟨hfirst, hsatisfied⟩)
      have hnot := le_of_mul_le_mul_right hmul nanosPerMinute_pos
      omega
  · rw [Option.map_eq_none_iff, searchFrom_none]
    constructor
    · intro hnone t hdue
      obtain ⟨number, rfl⟩ := hdue.exists_number
      obtain ⟨hle, hholds⟩ := (due_iff number).mp hdue
      by_contra hwithin
      exact (hfalse number).mp
        (hnone number hle ((le_horizon_iff number).mp (not_lt.mp hwithin))) hholds
    · intro hbeyond number hle hlt
      rw [hfalse]
      intro hholds
      have hlate := hbeyond _ ((due_iff number).mpr ⟨hle, hholds⟩)
      exact absurd ((le_horizon_iff number).mpr hlt) (not_le.mpr hlate)

/-- Five minutes after midnight, from midnight on. -/
theorem nextCronRun_five_minutes :
    nextCronRun (fun _ => none) (bytes "*/5 * * * *") 0 = some (5 * nanosPerMinute) := by
  have hfields : fiveFields (bytes "*/5 * * * *") = some ⟨⟨[.step 5], false⟩, ⟨[.any], true⟩,
      ⟨[.any], true⟩, ⟨[.any], true⟩, ⟨[.any], true⟩⟩ := by rfl
  have hnext := (nextCronRun_within_year (fun _ => none) _ _ 0 hfields).1 (5 * nanosPerMinute)
  refine hnext.mpr ⟨(due_iff 5).mpr ⟨by decide, ?_⟩, by decide, fun earlier hdue => ?_⟩
  · refine ⟨⟨_, List.mem_singleton_self _, by decide, by decide⟩,
      ⟨_, List.mem_singleton_self _, trivial⟩, ⟨_, List.mem_singleton_self _, trivial⟩, ?_⟩
    rw [Expression.HoldsDay, if_pos (.inl rfl)]
    exact ⟨⟨_, List.mem_singleton_self _, trivial⟩, ⟨_, List.mem_singleton_self _, trivial⟩⟩
  · obtain ⟨number, rfl⟩ := hdue.exists_number
    obtain ⟨hle, ⟨item, hitem, hholds⟩, -⟩ := (due_iff number).mp hdue
    obtain rfl := List.mem_singleton.mp hitem
    have hstep : (5 : ℤ) ∣ number % 60 - 0 := hholds.2
    have hfirst : (1 : ℤ) ≤ number := hle
    exact Int.mul_le_mul_of_nonneg_right (by omega) nanosPerMinute_pos.le

/-! ## A leap day -/

/-- `0 0 29 2 *`: midnight of a leap day. -/
def leapDay : Bytes := bytes "0 0 29 2 *"

/-- The fields of `leapDay`. -/
def leapDayFields : Expression where
  minute := ⟨[.value 0], false⟩
  hour := ⟨[.value 0], false⟩
  day := ⟨[.value 29], false⟩
  month := ⟨[.value 2], false⟩
  weekday := ⟨[.any], true⟩

theorem fiveFields_leapDay : fiveFields leapDay = some leapDayFields := by rfl

/-- Midnight of 2025-03-01. -/
def afterLeapDay : ℤ := 20148 * 1440 * nanosPerMinute

theorem leapDay_of_holds {number : ℤ} (h : leapDayFields.Holds (momentOf number)) :
    (dateOf (number / 1440)).day = 29 ∧ (dateOf (number / 1440)).month = 2 := by
  obtain ⟨-, -, ⟨month, hmonth, hvalue⟩, hday⟩ := h
  obtain rfl := List.mem_singleton.mp hmonth
  rw [Expression.HoldsDay, if_pos (.inr rfl)] at hday
  obtain ⟨⟨day, hday, hholds⟩, -⟩ := hday
  obtain rfl := List.mem_singleton.mp hday
  exact ⟨hholds.2.2, hvalue.2.2⟩

theorem no_leapDay_within_year (t : ℤ) (h : Due leapDayFields afterLeapDay t) :
    horizon afterLeapDay < t := by
  have hdays : (List.range 367).all (fun k : ℕ => (dateOf (20148 + k)).day ≠ 29 ||
      (dateOf (20148 + k)).month ≠ 2) = true := by decide +kernel
  have hstart : afterLeapDay / nanosPerMinute = 20148 * 1440 :=
    Int.mul_ediv_cancel _ nanosPerMinute_pos.ne'
  obtain ⟨number, rfl⟩ := h.exists_number
  obtain ⟨hle, hholds⟩ := (due_iff number).mp h
  by_contra hwithin
  have hlt := (le_horizon_iff number).mp (not_lt.mp hwithin)
  rw [hstart] at hle hlt
  have hsearched : (searchedMinutes : ℤ) = 527040 := by decide
  rw [hsearched] at hlt
  obtain ⟨hday, hmonth⟩ := leapDay_of_holds hholds
  have hcase := List.all_eq_true.mp hdays (number / 1440 - 20148).toNat
    (List.mem_range.mpr (by omega))
  have hnumber : 20148 + ((number / 1440 - 20148).toNat : ℤ) = number / 1440 := by omega
  rw [hnumber, hday, hmonth] at hcase
  simp at hcase

/-- The leap day of 2028 is not found from 2025 on. -/
theorem nextCronRun_misses_leapDay :
    ¬∀ (parseDuration : Bytes → Option ℤ) (spec : Bytes) (e : Expression) (start : ℤ),
      fiveFields spec = some e →
        (∀ t, nextCronRun parseDuration spec start = some t ↔
          Due e start t ∧ ∀ earlier, Due e start earlier → t ≤ earlier) ∧
        (nextCronRun parseDuration spec start = none → ∀ t, ¬Due e start t) := by
  intro h
  have hnone := (nextCronRun_within_year (fun _ => none) leapDay leapDayFields afterLeapDay
    fiveFields_leapDay).2.mpr no_leapDay_within_year
  refine (h _ _ _ _ fiveFields_leapDay).2 hnone (21243 * 1440 * nanosPerMinute) ?_
  refine (due_iff _).mpr ⟨by decide, ⟨_, List.mem_singleton_self _, by decide, by decide,
    by decide⟩, ⟨_, List.mem_singleton_self _, by decide, by decide, by decide⟩,
    ⟨_, List.mem_singleton_self _, by decide, by decide, by decide⟩, ?_⟩
  rw [Expression.HoldsDay, if_pos (.inr rfl)]
  exact ⟨⟨_, List.mem_singleton_self _, by decide, by decide, by decide⟩,
    ⟨_, List.mem_singleton_self _, trivial⟩⟩

end WorkMesh.Cron
