import WorkMesh.Encoding.Text

/-!
# Clock readings

A reading is a wall time and, unless it was parsed or made up, the reading of
the monotonic clock taken with it. Two readings of the same process are compared
by the monotonic clock, whatever happens to the wall time in between.
-/

namespace Encoding

/-- The two ends of a 64-bit integer. -/
def saturate (n : Int) : Int := max (-2 ^ 63) (min n (2 ^ 63 - 1))

theorem saturate_le {n d : Int} (hlow : -2 ^ 63 ≤ d) (hhigh : d < 2 ^ 63 - 1) :
    saturate n ≤ d ↔ n ≤ d := by
  rw [saturate]
  omega

/-- `time.Time`, in nanoseconds from the Unix epoch and from the start of the process. -/
@[ext] structure Time where
  wall : Int
  monotonic : Option Int := none
deriving DecidableEq

namespace Time

/-- `Time.Sub`. -/
def sub (t u : Time) : Int :=
  match t.monotonic, u.monotonic with
  | some a, some b => saturate (a - b)
  | _, _ => saturate (t.wall - u.wall)

theorem sub_eq_wall {t u : Time} (h : t.monotonic = none ∨ u.monotonic = none) :
    t.sub u = saturate (t.wall - u.wall) := by
  rw [sub]
  rcases h with h | h
  · rw [h]
  · rw [h]
    cases t.monotonic <;> rfl

/-- `Time.Add`. A sum that does not fit takes the monotonic reading off. -/
def add (t : Time) (d : Int) : Time where
  wall := t.wall + d
  monotonic := (t.monotonic.map (· + d)).filter fun a => -2 ^ 63 ≤ a && a < 2 ^ 63

/-- `Time.After`. -/
def after (t u : Time) : Bool :=
  match t.monotonic, u.monotonic with
  | some a, some b => b < a
  | _, _ => u.wall < t.wall

/-- A reading is not after one that was moved on from it. -/
theorem after_add_self {t : Time} {d : Int} (hd : 0 ≤ d) : t.after (t.add d) = false := by
  cases hread : t.monotonic with
  | none => simpa [after, add, hread] using hd
  | some a =>
      by_cases hfits : -2 ^ 63 ≤ a + d ∧ a + d < 2 ^ 63
      · have hsum : (t.add d).monotonic = some (a + d) := by
          simpa [add, hread, Option.filter_eq_some_iff] using hfits
        simpa [after, hread, hsum] using hd
      · have hsum : (t.add d).monotonic = none := by
          simpa [add, hread, Option.filter_eq_none_iff] using hfits
        have hwall : (t.add d).wall = t.wall + d := rfl
        simpa [after, hread, hsum, hwall] using hd

/-- `time.Unix(seconds, 0)`: the seconds are kept from the year 1, in 64 bits. -/
def unix (seconds : Int) : Time where
  wall := (Int.bmod (seconds + 62135596800) (2 ^ 64) - 62135596800) * 10 ^ 9

end Time

/-! ## RFC 3339 -/

/-- A number of exactly the given count of digits and what follows it. -/
def digitsThen (count : Nat) (text : Bytes) : Option (Nat × Bytes) := do
  guard (count ≤ text.length)
  return (← parseDigits (text.take count), text.drop count)

/-- A given character and what follows it. -/
def charThen (c : UInt8) (text : Bytes) : Option Bytes := do
  guard (text.head? = some c)
  return text.tail

/-- The hour, whose first digit may be missing. -/
def hourThen (text : Bytes) : Option (Nat × Bytes) := digitsThen 2 text <|> digitsThen 1 text

/-- The nanoseconds of a fraction, if there is one. What is finer is cut off. -/
def fractionThen (text : Bytes) : Nat × Bytes :=
  let digits := text.tail.takeWhile fun c => 48 ≤ c && c ≤ 57
  match text.head? with
  | some c =>
      if (c = 46 ∨ c = 44) ∧ digits ≠ [] then
        (((parseDigits ((digits ++ List.replicate 9 48).take 9)).getD 0),
          text.tail.drop digits.length)
      else (0, text)
  | none => (0, text)

/-- The seconds that the zone is ahead, up to the end of the text. -/
def zoneSeconds (text : Bytes) : Option Int := do
  if text = [90] then return 0
  let (hours, text') ← digitsThen 2 text.tail
  let (minutes, rest) ← digitsThen 2 (← charThen 58 text')
  guard (rest = [] ∧ hours ≤ 24 ∧ minutes ≤ 60)
  let ahead : Int := (hours * 60 + minutes) * 60
  if text.head? = some 43 then return ahead
  guard (text.head? = some 45)
  return -ahead

def isLeap (year : Nat) : Bool := year % 4 = 0 ∧ (year % 100 ≠ 0 ∨ year % 400 = 0)

def daysIn (month year : Nat) : Nat :=
  if month = 2 then (if isLeap year then 29 else 28)
  else if month ∈ [4, 6, 9, 11] then 30 else 31

/-- The days from 1970-01-01 to a date. -/
def daysFromCivil (year month day : Nat) : Int :=
  let before : Int := year - 1
  365 * before + before / 4 - before / 100 + before / 400 - 719162 +
    ((List.range' 1 (month - 1)).map (daysIn · year)).sum + (day - 1)

/-- `time.Parse(time.RFC3339, text)`, `none` for an error. -/
def parseRFC3339 (text : Bytes) : Option Time := do
  let (year, text) ← digitsThen 4 text
  let (month, text) ← digitsThen 2 (← charThen 45 text)
  let (day, text) ← digitsThen 2 (← charThen 45 text)
  let (hour, text) ← hourThen (← charThen 84 text)
  let (minute, text) ← digitsThen 2 (← charThen 58 text)
  let (second, text) ← digitsThen 2 (← charThen 58 text)
  let (nanoseconds, text) := fractionThen text
  let ahead ← zoneSeconds text
  guard (1 ≤ month ∧ month ≤ 12 ∧ 1 ≤ day ∧ day ≤ daysIn month year)
  guard (hour < 24 ∧ minute < 60 ∧ second < 60)
  let seconds : Int := daysFromCivil year month day * 86400 + (hour * 60 + minute) * 60 + second
  return { wall := (seconds - ahead) * 10 ^ 9 + nanoseconds }

end Encoding
