import Mathlib

/-!
# JSON values and field readers of the agent control plane

Request bodies and event payloads are decoded JSON maps. The readers below
are the ones every handler of `agent_team.go` goes through: trimmed strings,
bounded integers, bounded texts, identifiers, and the redacted, size-bounded
copy of a payload that is written to the event log and to commands.

## Implementation notes

A Go string is a Lean `String`. A rune that `boundedText` cuts in half leaves
bytes that `encoding/json` writes as U+FFFD, so each of them is that character.
-/

namespace WorkMesh.AgentTeam

/-- A decoded JSON value. A number is a float64, given by its exact value and
by the shortest decimal that Go prints for it. -/
inductive Json where
  | null
  | bool (b : Bool)
  | num (value : ℚ) (text : String)
  | str (s : String)
  | arr (items : List Json)
  | obj (fields : List (String × Json))

/-- A `map[string]any`, read by the first entry of a key. -/
abbrev Fields := List (String × Json)

/-- An integer stored in a map. -/
def Json.int (n : Int) : Json := .num n (toString n)

/-- `unicode.IsSpace`. -/
def isSpace (c : Char) : Bool :=
  c ∈ ['\t', '\n', '\x0b', '\x0c', '\r', ' ', '\u0085', '\u00a0', '\u1680', '\u2028', '\u2029',
    '\u202f', '\u205f', '\u3000'] || ('\u2000' ≤ c && c ≤ '\u200a')

/-- `strings.TrimSpace`. -/
def trimSpace (s : String) : String :=
  String.ofList ((s.toList.dropWhile isSpace).reverse.dropWhile isSpace).reverse

/-- `strings.ToLower` as far as comparison with ASCII words can tell: besides
`A`-`Z` only U+0130 and U+212A have an ASCII lower case. -/
def toLower (s : String) : String :=
  String.ofList (s.toList.map fun c =>
    if c = '\u0130' then 'i' else if c = '\u212a' then 'k' else c.toLower)

/-- The first key that holds a string with more than white space in it. -/
def aiString (body : Fields) : List String → String
  | [] => ""
  | key :: keys =>
      match body.lookup key with
      | some (.str value) =>
          if trimSpace value ≠ "" then trimSpace value else aiString body keys
      | _ => aiString body keys

def isTeamIDChar (c : Char) : Bool :=
  ('a' ≤ c && c ≤ 'z') || ('A' ≤ c && c ≤ 'Z') || ('0' ≤ c && c ≤ '9') ||
    c == '-' || c == '_' || c == '.'

/-- A trimmed identifier of at most `max` safe characters, and `""` for anything else. -/
def safeName (max : Nat) (value : String) : String :=
  let value := trimSpace value
  if value.utf8ByteSize = 0 ∨ max < value.utf8ByteSize then ""
  else if value.toList.all isTeamIDChar then value else ""

def validTeamID (value : String) : String := safeName 128 value

def validEventType (value : String) : String := safeName 80 value

/-- The value of a nonempty string of decimal digits. -/
def digitsValue (digits : List Char) : Option Nat :=
  if digits.isEmpty then none
  else digits.foldl (fun acc c => acc.bind fun n =>
    if c.isDigit then some (10 * n + (c.toNat - '0'.toNat)) else none) (some 0)

/-- A signed decimal of any size. -/
def decimalValue (s : String) : Option Int :=
  match s.toList with
  | '-' :: digits => (digitsValue digits).map fun n => -(n : Int)
  | '+' :: digits => (digitsValue digits).map Int.ofNat
  | digits => (digitsValue digits).map Int.ofNat

/-- `strconv.Atoi` on a 64-bit platform, `none` for an error. -/
def atoi (s : String) : Option Int :=
  (decimalValue s).filter fun n => -2 ^ 63 ≤ n && n < 2 ^ 63

/-- `strconv.ParseInt(s, 10, 64)` with its error dropped: zero for a text that
is no number, the nearest representable value for one out of range. -/
def parseInt64 (s : String) : Int :=
  match decimalValue s with
  | none => 0
  | some n => max (-2 ^ 63) (min n (2 ^ 63 - 1))

/-- The conversion of a float64 to `int64`, as amd64 performs it. -/
def float64ToInt64 (value : ℚ) : Int :=
  let n := value.num.tdiv value.den
  if -2 ^ 63 ≤ n ∧ n < 2 ^ 63 then n else -2 ^ 63

/-- A map entry as an integer: `fallback` for a negative number or another
kind of value, `max` for anything above it. -/
def boundedInt64 (value : Option Json) (fallback max : Int) : Int :=
  match value with
  | some (.num v _) => clamp (float64ToInt64 v)
  | some (.str s) => clamp (parseInt64 (trimSpace s))
  | _ => fallback
where
  clamp (parsed : Int) : Int :=
    if parsed < 0 then fallback else if max < parsed then max else parsed

/-- `boundedInt64` for a nonnegative fallback, as the counters use it. -/
def boundedInt (value : Option Json) (fallback max : Nat) : Nat :=
  (boundedInt64 value fallback max).toNat

theorem boundedInt_le {value : Option Json} {fallback max : Nat} (h : fallback ≤ max) :
    boundedInt value fallback max ≤ max := by
  have hclamp : ∀ parsed, boundedInt64.clamp fallback max parsed ≤ (max : Int) := by
    intro parsed
    simp only [boundedInt64.clamp]
    split_ifs <;> omega
  simp only [boundedInt, boundedInt64]
  split
  · have := hclamp (float64ToInt64 ‹_›); omega
  · have := hclamp (parseInt64 (trimSpace ‹_›)); omega
  · omega

/-- The first `n` bytes of a text. -/
def takeBytes : List Char → Nat → List Char
  | [], _ => []
  | c :: cs, n =>
      if c.utf8Size ≤ n then c :: takeBytes cs (n - c.utf8Size) else List.replicate n '\ufffd'

def boundedText (value : String) (max : Nat) : String :=
  let value := trimSpace value
  if max < value.utf8ByteSize then String.ofList (takeBytes value.toList max) else value

/-- `fmt.Sprint`; maps are printed in key order. -/
def sprint : Json → String
  | .null => "<nil>"
  | .bool b => if b then "true" else "false"
  | .num _ text => text
  | .str s => s
  | .arr items => "[" ++ " ".intercalate (sprintItems items) ++ "]"
  | .obj fields =>
      let entries := (sprintFields fields).insertionSort fun a b => decide (a.1 ≤ b.1)
      "map[" ++ " ".intercalate (entries.map fun e => e.1 ++ ":" ++ e.2) ++ "]"
where
  sprintItems : List Json → List String
    | [] => []
    | item :: items => sprint item :: sprintItems items
  sprintFields : List (String × Json) → List (String × String)
    | [] => []
    | (key, value) :: fields => (key, sprint value) :: sprintFields fields

/-- Bytes of one character inside a string written by `encoding/json`, which escapes HTML. -/
def jsonCharSize (c : Char) : Nat :=
  if c ∈ ['"', '\\', '\x08', '\x0c', '\n', '\r', '\t'] then 2
  else if c < ' ' ∨ c ∈ ['<', '>', '&', '\u2028', '\u2029'] then 6
  else c.utf8Size

def jsonStringSize (s : String) : Nat := 2 + (s.toList.map jsonCharSize).sum

/-- The length of `json.Marshal`. A list or map pays one byte for each bracket
and one for each comma; each element below carries the comma after it, and the
last one's stands for the closing bracket. -/
def jsonSize : Json → Nat
  | .null => 4
  | .bool b => if b then 4 else 5
  | .num _ text => text.utf8ByteSize
  | .str s => jsonStringSize s
  | .arr items => 1 + max 1 (itemsSize items)
  | .obj fields => 1 + max 1 (fieldsSize fields)
where
  itemsSize : List Json → Nat
    | [] => 0
    | item :: items => jsonSize item + 1 + itemsSize items
  fieldsSize : List (String × Json) → Nat
    | [] => 0
    | (key, value) :: fields =>
        jsonStringSize key + 1 + jsonSize value + 1 + fieldsSize fields

/-- Whether `word` occurs in `s`. -/
def containsWord (s word : String) : Bool :=
  s.toList.tails.any fun rest => word.toList.isPrefixOf rest

/-- Names of credential fields, in any case and with `_` or `-` between the words. -/
def sensitiveTeamField (key : String) : Bool :=
  let normalized :=
    toLower (String.ofList ((trimSpace key).toList.filter fun c => c != '_' && c != '-'))
  ["password", "secret", "apikey", "credential", "privatekey", "authorization"].any
      (containsWord normalized) ||
    "token".toList.isSuffixOf normalized.toList

/-- Redacts credential fields by name, at every depth. -/
def sanitizeTeamValue : Json → Json
  | .obj fields => .obj (sanitizeTeamMap fields)
  | .arr items => .arr (sanitizeItems items)
  | value => value
where
  sanitizeTeamMap : List (String × Json) → List (String × Json)
    | [] => []
    | (key, value) :: fields =>
        (key, if sensitiveTeamField key then .str "******" else sanitizeTeamValue value) ::
          sanitizeTeamMap fields
  sanitizeItems : List Json → List Json
    | [] => []
    | item :: items => sanitizeTeamValue item :: sanitizeItems items

def sanitizeTeamMap (source : Fields) : Fields := sanitizeTeamValue.sanitizeTeamMap source

def teamPayloadLimit : Nat := 128 <<< 10

/-- The copy of a payload that is stored: redacted, and replaced by a marker
when its JSON text is longer than the limit. -/
def boundedPayload : Option Json → Fields
  | none | some .null => []
  | some (.obj fields) =>
      let copy := sanitizeTeamMap fields
      let size := jsonSize (.obj copy)
      if teamPayloadLimit < size then [("truncated", .bool true), ("bytes", .int size)] else copy
  | some value => [("value", .str (boundedText (sprint value) 64000))]

end WorkMesh.AgentTeam
