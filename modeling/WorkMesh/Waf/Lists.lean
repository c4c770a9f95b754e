import WorkMesh.Encoding.Text

/-!
# Addresses and access lists

The access phase compares the address of a client with addresses and networks,
and texts of a request with parts of them. Strings are those of Lua, that is,
lists of bytes, and patterns are read by hand.
-/

namespace WorkMesh.Waf

open Encoding

/-! ## Strings -/

/-- `%s`. -/
def isSpace (c : UInt8) : Bool := c = 32 || (9 ≤ c && c ≤ 13)

/-- `trim`. -/
def trim (value : Bytes) : Bytes := (value.dropWhile isSpace).rdropWhile isSpace

/-- `string.lower`. -/
def lower (value : Bytes) : Bytes :=
  value.map fun c => if 65 ≤ c && c ≤ 90 then c + 32 else c

/-- `string.find` with a plain text. -/
def contains (value part : Bytes) : Bool := decide (part <:+: value)

/-- The parts around the first two colons. -/
def aroundColons : Bytes → Option (Bytes × Bytes)
  | [] => none
  | c :: rest =>
      if c = 58 ∧ rest.head? = some 58 then some ([], rest.tail)
      else (aroundColons rest).map fun parts => (c :: parts.1, parts.2)

/-- `split_colons`. -/
def splitColons (value : Bytes) : List Bytes := (value.splitOn 58).filter (· ≠ [])

/-- `^(.+)/(%d+)$`. -/
def prefixLength (value : Bytes) : Option (Bytes × ℕ) :=
  let digits := value.rtakeWhile (· ≠ 47)
  let network := value.take (value.length - digits.length - 1)
  if digits.length < value.length ∧ network ≠ [] then
    (parseDigits digits).map fun bits => (network, bits)
  else none

/-! ## Networks -/

/-- `^(%d+)%.(%d+)%.(%d+)%.(%d+)$`. -/
def octets (value : Bytes) : Option (List ℕ) :=
  ((value.splitOn 46).mapM parseDigits).filter (·.length = 4)

/-- `^(%d+)%.(%d+)%.(%d+)%.(%d+)/(%d+)$`. -/
def network4 (value : Bytes) : Option (List ℕ × ℕ) :=
  match value.splitOn 47 with
  | [address, bits] =>
      match octets address, parseDigits bits with
      | some parts, some bits => some (parts, bits)
      | _, _ => none
  | _ => none

def hexPart (item : Bytes) : Option ℕ :=
  if 1 ≤ item.length ∧ item.length ≤ 4 then
    (item.mapM fromHexChar).map fun digits => digits.foldl (fun n d => 16 * n + d) 0
  else none

/-- `normalize_ipv6`, as the list of the hexadecimal digits. -/
def normalizeIPv6 (value : Bytes) : Option (List ℕ) :=
  let value := lower (trim value)
  if value = [] ∨ 58 ∉ value then none
  else
  let parts :=
    match aroundColons value with
    | some (left, right) =>
        let left := splitColons left
        let right := splitColons right
        if left.length + right.length ≥ 8 then none
        else some (left ++ List.replicate (8 - left.length - right.length) (bytes "0") ++ right)
    | none => some (splitColons value)
  match parts with
  | none => none
  | some parts =>
      if parts.length ≠ 8 then none
      else
      (parts.mapM hexPart).map fun values =>
        values.flatMap fun n => [n / 4096, n / 256 % 16, n / 16 % 16, n % 16]

def joinOctets (parts : List ℕ) : ℕ := parts.foldl (fun n part => 256 * n + part) 0

/-- The first `bits` bits agree. -/
def sameNetwork6 (ip network : List ℕ) (bits : ℕ) : Bool :=
  let full := bits / 4
  if ip.take full ≠ network.take full then false
  else if bits % 4 = 0 then true
  else
  let block := 2 ^ (4 - bits % 4)
  (ip[full]?).map (· / block) = (network[full]?).map (· / block)

def cidrMatch (ip cidr : Bytes) : Bool :=
  let ip := trim ip
  let cidr := trim cidr
  match octets ip, network4 cidr with
  | some address, some (network, bits) =>
      if (address ++ network).any (255 < ·) ∨ 32 < bits then false
      else
      let block := 2 ^ (32 - bits)
      joinOctets address / block = joinOctets network / block
  | _, _ =>
      let ip := ((prefixLength ip).map Prod.fst).getD ip
      match prefixLength cidr with
      | none => false
      | some (network, bits) =>
          -- The text `%.` is looked for as it stands.
          if contains ip (bytes "%.") ∨ contains network (bytes "%.") ∨ 128 < bits then false
          else
          match normalizeIPv6 ip, normalizeIPv6 network with
          | some ip, some network => sameNetwork6 ip network bits
          | _, _ => false

example : cidrMatch (bytes "10.1.2.3") (bytes "10.1.0.0/16") = true := by decide +kernel

/-! ## Lists -/

structure IPGroup where
  name : Bytes
  entries : List Bytes
  enabled : Option Bool

/-- `access-lists.json`. -/
structure AccessLists where
  whitelist : List Bytes := []
  blacklist : List Bytes := []
  urlWhitelist : List Bytes := []
  urlBlacklist : List Bytes := []
  uaWhitelist : List Bytes := []
  uaBlacklist : List Bytes := []
  enabled : List (String × Bool) := []
  listMeta : List (Bytes × Option Bool) := []
  ipGroups : List IPGroup := []

namespace AccessLists

variable (lists : AccessLists)

def listEnabled (category : String) : Bool := lists.enabled.lookup category ≠ some false

def listItemEnabled (category : String) (item : Bytes) : Bool :=
  lists.listMeta.lookup (bytes category ++ 58 :: item) ≠ some (some false)

def inList (clientIP : Bytes) (items : List Bytes) (category : String) : Bool :=
  items.any fun item =>
    let item := trim item
    lists.listItemEnabled category item && (decide (item = clientIP) || cidrMatch clientIP item)

def textInList (value : Bytes) (items : List Bytes) (category : String) : Bool :=
  items.any fun item => lists.listItemEnabled category item &&
    (decide (value = item) || contains (lower value) (lower item))

/-- The entries of the last group of a name. -/
def ipGroup (name : Bytes) : Option (List Bytes) :=
  let found := lists.ipGroups.reverse.find? fun group => group.enabled ≠ some false ∧
    trim group.name ≠ [] ∧ lower (trim group.name) = lower (trim name)
  found.map (·.entries)

def ipGroupMatch (clientIP name : Bytes) : Bool :=
  match lists.ipGroup name with
  | none => false
  | some entries => lists.inList clientIP entries ""

end AccessLists

end WorkMesh.Waf
