import WorkMesh.Encoding.Address
import WorkMesh.Encoding.Cookie
import WorkMesh.Encoding.Path
import WorkMesh.Encoding.Search

/-!
# The data of the runtime service

Decoded JSON values and the readers of the handlers, the record of a runtime,
and what the service takes from its host: where its directories are and how
texts compare. A map is the list of its entries and is read by the first entry
of a key.
-/

namespace WorkMesh.Runtime

open Encoding

/-! ## Values -/

/-- A value of type `any`. A number is given by its exact value and by the text that Go prints
for it. -/
inductive Value where
  | null
  | bool (b : Bool)
  | num (value : ℚ) (shown : Bytes)
  | text (s : Bytes)
  | list (items : List Value)
  | object (fields : List (Bytes × Value))

/-- A `map[string]any`. -/
abbrev Fields := List (Bytes × Value)

/-- An integer stored in a map. -/
def Value.int (n : ℤ) : Value := .num n (formatInt n)

/-- `m[key] = value`. -/
def Fields.put (m : Fields) (key : Bytes) (value : Value) : Fields :=
  (key, value) :: m.filter fun e => e.1 ≠ key

/-- The conversion of a float64 to `int`, as amd64 performs it. -/
def toInt (value : ℚ) : ℤ :=
  let n := value.num.tdiv value.den
  if -2 ^ 63 ≤ n ∧ n < 2 ^ 63 then n else -2 ^ 63

/-- `fmt.Sprint`; a map is printed in the order of its keys. -/
def sprint : Value → Bytes
  | .null => bytes "<nil>"
  | .bool b => if b then bytes "true" else bytes "false"
  | .num _ shown => shown
  | .text s => s
  | .list items => 91 :: [32].intercalate (sprintItems items) ++ [93]
  | .object fields =>
      let entries := (sprintFields fields).insertionSort fun a b => decide (a.1 ≤ b.1)
      bytes "map[" ++ [32].intercalate (entries.map fun e => e.1 ++ 58 :: e.2) ++ [93]
where
  sprintItems : List Value → List Bytes
    | [] => []
    | item :: items => sprint item :: sprintItems items
  sprintFields : Fields → List (Bytes × Bytes)
    | [] => []
    | (key, value) :: fields => (key, sprint value) :: sprintFields fields

/-- The first of the keys that holds a text or a whole number. -/
def runtimeString (m : Fields) : List Bytes → Bytes
  | [] => []
  | key :: keys =>
      match m.lookup key with
      | some (.text s) => if trimSpace s ≠ [] then trimSpace s else runtimeString m keys
      | some (.num n _) => if n = toInt n then formatInt (toInt n) else runtimeString m keys
      | _ => runtimeString m keys

/-- `strconv.Atoi`: zero for a text that is no number, the nearest number for one out of
range, and whether there was no error. -/
def atoi (text : Bytes) : ℤ × Bool :=
  match parseInt text with
  | some n => (n, true)
  | none =>
      match text with
      | c :: digits =>
          if (parseDigits digits).isSome ∧ c = 45 then (-2 ^ 63, false)
          else if (parseDigits (if c = 43 then digits else text)).isSome then (2 ^ 63 - 1, false)
          else (0, false)
      | [] => (0, false)

/-- A number and whether the value is one that fits. -/
def runtimeNumberValue : Option Value → ℤ × Bool
  | some (.num value _) => (toInt value, value = toInt value)
  | some (.text s) => atoi (trimSpace s)
  | _ => (0, false)

def Value.fields : Value → Fields
  | .object fields => fields
  | _ => []

def Value.isObject : Value → Bool
  | .object _ => true
  | _ => false

def runtimeMapValue (raw : Value) (key : Bytes) : Option Value := raw.fields.lookup key

structure RuntimeRecord where
  id : Bytes := []
  name : Bytes := []
  type : Bytes := []
  mode : Bytes := []
  version : Bytes := []
  codeDir : Bytes := []
  workDir : Bytes := []
  status : Bytes := []
  remark : Bytes := []
  resource : Bytes := []
  source : Bytes := []
  downloadURL : Bytes := []
  packageModified : ℤ := 0
  image : Bytes := []
  dockerCompose : Bytes := []
  params : Fields := []
  env : Bytes := []
  appDetailID : Bytes := []
  appID : Bytes := []
  port : ℤ := 0
  container : Bytes := []
  exposedPorts : List Value := []
  environments : List Value := []
  volumes : List Value := []
  extraHosts : List Value := []
  taskID : Bytes := []
  taskStatus : Bytes := []
  message : Bytes := []
  error : Bytes := []
  installPath : Bytes := []
  composePath : Bytes := []
  extensions : List Bytes := []
  createdAt : ℤ := 0
  updatedAt : ℤ := 0

/-! ## The host -/

/-- What the service runs on: its data directory as the environment names it, its working
directory, and the folding of letters by which `strings.EqualFold` compares. -/
structure Host where
  dataDir : Bytes := []
  workDir : Bytes := [47]
  fold : Bytes → Bytes
  rooted : isRooted workDir = true := by decide

/-- Letters are folded as those of ASCII are. -/
def foldingHost : Host := { fold := foldCase }

namespace Host

variable (host : Host)

def equalFold (s t : Bytes) : Bool := host.fold s = host.fold t

def root : Bytes :=
  let dir := trimSpace host.dataDir
  if dir = [] then bytes "./data" else dir

/-- `filepath.Abs`. -/
def abs (path : Bytes) : Bytes :=
  if isRooted path then cleanPath path else joinPath host.workDir path

end Host

/-! ## Kinds and modes -/

def normalizeRuntimeTypeFilter (value : Bytes) : Bytes :=
  let value := toLower (trimSpace value)
  if value ∈ [bytes ".net", bytes "dot-net", bytes "dotnet"] then bytes "dotnet"
  else if value ∈ [bytes "nodejs", bytes "node.js"] then bytes "node"
  else value

def runtimeTypes : List Bytes :=
  [bytes "php", bytes "go", bytes "java", bytes "node", bytes "python", bytes "dotnet"]

/-- Any text that does not name the host mode is the Docker mode. -/
def normalizeRuntimeMode (value : Bytes) : Bytes :=
  if toLower (trimSpace value) ∈ [bytes "host", bytes "native", bytes "local", bytes "supervisor"]
  then bytes "host" else bytes "docker"

namespace RuntimeRecord

variable (item : RuntimeRecord)

def isPHP : Bool := normalizeRuntimeTypeFilter item.type = bytes "php"

def isNode : Bool := normalizeRuntimeTypeFilter item.type = bytes "node"

def hostRuntime : Bool := normalizeRuntimeMode item.mode = bytes "host"

end RuntimeRecord

/-! ## Paths -/

/-- `filepath.Join`, which leaves empty elements out. -/
def join (elems : List Bytes) : Bytes :=
  let named := elems.filter (· ≠ [])
  if named = [] then [] else cleanPath ([47].intercalate named)

def runtimeCanonicalInstallPath (host : Host) (item : RuntimeRecord) : Bytes :=
  let type := normalizeRuntimeTypeFilter item.type
  if item.name = [] ∨ type ∉ runtimeTypes then []
  else join [host.root, bytes "runtimes", type, item.name]

/-- The container of a record, from its parameters where it names none. -/
def RuntimeRecord.containerName (item : RuntimeRecord) : Bytes :=
  if item.container = [] then
    runtimeString item.params [bytes "CONTAINER_NAME", bytes "containerName"]
  else item.container

/-- The container, the directory and the Compose file of a record that lacks them. -/
def hydrateRuntimePaths (host : Host) (item : RuntimeRecord) : RuntimeRecord :=
  let path := runtimeCanonicalInstallPath host item
  let installPath :=
    if path = [] ∨ trimSpace item.installPath ≠ [] then item.installPath else path
  { item with
    container := item.containerName
    installPath := installPath
    composePath :=
      if path = [] then item.composePath
      else if item.hostRuntime then []
      else if trimSpace item.composePath = [] then join [installPath, bytes "docker-compose.yml"]
      else item.composePath }

end WorkMesh.Runtime
