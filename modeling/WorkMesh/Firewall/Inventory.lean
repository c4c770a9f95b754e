import WorkMesh.Firewall.Rules
import WorkMesh.Runtime.Types

/-!
# The rules that the backends list

The line or the record that a backend prints for one of its rules is read into a
rule. What is not read into a field of the rule is kept in the line only.
-/

namespace WorkMesh.Firewall

open Encoding WorkMesh.Runtime

/-! ## iptables -/

/-- The two commands, one for each family. -/
inductive Family where
  | ipv4
  | ipv6
deriving DecidableEq

def Family.name : Family → Bytes
  | ipv4 => bytes "ipv4"
  | ipv6 => bytes "ipv6"

/-- The words of a line behind its chain. A word that is no flag is passed over. -/
def iptablesWords : List Bytes → Rule → Rule
  | flag :: value :: rest, rule =>
      if flag = bytes "-p" then iptablesWords rest { rule with protocol := value }
      else if flag = bytes "-s" then iptablesWords rest { rule with sourceAddress := value }
      else if flag = bytes "-d" then iptablesWords rest { rule with destinationAddress := value }
      else if flag = bytes "--dport" ∨ flag = bytes "--destination-port" then
        iptablesWords rest { rule with destinationPort := value }
      else if flag = bytes "-j" then
        let jump := toLower value
        iptablesWords rest
          (if jump ∈ [bytes "accept", bytes "drop", bytes "reject"] then { rule with action := jump }
            else rule)
      else iptablesWords (value :: rest) rule
  | _, rule => rule

/-- A line of `-S`, where a chain may be asked for. -/
def iptablesItem (family : Family) (requestedChain line : Bytes) : Option Rule :=
  let line := trimSpace line
  if ¬ (bytes "-A ").isPrefixOf line then none
  else
    match words line with
    | _ :: chain :: third :: rest =>
        if trimSpace requestedChain ≠ [] ∧ chain ≠ requestedChain then none
        else
          let rule : Rule :=
            { provider := bytes "iptables", family := family.name, table := bytes "filter", chain,
              protocol := bytes "all", action := bytes "accept", description := line }
          some { iptablesWords (third :: rest) rule with
            uuid := hexEncode ((sha256 line).take 16) }
    | _ => none

/-! ## nftables -/

/-- A rule of the ruleset, with the text that it has in the document. -/
structure NftRecord where
  family : Bytes
  table : Bytes
  chain : Bytes
  handle : ℕ
  comment : Bytes
  expr : List Value
  raw : Bytes

/-- The scope of a listing, empty where nothing is asked for. -/
structure NftScope where
  family : Bytes := []
  table : Bytes := []
  chain : Bytes := []

def textField (m : Fields) (key : Bytes) : Bytes :=
  match m.lookup key with
  | some (.text s) => s
  | _ => []

def objectField (m : Fields) (key : Bytes) : Fields := ((m.lookup key).map Value.fields).getD []

/-- A match of a field of the packet. Ports are read with their protocol. -/
def nftMatch (m : Fields) (rule : Rule) : Rule :=
  let payload := objectField (objectField m (bytes "left")) (bytes "payload")
  let protocol := textField payload (bytes "protocol")
  let field := textField payload (bytes "field")
  let right := sprint ((m.lookup (bytes "right")).getD .null)
  let carried := protocol = bytes "tcp" ∨ protocol = bytes "udp"
  if field = bytes "dport" ∧ carried then
    { rule with protocol, destinationPort := right, nativeKind := bytes "rule" }
  else if field = bytes "sport" ∧ carried then { rule with protocol, nativeKind := bytes "rule" }
  else if field = bytes "saddr" then
    { rule with sourceAddress := right, nativeKind := bytes "rule" }
  else if field = bytes "daddr" then
    { rule with destinationAddress := right, nativeKind := bytes "rule" }
  else rule

def nftAction (object : Fields) (rule : Rule) (action : Bytes) : Rule :=
  if (object.lookup action).isSome then { rule with action } else rule

/-- `parseNftExpressions`. Other expressions leave no trace in the rule. -/
def parseNftExpressions (expressions : List Value) (rule : Rule) : Rule :=
  expressions.foldl
    (fun rule expression =>
      match expression with
      | .object object =>
          let rule :=
            match object.lookup (bytes "match") with
            | some (.object m) => nftMatch m rule
            | _ => rule
          [bytes "accept", bytes "drop", bytes "reject"].foldl (nftAction object) rule
      | _ => rule)
    rule

/-- Any family but two is taken for `inet`. -/
def nftFamilyName (native : Bytes) : Bytes :=
  if native = bytes "ip" then bytes "ipv4"
  else if native = bytes "ip6" then bytes "ipv6"
  else bytes "inet"

def nftItem (wanted : NftScope) (record : NftRecord) : Option Rule :=
  let family := nftFamilyName record.family
  if wanted.family ≠ [] ∧ wanted.family ≠ family ∧
      ¬ (wanted.family = bytes "inet" ∧ (family = bytes "ipv4" ∨ family = bytes "ipv6")) then none
  else if wanted.table ≠ [] ∧ wanted.table ≠ record.table ∨
      wanted.chain ≠ [] ∧ wanted.chain ≠ record.chain then none
  else
    let rule := parseNftExpressions record.expr
      { provider := bytes "nftables", family, table := record.table, chain := record.chain,
        protocol := bytes "all", action := bytes "accept", nativeKind := bytes "opaque",
        description := record.comment, nativeHandle := formatUint record.handle,
        raw := record.raw }
    some { rule with
      nativeKind := if rule.action = bytes "accept" then rule.nativeKind else bytes "rule"
      uuid := firewallRuleUUID record.raw }

/-! ## firewalld -/

/-- The white space of regular expressions. -/
def isBlank (c : UInt8) : Bool := c = 9 || c = 10 || c = 12 || c = 13 || c = 32

def isLetter (c : UInt8) : Bool := 65 ≤ c && c ≤ 90 || 97 ≤ c && c ≤ 122

/-- A text between quotation marks that a text starts with. -/
def quoted (text : Bytes) : Option Bytes :=
  match text with
  | 34 :: rest =>
      let value := rest.takeWhile (· ≠ 34)
      if value.length < rest.length then some value else none
  | _ => none

/-- An attribute that a text starts with. -/
def attr (text : Bytes) : Option (Bytes × Bytes) :=
  let key := text.takeWhile isLetter
  match text.drop key.length with
  | 61 :: rest => if key = [] then none else (quoted rest).map (key, ·)
  | _ => none

/-- `firewalldAttrPattern`, all its matches. The number counts the bytes of the last match that
are still to be passed over. -/
def attrs : ℕ → Bytes → List (Bytes × Bytes)
  | _, [] => []
  | skip + 1, _ :: text => attrs skip text
  | 0, c :: text =>
      match attr (c :: text) with
      | some (key, value) => (key, value) :: attrs (key.length + value.length + 2) text
      | none => attrs 0 text

/-- The last value of an attribute, whose name is read without regard to case. -/
def attrOf (line key : Bytes) : Bytes :=
  (((attrs 0 line).map fun e => (toLower e.1, e.2)).reverse.lookup key).getD []

/-- The address behind a word that stands on its own; the byte before is given. -/
def addressOf (word : Bytes) : UInt8 → Bytes → Option Bytes
  | _, [] => none
  | before, c :: text =>
      let behind := (c :: text).drop word.length
      let inner := behind.dropWhile isBlank
      let mark := bytes "address="
      let value := (quoted (inner.drop mark.length)).getD []
      if word.isPrefixOf (c :: text) ∧ ¬ (isLetterOrDigit before ∨ before = 95) ∧
          inner.length < behind.length ∧ mark.isPrefixOf inner ∧ value ≠ [] then some value
      else addressOf word c text

/-- The last of the actions that the line has. -/
def richAction (line : Bytes) : Bytes :=
  [bytes "accept", bytes "drop", bytes "reject"].foldl
    (fun action candidate =>
      if containsText line (32 :: candidate) ∨ candidate.isSuffixOf line then candidate else action)
    (bytes "accept")

def parseFirewalldRichRule (line zone : Bytes) : Rule :=
  let family := if attrOf line (bytes "family") = bytes "ipv6" then bytes "ipv6" else bytes "ipv4"
  let protocol := attrOf line (bytes "protocol")
  let carried : Bool := protocol = bytes "tcp" || protocol = bytes "udp"
  let kinds := [bytes " service ", bytes " log ", bytes " masquerade "]
  { provider := bytes "firewalld", family, chain := zone
    protocol := if carried then protocol else bytes "all"
    action := richAction line
    sourceAddress := (addressOf (bytes "source") 32 line).getD []
    destinationAddress := (addressOf (bytes "destination") 32 line).getD []
    destinationPort := if carried then attrOf line (bytes "port") else []
    nativeKind := if kinds.any (containsText line) then bytes "opaque" else bytes "rich_rule"
    raw := line, description := line, uuid := firewallRuleUUID line }

/-- A line of the rich rules of a zone. -/
def firewalldItem (zone line : Bytes) : Option Rule :=
  let line := trimSpace line
  if isName (bytes "_-") zone ∧ line ≠ [] then some (parseFirewalldRichRule line zone) else none

/-! ## ufw -/

/-- The action that stands behind blanks, and the source behind it. -/
def ufwAction (text : Bytes) : Option (Bytes × Bytes) :=
  let rest := text.dropWhile isBlank
  match [bytes "ALLOW", bytes "DENY", bytes "REJECT"].find? (·.isPrefixOf rest) with
  | none => none
  | some name =>
      let behind := rest.drop name.length
      let source := behind.dropWhile isBlank
      if rest.length = text.length ∨ source.length = behind.length then none
      else
        let source :=
          if (bytes "IN").isPrefixOf source then source.drop 2
          else if (bytes "OUT").isPrefixOf source then source.drop 3
          else source
        some (name, source.dropWhile isBlank)

/-- The shortest destination that an action stands behind. -/
def ufwSplit (text : Bytes) : Option (Bytes × Bytes × Bytes) :=
  (List.range text.length).findSome? fun i =>
    (ufwAction (text.drop (i + 1))).map fun found => (text.take (i + 1), found)

/-- The number of a line and what stands behind its bracket. -/
def ufwNumber (line : Bytes) : Option (Bytes × Bytes) :=
  match line with
  | 91 :: rest =>
      let rest := rest.dropWhile isBlank
      let number := rest.takeWhile fun c => 48 ≤ c && c ≤ 57
      match rest.drop number.length with
      | 93 :: behind => if number = [] then none else some (number, behind)
      | _ => none
  | _ => none

/-- `ufwRulePattern`: the number, the destination, the action and the source. As much of the
blanks behind the bracket as possible is passed over. -/
def ufwRulePattern (line : Bytes) : Option (Bytes × Bytes × Bytes × Bytes) :=
  match ufwNumber line with
  | none => none
  | some (number, behind) =>
      ((List.range (behind.takeWhile isBlank).length).reverse.findSome? fun i =>
        ufwSplit (behind.drop (i + 1))).map (number, ·)

/-- `ufwPortPattern`: the port and the protocol. -/
def ufwPortPattern (destination : Bytes) : Option (Bytes × Bytes) :=
  let port := destination.takeWhile fun c => c ≠ 47 ∧ ¬ isBlank c
  let ending (rest : Bytes) : Bool :=
    rest = [] || rest.dropWhile isBlank = bytes "(v6)" && rest ≠ bytes "(v6)"
  match destination.drop port.length with
  | 47 :: rest =>
      if port = [] then none
      else
        ([bytes "tcp", bytes "udp"].find? fun protocol =>
          protocol.isPrefixOf rest && ending (rest.drop 3)).map (port, ·)
  | _ => none

/-- A line of the numbered status. -/
def ufwItem (line : Bytes) : Option Rule :=
  let line := trimSpace line
  match ufwRulePattern line with
  | none => none
  | some (number, destination, name, source) =>
      let destination := trimSpace destination
      let source := trimSpace source
      let found := ufwPortPattern destination
      let isSix := [source, destination].any fun text =>
        text.contains 58 || containsText text (bytes "(v6)")
      let anywhere := [[], bytes "Anywhere", bytes "Anywhere (v6)"]
      some
        { provider := bytes "ufw", family := if isSix then bytes "ipv6" else bytes "ipv4"
          chain := bytes "INPUT"
          protocol := (found.map Prod.snd).getD (bytes "all")
          action :=
            if name = bytes "ALLOW" then bytes "accept"
            else if name = bytes "DENY" then bytes "drop"
            else bytes "reject"
          destinationPort := (found.map Prod.fst).getD []
          sourceAddress := if source ∈ anywhere then [] else (words source).headD []
          nativeKind := bytes "ufw_rule", nativeID := number
          description := line, uuid := firewallRuleUUID line }

end WorkMesh.Firewall
