import WorkMesh.Encoding.Address
import WorkMesh.Encoding.Cookie
import WorkMesh.Encoding.Search
import WorkMesh.Encoding.Sha256

/-!
# Rules of the firewall

A rule as the handlers pass it around, the check of its fields and the arguments
by which each backend is told to add or to delete it.
-/

namespace WorkMesh.Firewall

open Encoding

/-! ## Rules -/

/-- The texts that a rule and its scope hold, empty where one is missing. -/
structure Rule where
  provider : Bytes := []
  family : Bytes := []
  table : Bytes := []
  chain : Bytes := []
  protocol : Bytes := []
  action : Bytes := []
  sourceAddress : Bytes := []
  destinationAddress : Bytes := []
  destinationPort : Bytes := []
  nativeHandle : Bytes := []
  nativeID : Bytes := []
  nativeKind : Bytes := []
  raw : Bytes := []
  uuid : Bytes := []
  description : Bytes := []
deriving DecidableEq

inductive Operation where
  | add
  | delete
deriving DecidableEq

def Operation.flag : Operation → Bytes
  | add => bytes "-A"
  | delete => bytes "-D"

/-- The digest that names a listed line. -/
def firewallRuleUUID (line : Bytes) : Bytes := hexEncode ((sha256 (trimSpace line)).take 16)

/-! ## The check of the fields -/

def isLetterOrDigit (c : UInt8) : Bool := 48 ≤ c && c ≤ 57 || 65 ≤ c && c ≤ 90 || 97 ≤ c && c ≤ 122

/-- Between one and thirty-two letters, digits and marks. -/
def isName (marks : Bytes) (text : Bytes) : Bool :=
  1 ≤ text.length && text.length ≤ 32 && text.all fun c => isLetterOrDigit c || marks.contains c

/-- Between one and five digits. -/
def isPort (text : Bytes) : Bool :=
  1 ≤ text.length && text.length ≤ 5 && text.all fun c => 48 ≤ c && c ≤ 57

/-- A port, or two of them with a mark between. -/
def isPortRange (marks : Bytes) (text : Bytes) : Bool :=
  let first := text.takeWhile fun c => ¬ marks.contains c
  isPort first && (first.length = text.length || isPort (text.drop (first.length + 1)))

/-- `firewallPortPattern`. -/
def firewallPortPattern (text : Bytes) : Bool :=
  (text.splitOn 44).all (isPortRange (bytes ":-"))

/-- `firewallChainPattern`. -/
def firewallChains : List Bytes :=
  [bytes "WORKMESH_BASIC", bytes "WORKMESH_BASIC_BEFORE", bytes "WORKMESH_BASIC_AFTER",
    bytes "WORKMESH_DOCKER"]

/-- The texts by which an address says nothing. -/
def anyAddress (address : Bytes) : Bool :=
  address = [] || address = bytes "0.0.0.0/0" || address = bytes "::/0"

def anyPort (port : Bytes) : Bool := port = [] || port = bytes "*"

namespace Rule

variable (rule : Rule)

def protocolName : Bytes :=
  let protocol := toLower (trimSpace rule.protocol)
  if protocol = [] then bytes "all" else protocol

/-- The action in the letters of the checks. -/
def actionName : Bytes := toLower (trimSpace rule.action)

def source : Bytes := trimSpace rule.sourceAddress

def destination : Bytes := trimSpace rule.destinationAddress

def port : Bytes := trimSpace rule.destinationPort

end Rule

def invalidAddress (address : Bytes) : Bool :=
  ¬ anyAddress address ∧ ¬ isNetwork address ∧ ¬ isAddress address

/-- The text of the error, `none` for a rule in order. -/
def validateFirewallRule (rule : Rule) : Option Bytes :=
  let chain := trimSpace rule.chain
  let known := [bytes "nftables", bytes "firewalld", bytes "ufw"]
  if rule.provider = bytes "nftables" ∧ ¬ isName (bytes "_.-") chain then
    some (bytes "nftables chain 无效: " ++ rule.chain)
  else if rule.provider = bytes "firewalld" ∧ ¬ isName (bytes "_-") chain then
    some (bytes "firewalld zone 无效: " ++ rule.chain)
  else if rule.provider = bytes "ufw" ∧ chain ≠ [] ∧ chain ≠ bytes "INPUT" then
    some (bytes "ufw 链无效: " ++ rule.chain)
  else if rule.provider ∉ known ∧ chain ∉ firewallChains then
    some (bytes "防火墙链无效: " ++ rule.chain)
  else if rule.protocolName ∉
      [bytes "all", bytes "tcp", bytes "udp", bytes "icmp", bytes "icmpv6"] then
    some (bytes "防火墙协议无效: " ++ rule.protocolName)
  else if rule.actionName ∉ [bytes "accept", bytes "drop", bytes "reject"] then
    some (bytes "防火墙动作无效: " ++ rule.actionName)
  else
    match [rule.source, rule.destination].find? invalidAddress with
    | some address => some (bytes "防火墙地址无效: " ++ address)
    | none =>
        if ¬ anyPort rule.port ∧ ¬ firewallPortPattern rule.port then
          some (bytes "防火墙端口无效: " ++ rule.port)
        else none

/-! ## Arguments -/

/-- `strings.ToUpper` of an action that has passed the check. -/
def upperAction (action : Bytes) : Bytes :=
  action.map fun c => if 97 ≤ c ∧ c ≤ 122 then c - 32 else c

/-- An argument with its value, left out where the value says nothing. -/
def stated (nothing : Bytes → Bool) (flags : List Bytes) (value : Bytes) : List Bytes :=
  if nothing value then [] else flags ++ [value]

section Backends
variable (rule : Rule)

/-- The family of an nftables table. -/
def nftFamily : Bytes :=
  if rule.family = bytes "ipv4" then bytes "ip"
  else if rule.family = bytes "ipv6" then bytes "ip6"
  else bytes "inet"

def nftTable : Bytes := if rule.table = [] then bytes "workmesh" else rule.table

def nftAddressFamily : Bytes :=
  if nftFamily rule = bytes "ip6" ∨ 58 ∈ rule.source ∨ 58 ∈ rule.destination ∨
      rule.protocolName = bytes "icmpv6" then bytes "ip6"
  else bytes "ip"

def nftArgs (operation : Operation) : List Bytes :=
  let place := [nftFamily rule, nftTable rule, rule.chain]
  let handle := trimSpace rule.nativeHandle
  if operation = .delete ∧ handle ≠ [] then
    [bytes "delete", bytes "rule"] ++ place ++ [bytes "handle", handle]
  else
    [if operation = .delete then bytes "delete" else bytes "add", bytes "rule"] ++ place ++
      stated anyAddress [nftAddressFamily rule, bytes "saddr"] rule.source ++
      stated anyAddress [nftAddressFamily rule, bytes "daddr"] rule.destination ++
      (if rule.protocolName = bytes "all" then [] else [rule.protocolName]) ++
      stated anyPort [bytes "dport"] rule.port ++ [rule.actionName]

def firewalldZone : Bytes := if rule.chain = [] then bytes "public" else rule.chain

/-- The rule in the words of a rich rule. -/
def richRule : Bytes :=
  let family :=
    if rule.family = [] ∨ rule.family = bytes "inet" then bytes "ipv4" else rule.family
  bytes "rule family=\"" ++ family ++ bytes "\"" ++
    (if anyAddress rule.source then []
      else bytes " source address=\"" ++ rule.source ++ bytes "\"") ++
    (if rule.protocolName = bytes "all" then []
      else bytes " port port=\"" ++ rule.port ++ bytes "\" protocol=\"" ++ rule.protocolName ++
        bytes "\"") ++
    bytes " " ++ rule.actionName

/-- A rule that is deleted is named as it was listed. -/
def firewalldArgs (operation : Operation) : Except Bytes (List Bytes) :=
  if rule.protocolName = bytes "all" ∧ ¬ anyPort rule.port then
    .error (bytes "firewalld 目标端口规则必须指定 tcp 或 udp")
  else
    let zone := bytes "--zone=" ++ firewalldZone rule
    match operation with
    | .add => .ok [zone, bytes "--add-rich-rule", richRule rule]
    | .delete =>
        let raw := trimSpace rule.raw
        .ok [zone, bytes "--remove-rich-rule", if raw = [] then richRule rule else raw]

def ufwVerb : Bytes :=
  if rule.actionName = bytes "drop" then bytes "deny"
  else if rule.actionName = bytes "reject" then bytes "reject"
  else bytes "allow"

/-- A rule that is deleted is named by its number. -/
def ufwArgs (operation : Operation) : List Bytes :=
  let nativeID := trimSpace rule.nativeID
  let args := [ufwVerb rule] ++ stated anyAddress [bytes "from"] rule.source ++
    stated anyPort [bytes "to", bytes "any", bytes "port"] rule.port ++
    (if rule.protocolName = bytes "all" then [] else [bytes "proto", rule.protocolName])
  match operation with
  | .add => args
  | .delete =>
      if (parseDigits nativeID).isSome then [bytes "delete", nativeID]
      else bytes "delete" :: args

/-- The matches of a rule behind its chain. -/
def iptablesMatches : List Bytes :=
  (if rule.protocolName = bytes "all" then [] else [bytes "-p", rule.protocolName]) ++
    stated anyAddress [bytes "-s"] rule.source ++ stated anyAddress [bytes "-d"] rule.destination ++
    stated anyPort [bytes "--dport"] rule.port ++
    [bytes "-j", upperAction rule.actionName]

def iptablesArgs (operation : Operation) : Except Bytes (List Bytes) :=
  if ¬ anyPort rule.port ∧ rule.protocolName ≠ bytes "tcp" ∧ rule.protocolName ≠ bytes "udp" then
    .error (bytes "仅 tcp/udp 规则支持目标端口")
  else .ok ([operation.flag, rule.chain] ++ iptablesMatches rule)

/-- The arguments and the chain they are for. -/
def firewallRuleArgs (operation : Operation) : Except Bytes (List Bytes × Bytes) :=
  match validateFirewallRule rule with
  | some error => .error error
  | none =>
      if rule.provider = bytes "nftables" then .ok (nftArgs rule operation, rule.chain)
      else if rule.provider = bytes "firewalld" then
        (firewalldArgs rule operation).map fun args => (args, firewalldZone rule)
      else if rule.provider = bytes "ufw" then .ok (ufwArgs rule operation, bytes "INPUT")
      else (iptablesArgs rule operation).map fun args => (args, rule.chain)

def firewallProviderCommand : Except Bytes Bytes :=
  if rule.provider = bytes "nftables" then .ok (bytes "nft")
  else if rule.provider = bytes "firewalld" then .ok (bytes "firewall-cmd")
  else if rule.provider = bytes "ufw" then .ok (bytes "ufw")
  else if rule.provider = bytes "iptables" then
    .ok (if rule.family = bytes "ipv6" then bytes "ip6tables" else bytes "iptables")
  else .error (bytes "防火墙后端 \"" ++ rule.provider ++ bytes "\" 暂不支持写入")

/-- The command by which a rule is added or deleted, or why there is none. -/
def firewallCommand (operation : Operation) : Except Bytes (Bytes × List Bytes) :=
  match firewallRuleArgs rule operation, firewallProviderCommand rule with
  | .error error, _ => .error error
  | .ok _, .error error => .error error
  | .ok (args, _), .ok command => .ok (command, args)

end Backends

/-- The key by which rules are compared, empty for a rule that cannot be added; `none` where the
function panics. -/
def firewallRuleKey (rule : Rule) : Option Bytes :=
  match firewallRuleArgs rule .add with
  | .error _ => some []
  | .ok (args, chain) =>
      if args.length < 2 then none else some ([32].intercalate (chain :: args.drop 2))

end WorkMesh.Firewall
