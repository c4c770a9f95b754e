import WorkMesh.Firewall.Deletion
import WorkMesh.Firewall.Keys

/-!
# Syncing the rules of two backends

The managed rules of one backend are rewritten for another and added to it,
unless the plan takes them for rules that the target has.
-/

namespace WorkMesh.Firewall

open Encoding StateMachine

/-! ## The request -/

structure SyncRequest where
  subsystem : Bytes := bytes "system"
  sourceProvider : Bytes
  targetProvider : Bytes
  resetSource : Bool := false

/-- The normal form of the texts of a request. -/
def decodeFirewallSyncRequest (r : SyncRequest) : SyncRequest :=
  let subsystem := toLower (trimSpace r.subsystem)
  let target := toLower (trimSpace r.targetProvider)
  { r with
    subsystem := if subsystem = [] then bytes "system" else subsystem
    sourceProvider := toLower (trimSpace r.sourceProvider)
    targetProvider := if target = [] then bytes "iptables" else target }

/-- The status and the text of a refusal. -/
def validateFirewallSyncRequest (r : SyncRequest) : Option (ℕ × Bytes) :=
  let backends := [bytes "iptables", bytes "nftables"]
  if r.subsystem ∉ [bytes "system", bytes "docker"] then
    some (503, bytes "当前仅支持 system 与 docker 防火墙规则同步")
  else if r.targetProvider ∉ backends then
    some (503, bytes "当前仅支持 iptables 与 nftables 之间同步")
  else if r.sourceProvider ≠ [] ∧ r.sourceProvider ∉ backends then
    some (503, bytes "源防火墙后端暂不支持同步")
  else if r.sourceProvider ≠ [] ∧ r.sourceProvider = r.targetProvider then
    some (400, bytes "源和目标防火墙后端不能相同")
  else if r.subsystem = bytes "docker" ∧ r.sourceProvider ≠ [] then
    some (400, bytes "docker 防护策略源必须是 database")
  else if r.subsystem = bytes "docker" ∧ r.targetProvider ≠ bytes "iptables" then
    some (503, bytes "Docker 防护同步当前仅支持 iptables 目标链")
  else none

/-! ## The plan -/

def firewallManagedChains : List Bytes :=
  [bytes "WORKMESH_BASIC_BEFORE", bytes "WORKMESH_BASIC", bytes "WORKMESH_BASIC_AFTER"]

def firewallSyncManagedRule (rule : Rule) : Bool :=
  let provider := toLower (trimSpace rule.provider)
  let chain := trimSpace rule.chain
  if provider = bytes "iptables" then chain ∈ firewallManagedChains
  else provider = bytes "nftables" ∧ trimSpace rule.table = bytes "workmesh" ∧ chain = bytes "input"

/-- A rule of a backend as the listing of a chain has it, any chain where none is named. -/
def Native.listedIn (chain : Bytes) : Native → Option Rule
  | .iptables family line => iptablesItem family chain line
  | .nftables record =>
      nftItem { family := bytes "inet", table := bytes "workmesh", chain } record
  | .firewalld _ _ => none

/-- The rules that a backend lists, those of IPv4 before those of IPv6; `none` where a listing
fails. -/
def Live.nativesOf (live : Live) (reads : Backend → Bool) (provider : Bytes) :
    Option (List Native) :=
  if provider = bytes "iptables" then
    if reads .ipv4 ∧ reads .ipv6 then
      some ([Backend.ipv4, .ipv6].flatMap fun b => live.rules.filter fun r => r.backend = b)
    else none
  else if reads .nftables then some (live.rules.filter fun r => r.backend = .nftables)
  else none

def sourceChain (provider : Bytes) : Bytes :=
  if provider = bytes "iptables" then [] else bytes "input"

/-- The managed rule that a listed one is. -/
def sourceRule (provider : Bytes) (r : Native) : Option Rule :=
  (r.listedIn (sourceChain provider)).filter firewallSyncManagedRule

def firewallSyncInventory (live : Live) (reads : Backend → Bool) (provider : Bytes) :
    Option (List Rule) :=
  (live.nativesOf reads provider).map fun rules =>
    rules.filterMap (sourceRule provider)

/-- The chain that is searched for rules that the target has. -/
def targetChain (provider : Bytes) : Bytes :=
  if provider = bytes "iptables" then bytes "WORKMESH_DOCKER" else bytes "docker"

def targetRules (live : Live) (reads : Backend → Bool) (provider : Bytes) : Option (List Rule) :=
  (live.nativesOf reads provider).map fun rules =>
    rules.filterMap (Native.listedIn (targetChain provider))

/-- A source rule as the target would have it, or why it cannot be. -/
def firewallSyncTargetRule (source : Rule) (target : Bytes) : Except Bytes Rule :=
  if target = bytes "iptables" ∧ toLower (trimSpace source.provider) = bytes "nftables" ∧
      trimSpace source.nativeKind = bytes "opaque" then
    .error (bytes "nftables opaque 规则不能安全转换为 iptables")
  else
    let rule := { source with provider := target, uuid := [], description := [], nativeHandle := [],
                              raw := [] }
    if target = bytes "nftables" then
      .ok { rule with family := bytes "inet", table := bytes "workmesh", chain := bytes "input" }
    else
      let family := trimSpace source.family
      let family :=
        if 58 ∈ source.source ∨ 58 ∈ source.destination then bytes "ipv6"
        else if family = [] ∨ family = bytes "inet" then bytes "ipv4"
        else family
      .ok { rule with family, table := bytes "filter", chain := bytes "WORKMESH_BASIC" }

inductive Status where
  | blocked (reason : Bytes)
  | existing
  | ready (target : Rule)

def syncStatus (target : Bytes) (targetKeys : List (Option Bytes)) (source : Rule) : Status :=
  match firewallSyncTargetRule source target with
  | .error reason => .blocked reason
  | .ok rule => if firewallRuleKey rule ∈ targetKeys then .existing else .ready rule

structure SyncItem where
  rule : Rule
  status : Status

/-- The key of a source rule panics. -/
def panics (target : Bytes) (source : Rule) : Bool :=
  match firewallSyncTargetRule source target with
  | .error _ => false
  | .ok rule => firewallRuleKey rule = none

inductive PlanError where
  | refused (status : ℕ) (text : Bytes)
  | unread
  | panicked

/-- The source of a request, which is the active provider where it names none. -/
def SyncRequest.source (r : SyncRequest) (active : Bytes) : Bytes :=
  if r.sourceProvider = [] then toLower (trimSpace active) else r.sourceProvider

/-- The plan for the system rules. Those of Docker have a plan of their own. -/
def buildFirewallSyncPlan (live : Live) (reads : Backend → Bool) (active : Bytes)
    (r : SyncRequest) : Except PlanError (List SyncItem) :=
  match validateFirewallSyncRequest r with
  | some (status, text) => .error (.refused status text)
  | none =>
      if r.source active ∉ [bytes "iptables", bytes "nftables"] then
        .error (.refused 503 (bytes "没有可同步的 iptables/nftables 源后端"))
      else
        match firewallSyncInventory live reads (r.source active),
            targetRules live reads r.targetProvider with
        | some source, some target =>
            let targetKeys := target.map firewallRuleKey
            if none ∈ targetKeys ∨ source.any (panics r.targetProvider) then .error .panicked
            else .ok (source.map fun rule =>
              { rule, status := syncStatus r.targetProvider targetKeys rule })
        | _, _ => .error .unread

/-! ## The sync -/

/-- Besides the lines of iptables, the record of the ruleset that stands for a rule that nft has
added to the rules there are. -/
structure SyncTools extends Tools where
  nftAdded : List Native → List Bytes → Option NftRecord

namespace SyncTools

variable (tools : SyncTools)

/-- The rule that a command adds, `none` where it is refused. -/
def added (rules : List Native) (command : Bytes) (args : List Bytes) : Option Native :=
  if command = bytes "iptables" ∨ command = bytes "ip6tables" then
    let family := if command = bytes "iptables" then Family.ipv4 else .ipv6
    match args with
    | flag :: chain :: stated =>
        if flag = bytes "-A" then (tools.listed family chain stated).map (.iptables family)
        else none
    | _ => none
  else if command = bytes "nft" then (tools.nftAdded rules args).map .nftables
  else none

/-- The rules after a command that adds one, and why it failed. -/
def runAdd (live : Live) (command : Bytes) (args : List Bytes) (outcome : Outcome) :
    Live × Option Bytes :=
  match tools.added live.rules command args with
  | none => (live, some (tools.refusal command args))
  | some r =>
      let next := { live with rules := live.rules ++ [r] }
      match outcome with
      | .done => (next, none)
      | .failed text applied => (if applied then next else live, some text)

/-- The rules after a command that deletes one, and why it failed. -/
def runDelete (live : Live) (command : Bytes) (args : List Bytes) (outcome : Outcome) :
    Live × Option Bytes :=
  match tools.target command args with
  | none => (live, some (tools.refusal command args))
  | some target =>
      match outcome with
      | .failed text applied => (if applied then live.delete target else live, some text)
      | .done =>
          if live.holds target then (live.delete target, none)
          else (live, some (tools.refusal command args))

end SyncTools

/-- The outcomes of the commands for one item. -/
structure ItemOutcomes where
  add : Outcome
  delete : Outcome
  rollback : Outcome

/-- What a sync has come to, with the commands that it has run. -/
structure SyncState where
  live : Live
  commands : List (Bytes × List Bytes) := []
  succeeded : ℕ := 0
  failed : ℕ := 0
  errors : List (ℕ × Bytes) := []

def SyncState.fail (s : SyncState) (index : ℕ) (text : Bytes) : SyncState :=
  { s with failed := s.failed + 1, errors := s.errors ++ [(index, text)] }

section Execution
variable (tools : SyncTools) (reset : Bool) (outcomes : ℕ → ItemOutcomes)

/-- The source rule could not be deleted, so the target rule is deleted again. -/
def undoTarget (s : SyncState) (index : ℕ) (target : Rule) (command text : Bytes) : SyncState :=
  let s := { s with succeeded := s.succeeded - 1 }.fail index
    (bytes "删除源规则失败，已回滚目标规则: " ++ text)
  match firewallRuleArgs target .delete with
  | .error _ => s
  | .ok (args, _) =>
      { s with
        live := (tools.runDelete s.live command args (outcomes index).rollback).1
        commands := s.commands ++ [(command, args)] }

/-- The source rule of an item whose target rule was added. -/
def resetSource (s : SyncState) (index : ℕ) (source target : Rule) (command : Bytes) :
    SyncState :=
  match firewallCommand source .delete with
  | .error text => undoTarget tools outcomes s index target command text
  | .ok (deletion, args) =>
      let (live, error) := tools.runDelete s.live deletion args (outcomes index).delete
      let s := { s with live, commands := s.commands ++ [(deletion, args)] }
      match error with
      | none => s
      | some text => undoTarget tools outcomes s index target command text

/-- One item of the plan. -/
def syncItem (s : SyncState) (entry : SyncItem × ℕ) : SyncState :=
  let (item, index) := entry
  match item.status with
  | .blocked reason => { s with errors := s.errors ++ [(index, reason)] }
  | .existing => s
  | .ready target =>
      match firewallCommand target .add with
      | .error text => s.fail index text
      | .ok (command, args) =>
          let (live, error) := tools.runAdd s.live command args (outcomes index).add
          let s := { s with live, commands := s.commands ++ [(command, args)] }
          match error with
          | some text => s.fail index text
          | none =>
              let s := { s with succeeded := s.succeeded + 1 }
              if reset then resetSource tools outcomes s index item.rule target command else s

def Status.isBlocked : Status → Bool
  | .blocked _ => true
  | _ => false

/-- The sync of a plan. Items that are blocked have failed from the start. -/
def executeFirewallSync (live : Live) (items : List SyncItem) : SyncState :=
  items.zipIdx.foldl (syncItem tools reset outcomes)
    { live, failed := items.countP fun item => item.status.isBlocked }

end Execution

/-- The request on a host that allows changes of its firewall, while no other sync is running:
the plan and what came of it. -/
def handleFirewallSync (tools : SyncTools) (reads : Backend → Bool) (active : Bytes)
    (request : SyncRequest) (outcomes : ℕ → ItemOutcomes) (live : Live) :
    Except PlanError (List SyncItem × SyncState) :=
  (buildFirewallSyncPlan live reads active (decodeFirewallSyncRequest request)).map fun items =>
    (items, executeFirewallSync tools request.resetSource outcomes live items)

end WorkMesh.Firewall
