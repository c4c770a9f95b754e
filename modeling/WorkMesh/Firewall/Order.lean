import WorkMesh.Firewall.Resync

/-!
# Rules in their order

An update deletes the old rule and appends the new one; a reorder deletes the
rule and inserts it at its new position. A rule that cannot be put back in its
place is appended to its chain.
-/

namespace WorkMesh.Firewall

open Encoding

attribute [local irreducible] bytes

/-! ## The tables -/

/-- The filter table of each family: its chains in the order of `-S`, and the rules of each as
`-S` prints them. -/
structure Tables where
  chains : Family → List Bytes
  rules : Family → Bytes → List Bytes

/-- What a command does to a chain. Positions count from one. -/
inductive Edit where
  | delete (line : Bytes)
  | append (line : Bytes)
  | insert (position : ℕ) (line : Bytes)

/-- The rules of a chain after an edit, `none` where it is refused. -/
def Edit.apply (rules : List Bytes) : Edit → Option (List Bytes)
  | delete line => if line ∈ rules then some (rules.erase line) else none
  | append line => some (rules ++ [line])
  | insert position line =>
      if 1 ≤ position ∧ position ≤ rules.length + 1 then
        some (rules.insertIdx (position - 1) line)
      else none

/-- Where iptables has a rule, and as which line. A rule of another backend is elsewhere. -/
inductive Place where
  | elsewhere
  | refused
  | inChain (family : Family) (chain line : Bytes)
deriving DecidableEq

/-- What a command does to the tables. -/
inductive Effect where
  | elsewhere
  | refused
  | edits (family : Family) (chain : Bytes) (edit : Edit)

/-- The edit of a rule where it is. -/
def Place.edited (edit : Bytes → Edit) : Place → Effect
  | elsewhere => .elsewhere
  | refused => .refused
  | inChain family chain line => .edits family chain (edit line)

namespace Tools

variable (tools : Tools)

def stated (family : Family) (chain : Bytes) (stated : List Bytes) : Place :=
  match tools.listed family chain stated with
  | none => .refused
  | some line => .inChain family chain line

/-- What the arguments of an iptables command do to the table of a family. -/
def edits (family : Family) : List Bytes → Effect
  | flag :: chain :: rest =>
      if flag = bytes "-D" then (tools.stated family chain rest).edited .delete
      else if flag = bytes "-A" then (tools.stated family chain rest).edited .append
      else if flag = bytes "-I" then
        match rest with
        | number :: rest =>
            match parseDigits number with
            | some position => (tools.stated family chain rest).edited (.insert position)
            | none => .refused
        | [] => .refused
      else .refused
  | _ => .refused

/-- What a command with its arguments does to the tables. -/
def effect (command : Bytes) (args : List Bytes) : Effect :=
  if command = bytes "iptables" then tools.edits .ipv4 args
  else if command = bytes "ip6tables" then tools.edits .ipv6 args
  else .elsewhere

end Tools

namespace Tables

variable (t : Tables)

def put (family : Family) (chain : Bytes) (rules : List Bytes) : Tables :=
  { t with rules := fun f c => if f = family ∧ c = chain then rules else t.rules f c }

/-- The tables after an effect, `none` for one that is refused. -/
def after : Effect → Option Tables
  | .elsewhere => some t
  | .refused => none
  | .edits family chain edit => (edit.apply (t.rules family chain)).map (t.put family chain)

/-- The tables after a command, and why it failed. -/
def run (tools : Tools) (command : Bytes) (args : List Bytes) (outcome : Outcome) :
    Tables × Option Bytes :=
  match t.after (tools.effect command args) with
  | none => (t, some (tools.refusal command args))
  | some next =>
      match outcome with
      | .done => (next, none)
      | .failed text applied => (if applied then next else t, some text)

def lines (family : Family) : List Bytes := (t.chains family).flatMap (t.rules family)

/-- The listed rules of a family, `none` where the listing could not be read. -/
def items (reads : Family → Bool) (family : Family) : Option (List Rule) :=
  if reads family then some ((t.lines family).filterMap (iptablesItem family [])) else none

end Tables

/-! ## The handlers -/

/-- What the other backends list, `none` where the listing could not be read: records, the lines
of the zones and the lines of the status. -/
structure Listings where
  nftables : Option (List NftRecord)
  firewalld : Option (List (Bytes × Bytes))
  ufw : Option (List Bytes)

/-- The outcomes of the commands of a request. The second puts the rule in, the third puts the
old rule back. -/
structure StepOutcomes where
  delete : Outcome
  add : Outcome
  restore : Outcome

structure UpdateRequest where
  uuid : Bytes
  rule : Rule

structure ReorderRequest where
  uuid : Bytes
  targetPosition : Option ℤ
  priority : Option ℤ

section Handlers
variable (tools : Tools) (reads : Family → Bool) (others : Listings) (t : Tables)

/-- The rule that an update replaces. A later listing is preferred, but ufw is asked only where
nothing was found. -/
def oldRule (uuid : Bytes) : Option Rule :=
  let inFamily (family : Family) := (t.items reads family).bind (·.find? (·.names uuid))
  let inNft := others.nftables.bind fun records =>
    (records.filterMap (nftItem { family := bytes "inet" })).find? fun rule =>
      firewallRuleUUID rule.description = uuid
  let inZones := others.firewalld.bind fun found =>
    (found.filterMap fun e => firewalldItem e.1 e.2).find? (·.names uuid)
  let inUfw := others.ufw.bind fun found => (found.filterMap ufwItem).find? (·.names uuid)
  (inZones.or (inNft.or ((inFamily .ipv6).or (inFamily .ipv4)))).or inUfw

/-- The arguments that put the old rule back. -/
def restoreArgs (rule : Rule) : List Bytes :=
  match firewallRuleArgs rule .add with
  | .ok (args, _) => args
  | .error _ => []

/-- The request on a host that allows changes of its firewall. An error has its status. -/
def handleFirewallRuleUpdate (request : UpdateRequest) (outcomes : StepOutcomes) :
    Tables × Except (ℕ × Bytes) Unit :=
  if trimSpace request.uuid = [] then (t, .error (400, bytes "规则 UUID 不能为空"))
  else
    match oldRule reads others t request.uuid with
    | none => (t, .error (404, bytes "规则不存在或不是可管理规则"))
    | some old =>
        match firewallCommand old .delete, firewallCommand request.rule .add with
        | .error text, _ => (t, .error (400, text))
        | .ok _, .error text => (t, .error (400, text))
        | .ok (oldCommand, oldArgs), .ok (newCommand, newArgs) =>
            let (deleted, error) := t.run tools oldCommand oldArgs outcomes.delete
            match error with
            | some text => (deleted, .error (502, bytes "删除旧规则失败: " ++ text))
            | none =>
                let (added, error) := deleted.run tools newCommand newArgs outcomes.add
                match error with
                | some text =>
                    ((added.run tools oldCommand (restoreArgs old) outcomes.restore).1,
                      .error (502, bytes "创建新规则失败，已尝试恢复旧规则: " ++ text))
                | none => (added, .ok ())

/-- The rule that a reorder moves, of the first family that lists it. -/
def foundRule (uuid : Bytes) : Option Rule :=
  let inFamily (family : Family) :=
    (t.items reads family).bind (·.find? fun rule => trimSpace rule.uuid = uuid)
  (inFamily .ipv4).or (inFamily .ipv6)

/-- The command that inserts a rule is the one that appends it with a position. -/
def insertArgs (chain : Bytes) (position : ℕ) (args : List Bytes) : List Bytes :=
  bytes "-I" :: chain :: formatUint position :: args.drop 2

/-- The commands of a reorder. -/
def reorderRule (found : Rule) (command : Bytes) (position : ℕ) (outcomes : StepOutcomes) :
    Tables × Except (ℕ × Bytes) Unit :=
  match firewallRuleArgs found .delete with
  | .error text => (t, .error (400, text))
  | .ok (deleteArgs, chain) =>
      let (deleted, error) := t.run tools command deleteArgs outcomes.delete
      match error with
      | some text => (deleted, .error (502, bytes "删除旧规则失败: " ++ text))
      | none =>
          match firewallRuleArgs found .add with
          | .error text => (deleted, .error (400, text))
          | .ok (args, _) =>
              let (inserted, error) :=
                deleted.run tools command (insertArgs chain position args) outcomes.add
              match error with
              | some text =>
                  ((inserted.run tools command args outcomes.restore).1,
                    .error (502, bytes "插入新规则失败，已尝试恢复旧规则: " ++ text))
              | none => (inserted, .ok ())

/-- The request on a host that allows changes of its firewall. -/
def handleFirewallRuleReorder (request : ReorderRequest) (outcomes : StepOutcomes) :
    Tables × Except (ℕ × Bytes) Unit :=
  if trimSpace request.uuid = [] then (t, .error (400, bytes "规则 UUID 不能为空"))
  else
    match request.targetPosition, request.priority with
    | none, none => (t, .error (400, bytes "targetPosition 或 priority 必须提供"))
    | _, some _ => (t, .error (400, bytes "当前防火墙后端不支持 priority 重排"))
    | some position, none =>
        if position < 1 ∨ 10000 < position then
          (t, .error (400, bytes "targetPosition 必须在 1 到 10000 之间"))
        else
          match foundRule reads t request.uuid with
          | none => (t, .error (404, bytes "规则不存在或不是可重排的 iptables 规则"))
          | some found =>
              let command := (firewallProviderCommand found).toOption.getD []
              if command ≠ bytes "iptables" ∧ command ≠ bytes "ip6tables" then
                (t, .error (400, bytes "当前防火墙后端不支持规则重排"))
              else reorderRule tools t found command position.toNat outcomes

end Handlers

/-! ## The places of rules -/

def Rule.tableFamily (rule : Rule) : Family := if rule.family = bytes "ipv6" then .ipv6 else .ipv4

/-- Where iptables has a rule. -/
def Tools.place (tools : Tools) (rule : Rule) : Place :=
  if rule.provider = bytes "iptables" then
    tools.stated rule.tableFamily rule.chain (iptablesMatches rule)
  else .elsewhere

section Commands
variable {tools : Tools} {rule : Rule} {operation : Operation} {args : List Bytes}
  {chain command : Bytes}

/-- The arguments for iptables are the same for every operation, but for the flag. -/
theorem firewallRuleArgs_iptables (hprovider : rule.provider = bytes "iptables")
    (h : firewallRuleArgs rule operation = .ok (args, chain)) (other : Operation) :
    args = operation.flag :: rule.chain :: iptablesMatches rule ∧ chain = rule.chain ∧
      firewallRuleArgs rule other =
        .ok (other.flag :: rule.chain :: iptablesMatches rule, rule.chain) := by
  have hother : rule.provider ≠ bytes "nftables" ∧ rule.provider ≠ bytes "firewalld" ∧
      rule.provider ≠ bytes "ufw" := hprovider ▸ ⟨synced_ne.1, synced_ne.2.1, synced_ne.2.2.1⟩
  unfold firewallRuleArgs at h ⊢
  cases hvalid : validateFirewallRule rule with
  | some error => rw [hvalid] at h; cases h
  | none =>
      rw [hvalid] at h
      dsimp only at h ⊢
      rw [if_neg hother.1, if_neg hother.2.1, if_neg hother.2.2] at h ⊢
      unfold iptablesArgs at h ⊢
      split at h
      · cases h
      · rename_i hports
        cases h
        refine ⟨rfl, rfl, ?_⟩
        rw [if_neg hports]
        rfl

theorem firewallProviderCommand_iptables (hprovider : rule.provider = bytes "iptables") :
    firewallProviderCommand rule =
      .ok (if rule.family = bytes "ipv6" then bytes "ip6tables" else bytes "iptables") := by
  rw [firewallProviderCommand, if_neg (hprovider ▸ synced_ne.1),
    if_neg (hprovider ▸ synced_ne.2.1), if_neg (hprovider ▸ synced_ne.2.2.1), if_pos hprovider]

/-- The command of a rule of iptables edits the table of its family, any other edits none. -/
theorem effect_command (hcommand : firewallProviderCommand rule = .ok command)
    (stated : List Bytes) :
    tools.effect command stated =
      if rule.provider = bytes "iptables" then tools.edits rule.tableFamily stated
      else .elsewhere := by
  by_cases hprovider : rule.provider = bytes "iptables"
  · rw [firewallProviderCommand_iptables hprovider] at hcommand
    rw [if_pos hprovider, ← Except.ok.inj hcommand, Rule.tableFamily]
    have hnames : bytes "ip6tables" ≠ bytes "iptables" := by decide +kernel
    split
    · exact (if_neg hnames).trans (if_pos rfl)
    · exact if_pos rfl
  · have hnames : ∀ name ∈ [bytes "nft", bytes "firewall-cmd", bytes "ufw"],
        name ≠ bytes "iptables" ∧ name ≠ bytes "ip6tables" := by decide +kernel
    have hother : command ∈ [bytes "nft", bytes "firewall-cmd", bytes "ufw"] := by
      unfold firewallProviderCommand at hcommand
      split_ifs at hcommand <;> cases hcommand <;> simp
    rw [if_neg hprovider, Tools.effect, if_neg (hnames _ hother).1, if_neg (hnames _ hother).2]

theorem parts_of_command (h : firewallCommand rule operation = .ok (command, args)) :
    firewallProviderCommand rule = .ok command ∧
      ∃ chain, firewallRuleArgs rule operation = .ok (args, chain) := by
  unfold firewallCommand at h
  cases hargs : firewallRuleArgs rule operation with
  | error error => rw [hargs] at h; cases h
  | ok found =>
      cases hcommand : firewallProviderCommand rule with
      | error error => rw [hargs, hcommand] at h; cases h
      | ok name =>
          rw [hargs, hcommand] at h
          cases h
          exact ⟨rfl, found.2, rfl⟩

theorem effect_delete (h : firewallCommand rule .delete = .ok (command, args)) :
    tools.effect command args = (tools.place rule).edited .delete := by
  obtain ⟨hcommand, chain, hargs⟩ := parts_of_command h
  rw [effect_command hcommand, Tools.place]
  split
  · obtain ⟨rfl, -⟩ := firewallRuleArgs_iptables ‹_› hargs .delete
    unfold Tools.edits
    dsimp only [Operation.flag]
    rw [if_pos rfl]
  · rfl

theorem effect_add (hcommand : firewallProviderCommand rule = .ok command)
    (hargs : firewallRuleArgs rule .add = .ok (args, chain)) :
    tools.effect command args = (tools.place rule).edited .append := by
  rw [effect_command hcommand, Tools.place]
  have hflags : bytes "-A" ≠ bytes "-D" := by decide +kernel
  split
  · obtain ⟨rfl, -⟩ := firewallRuleArgs_iptables ‹_› hargs .add
    unfold Tools.edits
    dsimp only [Operation.flag]
    rw [if_neg hflags, if_pos rfl]
  · rfl

theorem effect_insert (hprovider : rule.provider = bytes "iptables")
    (hcommand : firewallProviderCommand rule = .ok command)
    (hargs : firewallRuleArgs rule .add = .ok (args, chain)) (position : ℕ) :
    tools.effect command (insertArgs rule.chain position args) =
      (tools.place rule).edited (.insert position) := by
  obtain ⟨rfl, -⟩ := firewallRuleArgs_iptables hprovider hargs .add
  rw [effect_command hcommand, Tools.place, if_pos hprovider, if_pos hprovider, insertArgs]
  have hflags : bytes "-I" ≠ bytes "-D" ∧ bytes "-I" ≠ bytes "-A" := by decide +kernel
  unfold Tools.edits
  dsimp only
  rw [if_neg hflags.1, if_neg hflags.2, if_pos rfl, parseDigits_formatUint]
  rfl

/-- The command that puts the old rule back appends it. -/
theorem effect_restore (h : firewallCommand rule .delete = .ok (command, args)) :
    tools.effect command (restoreArgs rule) = (tools.place rule).edited .append := by
  obtain ⟨hcommand, chain, hargs⟩ := parts_of_command h
  by_cases hprovider : rule.provider = bytes "iptables"
  · have hadd := (firewallRuleArgs_iptables hprovider hargs .add).2.2
    rw [restoreArgs, hadd]
    exact effect_add hcommand hadd
  · rw [effect_command hcommand, Tools.place, if_neg hprovider, if_neg hprovider]
    rfl

end Commands

end WorkMesh.Firewall
