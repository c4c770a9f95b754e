import WorkMesh.Firewall.Inventory
import WorkMesh.StateMachine.Erasure

/-!
# Deleting rules

All rules of one request are looked up in one listing, taken before the first of
them is deleted. Each is then deleted by a command of its backend: by what it
says, by its handle, or by the position that it had in the listing.
-/

namespace WorkMesh.Firewall

open Encoding StateMachine

/-! ## The rules of a host -/

inductive Backend where
  | ipv4
  | ipv6
  | nftables
  | firewalld
  | ufw
deriving DecidableEq

/-- A rule of a backend other than ufw: what the backend prints for it. -/
inductive Native where
  | iptables (family : Family) (line : Bytes)
  | nftables (record : NftRecord)
  | firewalld (zone line : Bytes)

/-- That by which a command names rules. -/
inductive Key where
  | iptables (family : Family) (line : Bytes)
  | nftables (family table chain handle : Bytes)
  | firewalld (zone rule : Bytes)
deriving DecidableEq

namespace Native

def key : Native → Key
  | iptables family line => .iptables family line
  | nftables r => .nftables r.family r.table r.chain (formatUint r.handle)
  | firewalld zone line => .firewalld zone (trimSpace line)

def backend : Native → Backend
  | iptables .ipv4 _ => .ipv4
  | iptables .ipv6 _ => .ipv6
  | nftables _ => .nftables
  | firewalld _ _ => .firewalld

def item : Native → Option Rule
  | iptables family line => iptablesItem family [] line
  | nftables r => nftItem { family := bytes "inet" } r
  | firewalld zone line => firewalldItem zone line

end Native

/-- The rules of a host, those of each backend in their order. ufw holds no rule twice and
prints each behind its number. -/
structure Live where
  rules : List Native
  ufw : List Bytes
  distinct : ufw.Nodup

/-- A line of `ufw status numbered`. -/
def ufwLine (i : ℕ) (text : Bytes) : Bytes :=
  91 :: ((if i < 9 then [32] else []) ++ formatUint (i + 1)) ++ 93 :: 32 :: text

/-! ## The backends -/

/-- What a command deletes: the first rule with a key, or the rule at a position. -/
inductive Target where
  | rule (key : Key)
  | position (p : ℕ)

def Target.key? : Target → Option Key
  | rule key => some key
  | position _ => none

def Target.position? : Target → Option ℕ
  | rule _ => none
  | position p => some p

/-- What the handler takes from its host: the line that `-S` prints for a stated rule of a chain,
`none` for a rule that is refused, and the text of a command that fails. -/
structure Tools where
  listed : Family → Bytes → List Bytes → Option Bytes
  refusal : Bytes → List Bytes → Bytes

/-- What a command with its arguments deletes, `none` where it is refused. -/
def Tools.target (tools : Tools) (command : Bytes) (args : List Bytes) : Option Target :=
  if command = bytes "iptables" ∨ command = bytes "ip6tables" then
    let family := if command = bytes "iptables" then Family.ipv4 else .ipv6
    match args with
    | flag :: chain :: stated =>
        if flag = bytes "-D" then
          (tools.listed family chain stated).map fun line => .rule (.iptables family line)
        else none
    | _ => none
  else if command = bytes "nft" then
    match args with
    | [verb, object, family, table, chain, word, handle] =>
        if verb = bytes "delete" ∧ object = bytes "rule" ∧ word = bytes "handle" then
          some (.rule (.nftables family table chain handle))
        else none
    | _ => none
  else if command = bytes "firewall-cmd" then
    match args with
    | [zone, flag, rule] =>
        if (bytes "--zone=").isPrefixOf zone ∧ flag = bytes "--remove-rich-rule" then
          some (.rule (.firewalld (zone.drop 7) rule))
        else none
    | _ => none
  else if command = bytes "ufw" then
    match args with
    | [verb, number] =>
        if verb = bytes "delete" then
          match parseDigits number with
          | some (p + 1) => some (.position p)
          | _ => none
        else none
    | _ => none
  else none

namespace Live

variable (live : Live)

def holds : Target → Bool
  | .rule key => live.rules.any fun r => r.key = key
  | .position p => p < live.ufw.length

def delete : Target → Live
  | .rule key => { live with rules := live.rules.eraseP fun r => r.key = key }
  | .position p =>
      { live with ufw := live.ufw.eraseIdx p, distinct := live.distinct.eraseIdx p }

end Live

/-! ## The listing -/

section Listing
variable (reads : Backend → Bool)

/-- A rule as the listing has it, where the listing of its backend could be read. -/
def Native.listed (r : Native) : Option Rule := if reads r.backend then r.item else none

def ufwListed (i : ℕ) (text : Bytes) : Option Rule :=
  if reads .ufw then ufwItem (ufwLine i text) else none

def Live.listing (live : Live) : List Rule :=
  ([.ipv4, .ipv6, .nftables, .firewalld].flatMap fun b =>
    (live.rules.filter fun r => r.backend = b).filterMap (Native.listed reads)) ++
  (List.finRange live.ufw.length).filterMap fun i : Fin live.ufw.length =>
    ufwListed reads i (live.ufw.get i)

end Listing

/-! ## The handler -/

/-- A rule is found under its digest and under the digest of its description. -/
def Rule.names (rule : Rule) (uuid : Bytes) : Bool :=
  trimSpace rule.uuid = uuid || firewallRuleUUID rule.description = uuid

/-- The command that deletes the first listed rule found under a digest. -/
def resolve (listing : List Rule) (uuid : Bytes) : Except Bytes (Bytes × List Bytes) :=
  match listing.find? (·.names uuid) with
  | none => .error (bytes "规则不存在或不是可管理规则")
  | some rule => firewallCommand rule .delete

/-- A command may fail for reasons of its own, before it has taken effect or after. -/
inductive Outcome where
  | done
  | failed (text : Bytes) (applied : Bool)

structure Response where
  succeeded : ℕ := 0
  failed : ℕ := 0
  errors : List (ℕ × Bytes × Bytes) := []

def Response.fail (r : Response) (index : ℕ) (uuid text : Bytes) : Response :=
  { r with failed := r.failed + 1, errors := r.errors ++ [(index, uuid, text)] }

def Response.succeed (r : Response) : Response := { r with succeeded := r.succeeded + 1 }

section Handler
variable (tools : Tools) (listing : List Rule) (outcomes : ℕ → Outcome)

/-- One digest of the request. -/
def deleteItem (s : Live × Response) (entry : Bytes × ℕ) : Live × Response :=
  let (uuid, index) := entry
  match resolve listing uuid with
  | .error text => (s.1, s.2.fail index uuid text)
  | .ok (command, args) =>
      match tools.target command args with
      | none => (s.1, s.2.fail index uuid (tools.refusal command args))
      | some target =>
          match outcomes index with
          | .failed text applied =>
              (if applied then s.1.delete target else s.1, s.2.fail index uuid text)
          | .done =>
              if s.1.holds target then (s.1.delete target, s.2.succeed)
              else (s.1, s.2.fail index uuid (tools.refusal command args))

/-- The request on a host that allows changes of its firewall. -/
def handleFirewallRuleDelete (reads : Backend → Bool) (live : Live) (uuids : List Bytes) :
    Live × Response :=
  uuids.zipIdx.foldl (deleteItem tools (live.listing reads) outcomes) (live, {})

end Handler

/-! ## What a request deletes -/

section Run
variable {tools : Tools} {listing : List Rule} {outcomes : ℕ → Outcome}

/-- What the digest of a request names. -/
def asked (tools : Tools) (listing : List Rule) (uuid : Bytes) : Option Target :=
  match resolve listing uuid with
  | .error _ => none
  | .ok (command, args) => tools.target command args

/-- Every target is there when its turn comes. -/
def AllHeld : Live → List Target → Prop
  | _, [] => True
  | live, t :: ts => live.holds t = true ∧ AllHeld (live.delete t) ts

/-- One digest deletes its target or nothing, and an item that does not fail deletes it. -/
theorem deleteItem_spec (s : Live × Response) (entry : Bytes × ℕ) :
    ((deleteItem tools listing outcomes s entry).1 = s.1 ∧
        (deleteItem tools listing outcomes s entry).2.failed = s.2.failed + 1) ∨
    ∃ t, asked tools listing entry.1 = some t ∧
      (deleteItem tools listing outcomes s entry).1 = s.1.delete t ∧
      ((deleteItem tools listing outcomes s entry).2.failed = s.2.failed + 1 ∨
        (deleteItem tools listing outcomes s entry).2.failed = s.2.failed ∧
          s.1.holds t = true) := by
  unfold deleteItem asked
  dsimp only
  cases resolve listing entry.1 with
  | error text => exact .inl ⟨rfl, rfl⟩
  | ok command =>
      dsimp only
      cases tools.target command.1 command.2 with
      | none => exact .inl ⟨rfl, rfl⟩
      | some t =>
          dsimp only
          cases outcomes entry.2 with
          | failed text applied =>
              cases applied with
              | false => exact .inl ⟨rfl, rfl⟩
              | true => exact .inr ⟨t, rfl, rfl, .inl rfl⟩
          | done =>
              by_cases hheld : s.1.holds t = true
              · refine .inr ⟨t, rfl, ?_, .inr ⟨?_, hheld⟩⟩
                · dsimp only
                  rw [if_pos hheld]
                · dsimp only
                  rw [if_pos hheld]
                  rfl
              · refine .inl ⟨?_, ?_⟩
                · dsimp only
                  rw [if_neg hheld]
                · dsimp only
                  rw [if_neg hheld]
                  rfl

variable (tools listing outcomes) in
/-- A run deletes some of the targets that its digests name, in their order, and all of them if
no item fails. -/
theorem deleteItems_spec (entries : List (Bytes × ℕ)) (s : Live × Response) :
    ∃ done : List Target,
      done.Sublist (entries.filterMap fun e => asked tools listing e.1) ∧
      (entries.foldl (deleteItem tools listing outcomes) s).1 = done.foldl Live.delete s.1 ∧
      s.2.failed ≤ (entries.foldl (deleteItem tools listing outcomes) s).2.failed ∧
      ((entries.foldl (deleteItem tools listing outcomes) s).2.failed = s.2.failed →
        done = entries.filterMap (fun e => asked tools listing e.1) ∧ AllHeld s.1 done) := by
  induction entries generalizing s with
  | nil => exact ⟨[], List.Sublist.refl _, rfl, Nat.le_refl _, fun _ => ⟨rfl, trivial⟩⟩
  | cons entry entries ih =>
      obtain ⟨done, hsub, hlive, hfailed, hall⟩ := ih (deleteItem tools listing outcomes s entry)
      rcases deleteItem_spec s entry with ⟨hsame, hone⟩ | ⟨t, ht, hdel, hcount⟩
      · refine ⟨done, ?_, ?_, ?_, ?_⟩
        · rw [List.filterMap_cons]
          split
          · exact hsub
          · exact hsub.cons _
        · rw [List.foldl_cons, hlive, hsame]
        · rw [List.foldl_cons]
          omega
        · intro hzero
          rw [List.foldl_cons] at hzero
          omega
      · refine ⟨t :: done, ?_, ?_, ?_, ?_⟩
        · rw [List.filterMap_cons, ht]
          exact hsub.cons_cons t
        · rw [List.foldl_cons, hlive, hdel]
          rfl
        · rw [List.foldl_cons]
          omega
        · intro hzero
          rw [List.foldl_cons] at hzero
          obtain ⟨hmore, hheld⟩ : (deleteItem tools listing outcomes s entry).2.failed =
              s.2.failed ∧ s.1.holds t = true := by
            rcases hcount with hmore | hsame
            · omega
            · exact hsame
          obtain ⟨hdone, hrest⟩ := hall (by omega)
          rw [List.filterMap_cons, ht, hdone]
          exact ⟨rfl, hheld, by rw [← hdel, ← hdone]; exact hrest⟩

end Run

section Targets
variable (live : Live) (ts : List Target)

theorem rules_deleteAll : (ts.foldl Live.delete live).rules =
    leaveOut Native.key ((ts.filterMap Target.key?).count ·) live.rules := by
  rw [← foldl_eraseP]
  induction ts generalizing live with
  | nil => rfl
  | cons t ts ih =>
      rw [List.foldl_cons, ih]
      cases t with
      | rule key => rfl
      | position p => rfl

theorem ufw_deleteAll : (ts.foldl Live.delete live).ufw =
    eraseEach (ts.filterMap Target.position?) live.ufw := by
  induction ts generalizing live with
  | nil => rfl
  | cons t ts ih =>
      rw [List.foldl_cons, ih]
      cases t with
      | rule key => rfl
      | position p => rfl

variable {live ts} in
theorem AllHeld.length (h : AllHeld live ts) :
    (eraseEach (ts.filterMap Target.position?) live.ufw).length +
      (ts.filterMap Target.position?).length = live.ufw.length := by
  induction ts generalizing live with
  | nil => rfl
  | cons t ts ih =>
      have hrest := ih h.2
      cases t with
      | rule key => exact hrest
      | position p =>
          have hp : p < live.ufw.length := of_decide_eq_true h.1
          have hlen := List.length_eraseIdx_of_lt hp
          change (eraseEach (ts.filterMap Target.position?) (live.ufw.eraseIdx p)).length +
            ((ts.filterMap Target.position?).length + 1) = live.ufw.length
          change (eraseEach (ts.filterMap Target.position?) (live.ufw.eraseIdx p)).length +
            (ts.filterMap Target.position?).length = (live.ufw.eraseIdx p).length at hrest
          omega

end Targets

/-! ## The rules of ufw -/

/-- The number that is read from a line is the one that the line was printed with. -/
theorem ufwNumber_line {i : ℕ} {text number behind : Bytes}
    (h : ufwNumber (trimSpace (ufwLine i text)) = some (number, behind)) :
    number = formatUint (i + 1) := by
  obtain ⟨rest, hrest⟩ := trimSpace_front (c := 91) (d := 93) (by decide) (by decide)
    ((if i < 9 then [32] else []) ++ formatUint (i + 1)) (32 :: text)
  have hdigit : ∀ c ∈ formatUint (i + 1), decide (48 ≤ c) && decide (c ≤ 57) := by
    intro c hc
    obtain ⟨hlow, hhigh⟩ := formatUint_digits (i + 1) c hc
    simp [hlow, hhigh]
  have hblank : ((if i < 9 then [32] else []) ++ formatUint (i + 1) ++ 93 :: rest).dropWhile isBlank =
      formatUint (i + 1) ++ 93 :: rest := by
    have hfirst : (formatUint (i + 1) ++ 93 :: rest).dropWhile isBlank =
        formatUint (i + 1) ++ 93 :: rest := by
      cases hnum : formatUint (i + 1) with
      | nil => exact absurd hnum (formatUint_ne_nil _)
      | cons c digits =>
          have hc := hdigit c (by rw [hnum]; exact List.mem_cons_self)
          have hnot : ∀ c : UInt8, (decide (48 ≤ c) && decide (c ≤ 57)) = true →
              isBlank c = false := by decide +kernel
          rw [List.cons_append, List.dropWhile_cons_of_neg (by rw [hnot c hc]; decide)]
    split
    · rw [List.singleton_append, List.cons_append, List.dropWhile_cons_of_pos (by decide), hfirst]
    · rw [List.nil_append, hfirst]
  have htake : (formatUint (i + 1) ++ 93 :: rest).takeWhile
      (fun c => decide (48 ≤ c) && decide (c ≤ 57)) = formatUint (i + 1) := by
    rw [List.takeWhile_append_of_pos hdigit, List.takeWhile_cons_of_neg (by decide),
      List.append_nil]
  rw [ufwLine, hrest, List.cons_append, ufwNumber] at h
  simp only [hblank, htake, List.drop_left, formatUint_ne_nil, if_false, Option.some.injEq,
    Prod.mk.injEq] at h
  exact h.1.symm

/-- What the rule of a line carries of it. -/
theorem ufwItem_spec {line : Bytes} {rule : Rule} (h : ufwItem line = some rule) :
    rule.provider = bytes "ufw" ∧ rule.uuid = firewallRuleUUID rule.description ∧
      ∃ behind, ufwNumber (trimSpace line) = some (rule.nativeID, behind) := by
  unfold ufwItem at h
  dsimp only at h
  cases hpattern : ufwRulePattern (trimSpace line) with
  | none => rw [hpattern] at h; cases h
  | some parts =>
      obtain ⟨number, destination, name, source⟩ := parts
      rw [hpattern] at h
      cases h
      refine ⟨rfl, rfl, ?_⟩
      unfold ufwRulePattern at hpattern
      cases hnumber : ufwNumber (trimSpace line) with
      | none => rw [hnumber] at hpattern; cases hpattern
      | some found =>
          rw [hnumber] at hpattern
          obtain ⟨split, -, hsplit⟩ := Option.map_eq_some_iff.mp hpattern
          cases hsplit
          exact ⟨found.2, rfl⟩

theorem names_ufw {line uuid : Bytes} {rule : Rule} (h : ufwItem line = some rule)
    (hnames : rule.names uuid = true) : trimSpace rule.uuid = uuid := by
  obtain ⟨-, huuid, -⟩ := ufwItem_spec h
  have hself : trimSpace rule.uuid = rule.uuid := by
    rw [huuid]
    exact trimSpace_of_printable (hexEncode_printable _)
  unfold Rule.names at hnames
  rw [← huuid, hself, Bool.or_self, decide_eq_true_eq] at hnames
  rw [hself, hnames]

/-- The command of a rule of ufw, where there is one, is for the position of its line. -/
theorem target_ufw (tools : Tools) {i : ℕ} {text command : Bytes} {args : List Bytes} {rule : Rule}
    (hitem : ufwItem (ufwLine i text) = some rule)
    (h : firewallCommand rule .delete = .ok (command, args)) :
    tools.target command args = some (.position i) := by
  obtain ⟨hprovider, -, behind, hnumber⟩ := ufwItem_spec hitem
  have hid := ufwNumber_line hnumber
  have htrim : trimSpace (formatUint (i + 1)) = formatUint (i + 1) := by
    refine trimSpace_of_printable fun c hc => ?_
    have hdigit : ∀ c : UInt8, 48 ≤ c → c ≤ 57 → isPrintable c = true := by decide +kernel
    obtain ⟨hlow, hhigh⟩ := formatUint_digits (i + 1) c hc
    exact hdigit c hlow hhigh
  have hargs : ufwArgs rule .delete = [bytes "delete", formatUint (i + 1)] := by
    unfold ufwArgs
    dsimp only
    rw [hid, htrim, parseDigits_formatUint, if_pos Option.isSome_some]
  have hdiff : bytes "ufw" ≠ bytes "nftables" ∧ bytes "ufw" ≠ bytes "firewalld" := by decide +kernel
  have hcommand : firewallProviderCommand rule = .ok (bytes "ufw") := by
    rw [firewallProviderCommand, hprovider, if_neg hdiff.1, if_neg hdiff.2, if_pos rfl]
  unfold firewallCommand firewallRuleArgs at h
  rw [hcommand, hprovider, if_neg hdiff.1, if_neg hdiff.2, if_pos rfl, hargs] at h
  cases hvalid : validateFirewallRule rule with
  | some error => rw [hvalid] at h; cases h
  | none =>
      rw [hvalid] at h
      cases h
      have hother : ¬ (bytes "ufw" = bytes "iptables" ∨ bytes "ufw" = bytes "ip6tables") ∧
          bytes "ufw" ≠ bytes "nft" ∧ bytes "ufw" ≠ bytes "firewall-cmd" := by decide +kernel
      unfold Tools.target
      rw [if_neg hother.1, if_neg hother.2.1, if_neg hother.2.2, if_pos rfl]
      dsimp only
      rw [if_pos rfl, parseDigits_formatUint]

/-- No other command is for a position. -/
theorem target_other (tools : Tools) {rule : Rule} {command : Bytes} {args : List Bytes}
    (hprovider : rule.provider ≠ bytes "ufw")
    (h : firewallCommand rule .delete = .ok (command, args)) (p : ℕ) :
    tools.target command args ≠ some (.position p) := by
  have hcommand : command ≠ bytes "ufw" := by
    have hdiff : bytes "nft" ≠ bytes "ufw" ∧ bytes "firewall-cmd" ≠ bytes "ufw" ∧
        bytes "ip6tables" ≠ bytes "ufw" ∧ bytes "iptables" ≠ bytes "ufw" := by decide +kernel
    unfold firewallCommand at h
    cases hargs : firewallRuleArgs rule .delete with
    | error error => rw [hargs] at h; cases h
    | ok found =>
        rw [hargs] at h
        unfold firewallProviderCommand at h
        split_ifs at h
        · cases h; exact hdiff.1
        · cases h; exact hdiff.2.1
        · cases h; exact hdiff.2.2.1
        · cases h; exact hdiff.2.2.2
  unfold Tools.target
  dsimp only
  intro htarget
  repeat' split at htarget
  all_goals first
    | exact hcommand ‹_›
    | simp at htarget

/-! ## Which requests delete what they select -/

section Selection
variable (tools : Tools) (reads : Backend → Bool) (live : Live) (uuids : List Bytes)

/-- The digest of a listed rule is requested. -/
def selected (item : Option Rule) : Bool := item.any fun rule => decide (trimSpace rule.uuid ∈ uuids)

def Live.gone (i : ℕ) : Bool :=
  (live.ufw[i]?).any fun text => selected uuids (ufwListed reads i text)

/-- Exactly the rules are left whose digests were not requested. -/
structure Exact (out : Live) : Prop where
  rules : out.rules = live.rules.filter fun r => !selected uuids (r.listed reads)
  ufw : out.ufw = keptAt (live.gone reads uuids) live.ufw

/-- No rule is deleted whose digest was not requested. -/
structure Spares (out : Live) : Prop where
  rules : (live.rules.filter fun r => !selected uuids (r.listed reads)).Sublist out.rules
  ufw : (keptAt (live.gone reads uuids) live.ufw).Sublist out.ufw

def targets : List Target := uuids.filterMap (asked tools (live.listing reads))

def keysAsked : List Key := (targets tools reads live uuids).filterMap Target.key?

def positionsAsked : List ℕ := (targets tools reads live uuids).filterMap Target.position?

/-- A rule is requested exactly if the commands of the request name its key more often than
rules with this key stand before it, and the positions that they name are those of the requested
rules of ufw, from the last to the first. -/
structure Selects : Prop where
  keyed : ∀ front r back, live.rules = front ++ r :: back →
    (selected uuids (r.listed reads) = true ↔
      front.countP (fun q => q.key = r.key) < (keysAsked tools reads live uuids).count r.key)
  found : ∀ i < live.ufw.length, live.gone reads uuids i = true →
    i ∈ positionsAsked tools reads live uuids
  falling : (positionsAsked tools reads live uuids).Pairwise (· > ·)

variable {tools reads live uuids}

/-- What is read of a line leaves the place of the rule. -/
theorem place_iptablesWords (ws : List Bytes) (rule : Rule) :
    (iptablesWords ws rule).provider = rule.provider ∧
      (iptablesWords ws rule).chain = rule.chain := by
  induction ws using List.twoStepInduction generalizing rule with
  | nil => exact ⟨rfl, rfl⟩
  | singleton flag => exact ⟨rfl, rfl⟩
  | cons_cons flag value rest ihrest ihall =>
      rw [iptablesWords]
      split_ifs
      · exact ihrest _
      · exact ihrest _
      · exact ihrest _
      · exact ihrest _
      · dsimp only
        split_ifs
        · exact ihrest _
        · exact ihrest _
      · exact ihall value rule

theorem place_parseNftExpressions (expressions : List WorkMesh.Runtime.Value) (rule : Rule) :
    (parseNftExpressions expressions rule).provider = rule.provider ∧
      (parseNftExpressions expressions rule).chain = rule.chain := by
  have hmatch : ∀ m rule, (nftMatch m rule).provider = rule.provider ∧
      (nftMatch m rule).chain = rule.chain := by
    intro m rule
    unfold nftMatch
    dsimp only
    split_ifs <;> exact ⟨rfl, rfl⟩
  have haction : ∀ object (actions : List Bytes) rule,
      (actions.foldl (nftAction object) rule).provider = rule.provider ∧
        (actions.foldl (nftAction object) rule).chain = rule.chain := by
    intro object actions
    induction actions with
    | nil => exact fun rule => ⟨rfl, rfl⟩
    | cons action actions ih =>
        intro rule
        rw [List.foldl_cons, (ih _).1, (ih _).2, nftAction]
        split_ifs <;> exact ⟨rfl, rfl⟩
  unfold parseNftExpressions
  induction expressions generalizing rule with
  | nil => exact ⟨rfl, rfl⟩
  | cons expression expressions ih =>
      rw [List.foldl_cons, (ih _).1, (ih _).2]
      cases expression with
      | object object =>
          dsimp only
          rw [(haction _ _ _).1, (haction _ _ _).2]
          split
          · exact hmatch _ _
          · exact ⟨rfl, rfl⟩
      | _ => exact ⟨rfl, rfl⟩

theorem provider_of_listed {r : Native} {rule : Rule} (h : r.listed reads = some rule) :
    rule.provider ≠ bytes "ufw" := by
  have hdiff : bytes "iptables" ≠ bytes "ufw" ∧ bytes "nftables" ≠ bytes "ufw" ∧
      bytes "firewalld" ≠ bytes "ufw" := by decide +kernel
  unfold Native.listed at h
  split at h
  case isFalse => cases h
  cases r with
  | iptables family line =>
      change iptablesItem family [] line = some rule at h
      unfold iptablesItem at h
      dsimp only at h
      split_ifs at h
      split at h
      · split_ifs at h
        cases h
        dsimp only
        rw [(place_iptablesWords _ _).1]
        exact hdiff.1
      · cases h
  | nftables record =>
      change nftItem { family := bytes "inet" } record = some rule at h
      unfold nftItem at h
      dsimp only at h
      split_ifs at h
      all_goals
        cases h
        dsimp only
        rw [(place_parseNftExpressions _ _).1]
        exact hdiff.2.1
  | firewalld zone line =>
      change firewalldItem zone line = some rule at h
      unfold firewalldItem at h
      dsimp only at h
      split_ifs at h
      cases h
      exact hdiff.2.2

/-- A position that is asked for is that of a listed rule under the digest. -/
theorem asked_position {uuid : Bytes} {p : ℕ}
    (h : asked tools (live.listing reads) uuid = some (.position p)) :
    p < live.ufw.length ∧ ∃ text rule, live.ufw[p]? = some text ∧
      ufwListed reads p text = some rule ∧ trimSpace rule.uuid = uuid := by
  unfold asked resolve at h
  cases hfind : (live.listing reads).find? (·.names uuid) with
  | none => rw [hfind] at h; cases h
  | some rule =>
      rw [hfind] at h
      dsimp only at h
      cases hcommand : firewallCommand rule .delete with
      | error text => rw [hcommand] at h; cases h
      | ok command =>
          rw [hcommand] at h
          dsimp only at h
          have hmem := List.mem_of_find?_eq_some hfind
          have hnames : rule.names uuid = true := by simpa using List.find?_some hfind
          rcases List.mem_append.mp hmem with hmem | hmem
          · obtain ⟨backend, -, hmem⟩ := List.mem_flatMap.mp hmem
            obtain ⟨r, -, hr⟩ := List.mem_filterMap.mp hmem
            exact absurd h (target_other tools (provider_of_listed hr) hcommand p)
          · obtain ⟨i, -, hi⟩ := List.mem_filterMap.mp hmem
            have hitem : ufwItem (ufwLine i (live.ufw.get i)) = some rule := by
              unfold ufwListed at hi
              split at hi
              · exact hi
              · cases hi
            have htarget := (target_ufw tools hitem hcommand).symm.trans h
            cases htarget
            exact ⟨i.isLt, _, rule, List.getElem?_eq_getElem i.isLt, hi, names_ufw hitem hnames⟩

/-- Every position that is asked for is that of a requested rule. -/
theorem gone_of_asked {p : ℕ} (h : p ∈ positionsAsked tools reads live uuids) :
    p < live.ufw.length ∧ live.gone reads uuids p = true := by
  obtain ⟨target, htarget, hp⟩ := List.mem_filterMap.mp h
  obtain ⟨uuid, huuid, hasked⟩ := List.mem_filterMap.mp htarget
  cases target with
  | rule key => cases hp
  | position q =>
      cases hp
      obtain ⟨hlt, text, rule, htext, hrule, hnamed⟩ := asked_position hasked
      refine ⟨hlt, ?_⟩
      rw [Live.gone, htext]
      simp [selected, hrule, hnamed, huuid]

variable (tools reads live uuids) in
/-- What a run of the request comes to. -/
theorem delete_spec (outcomes : ℕ → Outcome) :
    ∃ done : List Target, done.Sublist (targets tools reads live uuids) ∧
      (handleFirewallRuleDelete tools outcomes reads live uuids).1 =
        done.foldl Live.delete live ∧
      ((handleFirewallRuleDelete tools outcomes reads live uuids).2.failed = 0 →
        done = targets tools reads live uuids ∧ AllHeld live done) := by
  obtain ⟨done, hsub, hlive, -, hall⟩ := deleteItems_spec tools (live.listing reads) outcomes
    uuids.zipIdx (live, {})
  have hasked : uuids.zipIdx.filterMap (fun e => asked tools (live.listing reads) e.1) =
      targets tools reads live uuids := by
    have hfst : uuids = uuids.zipIdx.map Prod.fst := by simp
    rw [targets]
    conv_rhs => rw [hfst]
    rw [List.filterMap_map]
    rfl
  rw [hasked] at hsub hall
  exact ⟨done, hsub, hlive, hall⟩

/-- A request that selects its rules deletes none but these, whatever fails. -/
theorem spares_of_selects (h : Selects tools reads live uuids) (outcomes : ℕ → Outcome) :
    Spares reads live uuids (handleFirewallRuleDelete tools outcomes reads live uuids).1 := by
  obtain ⟨done, hsub, hlive, -⟩ := delete_spec tools reads live uuids outcomes
  rw [hlive]
  constructor
  · rw [rules_deleteAll]
    refine filter_sublist_leaveOut _ _ _ _ fun front r back hrules hr => ?_
    have hcount : (done.filterMap Target.key?).count r.key ≤
        (keysAsked tools reads live uuids).count r.key := (hsub.filterMap _).count_le _
    have hnot := (not_congr (h.keyed front r back hrules)).mp (by simpa using hr)
    omega
  · rw [ufw_deleteAll]
    refine keptAt_sublist (h.falling.sublist (hsub.filterMap _)) (fun p hp => ?_) _
    exact (gone_of_asked ((hsub.filterMap _).subset hp)).2

/-- Where each requested rule of ufw is asked for under its own position, a request without a
failed item leaves exactly the other rules if and only if it selects its rules. -/
theorem exact_iff_selects {outcomes : ℕ → Outcome}
    (hdone : (handleFirewallRuleDelete tools outcomes reads live uuids).2.failed = 0)
    (hfound : ∀ i < live.ufw.length, live.gone reads uuids i = true →
      i ∈ positionsAsked tools reads live uuids) :
    Exact reads live uuids (handleFirewallRuleDelete tools outcomes reads live uuids).1 ↔
      Selects tools reads live uuids := by
  obtain ⟨done, -, hlive, hall⟩ := delete_spec tools reads live uuids outcomes
  obtain ⟨rfl, hheld⟩ := hall hdone
  have hkeyed := leaveOut_eq_filter_iff Native.key
    (fun r => !selected uuids (r.listed reads))
    ((keysAsked tools reads live uuids).count ·) live.rules
  have hfalling := eraseEach_eq_keptAt_iff live.distinct hheld.length
    (fun p hp => gone_of_asked hp) hfound
  have hrules : (handleFirewallRuleDelete tools outcomes reads live uuids).1.rules =
      leaveOut Native.key ((keysAsked tools reads live uuids).count ·) live.rules := by
    rw [hlive, rules_deleteAll, keysAsked]
  have hufw : (handleFirewallRuleDelete tools outcomes reads live uuids).1.ufw =
      eraseEach (positionsAsked tools reads live uuids) live.ufw := by
    rw [hlive, ufw_deleteAll, positionsAsked]
  have hcount : ∀ (front : List Native) (r : Native), ((!selected uuids (Native.listed reads r)) = true ↔
      (keysAsked tools reads live uuids).count r.key ≤ front.countP fun q => q.key = r.key) ↔
      (selected uuids (Native.listed reads r) = true ↔
        front.countP (fun q => q.key = r.key) <
          (keysAsked tools reads live uuids).count r.key) := by
    intro front r
    rw [← not_iff_not (a := selected uuids _ = true), Nat.not_lt, Bool.not_eq_true',
      Bool.not_eq_true]
  constructor
  · rintro ⟨hexact, hufwExact⟩
    refine ⟨fun front r back hl => ?_, hfound, ?_⟩
    · exact (hcount front r).mp (hkeyed.mp (hrules.symm.trans hexact) front r back hl)
    · exact hfalling.mp (hufw.symm.trans hufwExact)
  · intro h
    constructor
    · rw [hrules]
      exact hkeyed.mpr fun front r back hl => (hcount front r).mpr (h.keyed front r back hl)
    · rw [hufw]
      exact hfalling.mpr h.falling

/-- A request that selects its rules deletes none but these. Without a failed item it leaves
exactly the others if and only if it selects its rules. -/
theorem handleFirewallRuleDelete_exact (tools : Tools) (reads : Backend → Bool) (live : Live)
    (uuids : List Bytes) (outcomes : ℕ → Outcome) :
    (Selects tools reads live uuids →
      Spares reads live uuids (handleFirewallRuleDelete tools outcomes reads live uuids).1) ∧
    ((handleFirewallRuleDelete tools outcomes reads live uuids).2.failed = 0 →
      (∀ i < live.ufw.length, live.gone reads uuids i = true →
        i ∈ positionsAsked tools reads live uuids) →
      (Exact reads live uuids (handleFirewallRuleDelete tools outcomes reads live uuids).1 ↔
        Selects tools reads live uuids)) :=
  ⟨fun h => spares_of_selects h outcomes, exact_iff_selects⟩

/-- Three rules of ufw. -/
def threeRules : Live where
  rules := []
  ufw := [bytes "22/tcp ALLOW IN Anywhere", bytes "80/tcp ALLOW IN Anywhere",
    bytes "443/tcp ALLOW IN Anywhere"]
  distinct := by decide +kernel

def threeDigests : List Bytes :=
  [firewallRuleUUID (bytes "[ 1] 22/tcp ALLOW IN Anywhere"),
    firewallRuleUUID (bytes "[ 2] 80/tcp ALLOW IN Anywhere")]

/-- A host whose iptables is not asked. -/
def plainTools : Tools := ⟨fun _ _ _ => none, fun command _ => command⟩

/-- The rules of ufw beside one of firewalld. -/
def mixedRules : Live :=
  { threeRules with
    rules := [.firewalld (bytes "public")
      (bytes "rule family=\"ipv4\" port port=\"8080\" protocol=\"tcp\" accept")] }

/-- The first two rules of ufw, the second before the first, and that of firewalld. -/
def mixedDigests : List Bytes :=
  threeDigests.reverse ++ (mixedRules.rules.filterMap Native.item).map Rule.uuid

theorem handleFirewallRuleDelete_exact_falling :
    Exact (fun _ => true) mixedRules mixedDigests
      (handleFirewallRuleDelete plainTools (fun _ => .done) (fun _ => true) mixedRules
        mixedDigests).1 ∧
    Spares (fun _ => true) mixedRules mixedDigests
      (handleFirewallRuleDelete plainTools (fun _ => .failed [] true) (fun _ => true) mixedRules
        mixedDigests).1 := by
  have hrun : (handleFirewallRuleDelete plainTools (fun _ => .done) (fun _ => true) mixedRules
        mixedDigests).2.failed = 0 ∧
      (handleFirewallRuleDelete plainTools (fun _ => .done) (fun _ => true) mixedRules
        mixedDigests).1.rules.length = 0 ∧
      (mixedRules.rules.filter fun r =>
        !selected mixedDigests (r.listed fun _ => true)).length = 0 ∧
      (handleFirewallRuleDelete plainTools (fun _ => .done) (fun _ => true) mixedRules
        mixedDigests).1.ufw =
          keptAt (mixedRules.gone (fun _ => true) mixedDigests) mixedRules.ufw ∧
      ∀ i < mixedRules.ufw.length,
        mixedRules.gone (fun _ => true) mixedDigests i = true →
          i ∈ positionsAsked plainTools (fun _ => true) mixedRules mixedDigests := by
    decide +kernel
  obtain ⟨hdone, hrules, hothers, hufw, hfound⟩ := hrun
  have hexact : Exact (fun _ => true) mixedRules mixedDigests
      (handleFirewallRuleDelete plainTools (fun _ => .done) (fun _ => true) mixedRules
        mixedDigests).1 :=
    ⟨(List.eq_nil_of_length_eq_zero hrules).trans (List.eq_nil_of_length_eq_zero hothers).symm,
      hufw⟩
  have hselects := ((handleFirewallRuleDelete_exact plainTools (fun _ => true) mixedRules
    mixedDigests (fun _ => .done)).2 hdone hfound).mp hexact
  exact ⟨hexact, (handleFirewallRuleDelete_exact plainTools (fun _ => true) mixedRules
    mixedDigests (fun _ => .failed [] true)).1 hselects⟩

/-- Asked for from the first to the last, the third rule goes in the place of the second. -/
theorem third_rule_deleted :
    (∀ uuid ∈ threeDigests, ∃ rule ∈ threeRules.listing (fun _ => true), rule.uuid = uuid) ∧
    (handleFirewallRuleDelete plainTools (fun _ => .done) (fun _ => true) threeRules
      threeDigests).2.failed = 0 ∧
    ¬ Exact (fun _ => true) threeRules threeDigests
      (handleFirewallRuleDelete plainTools (fun _ => .done) (fun _ => true) threeRules
        threeDigests).1 ∧
    ¬ Spares (fun _ => true) threeRules threeDigests
      (handleFirewallRuleDelete plainTools (fun _ => .done) (fun _ => true) threeRules
        threeDigests).1 := by
  have hrun : (∀ uuid ∈ threeDigests,
        ∃ rule ∈ threeRules.listing (fun _ => true), rule.uuid = uuid) ∧
      (handleFirewallRuleDelete plainTools (fun _ => .done) (fun _ => true) threeRules
        threeDigests).2.failed = 0 ∧
      (handleFirewallRuleDelete plainTools (fun _ => .done) (fun _ => true) threeRules
        threeDigests).1.ufw = [bytes "80/tcp ALLOW IN Anywhere"] ∧
      keptAt (threeRules.gone (fun _ => true) threeDigests) threeRules.ufw =
        [bytes "443/tcp ALLOW IN Anywhere"] := by
    decide +kernel
  obtain ⟨hlisted, hdone, hleft, hkept⟩ := hrun
  refine ⟨hlisted, hdone, fun h => ?_, fun h => ?_⟩
  · have hufw := h.ufw
    rw [hleft, hkept] at hufw
    exact absurd hufw (by decide +kernel)
  · have hufw := h.ufw
    rw [hleft, hkept] at hufw
    exact absurd hufw (by decide +kernel)

end Selection

end WorkMesh.Firewall
