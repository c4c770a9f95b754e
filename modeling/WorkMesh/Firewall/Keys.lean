import WorkMesh.Firewall.Words

/-!
# The keys of rules

What the key of a rule says about the command that puts the rule into force.
-/

namespace WorkMesh.Firewall

open Encoding

attribute [local irreducible] bytes

/-- The command of a rule as its backend reads it: nft joins its arguments. -/
def effect (rule : Rule) : Except Bytes (Bytes × List Bytes) :=
  (firewallCommand rule .add).map fun c =>
    (c.1, if c.1 = bytes "nft" then [[32].intercalate c.2] else c.2)

/-! ## What equal keys say -/

/-- The names of the backends and of their commands differ. -/
theorem names_ne : (bytes "firewalld" ≠ bytes "nftables" ∧ bytes "ufw" ≠ bytes "nftables" ∧
    bytes "ufw" ≠ bytes "firewalld") ∧ bytes "nftables" ≠ bytes "ufw" ∧
    bytes "firewalld" ≠ bytes "ufw" ∧ bytes "ufw" ≠ bytes "nft" := by
  decide +kernel

theorem intercalate_cons {w : Bytes} {ws : List Bytes} (hws : ws ≠ []) :
    [32].intercalate (w :: ws) = w ++ 32 :: [32].intercalate ws := by
  cases ws with
  | nil => exact absurd rfl hws
  | cons v ws => simp [List.intercalate]

/-- A joined list of words starts with the first character of the first of them. -/
theorem intercalate_head {w : Bytes} (hw : IsWord w) (ws : List Bytes) :
    ∃ c text, [32].intercalate (w :: ws) = c :: text ∧ isPrintable c = true := by
  obtain ⟨hne, hchars⟩ := hw
  cases w with
  | nil => exact absurd rfl hne
  | cons c w =>
      have hc := hchars c List.mem_cons_self
      cases ws with
      | nil => exact ⟨c, w, by simp [List.intercalate], hc⟩
      | cons v ws => exact ⟨c, _, intercalate_cons (List.cons_ne_nil v ws), hc⟩

/-- A key that is not empty joins the chain and the arguments of a command. -/
theorem args_of_key {rule : Rule} {k : Bytes} (h : firewallRuleKey rule = some k) (hk : k ≠ []) :
    ∃ args chain, firewallRuleArgs rule .add = .ok (args, chain) ∧
      k = [32].intercalate (chain :: args.drop 2) := by
  unfold firewallRuleKey at h
  cases hargs : firewallRuleArgs rule .add with
  | error error =>
      rw [hargs] at h
      cases h
      exact absurd rfl hk
  | ok found =>
      obtain ⟨args, chain⟩ := found
      rw [hargs] at h
      dsimp only at h
      split at h
      · cases h
      · cases h
        exact ⟨args, chain, rfl, rfl⟩

theorem accepted_of_args {rule : Rule} {operation : Operation} {found : List Bytes × Bytes}
    (h : firewallRuleArgs rule operation = .ok found) : Accepted rule := by
  unfold firewallRuleArgs at h
  cases hvalid : validateFirewallRule rule with
  | some error => rw [hvalid] at h; cases h
  | none => exact accepted_of_validate hvalid

/-- The arguments of nft behind the place of the rule. -/
def nftMatches (rule : Rule) : List Bytes :=
  stated anyAddress [nftAddressFamily rule, bytes "saddr"] rule.source ++
    (stated anyAddress [nftAddressFamily rule, bytes "daddr"] rule.destination ++
      ((if rule.protocolName = bytes "all" then [] else [rule.protocolName]) ++
        (stated anyPort [bytes "dport"] rule.port ++ [rule.actionName])))

theorem nftArgs_add (rule : Rule) : nftArgs rule .add =
    bytes "add" :: bytes "rule" :: nftFamily rule :: nftTable rule :: rule.chain ::
      nftMatches rule := by
  have hadd : ¬ (Operation.add = .delete ∧ trimSpace rule.nativeHandle ≠ []) := by
    rintro ⟨h, -⟩
    cases h
  have hverb : Operation.add ≠ .delete := by
    intro h
    cases h
  unfold nftArgs
  dsimp only
  rw [if_neg hadd, if_neg hverb]
  simp only [nftMatches, List.append_assoc, List.cons_append, List.nil_append]

section Providers
variable {rule : Rule} {args : List Bytes} {chain : Bytes}

theorem args_nft (hprovider : rule.provider = bytes "nftables")
    (h : firewallRuleArgs rule .add = .ok (args, chain)) :
    args = nftArgs rule .add ∧ chain = rule.chain := by
  unfold firewallRuleArgs at h
  cases hvalid : validateFirewallRule rule with
  | some error => rw [hvalid] at h; cases h
  | none =>
      rw [hvalid] at h
      dsimp only at h
      rw [if_pos hprovider] at h
      cases h
      exact ⟨rfl, rfl⟩

theorem args_firewalld (hprovider : rule.provider = bytes "firewalld")
    (h : firewallRuleArgs rule .add = .ok (args, chain)) :
    args = [bytes "--zone=" ++ firewalldZone rule, bytes "--add-rich-rule", richRule rule] ∧
      chain = firewalldZone rule := by
  have hdiff : rule.provider ≠ bytes "nftables" := hprovider ▸ names_ne.1.1
  unfold firewallRuleArgs at h
  cases hvalid : validateFirewallRule rule with
  | some error => rw [hvalid] at h; cases h
  | none =>
      rw [hvalid] at h
      dsimp only at h
      rw [if_neg hdiff, if_pos hprovider] at h
      unfold firewalldArgs at h
      split at h
      · cases h
      · cases h
        exact ⟨rfl, rfl⟩

theorem args_ufw (hprovider : rule.provider = bytes "ufw")
    (h : firewallRuleArgs rule .add = .ok (args, chain)) :
    args = ufwArgs rule .add ∧ chain = bytes "INPUT" := by
  have hdiff : rule.provider ≠ bytes "nftables" ∧ rule.provider ≠ bytes "firewalld" :=
    hprovider ▸ names_ne.1.2
  unfold firewallRuleArgs at h
  cases hvalid : validateFirewallRule rule with
  | some error => rw [hvalid] at h; cases h
  | none =>
      rw [hvalid] at h
      dsimp only at h
      rw [if_neg hdiff.1, if_neg hdiff.2, if_pos hprovider] at h
      cases h
      exact ⟨rfl, rfl⟩

theorem args_iptables
    (hprovider : rule.provider ∉ [bytes "nftables", bytes "firewalld", bytes "ufw"])
    (h : firewallRuleArgs rule .add = .ok (args, chain)) :
    args = [bytes "-A", rule.chain] ++ iptablesMatches rule ∧ chain = rule.chain := by
  simp only [List.mem_cons, List.not_mem_nil, or_false, not_or] at hprovider
  unfold firewallRuleArgs at h
  cases hvalid : validateFirewallRule rule with
  | some error => rw [hvalid] at h; cases h
  | none =>
      rw [hvalid] at h
      dsimp only at h
      rw [if_neg hprovider.1, if_neg hprovider.2.1, if_neg hprovider.2.2] at h
      unfold iptablesArgs at h
      split at h
      · cases h
      · cases h
        exact ⟨rfl, rfl⟩

end Providers

/-! ### The arguments of ufw -/

/-- The arguments of ufw behind the verb. -/
def ufwTail (rule : Rule) : List Bytes :=
  stated anyAddress [bytes "from"] rule.source ++
    stated anyPort [bytes "to", bytes "any", bytes "port"] rule.port ++
    if rule.protocolName = bytes "all" then [] else [bytes "proto", rule.protocolName]

theorem ufwArgs_add (rule : Rule) : ufwArgs rule .add = ufwVerb rule :: ufwTail rule := by
  simp [ufwArgs, ufwTail]

/-- The word in front of the others, which says what they are. -/
def ufwLead (ws : List Bytes) : Bytes :=
  if ws.head? = some (bytes "any") then bytes "to"
  else if ws.head?.any fun w => w ∈ [bytes "tcp", bytes "udp", bytes "icmp", bytes "icmpv6"] then
    bytes "proto"
  else bytes "from"

theorem Accepted.ufwTail_eq {rule : Rule} (h : Accepted rule) (htail : ufwTail rule ≠ []) :
    ufwTail rule = ufwLead ((ufwTail rule).drop 1) :: (ufwTail rule).drop 1 := by
  have hwords : ∀ w ∈ [bytes "any", bytes "tcp", bytes "udp", bytes "icmp", bytes "icmpv6"],
      w.all isAddressChar = false := by decide +kernel
  unfold ufwTail at htail ⊢
  cases hsource : anyAddress rule.source with
  | false =>
      have hchars : ∀ c ∈ rule.source, isAddressChar c = true := by
        have hvalid := h.addresses rule.source (by simp)
        simp only [invalidAddress, hsource, Bool.false_eq_true, not_false_eq_true, true_and,
          Bool.decide_and, Bool.and_eq_false_iff, decide_eq_false_iff_not, Bool.not_eq_true,
          Bool.not_eq_false] at hvalid
        rcases hvalid with hvalid | hvalid
        · exact isNetwork_chars hvalid
        · exact isAddress_chars hvalid
      have hnot : ∀ w ∈ [bytes "any", bytes "tcp", bytes "udp", bytes "icmp", bytes "icmpv6"],
          rule.source ≠ w := by
        intro w hw heq
        have hall := hwords w hw
        rw [← heq, List.all_eq_true.mpr hchars] at hall
        cases hall
      simp [stated, hsource, ufwLead, hnot]
  | true =>
      cases hport : anyPort rule.port with
      | false => simp [stated, hsource, hport, ufwLead]
      | true =>
          by_cases hall : rule.protocolName = bytes "all"
          · simp [stated, hsource, hport, hall] at htail
          · have hprotocol := h.protocol
            have hany : ∀ p ∈ [bytes "all", bytes "tcp", bytes "udp", bytes "icmp",
                bytes "icmpv6"], p ≠ bytes "any" := by decide +kernel
            have hne := hany _ hprotocol
            simp only [List.mem_cons, hall, List.not_mem_nil, or_false, false_or] at hprotocol
            have hlead : ufwLead [rule.protocolName] = bytes "proto" := by
              rw [ufwLead, if_neg (by simpa using hne), if_pos]
              simpa using hprotocol
            simp [stated, hsource, hport, hall, hlead]

theorem ufwTail_words {rule : Rule} (h : Accepted rule) : ∀ w ∈ ufwTail rule, IsWord w := by
  have hflags : ∀ w ∈ [bytes "from", bytes "to", bytes "any", bytes "port", bytes "proto"],
      IsWord w := by decide +kernel
  intro w hw
  simp only [ufwTail, List.mem_append] at hw
  rcases hw with (hw | hw) | hw
  · refine isWord_stated (fun v hv => hflags v ?_) h.isWord_source w hw
    simp [List.mem_singleton.mp hv]
  · exact isWord_stated (fun v hv => hflags v (List.mem_cons_of_mem _
      (List.mem_append_left [bytes "proto"] hv))) (isWord_port h.port) w hw
  · split at hw
    · cases hw
    · rcases List.mem_cons.mp hw with rfl | hw
      · exact hflags _ (by simp)
      · rw [List.mem_singleton.mp hw]
        exact h.isWord_protocol

/-! ### The two properties of keys -/

/-- The key is out of range exactly for a rule of ufw that says its action only. -/
theorem firewallRuleKey_none_iff (rule : Rule) : firewallRuleKey rule = none ↔
    validateFirewallRule rule = none ∧ rule.provider = bytes "ufw" ∧
      anyAddress rule.source = true ∧ anyPort rule.port = true ∧
      rule.protocolName = bytes "all" := by
  constructor
  · intro h
    unfold firewallRuleKey at h
    cases hargs : firewallRuleArgs rule .add with
    | error error => rw [hargs] at h; cases h
    | ok found =>
        obtain ⟨args, chain⟩ := found
        rw [hargs] at h
        dsimp only at h
        split at h
        case isFalse => cases h
        rename_i hshort
        have hvalid : validateFirewallRule rule = none := by
          unfold firewallRuleArgs at hargs
          cases hvalid : validateFirewallRule rule with
          | none => rfl
          | some error => rw [hvalid] at hargs; cases hargs
        by_cases hnft : rule.provider = bytes "nftables"
        · rw [(args_nft hnft hargs).1] at hshort
          simp [nftArgs] at hshort
        by_cases hzone : rule.provider = bytes "firewalld"
        · rw [(args_firewalld hzone hargs).1] at hshort
          exact absurd hshort (by simp)
        by_cases hufw : rule.provider = bytes "ufw"
        · rw [(args_ufw hufw hargs).1, ufwArgs_add] at hshort
          have hnil : ufwTail rule = [] := by
            rw [List.length_cons] at hshort
            exact List.eq_nil_of_length_eq_zero (by omega)
          simp only [ufwTail, List.append_eq_nil_iff] at hnil
          obtain ⟨⟨hsource, hport⟩, hprotocol⟩ := hnil
          refine ⟨hvalid, hufw, ?_, ?_, ?_⟩
          · unfold stated at hsource
            split at hsource
            · assumption
            · simp at hsource
          · unfold stated at hport
            split at hport
            · assumption
            · simp at hport
          · by_contra hall
            rw [if_neg hall] at hprotocol
            cases hprotocol
        · rw [(args_iptables (by simp [hnft, hzone, hufw]) hargs).1] at hshort
          simp at hshort
  · rintro ⟨hvalid, hufw, hsource, hport, hprotocol⟩
    have hdiff := names_ne.1.2
    have hargs : firewallRuleArgs rule .add = .ok (ufwArgs rule .add, bytes "INPUT") := by
      rw [firewallRuleArgs, hvalid, hufw]
      dsimp only
      rw [if_neg hdiff.1, if_neg hdiff.2, if_pos rfl]
    have htail : ufwTail rule = [] := by simp [ufwTail, stated, hsource, hport, hprotocol]
    rw [firewallRuleKey, hargs, ufwArgs_add, htail]
    rfl

theorem effect_of_args {rule : Rule} {args : List Bytes} {chain : Bytes}
    (h : firewallRuleArgs rule .add = .ok (args, chain)) :
    effect rule = (firewallProviderCommand rule).map fun command =>
      (command, if command = bytes "nft" then [[32].intercalate args] else args) := by
  unfold effect firewallCommand
  rw [h]
  cases firewallProviderCommand rule <;> rfl

/-- A text joined of words starts with a printable character. -/
def Starts (text : Bytes) : Prop := ∃ c rest, text = c :: rest ∧ isPrintable c = true

theorem Starts.append {text : Bytes} (h : Starts text) (more : Bytes) : Starts (text ++ more) := by
  obtain ⟨c, rest, rfl, hc⟩ := h
  exact ⟨c, rest ++ more, rfl, hc⟩

/-- Equal joined texts behind words for the chain are equal chains and equal texts. -/
theorem joined_of_key {chain chain' : Bytes} {ws ws' : List Bytes}
    (hchain : IsWord (trimSpace chain)) (hchain' : IsWord (trimSpace chain'))
    (hws : Starts ([32].intercalate ws)) (hws' : Starts ([32].intercalate ws'))
    (h : [32].intercalate (chain :: ws) = [32].intercalate (chain' :: ws')) :
    chain = chain' ∧ [32].intercalate ws = [32].intercalate ws' := by
  obtain ⟨c, rest, hc, hprint⟩ := hws
  obtain ⟨d, rest', hd, hprint'⟩ := hws'
  have hne : ws ≠ [] := by
    rintro rfl
    cases hc
  have hne' : ws' ≠ [] := by
    rintro rfl
    cases hd
  rw [intercalate_cons hne, intercalate_cons hne', hc, hd] at h
  rw [hc, hd]
  exact joined_injective hchain.1 hchain.2 hchain'.1 hchain'.2 hprint hprint' h

section Equal
variable {r s : Rule} {k : Bytes} (hk : k ≠ []) (hr : firewallRuleKey r = some k)
  (hs : firewallRuleKey s = some k)
include hk hr hs

theorem effect_nft (hprovider : r.provider = bytes "nftables") (hsame : r.provider = s.provider) :
    effect r = effect s := by
  obtain ⟨args, chain, hargs, hkey⟩ := args_of_key hr hk
  obtain ⟨args', chain', hargs', hkey'⟩ := args_of_key hs hk
  have hprovider' : s.provider = bytes "nftables" := by rw [← hsame, hprovider]
  have hdiff := names_ne.2.1
  obtain ⟨rfl, rfl⟩ := args_nft hprovider hargs
  obtain ⟨rfl, rfl⟩ := args_nft hprovider' hargs'
  have hfamily : ∀ rule : Rule, IsWord (nftFamily rule) := by
    intro rule
    unfold nftFamily
    split_ifs <;> decide +kernel
  have hws := nftArgs_add r
  have hws' := nftArgs_add s
  generalize nftTable r :: r.chain :: nftMatches r = ws at hws
  generalize nftTable s :: s.chain :: nftMatches s = ws' at hws'
  have hjoined : [32].intercalate (nftFamily r :: ws) = [32].intercalate (nftFamily s :: ws') := by
    refine (joined_of_key
      ((accepted_of_args hargs).isWord_chain (by rw [hprovider]; exact hdiff))
      ((accepted_of_args hargs').isWord_chain (by rw [hprovider']; exact hdiff))
      (intercalate_head (hfamily r) ws) (intercalate_head (hfamily s) ws') ?_).2
    rw [hws] at hkey
    rw [hws'] at hkey'
    exact hkey.symm.trans hkey'
  have hcommand : ∀ rule : Rule, rule.provider = bytes "nftables" →
      firewallProviderCommand rule = .ok (bytes "nft") := fun rule hp => by
    rw [firewallProviderCommand, if_pos hp]
  have htext : [32].intercalate (nftArgs r .add) = [32].intercalate (nftArgs s .add) := by
    rw [hws, hws']
    calc [32].intercalate (bytes "add" :: bytes "rule" :: nftFamily r :: ws)
        = bytes "add" ++ 32 :: (bytes "rule" ++ 32 :: [32].intercalate (nftFamily r :: ws)) := by
          rw [intercalate_cons (List.cons_ne_nil _ _), intercalate_cons (List.cons_ne_nil _ _)]
      _ = bytes "add" ++ 32 :: (bytes "rule" ++ 32 :: [32].intercalate (nftFamily s :: ws')) := by
          rw [hjoined]
      _ = [32].intercalate (bytes "add" :: bytes "rule" :: nftFamily s :: ws') := by
          rw [intercalate_cons (List.cons_ne_nil _ _), intercalate_cons (List.cons_ne_nil _ _)]
  rw [effect_of_args hargs, effect_of_args hargs', hcommand r hprovider, hcommand s hprovider']
  change Except.ok (bytes "nft", if bytes "nft" = bytes "nft" then _ else _) =
    Except.ok (bytes "nft", if bytes "nft" = bytes "nft" then _ else _)
  rw [if_pos rfl, if_pos rfl, htext]

theorem effect_firewalld (hprovider : r.provider = bytes "firewalld")
    (hsame : r.provider = s.provider) : effect r = effect s := by
  obtain ⟨args, chain, hargs, hkey⟩ := args_of_key hr hk
  obtain ⟨args', chain', hargs', hkey'⟩ := args_of_key hs hk
  have hprovider' : s.provider = bytes "firewalld" := by rw [← hsame, hprovider]
  have hdiff := names_ne.2.2.1
  have hzone : ∀ rule : Rule, Accepted rule → rule.provider = bytes "firewalld" →
      IsWord (trimSpace (firewalldZone rule)) := by
    intro rule hrule hp
    have hword := hrule.isWord_chain (by rw [hp]; exact hdiff)
    unfold firewalldZone
    split
    · decide +kernel
    · exact hword
  have hrich : ∀ rule : Rule, Starts ([32].intercalate [richRule rule]) := by
    intro rule
    have hfront : Starts (bytes "rule family=\"") :=
      ⟨114, bytes "ule family=\"", by decide +kernel, by decide⟩
    rw [List.intercalate, List.intersperse_singleton, List.flatten_singleton]
    unfold richRule
    dsimp only
    simp only [List.append_assoc]
    exact hfront.append _
  have hr' := accepted_of_args hargs
  have hs' := accepted_of_args hargs'
  obtain ⟨rfl, rfl⟩ := args_firewalld hprovider hargs
  obtain ⟨rfl, rfl⟩ := args_firewalld hprovider' hargs'
  obtain ⟨hchain, htext⟩ := joined_of_key (hzone r hr' hprovider) (hzone s hs' hprovider')
    (hrich r) (hrich s) (hkey.symm.trans hkey')
  have hrule : richRule r = richRule s := by
    rwa [List.intercalate, List.intersperse_singleton, List.flatten_singleton, List.intercalate,
      List.intersperse_singleton, List.flatten_singleton] at htext
  have hcommand : firewallProviderCommand r = firewallProviderCommand s := by
    rw [firewallProviderCommand, firewallProviderCommand, hprovider, hprovider']
    have hnft := names_ne.1.1
    rw [if_neg hnft, if_pos rfl, if_neg hnft, if_pos rfl]
  rw [effect_of_args hargs, effect_of_args hargs', hcommand, hchain, hrule]

theorem effect_iptables (hprovider : r.provider ∉ [bytes "nftables", bytes "firewalld", bytes "ufw"])
    (hsame : r.provider = s.provider) (hfamily : r.family = s.family) : effect r = effect s := by
  obtain ⟨args, chain, hargs, hkey⟩ := args_of_key hr hk
  obtain ⟨args', chain', hargs', hkey'⟩ := args_of_key hs hk
  have hprovider' : s.provider ∉ [bytes "nftables", bytes "firewalld", bytes "ufw"] := by
    rwa [← hsame]
  have hr' := accepted_of_args hargs
  have hs' := accepted_of_args hargs'
  obtain ⟨rfl, rfl⟩ := args_iptables hprovider hargs
  obtain ⟨rfl, rfl⟩ := args_iptables hprovider' hargs'
  have hstarts : ∀ rule : Rule, Accepted rule → Starts ([32].intercalate (iptablesMatches rule)) := by
    intro rule hrule
    cases hmatches : iptablesMatches rule with
    | nil => simp [iptablesMatches] at hmatches
    | cons w ws =>
        refine intercalate_head (iptablesMatches_words hrule w ?_) ws
        rw [hmatches]
        exact List.mem_cons_self
  have hnot : ∀ p ∈ [bytes "nftables", bytes "firewalld", bytes "ufw"], r.provider ≠ p ∧
      s.provider ≠ p := fun p hp =>
    ⟨fun heq => hprovider (heq ▸ hp), fun heq => hprovider' (heq ▸ hp)⟩
  obtain ⟨hchain, htext⟩ := joined_of_key
    (hr'.isWord_chain (hnot _ (by simp)).1) (hs'.isWord_chain (hnot _ (by simp)).2)
    (hstarts r hr') (hstarts s hs') (hkey.symm.trans hkey')
  have hmatches : iptablesMatches r = iptablesMatches s := by
    rw [← words_intercalate (iptablesMatches_words hr'), htext,
      words_intercalate (iptablesMatches_words hs')]
  have hcommand : firewallProviderCommand r = firewallProviderCommand s := by
    rw [firewallProviderCommand, firewallProviderCommand, hsame, hfamily]
  rw [effect_of_args hargs, effect_of_args hargs', hcommand, hchain, hmatches]

theorem effect_ufw_iff (hprovider : r.provider = bytes "ufw") (hsame : r.provider = s.provider) :
    effect r = effect s ↔ ufwVerb r = ufwVerb s := by
  obtain ⟨args, chain, hargs, hkey⟩ := args_of_key hr hk
  obtain ⟨args', chain', hargs', hkey'⟩ := args_of_key hs hk
  have hprovider' : s.provider = bytes "ufw" := by rw [← hsame, hprovider]
  have hr' := accepted_of_args hargs
  have hs' := accepted_of_args hargs'
  obtain ⟨rfl, rfl⟩ := args_ufw hprovider hargs
  obtain ⟨rfl, rfl⟩ := args_ufw hprovider' hargs'
  -- The key leaves out the verb and the word behind it.
  have hdrop : ∀ rule : Rule, Accepted rule → ∀ w ∈ bytes "INPUT" :: (ufwArgs rule .add).drop 2,
      IsWord w := by
    intro rule hrule w hw
    rcases List.mem_cons.mp hw with rfl | hw
    · decide +kernel
    · rw [ufwArgs_add] at hw
      exact ufwTail_words hrule w (List.mem_of_mem_drop hw)
  have hwords : (ufwArgs r .add).drop 2 = (ufwArgs s .add).drop 2 := by
    have heq : bytes "INPUT" :: (ufwArgs r .add).drop 2 =
        bytes "INPUT" :: (ufwArgs s .add).drop 2 := by
      rw [← words_intercalate (hdrop r hr'), hkey.symm.trans hkey', words_intercalate (hdrop s hs')]
    exact (List.cons.inj heq).2
  have hlong : ∀ rule : Rule, firewallRuleKey rule = some k → firewallRuleArgs rule .add =
      .ok (ufwArgs rule .add, bytes "INPUT") → ufwTail rule ≠ [] := by
    intro rule hkey hargs hnil
    have hshort : [ufwVerb rule].length < 2 := by
      rw [List.length_singleton]
      exact Nat.one_lt_two
    rw [firewallRuleKey, hargs, ufwArgs_add, hnil] at hkey
    dsimp only at hkey
    rw [if_pos hshort] at hkey
    cases hkey
  have htail : ufwTail r = ufwTail s := by
    rw [ufwArgs_add, ufwArgs_add] at hwords
    rw [hr'.ufwTail_eq (hlong r hr hargs), hs'.ufwTail_eq (hlong s hs hargs')]
    change (ufwTail r).drop 1 = (ufwTail s).drop 1 at hwords
    rw [hwords]
  have hcommand : ∀ rule : Rule, rule.provider = bytes "ufw" →
      firewallProviderCommand rule = .ok (bytes "ufw") := fun rule hp => by
    have hdiff := names_ne.1.2
    rw [firewallProviderCommand, hp, if_neg hdiff.1, if_neg hdiff.2, if_pos rfl]
  have hnft := names_ne.2.2.2
  rw [effect_of_args hargs, effect_of_args hargs', hcommand r hprovider, hcommand s hprovider']
  change Except.ok (bytes "ufw", if bytes "ufw" = bytes "nft" then _ else _) =
    Except.ok (bytes "ufw", if bytes "ufw" = bytes "nft" then _ else _) ↔ _
  rw [if_neg hnft, if_neg hnft, ufwArgs_add, ufwArgs_add, htail]
  constructor
  · intro h
    injection h with h
    injection h with _ h
    exact (List.cons.inj h).1
  · intro h
    rw [h]

/-- Rules of one provider and family with the same key have the same effect, but for the verb of
ufw. -/
theorem effect_eq_iff (hsame : r.provider = s.provider) (hfamily : r.family = s.family) :
    effect r = effect s ↔ (r.provider = bytes "ufw" → ufwVerb r = ufwVerb s) := by
  by_cases hufw : r.provider = bytes "ufw"
  · rw [effect_ufw_iff hk hr hs hufw hsame]
    exact ⟨fun h _ => h, fun h => h hufw⟩
  · refine iff_of_true ?_ fun h => absurd h hufw
    by_cases hnft : r.provider = bytes "nftables"
    · exact effect_nft hk hr hs hnft hsame
    by_cases hzone : r.provider = bytes "firewalld"
    · exact effect_firewalld hk hr hs hzone hsame
    · exact effect_iptables hk hr hs (by simp [hnft, hzone, hufw]) hsame hfamily

end Equal

end WorkMesh.Firewall
