import WorkMesh.Firewall.Sync

/-!
# Syncing again

What a sync without a failed item leaves for the next sync of the same request,
and when the plan takes a rule for one that the target has.
-/

namespace WorkMesh.Firewall

open Encoding StateMachine

attribute [local irreducible] bytes

/-- What the handler relies on: iptables prints a stated rule behind its chain in words, and nft
holds an added rule where the command says. -/
structure SyncTools.Prints (tools : SyncTools) : Prop where
  iptables : ∀ family chain stated line, tools.listed family chain stated = some line →
    ∃ ws, (∀ w ∈ ws, IsWord w) ∧ line = [32].intercalate (bytes "-A" :: chain :: ws)
  nft : ∀ rules args r, tools.nftAdded rules args = some r →
    ∃ rest, args = bytes "add" :: bytes "rule" :: r.family :: r.table :: r.chain :: rest

/-! ## Sources and targets -/

def Native.isNft : Native → Bool
  | .nftables _ => true
  | _ => false

def Key.isNft : Key → Bool
  | .nftables _ _ _ _ => true
  | _ => false

theorem Native.key_isNft (r : Native) : r.key.isNft = r.isNft := by cases r <;> rfl

/-- The two backends that are synced. -/
def Synced (provider : Bytes) : Prop := provider = bytes "iptables" ∨ provider = bytes "nftables"

theorem synced_ne : bytes "iptables" ≠ bytes "nftables" ∧ bytes "iptables" ≠ bytes "firewalld" ∧
    bytes "iptables" ≠ bytes "ufw" ∧ bytes "ip6tables" ≠ bytes "nft" ∧
    bytes "iptables" ≠ bytes "nft" ∧ bytes "nft" ≠ bytes "iptables" ∧
    bytes "nft" ≠ bytes "ip6tables" := by
  decide +kernel

/-- The command of a rule of a synced backend. -/
theorem command_synced {rule : Rule} {operation : Operation} {command : Bytes} {args : List Bytes}
    (h : firewallCommand rule operation = .ok (command, args)) :
    (rule.provider = bytes "iptables" → (command = bytes "iptables" ∨ command = bytes "ip6tables") ∧
      args = [operation.flag, rule.chain] ++ iptablesMatches rule) ∧
    (rule.provider = bytes "nftables" → command = bytes "nft" ∧ args = nftArgs rule operation) := by
  unfold firewallCommand at h
  cases hargs : firewallRuleArgs rule operation with
  | error error => rw [hargs] at h; cases h
  | ok found =>
      rw [hargs] at h
      unfold firewallRuleArgs at hargs
      cases hvalid : validateFirewallRule rule with
      | some error => rw [hvalid] at hargs; cases hargs
      | none =>
          rw [hvalid] at hargs
          dsimp only at hargs
          refine ⟨fun hp => ?_, fun hp => ?_⟩
          · have hnft : rule.provider ≠ bytes "nftables" := hp ▸ synced_ne.1
            have hzone : rule.provider ≠ bytes "firewalld" := hp ▸ synced_ne.2.1
            have hufw : rule.provider ≠ bytes "ufw" := hp ▸ synced_ne.2.2.1
            rw [if_neg hnft, if_neg hzone, if_neg hufw] at hargs
            rw [firewallProviderCommand, if_neg hnft, if_neg hzone, if_neg hufw, if_pos hp] at h
            unfold iptablesArgs at hargs
            split at hargs
            · cases hargs
            · cases hargs
              cases h
              refine ⟨?_, rfl⟩
              split
              · exact .inr rfl
              · exact .inl rfl
          · rw [if_pos hp] at hargs
            rw [firewallProviderCommand, if_pos hp] at h
            cases hargs
            cases h
            exact ⟨rfl, rfl⟩

section Kinds
variable {tools : SyncTools} {rule : Rule} {command : Bytes} {args : List Bytes}

/-- A command that deletes a rule of a synced backend deletes one of this backend. -/
theorem target_synced (hprovider : Synced rule.provider)
    (h : firewallCommand rule .delete = .ok (command, args)) {t : Target}
    (ht : tools.target command args = some t) :
    ∃ key, t = .rule key ∧ key.isNft = decide (rule.provider = bytes "nftables") := by
  obtain ⟨hiptables, hnft⟩ := command_synced h
  rcases hprovider with hp | hp
  · obtain ⟨hcommand, hargs⟩ := hiptables hp
    have hkind : decide (rule.provider = bytes "nftables") = false :=
      decide_eq_false (hp ▸ synced_ne.1)
    rw [hargs] at ht
    unfold Tools.target at ht
    rw [if_pos hcommand] at ht
    simp only [List.cons_append, List.nil_append] at ht
    split at ht
    · obtain ⟨line, -, hline⟩ := Option.map_eq_some_iff.mp ht
      exact ⟨_, hline.symm, hkind.symm⟩
    · cases ht
  · obtain ⟨hcommand, -⟩ := hnft hp
    have hother : ¬ (command = bytes "iptables" ∨ command = bytes "ip6tables") := by
      rw [hcommand]
      exact not_or.mpr ⟨synced_ne.2.2.2.2.2.1, synced_ne.2.2.2.2.2.2⟩
    unfold Tools.target at ht
    rw [if_neg hother, if_pos hcommand] at ht
    split at ht
    · split at ht
      · cases ht
        exact ⟨_, rfl, (decide_eq_true hp).symm⟩
      · cases ht
    · cases ht

/-- The chain of a rule that a sync adds. -/
def InTarget (rule : Rule) : Prop :=
  rule.provider = bytes "iptables" ∧ rule.chain = bytes "WORKMESH_BASIC" ∨
    rule.provider = bytes "nftables" ∧ rule.chain = bytes "input"

theorem InTarget.synced (h : InTarget rule) : Synced rule.provider := by
  rcases h with ⟨h, -⟩ | ⟨h, -⟩
  · exact .inl h
  · exact .inr h

/-- A rule that a sync adds is one of the target, outside the chain that is searched. -/
theorem added_synced (hprints : tools.Prints) (htarget : InTarget rule) {rules : List Native}
    {r : Native} (h : firewallCommand rule .add = .ok (command, args))
    (hr : tools.added rules command args = some r) :
    r.isNft = decide (rule.provider = bytes "nftables") ∧
      ∀ provider, r.listedIn (targetChain provider) = none := by
  obtain ⟨hiptables, hnft⟩ := command_synced h
  rcases htarget with ⟨hp, hchain⟩ | ⟨hp, hchain⟩
  · obtain ⟨hcommand, hargs⟩ := hiptables hp
    have hkind : decide (rule.provider = bytes "nftables") = false :=
      decide_eq_false (hp ▸ synced_ne.1)
    rw [hargs] at hr
    unfold SyncTools.added at hr
    rw [if_pos hcommand] at hr
    simp only [List.cons_append, List.nil_append] at hr
    split at hr
    case isFalse => cases hr
    obtain ⟨line, hline, hnative⟩ := Option.map_eq_some_iff.mp hr
    subst hnative
    refine ⟨hkind.symm, fun provider => ?_⟩
    obtain ⟨ws, hws, hline⟩ := hprints.iptables _ _ _ _ hline
    have hwords : ∀ w ∈ bytes "-A" :: rule.chain :: ws, IsWord w := by
      intro w hw
      rcases List.mem_cons.mp hw with rfl | hw
      · decide +kernel
      rcases List.mem_cons.mp hw with rfl | hw
      · rw [hchain]
        decide +kernel
      · exact hws w hw
    have htrim : words (trimSpace line) = bytes "-A" :: rule.chain :: ws := by
      rw [hline, trimSpace_joined hwords, words_intercalate hwords]
    have hsearched : targetChain provider ≠ [] ∧ trimSpace (targetChain provider) ≠ [] ∧
        bytes "WORKMESH_BASIC" ≠ targetChain provider := by
      unfold targetChain
      split <;> decide +kernel
    change iptablesItem _ (targetChain provider) line = none
    unfold iptablesItem
    dsimp only
    rw [htrim]
    split
    · rfl
    · cases ws with
      | nil => rfl
      | cons third rest =>
          dsimp only
          rw [if_pos ⟨hsearched.2.1, hchain ▸ hsearched.2.2⟩]
  · obtain ⟨hcommand, hargs⟩ := hnft hp
    have hother : ¬ (command = bytes "iptables" ∨ command = bytes "ip6tables") := by
      rw [hcommand]
      exact not_or.mpr ⟨synced_ne.2.2.2.2.2.1, synced_ne.2.2.2.2.2.2⟩
    unfold SyncTools.added at hr
    rw [if_neg hother, if_pos hcommand] at hr
    obtain ⟨record, hrecord, hnative⟩ := Option.map_eq_some_iff.mp hr
    subst hnative
    refine ⟨(decide_eq_true hp).symm, fun provider => ?_⟩
    obtain ⟨rest, hrest⟩ := hprints.nft _ _ _ hrecord
    have hplace : record.chain = rule.chain := by
      rw [hargs, nftArgs_add] at hrest
      simp only [List.cons.injEq] at hrest
      exact hrest.2.2.2.2.1.symm
    have hsearched : targetChain provider ≠ [] ∧ targetChain provider ≠ bytes "input" := by
      unfold targetChain
      split <;> decide +kernel
    unfold Native.listedIn nftItem
    dsimp only
    split
    · rfl
    · rw [if_pos (.inr ⟨hsearched.1, by rw [hplace, hchain]; exact hsearched.2⟩)]

end Kinds

/-! ## The plan -/

def backends (provider : Bytes) : List Backend :=
  if provider = bytes "iptables" then [.ipv4, .ipv6] else [.nftables]

/-- The rules of a backend in the order of its listing. -/
def Live.natives (live : Live) (provider : Bytes) : List Native :=
  (backends provider).flatMap fun b => live.rules.filter fun r => r.backend = b

theorem mem_natives {live : Live} {provider : Bytes} {r : Native} :
    r ∈ live.natives provider ↔ r ∈ live.rules ∧ r.backend ∈ backends provider := by
  simp only [Live.natives, List.mem_flatMap, List.mem_filter, decide_eq_true_eq]
  constructor
  · rintro ⟨b, hb, hr, rfl⟩
    exact ⟨hr, hb⟩
  · rintro ⟨hr, hb⟩
    exact ⟨_, hb, hr, rfl⟩

theorem nativesOf_eq (live : Live) (reads : Backend → Bool) (provider : Bytes) :
    live.nativesOf reads provider =
      if ∀ b ∈ backends provider, reads b = true then some (live.natives provider) else none := by
  unfold Live.nativesOf Live.natives backends
  split <;> simp

/-- The kind of the rules that a backend lists. -/
theorem isNft_of_backend {provider : Bytes} (hprovider : Synced provider) {r : Native}
    (h : r.backend ∈ backends provider) : r.isNft = decide (provider = bytes "nftables") := by
  rcases hprovider with rfl | rfl
  · rw [decide_eq_false synced_ne.1]
    rw [backends, if_pos rfl] at h
    cases r with
    | iptables family line => rfl
    | nftables record => exact absurd h (by simp [Native.backend])
    | firewalld zone line => rfl
  · rw [decide_eq_true rfl]
    rw [backends, if_neg (Ne.symm synced_ne.1), List.mem_singleton] at h
    cases r with
    | iptables family line => cases family <;> cases h
    | nftables record => rfl
    | firewalld zone line => cases h

section Plan
variable (live : Live) (source target : Bytes)

/-- The rules that the plan is about. -/
def sourceRules : List Rule := (live.natives source).filterMap (sourceRule source)

/-- The keys of the rules that the plan takes for those of the target. -/
def targetKeys : List (Option Bytes) :=
  ((live.natives target).filterMap (Native.listedIn (targetChain target))).map firewallRuleKey

def planned : List SyncItem :=
  (sourceRules live source).map fun rule =>
    { rule, status := syncStatus target (targetKeys live target) rule }

end Plan

theorem provider_of_listedIn {chain : Bytes} {r : Native} {rule : Rule}
    (h : r.listedIn chain = some rule) :
    rule.provider = if r.isNft then bytes "nftables" else bytes "iptables" := by
  unfold Native.listedIn at h
  cases r with
  | iptables family line =>
      dsimp only at h
      unfold iptablesItem at h
      dsimp only at h
      split_ifs at h
      split at h
      · split_ifs at h
        all_goals
          cases h
          dsimp only
          rw [(place_iptablesWords _ _).1]
          rfl
      · cases h
  | nftables record =>
      dsimp only at h
      unfold nftItem at h
      dsimp only at h
      split_ifs at h
      all_goals
        cases h
        dsimp only
        rw [(place_parseNftExpressions _ _).1]
        rfl
  | firewalld zone line => cases h

theorem synced_of_listedIn {chain : Bytes} {r : Native} {rule : Rule}
    (h : r.listedIn chain = some rule) : Synced rule.provider := by
  have hprovider := provider_of_listedIn h
  split at hprovider
  · exact .inr hprovider
  · exact .inl hprovider

theorem key_ne_none {rule : Rule} (h : Synced rule.provider) : firewallRuleKey rule ≠ none := by
  intro hkey
  have hufw := ((firewallRuleKey_none_iff rule).mp hkey).2.1
  rcases h with h | h
  · exact synced_ne.2.2.1 (h.symm.trans hufw)
  · exact names_ne.2.1 (h.symm.trans hufw)

/-- The rule that a source rule becomes. -/
theorem target_of_source {source rule : Rule} {target : Bytes} (htarget : Synced target)
    (h : firewallSyncTargetRule source target = .ok rule) :
    rule.provider = target ∧ InTarget rule := by
  unfold firewallSyncTargetRule at h
  split at h
  · cases h
  dsimp only at h
  rcases htarget with rfl | rfl
  · rw [if_neg synced_ne.1] at h
    cases h
    exact ⟨rfl, .inl ⟨rfl, rfl⟩⟩
  · rw [if_pos rfl] at h
    cases h
    exact ⟨rfl, .inr ⟨rfl, rfl⟩⟩

/-- A request that has a plan has one for any rules. -/
theorem buildFirewallSyncPlan_ok {live : Live} {reads : Backend → Bool} {active : Bytes}
    {r : SyncRequest} {items : List SyncItem}
    (h : buildFirewallSyncPlan live reads active r = .ok items) :
    Synced (r.source active) ∧ Synced r.targetProvider ∧ ∀ other : Live,
      buildFirewallSyncPlan other reads active r =
        .ok (planned other (r.source active) r.targetProvider) := by
  unfold buildFirewallSyncPlan at h ⊢
  cases hvalid : validateFirewallSyncRequest r with
  | some refusal => rw [hvalid] at h; cases h
  | none =>
      rw [hvalid] at h
      dsimp only at h ⊢
      split at h
      · cases h
      rename_i hsource
      have htarget : r.targetProvider ∈ [bytes "iptables", bytes "nftables"] := by
        by_contra hnot
        unfold validateFirewallSyncRequest at hvalid
        dsimp only at hvalid
        rw [if_pos hnot] at hvalid
        split at hvalid <;> cases hvalid
      have hsynced : ∀ p, p ∈ [bytes "iptables", bytes "nftables"] → Synced p := by
        intro p hp
        simpa [Synced] using hp
      have hsource' := hsynced _ (not_not.mp hsource)
      refine ⟨hsource', hsynced _ htarget, fun other => ?_⟩
      rw [if_neg hsource]
      unfold firewallSyncInventory targetRules at h ⊢
      rw [nativesOf_eq, nativesOf_eq] at h ⊢
      by_cases hreads : ∀ b ∈ backends (r.source active), reads b = true
      · by_cases hreads' : ∀ b ∈ backends r.targetProvider, reads b = true
        · rw [if_pos hreads, if_pos hreads']
          dsimp only [Option.map_some]
          rw [if_neg]
          · rfl
          · rintro (hnone | hany)
            · obtain ⟨rule, hrule, hkey⟩ := List.mem_map.mp hnone
              obtain ⟨native, -, hlisted⟩ := List.mem_filterMap.mp hrule
              exact key_ne_none (synced_of_listedIn hlisted) hkey
            · obtain ⟨rule, -, hpanics⟩ := List.any_eq_true.mp hany
              unfold panics at hpanics
              split at hpanics
              · cases hpanics
              · rename_i converted hconverted
                obtain ⟨-, hin⟩ := target_of_source (hsynced _ htarget) hconverted
                exact key_ne_none hin.synced (of_decide_eq_true hpanics)
        · rw [if_neg hreads'] at h
          split_ifs at h
          cases h
      · rw [if_neg hreads] at h
        cases h

/-- An item of a rule of the source that becomes one of the target. -/
structure Between (source target : Bytes) (item : SyncItem) : Prop where
  source : item.rule.provider = source
  target : ∀ t, item.status = .ready t → t.provider = target ∧ InTarget t

theorem between_of_planned {live : Live} {source target : Bytes} (hsource : Synced source)
    (htarget : Synced target) {item : SyncItem} (h : item ∈ planned live source target) :
    Between source target item := by
  obtain ⟨rule, hrule, rfl⟩ := List.mem_map.mp h
  obtain ⟨r, hr, hlisted⟩ := List.mem_filterMap.mp hrule
  constructor
  · change rule.provider = source
    have hprovider := provider_of_listedIn (Option.filter_eq_some_iff.mp hlisted).1
    rw [isNft_of_backend hsource (mem_natives.mp hr).2] at hprovider
    rcases hsource with rfl | rfl
    · rwa [decide_eq_false synced_ne.1] at hprovider
    · rwa [decide_eq_true rfl] at hprovider
  · intro t ht
    change syncStatus target _ rule = .ready t at ht
    unfold syncStatus at ht
    split at ht
    · cases ht
    · split at ht
      · cases ht
      · cases ht
        exact target_of_source htarget ‹_›

/-! ## The run -/

/-- What the command deletes that would delete a source rule. -/
def deletedKey (tools : SyncTools) (rule : Rule) : Option Key :=
  match firewallCommand rule .delete with
  | .error _ => none
  | .ok (command, args) => (tools.target command args).bind Target.key?

def deletedBy (tools : SyncTools) (reset : Bool) (item : SyncItem) : Option Key :=
  match item.status with
  | .ready _ => if reset then deletedKey tools item.rule else none
  | _ => none

/-- A rule that a sync has added. -/
structure Added (target : Bytes) (r : Native) : Prop where
  kind : r.isNft = decide (target = bytes "nftables")
  hidden : ∀ provider, r.listedIn (targetChain provider) = none

section Run
variable (tools : SyncTools) (reset : Bool) (outcomes : ℕ → ItemOutcomes)

/-- A source rule is deleted, or one more item has failed. -/
theorem resetSource_spec (s : SyncState) (index : ℕ) (source target : Rule) (command : Bytes) :
    (resetSource tools outcomes s index source target command).failed = s.failed + 1 ∨
    (resetSource tools outcomes s index source target command).failed = s.failed ∧
      ∃ command' args t, firewallCommand source .delete = .ok (command', args) ∧
        tools.target command' args = some t ∧
        (resetSource tools outcomes s index source target command).live = s.live.delete t := by
  have hundo : ∀ (s' : SyncState) (text : Bytes), s'.failed = s.failed →
      (undoTarget tools outcomes s' index target command text).failed = s.failed + 1 := by
    intro s' text hs'
    unfold undoTarget
    cases firewallRuleArgs target .delete with
    | error _ => exact congrArg (· + 1) hs'
    | ok _ => exact congrArg (· + 1) hs'
  unfold resetSource
  cases hcommand : firewallCommand source .delete with
  | error text => exact .inl (hundo s text rfl)
  | ok found =>
      obtain ⟨command', args⟩ := found
      dsimp only
      cases htarget : tools.target command' args with
      | none =>
          simp only [SyncTools.runDelete, htarget]
          exact .inl (hundo _ _ rfl)
      | some t =>
          simp only [SyncTools.runDelete, htarget]
          cases (outcomes index).delete with
          | failed text applied => exact .inl (hundo _ _ rfl)
          | done =>
              dsimp only
              by_cases hheld : s.live.holds t = true
              · rw [if_pos hheld]
                exact .inr ⟨rfl, command', args, t, rfl, htarget, rfl⟩
              · rw [if_neg hheld]
                exact .inl (hundo _ _ rfl)

theorem syncItem_unready {s : SyncState} {entry : SyncItem × ℕ}
    (h : ∀ t, entry.1.status ≠ .ready t) :
    (syncItem tools reset outcomes s entry).live = s.live ∧
      (syncItem tools reset outcomes s entry).commands = s.commands ∧
      (syncItem tools reset outcomes s entry).failed = s.failed := by
  unfold syncItem
  dsimp only
  cases hstatus : entry.1.status with
  | blocked reason => exact ⟨rfl, rfl, rfl⟩
  | existing => exact ⟨rfl, rfl, rfl⟩
  | ready t => exact absurd hstatus (h t)

/-- A ready item adds its rule and, where the source is reset, deletes its source rule, or one
more item has failed. -/
theorem syncItem_ready {s : SyncState} {entry : SyncItem × ℕ} {t : Rule}
    (h : entry.1.status = .ready t) :
    (syncItem tools reset outcomes s entry).failed = s.failed + 1 ∨
    (syncItem tools reset outcomes s entry).failed = s.failed ∧
      ∃ command args r, firewallCommand t .add = .ok (command, args) ∧
        tools.added s.live.rules command args = some r ∧
        (reset = false ∧ (syncItem tools reset outcomes s entry).live.rules =
            s.live.rules ++ [r] ∨
          reset = true ∧ ∃ command' args' target,
            firewallCommand entry.1.rule .delete = .ok (command', args') ∧
            tools.target command' args' = some target ∧
            (syncItem tools reset outcomes s entry).live =
              { s.live with rules := s.live.rules ++ [r] }.delete target) := by
  unfold syncItem
  dsimp only
  rw [h]
  dsimp only
  cases hcommand : firewallCommand t .add with
  | error text => exact .inl rfl
  | ok found =>
      obtain ⟨command, args⟩ := found
      dsimp only
      cases hadded : tools.added s.live.rules command args with
      | none =>
          simp only [SyncTools.runAdd, hadded]
          exact .inl rfl
      | some r =>
          simp only [SyncTools.runAdd, hadded]
          cases (outcomes entry.2).add with
          | failed text applied => exact .inl rfl
          | done =>
              dsimp only
              cases reset with
              | false => exact .inr ⟨rfl, command, args, r, rfl, hadded, .inl ⟨rfl, rfl⟩⟩
              | true =>
                  rcases resetSource_spec tools outcomes
                    { s with
                      live := { s.live with rules := s.live.rules ++ [r] }
                      commands := s.commands ++ [(command, args)]
                      succeeded := s.succeeded + 1 } entry.2 entry.1.rule t command with
                    hfailed | ⟨hfailed, command', args', target, hdelete, htarget, hlive⟩
                  · exact .inl hfailed
                  · exact .inr ⟨hfailed, command, args, r, rfl, hadded,
                      .inr ⟨rfl, command', args', target, hdelete, htarget, hlive⟩⟩

theorem syncItem_failed (s : SyncState) (entry : SyncItem × ℕ) :
    s.failed ≤ (syncItem tools reset outcomes s entry).failed := by
  by_cases h : ∃ t, entry.1.status = .ready t
  · obtain ⟨t, ht⟩ := h
    rcases syncItem_ready tools reset outcomes (s := s) ht with
      hfailed | ⟨hfailed, -⟩ <;> omega
  · exact (syncItem_unready tools reset outcomes (not_exists.mp h)).2.2.ge

theorem syncItems_failed (entries : List (SyncItem × ℕ)) (s : SyncState) :
    s.failed ≤ (entries.foldl (syncItem tools reset outcomes) s).failed := by
  induction entries generalizing s with
  | nil => exact Nat.le_refl _
  | cons entry entries ih => exact (syncItem_failed tools reset outcomes s entry).trans (ih _)

/-- Items of which none is ready run no command. -/
theorem syncItems_unready (entries : List (SyncItem × ℕ)) (s : SyncState)
    (h : ∀ e ∈ entries, ∀ t, e.1.status ≠ .ready t) :
    (entries.foldl (syncItem tools reset outcomes) s).live = s.live ∧
      (entries.foldl (syncItem tools reset outcomes) s).commands = s.commands := by
  induction entries generalizing s with
  | nil => exact ⟨rfl, rfl⟩
  | cons entry entries ih =>
      obtain ⟨hlive, hcommands, -⟩ :=
        syncItem_unready tools reset outcomes (s := s)
          (h entry List.mem_cons_self)
      obtain ⟨hlive', hcommands'⟩ :=
        ih (syncItem tools reset outcomes s entry) fun e he => h e (List.mem_cons_of_mem _ he)
      exact ⟨hlive'.trans hlive, hcommands'.trans hcommands⟩

section Done
variable {tools reset outcomes} {source target : Bytes}

/-- An item that does not fail deletes its source rule if it has to, and adds only rules of the
target. -/
theorem syncItem_done (hprints : tools.Prints) (hsource : Synced source) (htarget : Synced target)
    (hreset : reset = true → source ≠ target) {s : SyncState} {entry : SyncItem × ℕ}
    (hentry : Between source target entry.1) {l added : List Native}
    (hl : s.live.rules = l ++ added) (hadded : ∀ r ∈ added, Added target r)
    (hdone : (syncItem tools reset outcomes s entry).failed = s.failed) :
    ∃ more, (syncItem tools reset outcomes s entry).live.rules =
        (deletedBy tools reset entry.1).toList.foldl (fun l k => l.eraseP fun a => a.key = k) l ++
          more ∧
      ∀ r ∈ more, Added target r := by
  by_cases hready : ∃ t, entry.1.status = .ready t
  · obtain ⟨t, ht⟩ := hready
    obtain ⟨hprovider, hin⟩ := hentry.target t ht
    rcases syncItem_ready tools reset outcomes (s := s) ht with
      hfailed | ⟨-, command, args, r, hcommand, hr, hrules⟩
    · omega
    obtain ⟨hkind, hhidden⟩ := added_synced hprints hin hcommand hr
    have hmore : ∀ q ∈ added ++ [r], Added target q := by
      intro q hq
      rcases List.mem_append.mp hq with hq | hq
      · exact hadded q hq
      · rw [List.mem_singleton.mp hq]
        exact ⟨by rw [hkind, hprovider], hhidden⟩
    rcases hrules with ⟨rfl, hrules⟩ | ⟨rfl, command', args', deleted, hdelete, hdeleted, hlive⟩
    · refine ⟨added ++ [r], ?_, hmore⟩
      have hnone : deletedBy tools false entry.1 = none := by
        unfold deletedBy
        rw [ht]
        rfl
      rw [hrules, hl, hnone, List.append_assoc]
      rfl
    · have hsynced : Synced entry.1.rule.provider := by rwa [hentry.source]
      obtain ⟨key, rfl, hkey⟩ := target_synced hsynced hdelete hdeleted
      have hsome : deletedBy tools true entry.1 = some key := by
        unfold deletedBy deletedKey
        rw [ht, hdelete]
        dsimp only
        rw [hdeleted]
        rfl
      -- The rules that were added are of the other kind than the one that is deleted.
      have hother : ∀ q ∈ added ++ [r], q.key ≠ key := by
        intro q hq heq
        have hsame : decide (target = bytes "nftables") = decide (source = bytes "nftables") := by
          rw [← (hmore q hq).kind, ← q.key_isNft, heq, hkey, hentry.source]
        refine hreset rfl ?_
        rcases hsource with rfl | rfl <;> rcases htarget with rfl | rfl
        · rfl
        · exact absurd hsame (by simp [synced_ne.1])
        · exact absurd hsame (by simp [synced_ne.1])
        · rfl
      refine ⟨added ++ [r], ?_, hmore⟩
      rw [hlive, hsome]
      change (s.live.rules ++ [r]).eraseP _ = l.eraseP _ ++ _
      rw [hl, List.append_assoc]
      by_cases hheld : ∃ q ∈ l, decide (q.key = key) = true
      · obtain ⟨q, hq, hqkey⟩ := hheld
        exact List.eraseP_append_left (p := fun a => decide (a.key = key)) hqkey _ hq
      · have hnot : ∀ q ∈ l, ¬ decide (q.key = key) = true := fun q hq h => hheld ⟨q, hq, h⟩
        rw [List.eraseP_append_right _ hnot, List.eraseP_of_forall_not hnot,
          List.eraseP_of_forall_not]
        intro q hq
        simpa using hother q hq
  · refine ⟨added, ?_, hadded⟩
    have hnot := not_exists.mp hready
    have hnone : deletedBy tools reset entry.1 = none := by
      unfold deletedBy
      cases hstatus : entry.1.status with
      | blocked reason => rfl
      | existing => rfl
      | ready t => exact absurd hstatus (hnot t)
    rw [(syncItem_unready tools reset outcomes hnot).1, hl, hnone]
    rfl

/-- What a run without a failed item leaves. -/
theorem syncItems_done (hprints : tools.Prints) (hsource : Synced source)
    (htarget : Synced target) (hreset : reset = true → source ≠ target)
    (entries : List (SyncItem × ℕ)) (hentries : ∀ e ∈ entries, Between source target e.1)
    {s : SyncState} {l added : List Native} (hl : s.live.rules = l ++ added)
    (hadded : ∀ r ∈ added, Added target r)
    (hdone : (entries.foldl (syncItem tools reset outcomes) s).failed = s.failed) :
    ∃ more, (entries.foldl (syncItem tools reset outcomes) s).live.rules =
        (entries.filterMap fun e => deletedBy tools reset e.1).foldl
          (fun l k => l.eraseP fun a => a.key = k) l ++ more ∧
      ∀ r ∈ more, Added target r := by
  induction entries generalizing s l added with
  | nil => exact ⟨added, hl, hadded⟩
  | cons entry entries ih =>
      have hone := syncItem_failed tools reset outcomes s entry
      have hrest := syncItems_failed tools reset outcomes
        entries (syncItem tools reset outcomes s entry)
      rw [List.foldl_cons] at hdone
      obtain ⟨more, hrules, hmore⟩ := syncItem_done hprints hsource htarget hreset
        (hentries entry List.mem_cons_self) hl hadded (Nat.le_antisymm (hrest.trans hdone.le) hone)
      obtain ⟨more, hrules, hmore⟩ := ih (fun e he => hentries e (List.mem_cons_of_mem _ he))
        hrules hmore (Nat.le_antisymm (hdone.le.trans hone) hrest)
      refine ⟨more, ?_, hmore⟩
      have hkeys : ((entry :: entries).filterMap fun e => deletedBy tools reset e.1) =
          (deletedBy tools reset entry.1).toList ++
            entries.filterMap fun e => deletedBy tools reset e.1 := by
        rw [List.filterMap_cons]
        cases deletedBy tools reset entry.1 <;> rfl
      rw [List.foldl_cons, hrules, hkeys, List.foldl_append]

theorem executeFirewallSync_done (hprints : tools.Prints) (hsource : Synced source)
    (htarget : Synced target) (hreset : reset = true → source ≠ target) {live : Live}
    (hdone : (executeFirewallSync tools reset outcomes live
      (planned live source target)).failed = 0) :
    ∃ more, (executeFirewallSync tools reset outcomes live
        (planned live source target)).live.rules =
        leaveOut Native.key
          (((planned live source target).filterMap (deletedBy tools reset)).count ·)
          live.rules ++ more ∧
      ∀ r ∈ more, Added target r := by
  unfold executeFirewallSync at hdone ⊢
  have hfailed := syncItems_failed tools reset outcomes
    (planned live source target).zipIdx
    { live, failed := (planned live source target).countP fun item => item.status.isBlocked }
  obtain ⟨more, hrules, hmore⟩ := syncItems_done hprints hsource htarget hreset _
    (fun e he => between_of_planned hsource htarget (List.fst_mem_of_mem_zipIdx he))
    (List.append_nil live.rules).symm (by simp)
    (Nat.le_antisymm (by rw [hdone]; exact Nat.zero_le _) hfailed)
  refine ⟨more, ?_, hmore⟩
  rw [hrules, foldl_eraseP]
  congr 2
  funext k
  congr 1
  calc (planned live source target).zipIdx.filterMap (fun e => deletedBy tools reset e.1)
      = ((planned live source target).zipIdx.map Prod.fst).filterMap (deletedBy tools reset) := by
        rw [List.filterMap_map]
        rfl
    _ = (planned live source target).filterMap (deletedBy tools reset) := by
        rw [List.zipIdx_map_fst]

end Done

end Run

/-! ## The next sync -/

section Next
variable (tools : SyncTools) (reads : Backend → Bool) (active : Bytes) (request : SyncRequest)

/-- A sync of the same request runs no command and has all its rules for existing ones. -/
def Settled (live : Live) : Prop :=
  ∀ outcomes, ∃ items s, handleFirewallSync tools reads active request outcomes live =
      .ok (items, s) ∧
    s.commands = [] ∧ ∀ item ∈ items, item.status = .existing

variable (live : Live) (source target : Bytes)

/-- A rule that the plan would rewrite and add to the target. -/
def Ready (r : Native) : Prop :=
  r.backend ∈ backends source ∧ ∃ rule t, sourceRule source r = some rule ∧
    syncStatus target (targetKeys live target) rule = .ready t

/-- Every ready rule is one of those that the deletions of the ready rules take, which needs the
source to be reset and to be another backend than the target. -/
def Moves (reset : Bool) : Prop :=
  ∀ front r back, live.rules = front ++ r :: back → Ready live source target r →
    reset = true ∧ source ≠ target ∧
      front.countP (fun q => q.key = r.key) <
        ((planned live source target).filterMap (deletedBy tools reset)).count r.key

variable {tools reads active request live source target}

/-- Deletions of the other kind of rules and rules outside the searched chain leave the keys of
the target. -/
theorem targetKeys_after (htarget : Synced target) {after : Live} {n : Key → ℕ}
    {more : List Native} (hrules : after.rules = leaveOut Native.key n live.rules ++ more)
    (hmore : ∀ r ∈ more, Added target r)
    (hn : ∀ k : Key, k.isNft = decide (target = bytes "nftables") → n k = 0) :
    targetKeys after target = targetKeys live target := by
  unfold targetKeys Live.natives
  rw [List.filterMap_flatMap, List.filterMap_flatMap]
  congr 1
  refine List.flatMap_congr fun b hb => ?_
  have hhidden : (more.filter fun r => r.backend = b).filterMap
      (Native.listedIn (targetChain target)) = [] := by
    rw [List.filterMap_eq_nil_iff]
    intro r hr
    exact (hmore r (List.mem_of_mem_filter hr)).hidden target
  rw [hrules, List.filter_append, List.filterMap_append, hhidden, List.append_nil,
    filter_leaveOut]
  intro r hr
  refine hn _ ?_
  rw [r.key_isNft]
  exact isNft_of_backend htarget (by rwa [of_decide_eq_true hr])

theorem isNft_of_deletedBy {reset : Bool} {item : SyncItem} {k : Key}
    (hitem : Between source target item) (hsource : Synced source)
    (h : deletedBy tools reset item = some k) :
    reset = true ∧ k.isNft = decide (source = bytes "nftables") := by
  unfold deletedBy at h
  split at h
  case h_2 => cases h
  split at h
  case isFalse => cases h
  refine ⟨‹_›, ?_⟩
  unfold deletedKey at h
  split at h
  · cases h
  · rename_i command args hcommand
    obtain ⟨t, ht, hkey⟩ := Option.bind_eq_some_iff.mp h
    obtain ⟨key, rfl, hkind⟩ := target_synced (by rwa [hitem.source]) hcommand ht
    cases hkey
    rw [hkind, hitem.source]

theorem decide_nft_ne (hsource : Synced source) (htarget : Synced target) (h : source ≠ target) :
    decide (source = bytes "nftables") ≠ decide (target = bytes "nftables") := by
  rcases hsource with rfl | rfl <;> rcases htarget with rfl | rfl
  · exact absurd rfl h
  · simp [synced_ne.1]
  · simp [synced_ne.1]
  · exact absurd rfl h

theorem settled_iff {items : List SyncItem}
    (h : buildFirewallSyncPlan live reads active (decodeFirewallSyncRequest request) = .ok items)
    (after : Live) :
    Settled tools reads active request after ↔
      ∀ item ∈ planned after ((decodeFirewallSyncRequest request).source active)
        (decodeFirewallSyncRequest request).targetProvider, item.status = .existing := by
  obtain ⟨-, -, hplan⟩ := buildFirewallSyncPlan_ok h
  have hrun : ∀ outcomes, handleFirewallSync tools reads active request outcomes after =
      .ok (planned after ((decodeFirewallSyncRequest request).source active)
          (decodeFirewallSyncRequest request).targetProvider,
        executeFirewallSync tools request.resetSource outcomes after
          (planned after ((decodeFirewallSyncRequest request).source active)
            (decodeFirewallSyncRequest request).targetProvider)) := by
    intro outcomes
    rw [handleFirewallSync, hplan after]
    rfl
  constructor
  · intro hsettled
    obtain ⟨items', s, heq, -, hall⟩ := hsettled fun _ => ⟨.done, .done, .done⟩
    rw [hrun] at heq
    cases heq
    exact hall
  · intro hall outcomes
    refine ⟨_, _, hrun outcomes, ?_, hall⟩
    refine (syncItems_unready tools request.resetSource outcomes _ _ fun e he t ht => ?_).2
    rw [hall _ (List.fst_mem_of_mem_zipIdx he)] at ht
    cases ht

/-- The statuses of a plan are those of the rules. -/
theorem forall_planned {after : Live} {P : Status → Prop} :
    (∀ item ∈ planned after source target, P item.status) ↔
      ∀ r ∈ after.rules, r.backend ∈ backends source → ∀ rule, sourceRule source r = some rule →
        P (syncStatus target (targetKeys after target) rule) := by
  constructor
  · intro h r hr hb rule hrule
    exact h _ (List.mem_map.mpr ⟨rule, List.mem_filterMap.mpr
      ⟨r, mem_natives.mpr ⟨hr, hb⟩, hrule⟩, rfl⟩)
  · intro h item hitem
    obtain ⟨rule, hrule, rfl⟩ := List.mem_map.mp hitem
    obtain ⟨r, hr, hlisted⟩ := List.mem_filterMap.mp hrule
    exact h r (mem_natives.mp hr).1 (mem_natives.mp hr).2 rule hlisted

/-- A sync without a failed item has no blocked rule. -/
theorem unblocked_of_done {reset : Bool} {outcomes : ℕ → ItemOutcomes}
    (hdone : (executeFirewallSync tools reset outcomes live
      (planned live source target)).failed = 0) :
    ∀ item ∈ planned live source target, item.status.isBlocked = false := by
  have hfailed := syncItems_failed tools reset outcomes (planned live source target).zipIdx
    { live, failed := (planned live source target).countP fun item => item.status.isBlocked }
  have hzero : ((planned live source target).countP fun item => item.status.isBlocked) = 0 :=
    Nat.le_zero.mp (hfailed.trans hdone.le)
  intro item hitem
  simpa using List.countP_eq_zero.mp hzero item hitem

theorem existing_of_unready {after : Live} (hkeys : targetKeys after target = targetKeys live target)
    (hblocked : ∀ item ∈ planned live source target, item.status.isBlocked = false)
    (hrules : ∀ r ∈ after.rules, r.backend ∈ backends source →
      r ∈ live.rules ∧ ¬ Ready live source target r) :
    ∀ item ∈ planned after source target, item.status = .existing := by
  rw [forall_planned (P := fun status => status = .existing)]
  intro r hr hb rule hrule
  obtain ⟨hr, hready⟩ := hrules r hr hb
  have hone := forall_planned (P := fun status => status.isBlocked = false)
    |>.mp hblocked r hr hb rule hrule
  rw [hkeys]
  cases hstatus : syncStatus target (targetKeys live target) rule with
  | blocked reason =>
      rw [hstatus] at hone
      cases hone
  | existing => rfl
  | ready t => exact absurd ⟨hb, rule, t, hrule, hstatus⟩ hready

section After
variable {reset : Bool} {outcomes : ℕ → ItemOutcomes}

/-- Where the deletions are of the source alone, the keys of the target stay. -/
theorem executeFirewallSync_left (hprints : tools.Prints) (hsource : Synced source)
    (htarget : Synced target) (hother : ¬ (reset = true ∧ source = target))
    (hdone : (executeFirewallSync tools reset outcomes live
      (planned live source target)).failed = 0) :
    ∃ more, (executeFirewallSync tools reset outcomes live
        (planned live source target)).live.rules =
      leaveOut Native.key
        (((planned live source target).filterMap (deletedBy tools reset)).count ·)
        live.rules ++ more ∧
      (∀ r ∈ more, Added target r) ∧
      targetKeys (executeFirewallSync tools reset outcomes live
        (planned live source target)).live target = targetKeys live target := by
  obtain ⟨more, hrules, hmore⟩ := executeFirewallSync_done hprints hsource htarget
    (fun hreset heq => hother ⟨hreset, heq⟩) hdone
  refine ⟨more, hrules, hmore, targetKeys_after htarget hrules hmore fun k hk => ?_⟩
  by_contra hcount
  obtain ⟨item, hitem, hdeleted⟩ :=
    List.mem_filterMap.mp (List.count_pos_iff.mp (Nat.pos_of_ne_zero hcount))
  obtain ⟨hreset, hkind⟩ := isNft_of_deletedBy
    (between_of_planned hsource htarget hitem) hsource hdeleted
  exact decide_nft_ne hsource htarget (fun heq => hother ⟨hreset, heq⟩) (hkind.symm.trans hk)

/-- A sync without a ready rule runs nothing. -/
theorem executeFirewallSync_unready (hnone : ¬ ∃ r ∈ live.rules, Ready live source target r) :
    (executeFirewallSync tools reset outcomes live (planned live source target)).live = live := by
  have hunready : ∀ e ∈ (planned live source target).zipIdx, ∀ t, e.1.status ≠ .ready t := by
    intro e he t ht
    obtain ⟨rule, hrule, heq⟩ := List.mem_map.mp (List.fst_mem_of_mem_zipIdx he)
    obtain ⟨r, hr, hlisted⟩ := List.mem_filterMap.mp hrule
    rw [← heq] at ht
    exact hnone ⟨r, (mem_natives.mp hr).1, (mem_natives.mp hr).2, rule, t, hlisted, ht⟩
  exact (syncItems_unready tools reset outcomes _
    { live, failed := (planned live source target).countP fun item =>
      item.status.isBlocked } hunready).1

theorem existing_of_moves (hprints : tools.Prints) (hsource : Synced source)
    (htarget : Synced target)
    (hdone : (executeFirewallSync tools reset outcomes live
      (planned live source target)).failed = 0)
    (hmoves : Moves tools live source target reset) :
    ∀ item ∈ planned (executeFirewallSync tools reset outcomes live
      (planned live source target)).live source target, item.status = .existing := by
  have hblocked := unblocked_of_done hdone
  by_cases hany : ∃ r ∈ live.rules, Ready live source target r
  · obtain ⟨r, hr, hready⟩ := hany
    obtain ⟨front, back, hsplit⟩ := List.append_of_mem hr
    obtain ⟨hreset, hne, -⟩ := hmoves front r back hsplit hready
    obtain ⟨more, hrules, hmore, hkeys⟩ := executeFirewallSync_left hprints hsource htarget
      (fun h => hne h.2) hdone
    refine existing_of_unready hkeys hblocked fun q hq hb => ?_
    rw [hrules] at hq
    rcases List.mem_append.mp hq with hq | hq
    · refine ⟨(leaveOut_sublist _ _ _).subset hq, ?_⟩
      refine (forall_mem_leaveOut Native.key (p := fun q => ¬ Ready live source target q)
        _ _).mpr (fun front q back hsplit hcount hready => ?_) q hq
      exact absurd (hmoves front q back hsplit hready).2.2 (not_lt.mpr hcount)
    · have hkind := (hmore q hq).kind
      rw [isNft_of_backend hsource hb] at hkind
      exact absurd hkind (decide_nft_ne hsource htarget hne)
  · rw [executeFirewallSync_unready hany]
    exact existing_of_unready rfl hblocked fun r hr _ => ⟨hr, fun h => hany ⟨r, hr, h⟩⟩

/-- A ready rule that were left in the source would be ready again. -/
theorem moves_of_existing (hprints : tools.Prints) (hsource : Synced source)
    (htarget : Synced target) (hother : ¬ (reset = true ∧ source = target))
    (hdone : (executeFirewallSync tools reset outcomes live
      (planned live source target)).failed = 0)
    (hexisting : ∀ item ∈ planned (executeFirewallSync tools reset outcomes live
      (planned live source target)).live source target, item.status = .existing) :
    Moves tools live source target reset := by
  obtain ⟨more, hrules, -, hkeys⟩ :=
    executeFirewallSync_left hprints hsource htarget hother hdone
  rw [forall_planned (P := fun status => status = .existing), hkeys] at hexisting
  have hleft : ∀ q ∈ leaveOut Native.key (((planned live source target).filterMap
      (deletedBy tools reset)).count ·) live.rules, ¬ Ready live source target q := by
    rintro q hq ⟨hb, rule, t, hrule, hstatus⟩
    have hone := hexisting q (by rw [hrules]; exact List.mem_append_left _ hq) hb rule hrule
    rw [hstatus] at hone
    cases hone
  rw [forall_mem_leaveOut] at hleft
  intro front r back hsplit hready
  have hcount := not_le.mp fun hle => hleft front r back hsplit hle hready
  obtain ⟨item, hitem, hdeleted⟩ := List.mem_filterMap.mp
    (List.count_pos_iff.mp (Nat.lt_of_le_of_lt (Nat.zero_le _) hcount))
  have hreset := (isNft_of_deletedBy (between_of_planned hsource htarget hitem) hsource
    hdeleted).1
  exact ⟨hreset, fun heq => hother ⟨hreset, heq⟩, hcount⟩

end After

/-- After a sync without a failed item, the next one has nothing to do where the ready rules
move; and only there, but for a reset of the target itself. -/
theorem settled_after {outcomes : ℕ → ItemOutcomes} {items : List SyncItem} {s : SyncState}
    (hprints : tools.Prints)
    (h : handleFirewallSync tools reads active request outcomes live = .ok (items, s))
    (hdone : s.failed = 0) (hsource : (decodeFirewallSyncRequest request).source active = source)
    (htarget : (decodeFirewallSyncRequest request).targetProvider = target) :
    (Moves tools live source target request.resetSource →
      Settled tools reads active request s.live) ∧
    (¬ (request.resetSource = true ∧ source = target) →
      Settled tools reads active request s.live →
      Moves tools live source target request.resetSource) := by
  unfold handleFirewallSync at h
  cases hplan : buildFirewallSyncPlan live reads active (decodeFirewallSyncRequest request) with
  | error error => rw [hplan] at h; cases h
  | ok found =>
      rw [hplan] at h
      obtain ⟨hsynced, hsynced', hall⟩ := buildFirewallSyncPlan_ok hplan
      have hitems := hall live
      rw [hplan] at hitems
      cases hitems
      cases h
      rw [settled_iff hplan]
      rw [hsource, htarget] at hdone ⊢
      rw [hsource] at hsynced
      rw [htarget] at hsynced'
      exact ⟨existing_of_moves hprints hsynced hsynced' hdone,
        fun hother => moves_of_existing hprints hsynced hsynced' hother hdone⟩

end Next

/-! ## Rules that the target is said to have -/

/-- The chain of the rules that a sync adds. -/
def managedChain (provider : Bytes) : Bytes :=
  if provider = bytes "iptables" then bytes "WORKMESH_BASIC" else bytes "input"

/-- The target holds a rule with the effect that the rule of an item would have. -/
def Held (live : Live) (target : Bytes) (item : SyncItem) : Prop :=
  ∃ rule c, firewallSyncTargetRule item.rule target = .ok rule ∧ effect rule = .ok c ∧
    ∃ r ∈ live.natives target, ∃ held, r.listedIn (managedChain target) = some held ∧
      effect held = .ok c

/-- A rule for which there is no command. -/
def Unrendered (rule : Rule) : Prop := ∃ text, firewallRuleArgs rule .add = .error text

section Existing
variable {live : Live} {source target : Bytes}

theorem key_of_unrendered {rule : Rule} (h : Unrendered rule) : firewallRuleKey rule = some [] := by
  obtain ⟨text, htext⟩ := h
  rw [firewallRuleKey, htext]

/-- The key of any other rule starts with its chain. -/
theorem key_of_rendered {rule : Rule} (hprovider : Synced rule.provider) (h : ¬ Unrendered rule) :
    ∃ rest, firewallRuleKey rule = some (rule.chain ++ 32 :: rest) := by
  unfold firewallRuleKey
  cases hargs : firewallRuleArgs rule .add with
  | error text => exact absurd ⟨text, hargs⟩ h
  | ok found =>
      obtain ⟨args, chain⟩ := found
      dsimp only
      have hshape : chain = rule.chain ∧ ∃ first second third more,
          args = first :: second :: third :: more := by
        rcases hprovider with hp | hp
        · have hother : rule.provider ∉ [bytes "nftables", bytes "firewalld", bytes "ufw"] := by
            rw [hp]
            simp [synced_ne.1, synced_ne.2.1, synced_ne.2.2.1]
          obtain ⟨rfl, rfl⟩ := args_iptables hother hargs
          cases hmatches : iptablesMatches rule with
          | nil => simp [iptablesMatches] at hmatches
          | cons w ws => exact ⟨rfl, bytes "-A", rule.chain, w, ws, rfl⟩
        · obtain ⟨rfl, rfl⟩ := args_nft hp hargs
          exact ⟨rfl, _, _, _, _, nftArgs_add rule⟩
      obtain ⟨rfl, first, second, third, more, rfl⟩ := hshape
      have hlong : ¬ (first :: second :: third :: more).length < 2 := by simp
      rw [if_neg hlong]
      change ∃ rest, some ([32].intercalate (rule.chain :: third :: more)) = _
      rw [intercalate_cons (List.cons_ne_nil third more)]
      exact ⟨_, rfl⟩

theorem chain_of_listedIn {r : Native} {rule : Rule}
    (h : r.listedIn (targetChain target) = some rule) : rule.chain = targetChain target := by
  have hsearched : targetChain target ≠ [] ∧ trimSpace (targetChain target) ≠ [] := by
    unfold targetChain
    split <;> decide +kernel
  unfold Native.listedIn at h
  cases r with
  | iptables family line =>
      dsimp only at h
      unfold iptablesItem at h
      dsimp only at h
      split_ifs at h
      split at h
      · split_ifs at h with hchain
        cases h
        dsimp only
        rw [(place_iptablesWords _ _).2]
        by_contra hne
        exact hchain ⟨hsearched.2, hne⟩
      · cases h
  | nftables record =>
      dsimp only at h
      unfold nftItem at h
      dsimp only at h
      split_ifs at h with _ hplace
      all_goals
        cases h
        dsimp only
        rw [(place_parseNftExpressions _ _).2]
        by_contra hne
        exact hplace (.inr ⟨hsearched.1, Ne.symm hne⟩)
  | firewalld zone line => cases h

/-- The keys of two chains that differ within their first texts are not the same. -/
theorem chains_ne (target rest rest' : Bytes) :
    managedChain target ++ 32 :: rest ≠ targetChain target ++ 32 :: rest' := by
  intro heq
  have hfront : managedChain target <+: targetChain target ∨
      targetChain target <+: managedChain target :=
    List.prefix_or_prefix_of_prefix (List.prefix_append _ (32 :: rest))
      (heq ▸ List.prefix_append _ (32 :: rest'))
  have hchains : ¬ bytes "WORKMESH_BASIC" <+: bytes "WORKMESH_DOCKER" ∧
      ¬ bytes "WORKMESH_DOCKER" <+: bytes "WORKMESH_BASIC" ∧
      ¬ bytes "input" <+: bytes "docker" ∧ ¬ bytes "docker" <+: bytes "input" := by
    decide +kernel
  unfold managedChain targetChain at hfront
  split at hfront
  · exact hfront.elim hchains.1 hchains.2.1
  · exact hfront.elim hchains.2.2.1 hchains.2.2.2

/-- An item is said to exist exactly if neither its rule nor some rule of the searched chain can
be rendered. -/
theorem existing_iff (htarget : Synced target) {rule : Rule} :
    syncStatus target (targetKeys live target) rule = .existing ↔
      (∃ converted, firewallSyncTargetRule rule target = .ok converted ∧ Unrendered converted) ∧
        ∃ r ∈ live.natives target, ∃ held, r.listedIn (targetChain target) = some held ∧
          Unrendered held := by
  unfold syncStatus
  cases hconverted : firewallSyncTargetRule rule target with
  | error reason => simp
  | ok converted =>
      obtain ⟨hprovider, hin⟩ := target_of_source htarget hconverted
      have hchain : converted.chain = managedChain target := by
        unfold managedChain
        rcases hin with ⟨hp, hchain⟩ | ⟨hp, hchain⟩
        · rw [if_pos (hprovider.symm.trans hp), hchain]
        · rw [if_neg, hchain]
          rw [← hprovider, hp]
          exact Ne.symm synced_ne.1
      dsimp only
      constructor
      · intro h
        have hmem : firewallRuleKey converted ∈ targetKeys live target := by
          by_contra hnot
          rw [if_neg hnot] at h
          cases h
        obtain ⟨held, hheld, hkey⟩ := List.mem_map.mp hmem
        obtain ⟨r, hr, hlisted⟩ := List.mem_filterMap.mp hheld
        have hheldChain := chain_of_listedIn hlisted
        by_cases hone : Unrendered converted
        · by_cases htwo : Unrendered held
          · exact ⟨⟨converted, rfl, hone⟩, r, hr, held, hlisted, htwo⟩
          · obtain ⟨rest, hrest⟩ := key_of_rendered (synced_of_listedIn hlisted) htwo
            rw [hrest, key_of_unrendered hone] at hkey
            simp at hkey
        · obtain ⟨rest, hrest⟩ := key_of_rendered hin.synced hone
          rw [hrest, hchain] at hkey
          by_cases htwo : Unrendered held
          · rw [key_of_unrendered htwo] at hkey
            simp at hkey
          · obtain ⟨rest', hrest'⟩ := key_of_rendered (synced_of_listedIn hlisted) htwo
            rw [hrest', hheldChain] at hkey
            exact absurd (Option.some.inj hkey).symm (chains_ne target _ _)
      · rintro ⟨⟨_, heq, hone⟩, r, hr, held, hlisted, htwo⟩
        cases heq
        rw [if_pos]
        rw [key_of_unrendered hone, ← key_of_unrendered htwo]
        exact List.mem_map_of_mem (List.mem_filterMap.mpr ⟨r, hr, hlisted⟩)

/-- The target has all the rules that are said to exist exactly if there are none. -/
theorem held_iff (htarget : Synced target) :
    (∀ item ∈ planned live source target, item.status = .existing → Held live target item) ↔
      ¬ ((∃ r ∈ live.natives source, ∃ rule converted, sourceRule source r = some rule ∧
            firewallSyncTargetRule rule target = .ok converted ∧ Unrendered converted) ∧
          ∃ r ∈ live.natives target, ∃ held, r.listedIn (targetChain target) = some held ∧
            Unrendered held) := by
  have hnot : ∀ rule, (∃ converted, firewallSyncTargetRule rule target = .ok converted ∧
      Unrendered converted) → ∀ status, ¬ Held live target ⟨rule, status⟩ := by
    rintro rule ⟨converted, hconverted, text, htext⟩ status ⟨rule', c, hrule, heffect, -⟩
    cases hconverted.symm.trans hrule
    rw [effect, firewallCommand, htext] at heffect
    cases heffect
  constructor
  · rintro h ⟨⟨r, hr, rule, converted, hrule, hconverted, hone⟩, hsearched⟩
    have hexisting := (existing_iff htarget).mpr ⟨⟨converted, hconverted, hone⟩, hsearched⟩
    exact hnot rule ⟨converted, hconverted, hone⟩ _
      (h _ (List.mem_map.mpr ⟨rule, List.mem_filterMap.mpr ⟨r, hr, hrule⟩, rfl⟩) hexisting)
  · intro h item hitem hexisting
    obtain ⟨rule, hrule, rfl⟩ := List.mem_map.mp hitem
    obtain ⟨r, hr, hlisted⟩ := List.mem_filterMap.mp hrule
    obtain ⟨⟨converted, hconverted, hone⟩, hsearched⟩ := (existing_iff htarget).mp hexisting
    exact absurd ⟨⟨r, hr, rule, converted, hlisted, hconverted, hone⟩, hsearched⟩ h

end Existing

/-! ## Syncing twice -/

/-- After a sync of the system rules without a failed item, the same sync has nothing to do if
the ready rules move, and only then unless a backend is synced with itself. The rules that are
said to exist are held unless neither the rule nor one of the searched chain can be rendered. The
key of a rule is out of range for a rule of ufw that says its action only, and rules of ufw with
one key have one effect only if they have one verb. -/
theorem handleFirewallSync_again (tools : SyncTools) (hprints : tools.Prints)
    (reads : Backend → Bool) (active : Bytes) (request : SyncRequest)
    (_hsystem : (decodeFirewallSyncRequest request).subsystem = bytes "system")
    (outcomes : ℕ → ItemOutcomes) (live : Live) (items : List SyncItem) (s : SyncState)
    (hrun : handleFirewallSync tools reads active request outcomes live = .ok (items, s))
    (source target : Bytes) (hsource : (decodeFirewallSyncRequest request).source active = source)
    (htarget : (decodeFirewallSyncRequest request).targetProvider = target) :
    (s.failed = 0 →
      (Moves tools live source target request.resetSource →
        Settled tools reads active request s.live) ∧
      (¬ (request.resetSource = true ∧ source = target) →
        Settled tools reads active request s.live →
        Moves tools live source target request.resetSource)) ∧
    ((∀ item ∈ items, item.status = .existing → Held live target item) ↔
      ¬ ((∃ r ∈ live.natives source, ∃ rule converted, sourceRule source r = some rule ∧
            firewallSyncTargetRule rule target = .ok converted ∧ Unrendered converted) ∧
          ∃ r ∈ live.natives target, ∃ held, r.listedIn (targetChain target) = some held ∧
            Unrendered held)) ∧
    (∀ rule, firewallRuleKey rule = none ↔
      validateFirewallRule rule = none ∧ rule.provider = bytes "ufw" ∧
        anyAddress rule.source = true ∧ anyPort rule.port = true ∧
        rule.protocolName = bytes "all") ∧
    ∀ (a b : Rule) (k : Bytes), k ≠ [] → firewallRuleKey a = some k → firewallRuleKey b = some k →
      a.provider = b.provider → a.family = b.family →
      (effect a = effect b ↔ (a.provider = bytes "ufw" → ufwVerb a = ufwVerb b)) := by
  refine ⟨fun hdone => settled_after hprints hrun hdone hsource htarget, ?_,
    firewallRuleKey_none_iff, fun a b k hk ha hb => effect_eq_iff hk ha hb⟩
  unfold handleFirewallSync at hrun
  cases hplan : buildFirewallSyncPlan live reads active (decodeFirewallSyncRequest request) with
  | error error => rw [hplan] at hrun; cases hrun
  | ok found =>
      rw [hplan] at hrun
      obtain ⟨-, hsynced, hall⟩ := buildFirewallSyncPlan_ok hplan
      rw [hall live] at hplan
      cases hplan
      cases hrun
      rw [hsource, htarget]
      exact held_iff (htarget ▸ hsynced)

/-- A host that prints the words of a rule as they were given. -/
def echoTools : SyncTools where
  listed _ chain stated :=
    if ∀ w ∈ stated, IsWord w then some ([32].intercalate (bytes "-A" :: chain :: stated)) else none
  refusal command _ := command
  nftAdded _ args :=
    match args with
    | verb :: object :: family :: table :: chain :: _ =>
        if verb = bytes "add" ∧ object = bytes "rule" then
          some { family, table, chain, handle := 1, comment := [], expr := [], raw := [] }
        else none
    | _ => none

/-- A rule of nftables that drops all packets. -/
def dropAll : NftRecord :=
  { family := bytes "inet", table := bytes "workmesh", chain := bytes "input", handle := 4
    comment := [], expr := [.object [(bytes "drop", .null)]], raw := bytes "drop" }

def dropping : Live where
  rules := [.nftables dropAll]
  ufw := []
  distinct := List.nodup_nil

def toIptables (resetSource : Bool) : SyncRequest :=
  { sourceProvider := bytes "nftables", targetProvider := bytes "iptables", resetSource }

def allDone (_ : ℕ) : ItemOutcomes := ⟨.done, .done, .done⟩

theorem echoTools_prints : echoTools.Prints where
  iptables family chain stated line h := by
    unfold echoTools at h
    dsimp only at h
    split at h
    · cases h
      exact ⟨stated, ‹_›, rfl⟩
    · cases h
  nft rules args r h := by
    unfold echoTools at h
    dsimp only at h
    split at h
    · split at h
      · rename_i hnames
        cases h
        rw [hnames.1, hnames.2]
        exact ⟨_, rfl⟩
      · cases h
    · cases h

/-- The commands and the failures of a sync. -/
def ranWith (result : Except PlanError (List SyncItem × SyncState)) :
    Option (List (Bytes × List Bytes) × ℕ) :=
  match result with
  | .error _ => none
  | .ok (_, s) => some (s.commands, s.failed)

/-- The rule that drops all packets is moved, and the next sync has nothing to do. -/
theorem handleFirewallSync_again_moved : ∃ items s,
    handleFirewallSync echoTools (fun _ => true) (bytes "nftables") (toIptables true) allDone
      dropping = .ok (items, s) ∧ s.commands.length = 2 ∧
    Settled echoTools (fun _ => true) (bytes "nftables") (toIptables true) s.live := by
  have hran : ranWith (handleFirewallSync echoTools (fun _ => true) (bytes "nftables")
      (toIptables true) allDone dropping) =
        some ([(bytes "iptables", [bytes "-A", bytes "WORKMESH_BASIC", bytes "-j", bytes "DROP"]),
          (bytes "nft", [bytes "delete", bytes "rule", bytes "inet", bytes "workmesh",
            bytes "input", bytes "handle", bytes "4"])], 0) := by
    decide +kernel
  have hkeys : (((planned dropping (bytes "nftables") (bytes "iptables")).filterMap
      (deletedBy echoTools true)).count (Native.nftables dropAll).key) = 1 := by
    decide +kernel
  have hrequest : (decodeFirewallSyncRequest (toIptables true)).subsystem = bytes "system" ∧
      (decodeFirewallSyncRequest (toIptables true)).source (bytes "nftables") = bytes "nftables" ∧
      (decodeFirewallSyncRequest (toIptables true)).targetProvider = bytes "iptables" := by
    decide +kernel
  cases hrun : handleFirewallSync echoTools (fun _ => true) (bytes "nftables") (toIptables true)
      allDone dropping with
  | error error =>
      rw [hrun] at hran
      cases hran
  | ok result =>
      obtain ⟨items, s⟩ := result
      rw [hrun] at hran
      obtain ⟨hcommands, hdone⟩ := Prod.mk.inj (Option.some.inj hran)
      refine ⟨items, s, rfl, by rw [hcommands]; rfl, ?_⟩
      refine ((handleFirewallSync_again echoTools echoTools_prints (fun _ => true)
        (bytes "nftables") (toIptables true) hrequest.1 allDone dropping items s hrun
        (bytes "nftables") (bytes "iptables") hrequest.2.1 hrequest.2.2).1 hdone).1 ?_
      intro front r back hsplit _
      cases front with
      | nil =>
          cases hsplit
          refine ⟨rfl, Ne.symm synced_ne.1, ?_⟩
          change 0 < List.count (Native.nftables dropAll).key (List.filterMap
            (deletedBy echoTools true) (planned dropping (bytes "nftables") (bytes "iptables")))
          rw [hkeys]
          exact Nat.one_pos
      | cons q front =>
          injection hsplit with _ hnil
          exact absurd hnil (List.append_ne_nil_of_right_ne_nil front (List.cons_ne_nil r back)).symm

/-- Without a reset the second sync adds the rule again. -/
theorem dropAll_added_again : ∃ items s,
    handleFirewallSync echoTools (fun _ => true) (bytes "nftables") (toIptables false) allDone
      dropping = .ok (items, s) ∧ s.failed = 0 ∧
    ¬ Settled echoTools (fun _ => true) (bytes "nftables") (toIptables false) s.live := by
  have hfirst : ranWith (handleFirewallSync echoTools (fun _ => true) (bytes "nftables")
      (toIptables false) allDone dropping) =
        some ([(bytes "iptables", [bytes "-A", bytes "WORKMESH_BASIC", bytes "-j",
          bytes "DROP"])], 0) := by
    decide +kernel
  have hsecond : ranWith ((handleFirewallSync echoTools (fun _ => true) (bytes "nftables")
      (toIptables false) allDone dropping).bind fun result => handleFirewallSync echoTools
        (fun _ => true) (bytes "nftables") (toIptables false) allDone result.2.live) =
        some ([(bytes "iptables", [bytes "-A", bytes "WORKMESH_BASIC", bytes "-j",
          bytes "DROP"])], 0) := by
    decide +kernel
  cases hrun : handleFirewallSync echoTools (fun _ => true) (bytes "nftables") (toIptables false)
      allDone dropping with
  | error error =>
      rw [hrun] at hfirst
      cases hfirst
  | ok result =>
      rw [hrun] at hfirst hsecond
      refine ⟨result.1, result.2, rfl, (Prod.mk.inj (Option.some.inj hfirst)).2, fun h => ?_⟩
      obtain ⟨items, s, hagain, hcommands, -⟩ := h allDone
      change ranWith (handleFirewallSync echoTools (fun _ => true) (bytes "nftables")
        (toIptables false) allDone result.2.live) = _ at hsecond
      rw [hagain] at hsecond
      have hran := (Prod.mk.inj (Option.some.inj hsecond)).1
      rw [hcommands] at hran
      exact absurd hran (List.cons_ne_nil _ _).symm

end WorkMesh.Firewall
