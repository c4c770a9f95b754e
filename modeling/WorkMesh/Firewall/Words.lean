import WorkMesh.Firewall.Rules

/-!
# The words of accepted rules

What the check of a rule ensures, and the words that the arguments for its
backend are made of.
-/

namespace WorkMesh.Firewall

open Encoding

/-- What the check of a rule ensures. -/
structure Accepted (rule : Rule) : Prop where
  chain : (rule.provider = bytes "nftables" → isName (bytes "_.-") (trimSpace rule.chain) = true) ∧
    (rule.provider = bytes "firewalld" → isName (bytes "_-") (trimSpace rule.chain) = true) ∧
    (rule.provider ∉ [bytes "nftables", bytes "firewalld", bytes "ufw"] →
      trimSpace rule.chain ∈ firewallChains)
  protocol : rule.protocolName ∈
    [bytes "all", bytes "tcp", bytes "udp", bytes "icmp", bytes "icmpv6"]
  action : rule.actionName ∈ [bytes "accept", bytes "drop", bytes "reject"]
  addresses : ∀ address ∈ [rule.source, rule.destination], invalidAddress address = false
  port : anyPort rule.port = true ∨ firewallPortPattern rule.port = true

theorem accepted_of_validate {rule : Rule} (h : validateFirewallRule rule = none) :
    Accepted rule := by
  unfold validateFirewallRule at h
  dsimp only at h
  split at h
  · cases h
  split at h
  · cases h
  split at h
  · cases h
  split at h
  · cases h
  split at h
  · cases h
  split at h
  · cases h
  rename_i hnft hzone _ hchain hprotocol haction
  cases hfind : [rule.source, rule.destination].find? invalidAddress with
  | some address => rw [hfind] at h; cases h
  | none =>
      rw [hfind] at h
      dsimp only at h
      split at h
      · cases h
      rename_i hport
      refine ⟨⟨fun hp => ?_, fun hp => ?_, fun hp => ?_⟩, ?_, ?_, fun address ha => ?_, ?_⟩
      · by_contra hnot
        exact hnft ⟨hp, hnot⟩
      · by_contra hnot
        exact hzone ⟨hp, hnot⟩
      · by_contra hnot
        exact hchain ⟨hp, hnot⟩
      · by_contra hnot
        exact hprotocol hnot
      · by_contra hnot
        exact haction hnot
      · simpa using List.find?_eq_none.mp hfind address ha
      · by_contra hnot
        rw [not_or] at hnot
        exact hport ⟨hnot.1, hnot.2⟩

/-! ## Words -/

/-- The words that the arguments are made of. -/
def IsWord (w : Bytes) : Prop := w ≠ [] ∧ ∀ c ∈ w, isPrintable c = true

instance (w : Bytes) : Decidable (IsWord w) :=
  decidable_of_iff ((!w.isEmpty && w.all isPrintable) = true) (by simp [IsWord])

theorem isWord_name {marks text : Bytes} (hmarks : ∀ c ∈ marks, isPrintable c = true)
    (h : isName marks text = true) : IsWord text := by
  simp only [isName, Bool.and_eq_true, decide_eq_true_eq, List.all_eq_true, Bool.or_eq_true,
    List.contains_eq_mem] at h
  have hletter : ∀ c : UInt8, isLetterOrDigit c = true → isPrintable c = true := by decide +kernel
  refine ⟨fun hnil => ?_, fun c hc => ?_⟩
  · rw [hnil] at h
    exact absurd h.1.1 (by decide)
  · rcases h.2 c hc with hc | hc
    · exact hletter c hc
    · exact hmarks c hc

/-- The chain of an accepted rule is one word between white space. -/
theorem Accepted.isWord_chain {rule : Rule} (h : Accepted rule)
    (hufw : rule.provider ≠ bytes "ufw") : IsWord (trimSpace rule.chain) := by
  obtain ⟨hnft, hzone, hother⟩ := h.chain
  by_cases hn : rule.provider = bytes "nftables"
  · exact isWord_name (List.all_eq_true.mp (by decide +kernel)) (hnft hn)
  by_cases hf : rule.provider = bytes "firewalld"
  · exact isWord_name (List.all_eq_true.mp (by decide +kernel)) (hzone hf)
  · have hchains : ∀ chain ∈ firewallChains, IsWord chain := by decide +kernel
    refine hchains _ (hother ?_)
    simp [hn, hf, hufw]

theorem Accepted.isWord_protocol {rule : Rule} (h : Accepted rule) : IsWord rule.protocolName := by
  have hall : ∀ p ∈ [bytes "all", bytes "tcp", bytes "udp", bytes "icmp", bytes "icmpv6"],
      IsWord p := by decide +kernel
  exact hall _ h.protocol

theorem Accepted.isWord_action {rule : Rule} (h : Accepted rule) :
    IsWord rule.actionName ∧ IsWord (upperAction rule.actionName) := by
  have hall : ∀ a ∈ [bytes "accept", bytes "drop", bytes "reject"],
      IsWord a ∧ IsWord (upperAction a) := by decide +kernel
  exact hall _ h.action

theorem isWord_address {address : Bytes} (h : invalidAddress address = false)
    (hany : anyAddress address = false) : IsWord address := by
  refine ⟨fun hnil => ?_, fun c hc => isAddressChar_printable c ?_⟩
  · rw [hnil] at hany
    exact absurd hany (by decide)
  · simp only [invalidAddress, hany, Bool.false_eq_true, not_false_eq_true, true_and,
      Bool.decide_and, Bool.and_eq_false_iff, decide_eq_false_iff_not, Bool.not_eq_true,
      Bool.not_eq_false] at h
    rcases h with h | h
    · exact isNetwork_chars h c hc
    · exact isAddress_chars h c hc

theorem isPort_chars {text : Bytes} (h : isPort text = true) :
    ∀ c ∈ text, (decide (48 ≤ c) && decide (c ≤ 57)) = true := by
  simp only [isPort, Bool.and_eq_true, List.all_eq_true] at h ⊢
  exact h.2

theorem isPortRange_chars {marks text : Bytes} (h : isPortRange marks text = true) :
    ∀ c ∈ text, (decide (48 ≤ c) && decide (c ≤ 57)) = true ∨ c ∈ marks := by
  have hparts := (takeWhile_append_drop (fun c => decide ¬ marks.contains c = true) text)
  unfold isPortRange at h
  dsimp only at h
  rw [Bool.and_eq_true] at h
  obtain ⟨hfirst, hsecond⟩ := h
  intro c hc
  rw [← hparts.1] at hc
  rcases List.mem_append.mp hc with hc | hc
  · exact .inl (isPort_chars hfirst c hc)
  · rw [hparts.2] at hc
    cases hrest : text.dropWhile (fun c => decide ¬ marks.contains c = true) with
    | nil => rw [hrest] at hc; cases hc
    | cons d rest =>
        have hd : d ∈ marks := by
          have hhead := List.head?_dropWhile_not
            (fun c : UInt8 => decide ¬ marks.contains c = true) text
          rw [hrest] at hhead
          simpa using hhead
        rw [hrest] at hc
        rcases List.mem_cons.mp hc with rfl | hc
        · exact .inr hd
        · rw [Bool.or_eq_true, decide_eq_true_eq] at hsecond
          have hdrop : text.drop ((text.takeWhile fun c =>
              decide ¬ marks.contains c = true).length + 1) = rest := by
            rw [← List.drop_drop, hparts.2, hrest, List.drop_one, List.tail_cons]
          rcases hsecond with hlen | hport
          · have hnone : text.dropWhile (fun c => decide ¬ marks.contains c = true) = [] := by
              rw [← hparts.2, hlen, List.drop_length]
            rw [hnone] at hrest
            cases hrest
          · rw [hdrop] at hport
            exact .inl (isPort_chars hport c hc)

theorem isWord_port {port : Bytes} (h : anyPort port = true ∨ firewallPortPattern port = true)
    (hany : anyPort port = false) : IsWord port := by
  have hpattern : firewallPortPattern port = true := by
    rcases h with h | h
    · rw [hany] at h
      cases h
    · exact h
  have hmark : ∀ c ∈ bytes ":-", isPrintable c = true :=
    List.all_eq_true.mp (by decide +kernel)
  have hdigit : ∀ c : UInt8, (decide (48 ≤ c) && decide (c ≤ 57)) = true →
      isPrintable c = true := by decide +kernel
  refine ⟨fun hnil => ?_, fun c hc => ?_⟩
  · rw [hnil] at hany
    exact absurd hany (by decide)
  · rw [← splitOn_joined port 44] at hc
    rcases mem_intercalate hc with hc | ⟨field, hfield, hc⟩
    · obtain rfl := List.mem_singleton.mp hc
      decide
    · rcases isPortRange_chars (List.all_eq_true.mp hpattern field hfield) c hc with hc | hc
      · exact hdigit c hc
      · exact hmark c hc

theorem isWord_stated {nothing : Bytes → Bool} {flags : List Bytes} {value : Bytes}
    (hflags : ∀ w ∈ flags, IsWord w) (hvalue : nothing value = false → IsWord value) :
    ∀ w ∈ stated nothing flags value, IsWord w := by
  intro w hw
  unfold stated at hw
  split at hw
  · cases hw
  · rename_i hsome
    rcases List.mem_append.mp hw with hw | hw
    · exact hflags w hw
    · obtain rfl := List.mem_singleton.mp hw
      exact hvalue (by simpa using hsome)

section Words
variable {rule : Rule} (h : Accepted rule)
include h

theorem Accepted.isWord_source : anyAddress rule.source = false → IsWord rule.source :=
  isWord_address (h.addresses _ (by simp))

theorem Accepted.isWord_destination :
    anyAddress rule.destination = false → IsWord rule.destination :=
  isWord_address (h.addresses _ (by simp))

theorem iptablesMatches_words : ∀ w ∈ iptablesMatches rule, IsWord w := by
  have hflags : ∀ flag ∈ [bytes "-s", bytes "-d", bytes "--dport", bytes "-p", bytes "-j"],
      IsWord flag := by decide +kernel
  have hone : ∀ flag ∈ [bytes "-s", bytes "-d", bytes "--dport", bytes "-p", bytes "-j"],
      ∀ w ∈ [flag], IsWord w := fun flag hflag w hw => by
    rw [List.mem_singleton.mp hw]
    exact hflags flag hflag
  intro w hw
  simp only [iptablesMatches, List.mem_append] at hw
  rcases hw with (((hw | hw) | hw) | hw) | hw
  · split at hw
    · cases hw
    · rcases List.mem_cons.mp hw with rfl | hw
      · exact hflags _ (by simp)
      · rw [List.mem_singleton.mp hw]
        exact h.isWord_protocol
  · exact isWord_stated (hone _ (by simp)) h.isWord_source w hw
  · exact isWord_stated (hone _ (by simp)) h.isWord_destination w hw
  · exact isWord_stated (hone _ (by simp)) (isWord_port h.port) w hw
  · rcases List.mem_cons.mp hw with rfl | hw
    · exact hflags _ (by simp)
    · rw [List.mem_singleton.mp hw]
      exact h.isWord_action.2

end Words

/-- Joined words are trimmed. -/
theorem trimSpace_joined {ws : List Bytes} (hws : ∀ w ∈ ws, IsWord w) :
    trimSpace ([32].intercalate ws) = [32].intercalate ws := by
  have hends : ∀ ws : List Bytes, ws ≠ [] → (∀ w ∈ ws, IsWord w) → ∃ c d,
      isPrintable c = true ∧ isPrintable d = true ∧ ([32].intercalate ws).head? = some c ∧
        ([32].intercalate ws).getLast? = some d := by
    intro ws
    induction ws with
    | nil => intro h; exact absurd rfl h
    | cons w ws ih =>
        intro _ hws
        obtain ⟨hne, hchars⟩ := hws w List.mem_cons_self
        obtain ⟨c, hc⟩ := Option.ne_none_iff_exists'.mp (mt List.head?_eq_none_iff.mp hne)
        obtain ⟨d, hd⟩ := Option.ne_none_iff_exists'.mp (mt List.getLast?_eq_none_iff.mp hne)
        have hcw := hchars c (List.mem_of_head? hc)
        have hdw := hchars d (List.mem_of_getLast? hd)
        cases ws with
        | nil => exact ⟨c, d, hcw, hdw, by simpa [List.intercalate] using hc,
            by simpa [List.intercalate] using hd⟩
        | cons v ws =>
            obtain ⟨-, e, -, he, -, hlast⟩ := ih (List.cons_ne_nil v ws)
              fun u hu => hws u (List.mem_cons_of_mem w hu)
            have hjoin : [32].intercalate (w :: v :: ws) =
                w ++ 32 :: [32].intercalate (v :: ws) := by simp [List.intercalate]
            refine ⟨c, e, hcw, he, ?_, ?_⟩
            · rw [hjoin, List.head?_append, hc]
              rfl
            · rw [hjoin, List.getLast?_append, List.getLast?_cons, hlast]
              rfl
  cases ws with
  | nil => decide +kernel
  | cons w ws =>
      obtain ⟨c, d, hc, hd, hfirst, hlast⟩ := hends (w :: ws) (List.cons_ne_nil w ws) hws
      exact trimSpace_of_ends hc hd hfirst hlast

example : trimSpace ([32].intercalate [bytes "-j", bytes "DROP"]) = bytes "-j DROP" := by
  decide +kernel

end WorkMesh.Firewall
