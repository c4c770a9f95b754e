import WorkMesh.StateMachine.Ranking
import WorkMesh.StateMachine.Table
import WorkMesh.Waf.Observe

/-!
# The order of rules

Every rule has a priority. The panel lists the rules of a site in ascending
order of it, and rules of one priority as they were stored. What is stored, and
what the filter reads, is in the order in which the rules came.
-/

namespace WorkMesh.Waf

open Encoding StateMachine

/-! ## Stored rules -/

section Stored
variable (compiles : Bytes → Bool)

/-- The rules that the service keeps, those of a website by its number. -/
structure RuleStore where
  websites : List ℕ
  sites : Table ℕ (List WAFRule) := ∅
  defaultRules : List WAFRule := []
  customRules : List WAFRule := []

/-- Which rules are meant. -/
inductive RuleScope where
  | default
  | custom
  | site (id : ℕ)

/-- A request, and whether the files could be written. -/
inductive RuleRequest where
  | upsert (id : ℕ) (rule : WAFRule) (newID : Bytes) (saved : Bool)
  | delete (id : ℕ) (ruleID : Bytes) (saved : Bool)
  | updateDefault (rules : List WAFRule) (newID : ℕ → Bytes) (saved : Bool)
  | updateCustom (rules : List WAFRule) (newID : ℕ → Bytes) (saved : Bool)
  | applyDefault (saved : Bool)

namespace RuleStore

variable (s : RuleStore)

def siteRules (id : ℕ) : List WAFRule := (s.sites.lookup id).getD []

/-- The rules as they are written to the file that the filter reads. -/
def stored : RuleScope → List WAFRule
  | .default => s.defaultRules
  | .custom => s.customRules
  | .site id => s.siteRules id

/-- `ListRules`. -/
def listRules (id : ℕ) : List WAFRule := ranked WAFRule.priority (s.siteRules id)

/-- A rule takes the place of the first one with its identifier, or comes last. -/
def upserted (rule : WAFRule) : List WAFRule → List WAFRule
  | [] => [rule]
  | old :: rules => if old.id = rule.id then rule :: rules else old :: upserted rule rules

/-- `UpsertRule`. -/
def upsertRule (id : ℕ) (rule : WAFRule) (newID : Bytes) (saved : Bool) : RuleStore :=
  if id = 0 then s
  else
  match validateWAFRule compiles newID rule with
  | .error _ => s
  | .ok rule =>
      if id ∉ s.websites ∨ saved = false then s
      else { s with sites := s.sites.insert id (upserted rule (s.siteRules id)) }

/-- `DeleteRule`. -/
def deleteRule (id : ℕ) (ruleID : Bytes) (saved : Bool) : RuleStore :=
  if id = 0 ∨ trimSpace ruleID = [] ∨ id ∉ s.websites ∨ saved = false then s
  else { s with sites := s.sites.insert id ((s.siteRules id).filter (·.id ≠ ruleID)) }

/-- The rules that `updateGlobalRules` writes. -/
def globalRules (rules : List WAFRule) (newID : ℕ → Bytes) : Except String (List WAFRule) :=
  rules.zipIdx.mapM fun entry => validateWAFRule compiles (newID entry.2) entry.1

/-- `ApplyDefaultWAFToWebsites`. -/
def applyDefault : RuleStore :=
  let sites := s.websites.foldl (fun sites id => sites.insert id []) s.sites
  { s with sites := sites.mapValues fun _ => s.defaultRules }

def step : RuleRequest → RuleStore
  | .upsert id rule newID saved => s.upsertRule compiles id rule newID saved
  | .delete id ruleID saved => s.deleteRule id ruleID saved
  | .updateDefault rules newID saved =>
      match globalRules compiles rules newID with
      | .ok rules => if saved then { s with defaultRules := rules } else s
      | .error _ => s
  | .updateCustom rules newID saved =>
      match globalRules compiles rules newID with
      | .ok rules => if saved then { s with customRules := rules } else s
      | .error _ => s
  | .applyDefault saved => if saved then s.applyDefault else s

end RuleStore

end Stored

/-! ## Evaluation -/

section Evaluation
variable (find : Bytes → Bytes → Bool) (c : Context) (r : Request) (body : Bytes)

/-- A rule that ends the evaluation of a request: it is enabled and matches, and it allows the
request, or it blocks the request on a site that blocks. -/
def Decides (rule : WAFRule) : Bool :=
  rule.enabled &&
    ruleMatches find c.lists c.clientIP rule.encoded (valueFor r body rule.encoded) &&
    (rule.action = bytes "allow" || (rule.action = bytes "block" && Blocks c.global c.site))

/-- How a request is blocked. -/
def blocked (w : World) : Verdict :=
  if (c.rateHit w .attack (bytes "*")).1 then .done (.denied 429 .rate)
  else .done (.denied 403 .rule)

/-- What the rule that ends the evaluation comes to. -/
def decision (w : World) : Option WAFRule → Verdict
  | none => .next
  | some rule => if rule.action = bytes "allow" then .done .served else blocked c w

/-- What the rules come to in ascending order of their priority. -/
def decisionByPriority (rules : List WAFRule) (w : World) : Verdict :=
  decision c w ((ranked WAFRule.priority rules).find? (Decides find c r body))

/-- What the filter does with stored rules. -/
def decisionStored (rules : List WAFRule) (w : World) : Verdict :=
  (applyRules find c r body (rules.map WAFRule.encoded) w).1

/-- The rules that would end the evaluation, in the order in which they are stored: ahead of each
one whose action is not that of the first one stands, by priority, one with that action. -/
def FirstActionLeads (rules : List WAFRule) : Prop :=
  FirstLeads WAFRule.priority WAFRule.action (rules.filter (Decides find c r body))

variable {find c r body} {rule : WAFRule}

theorem action_of_decides (h : Decides find c r body rule = true) :
    rule.action = bytes "allow" ∨ rule.action = bytes "block" ∧ Blocks c.global c.site := by
  simp only [Decides, Bool.and_eq_true, Bool.or_eq_true, decide_eq_true_eq] at h
  exact h.2

/-- Where nothing is blocked, a decision does not depend on the counters. -/
theorem decision_of_observe (hmode : ¬Blocks c.global c.site) {o : Option WAFRule}
    (ho : ∀ rule ∈ o, Decides find c r body rule = true) (w w' : World) :
    decision c w o = decision c w' o := by
  cases o with
  | none => rfl
  | some rule =>
      have hallow := (action_of_decides (ho rule rfl)).resolve_right fun h => hmode h.2
      rw [decision, decision, if_pos hallow, if_pos hallow]

/-- The filter does what the first rule says that ends the evaluation. -/
theorem decisionStored_eq (rules : List WAFRule) (w : World) :
    decisionStored find c r body rules w =
      decision c w (rules.find? (Decides find c r body)) := by
  induction rules generalizing w with
  | nil => rfl
  | cons rule rules ih =>
      have hfound : ∀ found ∈ rules.find? (Decides find c r body),
          Decides find c r body found = true := fun _ => List.find?_some
      unfold decisionStored at ih ⊢
      rw [List.map_cons, applyRules, List.find?_cons]
      by_cases hmatches : rule.enabled = true ∧
          ruleMatches find c.lists c.clientIP rule.encoded (valueFor r body rule.encoded) = true
      · have hcond : rule.encoded.enabled ≠ some false ∧ ruleMatches find c.lists c.clientIP
            rule.encoded (valueFor r body rule.encoded) = true := by
          simpa [WAFRule.encoded] using hmatches
        have haction : rule.encoded.action.getD (bytes "block") = rule.action := rfl
        rw [if_pos hcond]
        simp only [haction]
        by_cases hallow : rule.action = bytes "allow"
        · have hdecides : Decides find c r body rule = true := by
            simp [Decides, hmatches, hallow]
          rw [if_pos hallow, hdecides, decision, if_pos hallow]
        · rw [if_neg hallow]
          by_cases hblock : rule.action = bytes "block"
          · rw [if_pos hblock]
            by_cases hmode : Blocks c.global c.site
            · have hdecides : Decides find c r body rule = true := by
                simp [Decides, hmatches, hblock, hmode]
              rw [hdecides, decision, if_neg hallow]
              split
              · rename_i heq
                simp [heq, hmode, blocked]
              · rename_i heq
                simp [heq, hmode, blocked]
            · have hdecides : Decides find c r body rule = false := by
                simp [Decides, hallow, hmode]
              rw [hdecides]
              split
              · rw [if_neg hmode]
                exact (ih _).trans (decision_of_observe hmode hfound _ _)
              · rw [if_neg hmode]
                exact (ih _).trans (decision_of_observe hmode hfound _ _)
          · have hdecides : Decides find c r body rule = false := by
              simp [Decides, hallow, hblock]
            rw [if_neg hblock, hdecides]
            exact ih w
      · have hcond : ¬(rule.encoded.enabled ≠ some false ∧ ruleMatches find c.lists c.clientIP
            rule.encoded (valueFor r body rule.encoded) = true) := by
          simpa [WAFRule.encoded] using hmatches
        have hdecides : Decides find c r body rule = false := by
          rw [Bool.eq_false_iff]
          intro h
          simp only [Decides, Bool.and_eq_true] at h
          exact hmatches h.1
        rw [if_neg hcond, hdecides]
        exact ih w

theorem blocked_ne (c : Context) (w : World) : blocked c w ≠ .done .served := by
  rw [blocked]
  split_ifs <;> simp

/-- A decision tells the action of its rule. -/
theorem decision_inj (w : World) {o o' : Option WAFRule}
    (ho : ∀ rule ∈ o, Decides find c r body rule = true)
    (ho' : ∀ rule ∈ o', Decides find c r body rule = true) (hsome : o.isSome = o'.isSome) :
    decision c w o = decision c w o' ↔ o.map WAFRule.action = o'.map WAFRule.action := by
  have hblock : bytes "block" ≠ bytes "allow" := by decide
  cases o with
  | none =>
      cases o' with
      | none => simp
      | some rule' => cases hsome
  | some rule =>
      cases o' with
      | none => cases hsome
      | some rule' =>
          rw [Option.map_some, Option.map_some, Option.some_inj, decision, decision]
          rcases action_of_decides (ho rule rfl) with h | ⟨h, -⟩
          · rcases action_of_decides (ho' rule' rfl) with h' | ⟨h', -⟩
            · simp [h, h']
            · simp [h, h', hblock, hblock.symm, (blocked_ne c w).symm]
          · rcases action_of_decides (ho' rule' rfl) with h' | ⟨h', -⟩
            · simp [h, h', hblock, blocked_ne]
            · simp [h, h']

/-- The filter decides about a request as the stored rules do in the order of their priority
exactly when the action of the first stored rule that decides leads. -/
theorem rules_in_priority_order_iff (find : Bytes → Bytes → Bool) (c : Context) (r : Request)
    (body : Bytes) (s : RuleStore) (scope : RuleScope) (w : World) :
    decisionStored find c r body (s.stored scope) w =
        decisionByPriority find c r body (s.stored scope) w ↔
      FirstActionLeads find c r body (s.stored scope) := by
  generalize s.stored scope = rules
  have hhead (l : List WAFRule) (p : WAFRule → Bool) : l.find? p = (l.filter p).head? := by
    rw [List.head?_filter]
  rw [decisionStored_eq, decisionByPriority, FirstActionLeads, ← head?_ranked_iff,
    hhead, hhead (ranked _ _), filter_ranked]
  rw [eq_comm]
  refine @decision_inj find c r body w _ _ ?_ ?_ ?_
  · intro rule hrule
    have hmem := (ranked_perm WAFRule.priority _).mem_iff.mp (List.mem_of_mem_head? hrule)
    exact List.of_mem_filter hmem
  · intro rule hrule
    exact List.of_mem_filter (List.mem_of_mem_head? hrule)
  · have hnil := (ranked_perm WAFRule.priority (rules.filter (Decides find c r body))).length_eq
    rw [Bool.eq_iff_iff, List.isSome_head?, List.isSome_head?, ← List.length_pos_iff,
      ← List.length_pos_iff, hnil]

end Evaluation

/-! ## A blocking rule that came late -/

/-- A rule about the path of the panel. -/
def adminRule (id : String) (action : String) (priority : ℤ) : WAFRule where
  id := bytes id
  name := bytes id
  location := bytes "uri"
  operator := bytes "equals"
  value := bytes "/admin"
  action := bytes action
  priority := priority
  enabled := true

/-- The first rule lets the path through, the second one blocks it with a higher priority. -/
def lateBlock : RuleStore :=
  StateMachine.run (RuleStore.step fun _ => true) { websites := [1] }
    [.upsert 1 (adminRule "open" "allow" 100) [] true,
      .upsert 1 (adminRule "closed" "block" 1) [] true]

def blockingSite : Context where
  global := { mode := some (bytes "block") }
  lists := {}
  site := {}
  clientIP := bytes "10.0.0.1"

theorem lateBlock_not_enforced :
    let r : Request := { remoteAddr := bytes "10.0.0.1", host := bytes "a.b", uri := bytes "/admin" }
    let rules := lateBlock.stored (.site 1)
    (lateBlock.listRules 1).map WAFRule.id = [bytes "closed", bytes "open"] ∧
      decisionStored (fun _ _ => false) blockingSite r [] rules {} = .done .served ∧
      decisionByPriority (fun _ _ => false) blockingSite r [] rules {} =
        .done (.denied 403 .rule) := by
  decide +kernel

end WorkMesh.Waf
