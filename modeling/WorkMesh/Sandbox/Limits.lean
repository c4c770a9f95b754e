import Mathlib.Data.Int.Order.Basic
import Mathlib.Tactic.Linarith
import Mathlib.Tactic.Cases
import Mathlib.Tactic.ByContra
import Mathlib.Tactic.SplitIfs

/-!
# The limits of a node

The limits of the configuration are positive and stay. The gateway may send a
policy that, where it is enforced, lowers them further. A policy comes with a
revision, and one that is older than the policy in force is left out.
-/

namespace WorkMesh.Sandbox

/-- The limits of the configuration. -/
structure RuntimeLimits where
  maxConcurrentTasks : ℤ
  maxConcurrentConversions : ℤ
  maxSSEStreams : ℤ
  maxAIJobs : ℤ
  maxLogBytes : ℤ
  cacheTTL : ℤ
deriving DecidableEq

def RuntimeLimits.Positive (limits : RuntimeLimits) : Prop :=
  0 < limits.maxConcurrentTasks ∧ 0 < limits.maxConcurrentConversions ∧
    0 < limits.maxSSEStreams ∧ 0 < limits.maxAIJobs ∧ 0 < limits.maxLogBytes ∧ 0 < limits.cacheTTL

instance : DecidablePred RuntimeLimits.Positive := fun limits =>
  inferInstanceAs (Decidable (0 < limits.maxConcurrentTasks ∧
    0 < limits.maxConcurrentConversions ∧ 0 < limits.maxSSEStreams ∧ 0 < limits.maxAIJobs ∧
      0 < limits.maxLogBytes ∧ 0 < limits.cacheTTL))

/-- A policy of the gateway, where 0 stands for no limit. -/
structure ResourcePolicy where
  mode : String := ""
  maxConcurrentTasks : ℤ := 0
  maxConcurrentConversions : ℤ := 0
  maxSSEStreams : ℤ := 0
  maxAIJobs : ℤ := 0
deriving DecidableEq

inductive ResourceKind where
  | tasks
  | conversions
  | streams
  | aiJobs
deriving DecidableEq

def RuntimeLimits.of (limits : RuntimeLimits) : ResourceKind → ℤ
  | .tasks => limits.maxConcurrentTasks
  | .conversions => limits.maxConcurrentConversions
  | .streams => limits.maxSSEStreams
  | .aiJobs => limits.maxAIJobs

def ResourcePolicy.of (policy : ResourcePolicy) : ResourceKind → ℤ
  | .tasks => policy.maxConcurrentTasks
  | .conversions => policy.maxConcurrentConversions
  | .streams => policy.maxSSEStreams
  | .aiJobs => policy.maxAIJobs

/-- The limits of the configuration with the policy in force. -/
structure RuntimeLimitState where
  limits : RuntimeLimits
  positive : limits.Positive
  policy : ResourcePolicy := {}
  policyRevision : ℤ := 0

def defaultRuntimeLimits : RuntimeLimitState where
  limits := ⟨4, 2, 64, 4, 8 * 2 ^ 20, 300⟩
  positive := by decide

def setRuntimeLimits (limits : RuntimeLimits) : Except String RuntimeLimitState :=
  if h : limits.Positive then .ok { limits, positive := h }
  else .error "运行时资源上限必须大于 0"

namespace RuntimeLimitState

variable (s : RuntimeLimitState)

def effectiveRuntimeLimit (kind : ResourceKind) : ℤ :=
  let localLimit := s.limits.of kind
  let remote := s.policy.of kind
  if s.policy.mode = "enforce" ∧ 0 < remote ∧ (localLimit = 0 ∨ remote < localLimit) then remote
  else localLimit

def applyRemoteResourcePolicy (policy : ResourcePolicy) (revision : ℤ) :
    Except String RuntimeLimitState :=
  let policy := if policy.mode = "" then { policy with mode := "observe" } else policy
  if policy.mode ≠ "observe" ∧ policy.mode ≠ "enforce" then
    .error "资源策略 mode 只允许 observe 或 enforce"
  else if policy.maxConcurrentTasks < 0 ∨ policy.maxConcurrentConversions < 0 ∨
      policy.maxSSEStreams < 0 ∨ policy.maxAIJobs < 0 ∨ revision < 0 then
    .error "资源策略上限和版本不能为负数"
  else if s.policyRevision ≤ revision then .ok { s with policy, policyRevision := revision }
  else .ok s

variable {s}

theorem localLimit_pos (kind : ResourceKind) : 0 < s.limits.of kind := by
  obtain ⟨htasks, hconversions, hstreams, hjobs, -⟩ := s.positive
  cases kind with
  | tasks => exact htasks
  | conversions => exact hconversions
  | streams => exact hstreams
  | aiJobs => exact hjobs

theorem effectiveRuntimeLimit_pos (kind : ResourceKind) : 0 < s.effectiveRuntimeLimit kind := by
  rw [effectiveRuntimeLimit]
  split
  · rename_i hremote
    exact hremote.2.1
  · exact localLimit_pos kind

/-- A policy only lowers the limit of the configuration. -/
theorem effectiveRuntimeLimit_le (kind : ResourceKind) :
    s.effectiveRuntimeLimit kind ≤ s.limits.of kind := by
  have hpos := localLimit_pos (s := s) kind
  rw [effectiveRuntimeLimit]
  split
  · rename_i hremote
    rcases hremote.2.2 with hzero | hlt
    · omega
    · exact le_of_lt hlt
  · exact le_refl _

/-- A policy leaves the limits of the configuration, and after it the revision in force is
neither below its own nor below the earlier one. -/
theorem apply_ok {policy : ResourcePolicy} {revision : ℤ} {next : RuntimeLimitState}
    (h : s.applyRemoteResourcePolicy policy revision = .ok next) :
    next.limits = s.limits ∧ s.policyRevision ≤ next.policyRevision ∧
      revision ≤ next.policyRevision := by
  simp only [applyRemoteResourcePolicy] at h
  generalize (if policy.mode = "" then { policy with mode := "observe" } else policy) = given at h
  split at h
  · cases h
  · split at h
    · cases h
    · split at h
      · rename_i hnewer
        rw [← Except.ok.inj h]
        exact ⟨rfl, hnewer, le_refl _⟩
      · rename_i hnewer
        rw [← Except.ok.inj h]
        exact ⟨rfl, le_refl _, le_of_lt (not_le.mp hnewer)⟩

end RuntimeLimitState

end WorkMesh.Sandbox
