import WorkMesh.Encoding.Cookie
import WorkMesh.Encoding.Path

/-!
# What a sandbox may be created with

A task is described by a specification that a caller gives. It is checked, its
limits are brought within those of a profile, and a backend that has to prove
its abilities is asked for them, all before the backend creates anything.
-/

namespace WorkMesh.Sandbox

open Encoding

structure RuntimePolicy where
  sandboxType : Bytes := []
  backend : Bytes := []
  isolationRequired : Bytes := []
  riskClass : Bytes := []
  environment : Bytes := []
  allowRemoteDispatch : Bool := false
  allowedHosts : List Bytes := []
  workspaceRef : Bytes := []
  productionReleaseApprovalID : Bytes := []
deriving DecidableEq

structure ResourceLimits where
  cpuQuotaMicros : ℤ := 0
  memoryBytes : ℤ := 0
  pidsMax : ℤ := 0
  diskBytes : ℤ := 0
deriving DecidableEq

structure TaskSpec where
  taskID : Bytes
  imageDigest : Bytes
  worktree : Bytes
  entrypoint : List Bytes
  timeout : ℤ := 0
  resourceProfile : Bytes := []
  resourceLimits : ResourceLimits := {}
  runtimePolicy : RuntimePolicy := {}
deriving DecidableEq

structure SandboxCapabilities where
  protocolVersion : Bytes
  sandboxType : Bytes
  backend : Bytes
  isolation : Bytes
  workspaceIsolation : Bool
  networkIsolation : Bool
  networkAllowlist : Bool
  preStartEnforcement : Bool
  processTreeContainment : Bool
  hardCPU : Bool
  hardMemory : Bool
  hardPIDs : Bool
  hardDisk : Bool
  maxResourceLimits : ResourceLimits

/-- A text within a message. -/
def shown (text : Bytes) : String := (String.fromUTF8? ⟨text.toArray⟩).getD ""

/-! ## Resource limits -/

/-- Some limit is above its bound. -/
def ResourceLimits.exceeds (limits bound : ResourceLimits) : Bool :=
  limits.cpuQuotaMicros > bound.cpuQuotaMicros || limits.memoryBytes > bound.memoryBytes ||
    limits.pidsMax > bound.pidsMax || limits.diskBytes > bound.diskBytes

/-- Some limit is not positive. -/
def ResourceLimits.lacking (limits : ResourceLimits) : Bool :=
  limits.cpuQuotaMicros ≤ 0 || limits.memoryBytes ≤ 0 || limits.pidsMax ≤ 0 ||
    limits.diskBytes ≤ 0

def resourceLimitsForProfile (profile : Bytes) : Except String ResourceLimits :=
  let profile := toLower (trimSpace profile)
  if profile = [] ∨ profile = bytes "small" then .ok ⟨100000, 2 ^ 30, 256, 2 ^ 32⟩
  else if profile = bytes "medium" then .ok ⟨200000, 2 ^ 31, 512, 2 ^ 33⟩
  else if profile = bytes "large" then .ok ⟨400000, 2 ^ 32, 1024, 2 ^ 34⟩
  else .error "resourceProfile 只能是 small、medium 或 large"

def normalizeResourceLimits (profile : Bytes) (limits : ResourceLimits) :
    Except String (Bytes × ResourceLimits) :=
  let profile := toLower (trimSpace profile)
  match resourceLimitsForProfile profile with
  | .error e => .error e
  | .ok defaults =>
  let profile := if profile = [] then bytes "small" else profile
  if limits = {} then .ok (profile, defaults)
  else if limits.lacking then .error "resourceLimits 必须全部为正数"
  else if limits.exceeds defaults then
    .error s!"resourceLimits 不能超过 {shown profile} profile 的默认上限"
  else .ok (profile, limits)

/-! ## The policy -/

def defaultPolicy : RuntimePolicy where
  sandboxType := bytes "forgevm"
  backend := bytes "gvisor"
  isolationRequired := bytes "container"
  riskClass := bytes "untrusted"
  environment := bytes "development"
  allowRemoteDispatch := true

def RuntimePolicy.normalized (p : RuntimePolicy) : RuntimePolicy :=
  if p.sandboxType = [] ∧ p.backend = [] ∧ p.isolationRequired = [] ∧ p.riskClass = [] ∧
      p.environment = [] then
    { p with
      sandboxType := defaultPolicy.sandboxType
      backend := defaultPolicy.backend
      isolationRequired := defaultPolicy.isolationRequired
      riskClass := defaultPolicy.riskClass
      environment := defaultPolicy.environment
      allowRemoteDispatch := defaultPolicy.allowRemoteDispatch }
  else p

/-- `validate` of a policy, `none` when it has no objection. -/
def RuntimePolicy.validate (p : RuntimePolicy) : Option String :=
  let p := p.normalized
  if p.sandboxType ≠ bytes "forgevm" then some "当前节点仅支持 forgevm 沙盒"
  else if p.isolationRequired ∉ [bytes "vm", bytes "container", bytes "none"] then
    some "runtimePolicy isolationRequired 无效"
  else if p.riskClass ∉ [bytes "untrusted", bytes "trusted", bytes "read_only"] then
    some "runtimePolicy riskClass 无效"
  else if p.backend ∉ [[], bytes "firecracker", bytes "gvisor", bytes "docker",
      bytes "managed"] then
    some "runtimePolicy backend 无效"
  else if p.environment ∉ [bytes "development", bytes "test", bytes "staging",
      bytes "production"] then
    some "runtimePolicy environment 无效"
  else if p.environment = bytes "production" ∧ trimSpace p.productionReleaseApprovalID = [] then
    some "生产环境必须提供 productionReleaseApprovalId"
  else if p.riskClass = bytes "untrusted" ∧ p.isolationRequired = bytes "none" then
    some "不可信 Agent 必须声明容器或 VM 隔离"
  else if p.backend = bytes "docker" ∧ p.riskClass = bytes "untrusted" then
    some "普通 Docker 不得执行不可信 Agent"
  else if p.backend = bytes "firecracker" ∧ p.isolationRequired ≠ bytes "vm" then
    some "Firecracker 任务必须声明 vm 隔离"
  else if p.allowedHosts.any fun host => trimSpace host = [] ∨ 13 ∈ host ∨ 10 ∈ host then
    some "runtimePolicy allowedHosts 包含无效主机"
  else none

/-! ## The abilities of a backend -/

def sandboxProtocolVersion : Bytes := bytes "workmesh.sandbox.v1"

def validateCapabilitySet (caps : SandboxCapabilities) : Option String :=
  if caps.protocolVersion ≠ sandboxProtocolVersion then
    some "Sandbox CLI 未实现受支持的 WorkMesh Sandbox 协议版本"
  else if !caps.workspaceIsolation then some "Sandbox 未提供工作区隔离能力"
  else if !caps.hardCPU || !caps.hardMemory || !caps.hardPIDs || !caps.hardDisk then
    some "Sandbox 未提供完整 CPU、内存、PID 和磁盘硬限制"
  else if !caps.preStartEnforcement || !caps.processTreeContainment then
    some "Sandbox 未声明启动前限制和进程树约束"
  else if caps.maxResourceLimits.lacking then some "Sandbox 未声明有效的资源上限"
  else none

def validateSandboxCapabilities (caps : SandboxCapabilities) (spec : TaskSpec) : Option String :=
  match validateCapabilitySet caps with
  | some e => some e
  | none =>
  let policy := spec.runtimePolicy.normalized
  if trimSpace caps.sandboxType ≠ policy.sandboxType then
    some s!"Sandbox 类型不匹配: 需要 {shown policy.sandboxType}，实际 {shown caps.sandboxType}"
  else if trimSpace caps.backend ≠ policy.backend then
    some s!"Sandbox backend 不匹配: 需要 {shown policy.backend}，实际 {shown caps.backend}"
  else if policy.isolationRequired ≠ bytes "none" ∧ caps.isolation ≠ policy.isolationRequired then
    some (s!"Sandbox 隔离级别不匹配: 需要 {shown policy.isolationRequired}，" ++
      s!"实际 {shown caps.isolation}")
  else if (policy.riskClass = bytes "untrusted" ∨ policy.allowedHosts ≠ []) ∧
      !caps.networkIsolation then
    some "Sandbox 未提供网络隔离能力"
  else if policy.allowedHosts ≠ [] ∧ !caps.networkAllowlist then
    some "Sandbox 未提供网络 allowlist 能力"
  else if spec.resourceLimits.exceeds caps.maxResourceLimits then
    some "任务资源限制超过 Sandbox 能力上限"
  else none

/-! ## The specification -/

/-- What `os.Lstat` tells of a path. -/
inductive Lstat where
  | notExist
  | failed (message : String)
  | found (symlink dir : Bool)
deriving DecidableEq

/-- What the checks read besides the specification: the root of the workspaces and the files. -/
structure Host where
  workspaceRoot : Bytes
  lstat : Bytes → Lstat

def isTaskIDStart (c : UInt8) : Bool :=
  (65 ≤ c && c ≤ 90) || (97 ≤ c && c ≤ 122) || (48 ≤ c && c ≤ 57)

/-- `taskIDPattern`. -/
def isTaskID : Bytes → Bool
  | [] => false
  | c :: rest =>
      isTaskIDStart c && rest.length ≤ 119 &&
        rest.all fun d => isTaskIDStart d || d = 46 || d = 95 || d = 58 || d = 45

def isAbsolutePath (value : Bytes) : Bool :=
  isRooted value ||
    (value.length ≥ 3 && value[1]? = some 58 && (value[2]? = some 47 || value[2]? = some 92))

/-- The elements of a path below the root, none of which may be a link. The walk ends at
the first that does not exist. -/
def rejectLinks (host : Host) : Bytes → List Bytes → Option String
  | _, [] => none
  | current, part :: rest =>
      let current := joinPath current part
      match host.lstat current with
      | .notExist => none
      | .failed message => some s!"检查 worktree 路径失败: {message}"
      | .found symlink _ =>
          if symlink then some "worktree 路径不能包含符号链接" else rejectLinks host current rest

def rejectSymlinkPath (host : Host) (root target : Bytes) : Option String :=
  match host.lstat root with
  | .notExist => some "Agent workspace root 不可用: file does not exist"
  | .failed message => some s!"Agent workspace root 不可用: {message}"
  | .found symlink dir =>
  if symlink ∨ !dir then some "Agent workspace root 必须是非符号链接目录"
  else
  match relativePath root target with
  | none => some "worktree 路径解析失败"
  | some rel =>
  if rel = bytes "." ∨ (bytes "../").isPrefixOf rel ∨ rel = bytes ".." then
    some "worktree 路径解析失败"
  else rejectLinks host root (rel.splitOn 47)

def deniedDirectories : List Bytes :=
  ["/etc", "/root", "/proc", "/sys", "/dev", "/var/run", "/var/lib/docker", "/www", "/home"].map
    bytes

def validateWorktree (host : Host) (value : Bytes) : Option String :=
  let value := trimSpace value
  if value = [] ∨ 0 ∈ value ∨ !isAbsolutePath value ∨ cleanPath value = [47] then
    some "worktree 必须是非根绝对路径"
  else
  let clean := toLower (cleanPath value)
  match deniedDirectories.find? fun denied => clean = denied ∨ (denied ++ [47]).isPrefixOf clean with
  | some denied => some s!"worktree 位于禁止访问的宿主目录: {shown denied}"
  | none =>
  let root := trimSpace host.workspaceRoot
  if root = [] then some "未配置 WORKMESH_AGENT_WORKSPACE_ROOT，拒绝使用未隔离工作区"
  else if !isAbsolutePath root then some "WORKMESH_AGENT_WORKSPACE_ROOT 必须是绝对路径"
  else
  let rootSlash := (cleanPath root).rdropWhile (· = 47)
  let rootCompare := toLower rootSlash
  if clean = rootCompare ∨ !(rootCompare ++ [47]).isPrefixOf clean then
    some "worktree 必须位于 Agent workspace root 的任务子目录"
  else rejectSymlinkPath host rootSlash (cleanPath value)

def isLowerHex (c : UInt8) : Bool := (48 ≤ c && c ≤ 57) || (97 ≤ c && c ≤ 102)

/-- `validateSpec`, `none` when it has no objection. -/
def validateSpec (host : Host) (spec : TaskSpec) : Option String :=
  if trimSpace spec.taskID ≠ spec.taskID ∨ !isTaskID spec.taskID then some "taskId 格式无效"
  else if spec.imageDigest.length ≠ 71 ∨ !(bytes "sha256:").isPrefixOf spec.imageDigest then
    some "Agent image digest 必须是 sha256 加 64 位摘要"
  else if !(spec.imageDigest.drop 7).all isLowerHex then
    some "Agent image digest 不是有效的小写十六进制"
  else
  match validateWorktree host spec.worktree with
  | some e => some e
  | none =>
  match normalizeResourceLimits spec.resourceProfile spec.resourceLimits with
  | .error e => some e
  | .ok _ =>
  let first := trimSpace (spec.entrypoint.headD [])
  if first = [] then some "Agent bootstrap entrypoint 不能为空"
  else
  let entry := cleanPath first
  if !(bytes "/opt/workmesh/").isPrefixOf entry ∨ basePath entry = bytes "sh" ∨
      basePath entry = bytes "bash" then
    some "Agent bootstrap entrypoint 必须位于 /opt/workmesh"
  else if spec.entrypoint.any fun arg => 0 ∈ arg ∨ arg.length > 16 * 1024 then
    some "entrypoint 含有非法或过长参数"
  else spec.runtimePolicy.validate

/-! ## What the checks let through -/

/-- Limits that are positive and within those of their profile. -/
def Bounded (spec : TaskSpec) : Prop :=
  spec.resourceLimits.lacking = false ∧
    ∃ bound, resourceLimitsForProfile spec.resourceProfile = .ok bound ∧
      spec.resourceLimits.exceeds bound = false

/-- An isolation that the trust in the task allows. A policy that is left out entirely stands
for the default one, and the backend receives it as it is: what it is told in so many words
to run on Docker or without isolation is trusted. -/
structure Isolated (policy : RuntimePolicy) : Prop where
  trusted : policy.backend = bytes "docker" ∨ policy.isolationRequired = bytes "none" →
    policy.riskClass ∈ [bytes "trusted", bytes "read_only"]
  known : policy.normalized.riskClass ∈ [bytes "untrusted", bytes "trusted", bytes "read_only"]
  contained : policy.normalized.riskClass = bytes "untrusted" →
    policy.normalized.isolationRequired ∈ [bytes "vm", bytes "container"]
  notDocker : policy.normalized.riskClass = bytes "untrusted" →
    policy.normalized.backend ≠ bytes "docker"
  firecracker : policy.normalized.backend = bytes "firecracker" →
    policy.normalized.isolationRequired = bytes "vm"

/-- A check that has no objection did not hold, and the later checks have none either. -/
theorem check_eq_none {p : Prop} [Decidable p] {e : String} {later : Option String} :
    (if p then some e else later) = none ↔ ¬ p ∧ later = none := by
  by_cases hp : p
  · simp [hp]
  · simp [hp]

theorem isolated_of_validate {policy : RuntimePolicy} (h : policy.validate = none) :
    Isolated policy := by
  rw [RuntimePolicy.validate] at h
  simp only [check_eq_none] at h
  obtain ⟨-, hisolation, hrisk, -, -, -, huntrusted, hdocker, hfire, -⟩ := h
  rw [not_not] at hisolation hrisk
  have hsame : policy.backend = bytes "docker" ∨ policy.isolationRequired = bytes "none" →
      policy.normalized = policy := by
    intro hopen
    refine if_neg ?_
    rintro ⟨-, hbackend, hisolation, -⟩
    rcases hopen with hdocker | hnone
    · rw [hbackend] at hdocker
      exact absurd hdocker (by decide)
    · rw [hisolation] at hnone
      exact absurd hnone (by decide)
  refine ⟨fun hopen => ?_, hrisk, fun hrisk => ?_, fun hrisk hbackend => hdocker ⟨hbackend, hrisk⟩,
    fun hbackend => ?_⟩
  · have heq := hsame hopen
    rw [heq] at hrisk huntrusted hdocker
    rcases List.mem_cons.mp hrisk with hrisk | htrusted
    · rcases hopen with hbackend | hnone
      · exact absurd ⟨hbackend, hrisk⟩ hdocker
      · exact absurd ⟨hrisk, hnone⟩ huntrusted
    · exact htrusted
  · rcases List.mem_cons.mp hisolation with hvm | hisolation
    · exact List.mem_cons.mpr (.inl hvm)
    · rcases List.mem_cons.mp hisolation with hcontainer | hnone
      · exact List.mem_cons.mpr (.inr (List.mem_singleton.mpr hcontainer))
      · exact absurd ⟨hrisk, List.mem_singleton.mp hnone⟩ huntrusted
  · by_contra hvm
    exact hfire ⟨hbackend, hvm⟩

theorem exceeds_self (limits : ResourceLimits) : limits.exceeds limits = false := by
  simp [ResourceLimits.exceeds]

theorem lacking_of_profile {profile : Bytes} {bound : ResourceLimits}
    (h : resourceLimitsForProfile profile = .ok bound) : bound.lacking = false := by
  rw [resourceLimitsForProfile] at h
  split at h
  · rw [← Except.ok.inj h]
    decide
  · split at h
    · rw [← Except.ok.inj h]
      decide
    · split at h
      · rw [← Except.ok.inj h]
        decide
      · cases h

theorem small_profile :
    resourceLimitsForProfile (bytes "small") = resourceLimitsForProfile [] := by
  decide +kernel

/-- The limits that come out are within those of the profile that comes out. -/
theorem normalizeResourceLimits_bounded {profile word : Bytes} {limits out : ResourceLimits}
    (h : normalizeResourceLimits profile limits = .ok (word, out)) :
    out.lacking = false ∧
      ∃ bound, resourceLimitsForProfile word = .ok bound ∧ out.exceeds bound = false := by
  rw [normalizeResourceLimits] at h
  simp only at h
  split at h
  · cases h
  · rename_i defaults hprofile
    have hword : ∀ {w : Bytes}, (if toLower (trimSpace profile) = [] then bytes "small"
        else toLower (trimSpace profile)) = w → resourceLimitsForProfile w = .ok defaults := by
      rintro w rfl
      split
      · rename_i hempty
        rw [small_profile, ← hempty, hprofile]
      · exact hprofile
    split at h
    · obtain ⟨hw, rfl⟩ := Prod.mk.inj (Except.ok.inj h)
      exact ⟨lacking_of_profile hprofile, defaults, hword hw, exceeds_self defaults⟩
    · split at h
      · cases h
      · rename_i hlacking
        split at h
        · cases h
        · rename_i hexceeds
          obtain ⟨hw, rfl⟩ := Prod.mk.inj (Except.ok.inj h)
          exact ⟨by simpa using hlacking, defaults, hword hw, by simpa using hexceeds⟩

/-- A specification that is let through has a policy without objections. -/
theorem isolated_of_validateSpec {host : Host} {spec : TaskSpec}
    (h : validateSpec host spec = none) : Isolated spec.runtimePolicy := by
  rw [validateSpec] at h
  simp only [check_eq_none] at h
  obtain ⟨-, -, -, h⟩ := h
  split at h
  · cases h
  · split at h
    · cases h
    · simp only [check_eq_none] at h
      exact isolated_of_validate h.2.2.2

end WorkMesh.Sandbox
