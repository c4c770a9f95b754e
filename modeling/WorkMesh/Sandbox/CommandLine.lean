import WorkMesh.Sandbox.Policy

/-!
# The backend behind a command line

A sandbox is made by a program that is started with the task as JSON. It answers with JSON
on its standard output, and the answer is believed only if the program ends well, stays
within the limit of its output, names the sandbox and acknowledges every restriction that
the task asks for. The program has done its work by then, whatever becomes of the answer,
and nothing takes the sandbox down again.

## Implementation notes

`decode` is the grammar of JSON, from a text to a value. What `json.Unmarshal` makes of a
value is `readStruct`: keys up to case, `null` for what was there before, the last of
several entries, and an error for a value of another kind. Texts of the program within an
error are given as they are, before `sanitizeCLIMessage`.
-/

namespace WorkMesh.Sandbox

open Encoding

/-! ## Reading an answer -/

/-- A value of JSON, a number by its text. -/
inductive Json where
  | null
  | bool (value : Bool)
  | number (text : Bytes)
  | string (text : Bytes)
  | array (items : List Json)
  | object (fields : List (Bytes × Json))

def readBool (held : Bool) : Json → Option Bool
  | .null => some held
  | .bool value => some value
  | _ => none

def readInt64 (held : ℤ) : Json → Option ℤ
  | .null => some held
  | .number text => parseInt text
  | _ => none

def readString (held : Bytes) : Json → Option Bytes
  | .null => some held
  | .string text => some text
  | _ => none

def readStrings : Json → Option (List Bytes)
  | .null => some []
  | .array items => items.mapM (readString [])
  | _ => none

/-- An object over a record. Keys that the record does not have are passed over by `set`. -/
def readStruct {α : Type} (set : α → Bytes → Json → Option α) (held : α) : Json → Option α
  | .null => some held
  | .object fields => fields.foldlM (fun held entry => set held (foldCase entry.1) entry.2) held
  | _ => none

/-- The name of a field, as keys are compared with it. -/
def fieldName (name : String) : Bytes := foldCase (bytes name)

def ResourceLimits.set (limits : ResourceLimits) (key : Bytes) (value : Json) :
    Option ResourceLimits :=
  if key = fieldName "cpuQuotaMicros" then
    (readInt64 limits.cpuQuotaMicros value).map fun n => { limits with cpuQuotaMicros := n }
  else if key = fieldName "memoryBytes" then
    (readInt64 limits.memoryBytes value).map fun n => { limits with memoryBytes := n }
  else if key = fieldName "pidsMax" then
    (readInt64 limits.pidsMax value).map fun n => { limits with pidsMax := n }
  else if key = fieldName "diskBytes" then
    (readInt64 limits.diskBytes value).map fun n => { limits with diskBytes := n }
  else some limits

/-- What a backend acknowledges to have put in force for a task. -/
structure SandboxEnforcementReceipt where
  protocolVersion : Bytes := []
  sandboxType : Bytes := []
  backend : Bytes := []
  isolation : Bytes := []
  workspaceRef : Bytes := []
  resourceLimits : ResourceLimits := {}
  workspaceIsolation : Bool := false
  networkIsolation : Bool := false
  networkAllowlistEnforced : Bool := false
  allowedHosts : List Bytes := []
  preStartEnforcement : Bool := false
  processTreeContainment : Bool := false
  hardCPU : Bool := false
  hardMemory : Bool := false
  hardPIDs : Bool := false
  hardDisk : Bool := false
deriving DecidableEq

def SandboxEnforcementReceipt.set (r : SandboxEnforcementReceipt) (key : Bytes) (value : Json) :
    Option SandboxEnforcementReceipt :=
  if key = fieldName "protocolVersion" then
    (readString r.protocolVersion value).map fun t => { r with protocolVersion := t }
  else if key = fieldName "sandboxType" then
    (readString r.sandboxType value).map fun t => { r with sandboxType := t }
  else if key = fieldName "backend" then
    (readString r.backend value).map fun t => { r with backend := t }
  else if key = fieldName "isolation" then
    (readString r.isolation value).map fun t => { r with isolation := t }
  else if key = fieldName "workspaceRef" then
    (readString r.workspaceRef value).map fun t => { r with workspaceRef := t }
  else if key = fieldName "resourceLimits" then
    (readStruct ResourceLimits.set r.resourceLimits value).map fun l => { r with resourceLimits := l }
  else if key = fieldName "workspaceIsolation" then
    (readBool r.workspaceIsolation value).map fun b => { r with workspaceIsolation := b }
  else if key = fieldName "networkIsolation" then
    (readBool r.networkIsolation value).map fun b => { r with networkIsolation := b }
  else if key = fieldName "networkAllowlistEnforced" then
    (readBool r.networkAllowlistEnforced value).map fun b => { r with networkAllowlistEnforced := b }
  else if key = fieldName "allowedHosts" then
    (readStrings value).map fun hosts => { r with allowedHosts := hosts }
  else if key = fieldName "preStartEnforcement" then
    (readBool r.preStartEnforcement value).map fun b => { r with preStartEnforcement := b }
  else if key = fieldName "processTreeContainment" then
    (readBool r.processTreeContainment value).map fun b => { r with processTreeContainment := b }
  else if key = fieldName "hardCpu" then
    (readBool r.hardCPU value).map fun b => { r with hardCPU := b }
  else if key = fieldName "hardMemory" then
    (readBool r.hardMemory value).map fun b => { r with hardMemory := b }
  else if key = fieldName "hardPids" then
    (readBool r.hardPIDs value).map fun b => { r with hardPIDs := b }
  else if key = fieldName "hardDisk" then
    (readBool r.hardDisk value).map fun b => { r with hardDisk := b }
  else some r

/-- `ValidateSandboxEnforcementReceipt`, `none` when it has no objection. -/
def validateSandboxEnforcementReceipt (receipt : SandboxEnforcementReceipt) (spec : TaskSpec) :
    Option String :=
  let policy := spec.runtimePolicy.normalized
  if receipt.protocolVersion ≠ sandboxProtocolVersion then some "Sandbox create 回执协议版本不受支持"
  else if receipt.sandboxType ≠ policy.sandboxType ∨ receipt.backend ≠ policy.backend ∨
      receipt.isolation ≠ policy.isolationRequired then
    some "Sandbox create 回执的隔离类型与任务策略不匹配"
  else if receipt.workspaceRef ≠ policy.workspaceRef ∨
      receipt.resourceLimits ≠ spec.resourceLimits then
    some "Sandbox create 回执的工作区或资源限制与任务请求不匹配"
  else if !receipt.workspaceIsolation || !receipt.preStartEnforcement ||
      !receipt.processTreeContainment || !receipt.hardCPU || !receipt.hardMemory ||
      !receipt.hardPIDs || !receipt.hardDisk then
    some "Sandbox create 回执未确认启动前资源限制、进程树约束及工作区隔离"
  else if (policy.riskClass = bytes "untrusted" ∨ policy.allowedHosts ≠ []) ∧
      !receipt.networkIsolation then
    some "Sandbox create 回执未确认网络隔离"
  else if policy.allowedHosts ≠ [] ∧ !receipt.networkAllowlistEnforced then
    some "Sandbox create 回执未确认网络 allowlist 已执行"
  else if receipt.allowedHosts ≠ policy.allowedHosts then
    some "Sandbox create 回执的网络 allowlist 与任务策略不匹配"
  else none

/-! ## The program -/

inductive CLIError where
  | message (text : String)
  /-- A text that comes from the program. -/
  | reported (text : Bytes)
  /-- `任务 CLI {operation} 失败`. -/
  | failed (operation : String) (cause : CLIError)
deriving DecidableEq

inductive ContextError where
  | deadlineExceeded
  | canceled
deriving DecidableEq

def ContextError.cliError : ContextError → CLIError
  | .deadlineExceeded => .message "任务 CLI 操作超时"
  | .canceled => .message "任务 CLI 操作已取消"

/-- What ends the wait for the program: it has ended itself, with the error of `cmd.Run` and
that of the context then, or the context is over and the program is terminated. -/
inductive Ending where
  | returned (err : Option Bytes) (context : Option ContextError)
  | interrupted (context : ContextError)
deriving DecidableEq

/-- A run of the program: the pieces that it writes, its end, and the sandbox that it has made. -/
structure Process where
  stdout : List Bytes := []
  stderr : List Bytes := []
  ending : Ending
  created : Option Bytes := none

structure LimitedOutput where
  content : Bytes := []
  exceeded : Bool := false
deriving DecidableEq

def LimitedOutput.write (limit : ℕ) (o : LimitedOutput) (data : Bytes) : LimitedOutput :=
  if 0 < limit ∧ limit < o.content.length + data.length then { o with exceeded := true }
  else { o with content := o.content ++ data }

def limitedOutput (limit : ℕ) (pieces : List Bytes) : LimitedOutput :=
  pieces.foldl (LimitedOutput.write limit) {}

def runCLI (outputLimit : ℕ) (p : Process) : Except CLIError Bytes :=
  let stdout := limitedOutput outputLimit p.stdout
  let stderr := limitedOutput outputLimit p.stderr
  match p.ending with
  | .returned (some _) (some context) => .error context.cliError
  | .returned (some err) none =>
      if trimSpace stderr.content ≠ [] then .error (.reported stderr.content)
      else .error (.reported err)
  | .interrupted context => .error context.cliError
  | .returned none _ =>
      if stdout.exceeded || stderr.exceeded then .error (.message "任务 CLI 输出超过限制")
      else .ok stdout.content

structure CLITaskBackend where
  outputLimit : ℕ

/-- What is around every answer. -/
structure CLIEnvelope where
  ok : Option Bool := none
  error : Bytes := []
  message : Bytes := []
  data : Option Json := none

def CLIEnvelope.set (e : CLIEnvelope) (key : Bytes) (value : Json) : Option CLIEnvelope :=
  if key = fieldName "ok" then
    match value with
    | .null => some { e with ok := none }
    | .bool ok => some { e with ok := some ok }
    | _ => none
  else if key = fieldName "error" then
    (readString e.error value).map fun t => { e with error := t }
  else if key = fieldName "message" then
    (readString e.message value).map fun t => { e with message := t }
  else if key = fieldName "data" then some { e with data := some value }
  else some e

/-- The data over a record, which stays as it is if there is none. -/
def CLIEnvelope.read {α : Type} (e : CLIEnvelope) (set : α → Bytes → Json → Option α) (held : α) :
    Option α :=
  match e.data with
  | none => some held
  | some value => readStruct set held value

/-- `execute` of an allowed operation, over the run of the program that it starts. -/
def CLITaskBackend.execute {α : Type} (b : CLITaskBackend) (decode : Bytes → Option Json)
    (operation : String) (set : α → Bytes → Json → Option α) (held : α) (p : Process) :
    Except CLIError α :=
  match runCLI b.outputLimit p with
  | .error cause => .error (.failed operation cause)
  | .ok out =>
  match (decode out).bind (readStruct CLIEnvelope.set {}) with
  | none => .error (.message "任务 CLI 返回了无效结果")
  | some envelope =>
  match envelope.ok with
  | none => .error (.message "任务 CLI 返回了无效结果")
  | some false =>
      if trimSpace envelope.error ≠ [] then .error (.reported (trimSpace envelope.error))
      else if trimSpace envelope.message ≠ [] then .error (.reported (trimSpace envelope.message))
      else .error (.message "任务 CLI 操作失败")
  | some true =>
  match envelope.read set held with
  | none => .error (.message "任务 CLI data 无效")
  | some result => .ok result

/-! ## Making a sandbox -/

structure CreateResponse where
  sandboxID : Bytes := []
  enforcement : SandboxEnforcementReceipt := {}

def CreateResponse.set (r : CreateResponse) (key : Bytes) (value : Json) : Option CreateResponse :=
  if key = fieldName "sandboxId" then
    (readString r.sandboxID value).map fun t => { r with sandboxID := t }
  else if key = fieldName "enforcement" then
    (readStruct SandboxEnforcementReceipt.set r.enforcement value).map fun e =>
      { r with enforcement := e }
  else some r

/-- A start of the program. -/
inductive Command where
  | create (spec : TaskSpec)
  | destroy (sandboxID : Bytes)
deriving DecidableEq

/-- `CLITaskBackend.Create`: the commands that it issues, and what it returns. -/
def CLITaskBackend.create (b : CLITaskBackend) (decode : Bytes → Option Json) (spec : TaskSpec)
    (p : Process) : List Command × Except CLIError Bytes :=
  ([.create spec],
    match b.execute decode "create" CreateResponse.set {} p with
    | .error err => .error err
    | .ok response =>
    if trimSpace response.sandboxID = [] then .error (.message "任务 CLI create 未返回 sandboxId")
    else
    match validateSandboxEnforcementReceipt response.enforcement spec with
    | some err => .error (.message s!"任务 CLI create 回执无效: {err}")
    | none => .ok response.sandboxID)

/-- The program ends well and its answer names a sandbox with a receipt that fits the task. -/
structure WellAnswered (b : CLITaskBackend) (decode : Bytes → Option Json) (spec : TaskSpec)
    (p : Process) : Prop where
  ended : ∃ context, p.ending = .returned none context
  stdout : (limitedOutput b.outputLimit p.stdout).exceeded = false
  stderr : (limitedOutput b.outputLimit p.stderr).exceeded = false
  answer : ∃ value envelope response,
    decode (limitedOutput b.outputLimit p.stdout).content = some value ∧
    readStruct CLIEnvelope.set {} value = some envelope ∧ envelope.ok = some true ∧
    envelope.read CreateResponse.set {} = some response ∧ trimSpace response.sandboxID ≠ [] ∧
    validateSandboxEnforcementReceipt response.enforcement spec = none

section Create
variable {b : CLITaskBackend} {decode : Bytes → Option Json} {spec : TaskSpec} {p : Process}

theorem runCLI_ok {out : Bytes} :
    runCLI b.outputLimit p = .ok out ↔ (∃ context, p.ending = .returned none context) ∧
      (limitedOutput b.outputLimit p.stdout).exceeded = false ∧
      (limitedOutput b.outputLimit p.stderr).exceeded = false ∧
      (limitedOutput b.outputLimit p.stdout).content = out := by
  rw [runCLI]
  cases hending : p.ending with
  | interrupted context => simp
  | returned err context =>
      cases err with
      | some err =>
          cases context with
          | some context => simp
          | none =>
              simp only [reduceCtorEq, Ending.returned.injEq, false_and, exists_false, iff_false]
              split <;> simp
      | none =>
          cases hout : (limitedOutput b.outputLimit p.stdout).exceeded <;>
            cases herr : (limitedOutput b.outputLimit p.stderr).exceeded <;> simp

theorem execute_ok {α : Type} {operation : String} {set : α → Bytes → Json → Option α}
    {held result : α} :
    b.execute decode operation set held p = .ok result ↔
      ∃ out value envelope, runCLI b.outputLimit p = .ok out ∧ decode out = some value ∧
        readStruct CLIEnvelope.set {} value = some envelope ∧ envelope.ok = some true ∧
        envelope.read set held = some result := by
  rw [CLITaskBackend.execute]
  cases hrun : runCLI b.outputLimit p with
  | error cause => simp
  | ok out =>
      cases hdecode : decode out with
      | none => simp [hdecode]
      | some value =>
          cases hread : readStruct CLIEnvelope.set {} value with
          | none => simp [hdecode, hread]
          | some envelope =>
              simp only [hdecode, hread, Option.bind_some, Except.ok.injEq, Option.some.injEq,
                exists_and_left, exists_eq_left']
              cases hok : envelope.ok with
              | none => simp
              | some ok =>
                  cases ok with
                  | false =>
                      simp only [Option.some.injEq, Bool.false_eq_true, false_and, iff_false]
                      split_ifs <;> simp
                  | true => cases envelope.read set held <;> simp

theorem create_ok {id : Bytes} (h : (b.create decode spec p).2 = .ok id) :
    WellAnswered b decode spec p := by
  simp only [CLITaskBackend.create] at h
  cases hexecute : b.execute decode "create" CreateResponse.set {} p with
  | error err => simp [hexecute] at h
  | ok response =>
      obtain ⟨out, value, envelope, hrun, hdecode, hread, hok, hdata⟩ := execute_ok.mp hexecute
      obtain ⟨hended, hstdout, hstderr, rfl⟩ := runCLI_ok.mp hrun
      simp only [hexecute] at h
      split_ifs at h with hid
      cases hreceipt : validateSandboxEnforcementReceipt response.enforcement spec with
      | some err => simp [hreceipt] at h
      | none => exact ⟨hended, hstdout, hstderr, value, envelope, response, hdecode, hread, hok,
          hdata, hid, hreceipt⟩

theorem WellAnswered.create (h : WellAnswered b decode spec p) :
    ∃ id, (b.create decode spec p).2 = .ok id := by
  obtain ⟨value, envelope, response, hdecode, hread, hok, hdata, hid, hreceipt⟩ := h.answer
  have hrun := runCLI_ok.mpr ⟨h.ended, h.stdout, h.stderr, rfl⟩
  have hexecute : b.execute decode "create" CreateResponse.set {} p = .ok response :=
    execute_ok.mpr ⟨_, value, envelope, hrun, hdecode, hread, hok, hdata⟩
  refine ⟨response.sandboxID, ?_⟩
  simp only [CLITaskBackend.create, hexecute, if_neg hid, hreceipt]

end Create

/-- A creation that fails has made nothing, or takes down what it made, exactly if the program
has made nothing or its answer is one that is accepted. -/
theorem failed_create_cleaned_iff (b : CLITaskBackend) (decode : Bytes → Option Json)
    (spec : TaskSpec) (p : Process) :
    (∀ err, (b.create decode spec p).2 = .error err → p.created = none ∨
        ∃ id, p.created = some id ∧ .destroy id ∈ (b.create decode spec p).1) ↔
      p.created = none ∨ WellAnswered b decode spec p := by
  constructor
  · intro h
    cases hresult : (b.create decode spec p).2 with
    | ok id => exact .inr (create_ok hresult)
    | error err =>
        obtain hnone | ⟨id, -, hdestroy⟩ := h err hresult
        · exact .inl hnone
        · simp [CLITaskBackend.create] at hdestroy
  · rintro (hnone | hanswered) err herr
    · exact .inl hnone
    · obtain ⟨id, hid⟩ := hanswered.create
      rw [hid] at herr
      cases herr

/-- A task of which the backend reads nothing but its name. -/
def anyTask : TaskSpec where
  taskID := bytes "t"
  imageDigest := []
  worktree := []
  entrypoint := []

/-- A run that makes a sandbox and says so in words that are no JSON. -/
def unreadRun : Process where
  stdout := [bytes "created sb-1"]
  ending := .returned none none
  created := some (bytes "sb-1")

/-- A run that is interrupted after it has made one. -/
def lateRun : Process where
  ending := .interrupted .deadlineExceeded
  created := some (bytes "sb-1")

theorem failed_create_leaves_sandbox :
    CLITaskBackend.create ⟨8 * 2 ^ 20⟩ (fun _ => none) anyTask unreadRun =
        ([.create anyTask], .error (.message "任务 CLI 返回了无效结果")) ∧
      unreadRun.created = some (bytes "sb-1") ∧
      CLITaskBackend.create ⟨8 * 2 ^ 20⟩ (fun _ => none) anyTask lateRun =
        ([.create anyTask], .error (.failed "create" (.message "任务 CLI 操作超时"))) ∧
      lateRun.created = some (bytes "sb-1") := by
  refine ⟨?_, rfl, ?_, rfl⟩
  · decide +kernel
  · decide +kernel

end WorkMesh.Sandbox
