import WorkMesh.Backup.Plan

/-!
# Executing a plan

The service runs the commands of a plan through an executor, repeats those with a
policy for it, and runs the matching compensations when one fails. What ends the
context of the request or of a command comes with the report of each execution.
-/

namespace WorkMesh.Backup

open Encoding

attribute [local irreducible] bytes

structure Result where
  exitCode : ℤ := 0
  stdout : Bytes := []
  stderr : Bytes := []

/-- What an execution of a command gives, and which contexts are done by its end and by the end of
the pause behind it. -/
structure Report where
  result : Result := {}
  error : Option Bytes := none
  cancelled : Bool := false
  expired : Bool := false
  pauseCancelled : Bool := false
  pauseExpired : Bool := false

/-- An executor gets to know whether the context of the command is live. -/
abbrev Executor (σ : Type) := Command → Bool → σ → Report × σ

/-- Why a command fails. -/
inductive Failure where
  | context
  | told (text : Bytes)
deriving DecidableEq

/-! ## Output -/

/-- The text behind a marker goes up to the next separator. -/
def redactMarker (value marker : Bytes) : Bytes :=
  match indexOf marker value with
  | none => value
  | some index =>
      let rest := value.drop (index + marker.length)
      value.take index ++ marker ++ bytes "[redacted]" ++
        rest.dropWhile fun c => c ∉ bytes " \t\r\n,;"

def redactDatabaseBackupOutput (value secret : Bytes) : Bytes :=
  let value := if secret = [] then value else replaceAll value secret (bytes "[redacted]")
  let markers := ["PGPASSWORD=", "MYSQL_PWD=", "REDISCLI_AUTH=", "password=", "Password="]
  let value := (markers.map bytes).foldl redactMarker value
  if 4096 < value.length then value.take 4096 ++ bytes " [truncated]" else value

def Result.redacted (result : Result) (secret : Bytes) : Result :=
  { result with
    stdout := redactDatabaseBackupOutput result.stdout secret
    stderr := redactDatabaseBackupOutput result.stderr secret }

/-- The first text that the output should hold and does not. -/
def verifyDatabaseBackupOutput (verification : Verification) (stdout : Bytes) : Option Bytes :=
  (verification.requiredOutput.find? fun required => !containsText stdout (bytes required)).map
    fun required =>
      if verification.kind = "" then
        bytes "命令输出缺少必要内容: \"" ++ bytes required ++ bytes "\""
      else bytes verification.kind ++ bytes " 校验未通过，缺少 \"" ++ bytes required ++ bytes "\""

/-- The error that a report amounts to, `none` for success. -/
def verdict (secret : Bytes) (command : Command) (report : Report) (done : Bool) :
    Option Failure :=
  if done then some .context
  else match report.error with
    | some text => some (.told (redactDatabaseBackupOutput text secret))
    | none =>
        if report.result.exitCode ≠ 0 then
          let message := trimSpace report.result.stderr
          some (.told (redactDatabaseBackupOutput
            (if message = [] then bytes "命令退出码 " ++ formatInt report.result.exitCode
              else message) secret))
        else (verifyDatabaseBackupOutput command.verification report.result.stdout).map .told

/-! ## Commands -/

section Execution
variable {σ : Type}

/-- The state of the executor, and whether the context of the request is done. -/
structure Session (σ : Type) where
  state : σ
  cancelled : Bool := false

/-- The attempts of a command, of which some are left after this one. -/
def attempts (exec : Executor σ) (secret : Bytes) (command : Command) :
    ℕ → Bool → Session σ → (Result × Option Failure) × Session σ
  | left, expired, session =>
      let (report, state) := exec command (!(session.cancelled || expired)) session.state
      let session := { session with state, cancelled := session.cancelled || report.cancelled }
      let expired := expired || report.expired
      let result := report.result.redacted secret
      match verdict secret command report (session.cancelled || expired) with
      | none => ((result, none), session)
      | some e =>
          match left with
          | 0 => ((result, some e), session)
          | left + 1 =>
              if command.retry.delay = 0 then attempts exec secret command left expired session
              else
                let session :=
                  { session with cancelled := session.cancelled || report.pauseCancelled }
                let expired := expired || report.pauseExpired
                if session.cancelled || expired then ((result, some .context), session)
                else attempts exec secret command left expired session

def executeCommand (exec : Executor σ) (secret : Bytes) (command : Command) (session : Session σ) :
    (Result × Option Failure) × Session σ :=
  attempts exec secret command (command.retry.maxAttempts.toNat - 1) false session

/-! ## Compensations -/

/-- The results of a compensation, and the first error of its commands. -/
def compensate (exec : Executor σ) (secret : Bytes) :
    List Command → Session σ → (List Result × Option (String × Failure)) × Session σ
  | [], session => (([], none), session)
  | command :: commands, session =>
      match executeCommand exec secret command session with
      | ((result, none), session) =>
          let ((results, e), session) := compensate exec secret commands session
          ((result :: results, e), session)
      | ((result, some e), session) =>
          if command.continueOnError then
            let ((results, _), session) := compensate exec secret commands session
            ((result :: results, some (command.name, e)), session)
          else (([result], some (command.name, e)), session)

def Compensation.matches (compensation : Compensation) (failed : String) : Bool :=
  compensation.triggerCommands.contains failed

/-- `executeFailureCompensations`. -/
def executeFailureCompensations (exec : Executor σ) (secret : Bytes) (failed : String) :
    List Compensation → Session σ → (List Result × Option (String × Failure)) × Session σ
  | [], session => (([], none), session)
  | compensation :: rest, session =>
      if compensation.matches failed then
        let ((results, e), session) := compensate exec secret compensation.commands session
        let ((more, e'), session) := executeFailureCompensations exec secret failed rest session
        ((results ++ more, e.or e'), session)
      else executeFailureCompensations exec secret failed rest session

/-! ## Plans -/

/-- Why a request fails: it is refused, or a command fails, with the error of its compensation. -/
inductive Refusal where
  | request (text : Bytes)
  | command (name : String) (cause : Failure) (compensation : Option (String × Failure))

structure Execution where
  results : List Result := []
  compensationResults : List Result := []

def executeCommands (exec : Executor σ) (secret : Bytes) (compensations : List Compensation) :
    List Command → Session σ → (Execution × Option Refusal) × Session σ
  | [], session => (({}, none), session)
  | command :: commands, session =>
      match executeCommand exec secret command session with
      | ((result, none), session) =>
          let ((execution, e), session) := executeCommands exec secret compensations commands session
          (({ execution with results := result :: execution.results }, e), session)
      | ((result, some e), session) =>
          let ((results, e'), session) :=
            executeFailureCompensations exec secret command.name compensations session
          (({ results := [result], compensationResults := results },
            some (.command command.name e e')), session)

def execute (exec : Executor σ) (plan : Plan) (secret : Bytes) (session : Session σ) :
    (Execution × Option Refusal) × Session σ :=
  executeCommands exec secret plan.compensations plan.commands session

/-! ## Runs -/

/-- All commands succeed in turn, from one session to another. -/
inductive Passes (exec : Executor σ) (secret : Bytes) :
    List Command → Session σ → Session σ → Prop where
  | nil (session : Session σ) : Passes exec secret [] session session
  | cons {command : Command} {commands : List Command} {session last : Session σ}
      (hok : (executeCommand exec secret command session).1.2 = none)
      (hrest : Passes exec secret commands (executeCommand exec secret command session).2 last) :
      Passes exec secret (command :: commands) session last

section Runs
variable {exec : Executor σ} {secret : Bytes} (compensations : List Compensation)
  {commands front : List Command} (back : List Command) {command : Command}
  {session last : Session σ}

theorem executeCommands_ok (hok : (executeCommand exec secret command session).1.2 = none) :
    (executeCommands exec secret compensations (command :: back) session).1.2 =
        (executeCommands exec secret compensations back
          (executeCommand exec secret command session).2).1.2 ∧
      (executeCommands exec secret compensations (command :: back) session).2 =
        (executeCommands exec secret compensations back
          (executeCommand exec secret command session).2).2 := by
  rw [executeCommands]
  match hrun : executeCommand exec secret command session with
  | ((result, none), next) => exact ⟨rfl, rfl⟩
  | ((result, some e), next) =>
      rw [hrun] at hok
      cases hok

theorem executeCommands_error {e : Failure}
    (herror : (executeCommand exec secret command session).1.2 = some e) :
    let compensated := executeFailureCompensations exec secret command.name compensations
      (executeCommand exec secret command session).2
    (executeCommands exec secret compensations (command :: back) session).1.2 =
        some (.command command.name e compensated.1.2) ∧
      (executeCommands exec secret compensations (command :: back) session).2 =
        compensated.2 := by
  rw [executeCommands]
  match hrun : executeCommand exec secret command session with
  | ((result, none), next) =>
      rw [hrun] at herror
      cases herror
  | ((result, some e'), next) =>
      rw [hrun] at herror
      cases herror
      exact ⟨rfl, rfl⟩

theorem Passes.executeCommands_append (hfront : Passes exec secret front session last) :
    (executeCommands exec secret compensations (front ++ back) session).1.2 =
        (executeCommands exec secret compensations back last).1.2 ∧
      (executeCommands exec secret compensations (front ++ back) session).2 =
        (executeCommands exec secret compensations back last).2 := by
  induction hfront with
  | nil session => exact ⟨rfl, rfl⟩
  | cons hok hrest ih =>
      obtain ⟨hresult, hsession⟩ := executeCommands_ok compensations (_ ++ back) hok
      exact ⟨hresult.trans ih.1, hsession.trans ih.2⟩

/-- Behind commands that pass a command fails. -/
theorem Passes.executeCommands_fails {e : Failure} (hfront : Passes exec secret front session last)
    (herror : (executeCommand exec secret command last).1.2 = some e) :
    let compensated := executeFailureCompensations exec secret command.name compensations
      (executeCommand exec secret command last).2
    (executeCommands exec secret compensations (front ++ command :: back) session).1.2 =
        some (.command command.name e compensated.1.2) ∧
      (executeCommands exec secret compensations (front ++ command :: back) session).2 =
        compensated.2 := by
  obtain ⟨hresult, hsession⟩ := executeCommands_error compensations back herror
  obtain ⟨hresult', hsession'⟩ := hfront.executeCommands_append compensations
    (command :: back)
  exact ⟨hresult'.trans hresult, hsession'.trans hsession⟩

theorem Passes.executeCommands (h : Passes exec secret commands session last) :
    (executeCommands exec secret compensations commands session).1.2 = none := by
  have happend := (h.executeCommands_append compensations []).1
  rwa [List.append_nil] at happend

/-- A run passes, or some command fails after others have passed. -/
theorem passes_or_fails (exec : Executor σ) (secret : Bytes) (commands : List Command)
    (session : Session σ) :
    (∃ last, Passes exec secret commands session last) ∨
      ∃ front command back last e, commands = front ++ command :: back ∧
        Passes exec secret front session last ∧
        (executeCommand exec secret command last).1.2 = some e := by
  induction commands generalizing session with
  | nil => exact .inl ⟨session, .nil session⟩
  | cons command commands ih =>
      cases hrun : (executeCommand exec secret command session).1.2 with
      | some e => exact .inr ⟨[], command, commands, session, e, rfl, .nil session, hrun⟩
      | none =>
          obtain ⟨last, hpass⟩ | ⟨front, failed, back, last, e, heq, hpass, hfail⟩ :=
            ih (executeCommand exec secret command session).2
          · exact .inl ⟨last, .cons hrun hpass⟩
          · exact .inr ⟨command :: front, failed, back, last, e, by rw [heq]; rfl,
              .cons hrun hpass, hfail⟩

end Runs

/-- `Backup` and `Restore`. -/
def perform (exec : Executor σ) (operation : Operation) (request : Request) (session : Session σ) :
    (Execution × Option Refusal) × Session σ :=
  match buildDatabaseBackupPlan operation request with
  | .error text => (({}, some (.request text)), session)
  | .ok plan => execute exec plan request.password session

end Execution

end WorkMesh.Backup
