import WorkMesh.Backup.Restore
import WorkMesh.Backup.Runner

/-!
# What a backup leaves at its artifact

The output of a SQL dump never reaches the file that was made for it. A Redis dump takes
its place at the artifact at once. A program that prints a piece across the limit of the
buffer is taken for one that failed.
-/

namespace WorkMesh.Backup

open Encoding StateMachine

attribute [local irreducible] runDatabaseBackupCommand

/-! ## Output within the limit -/

/-- No piece crosses the limit of the buffer. -/
def Fits (pieces : List Bytes) : Prop :=
  ∀ front piece back, pieces = front ++ piece :: back → front.flatten.length < outputLimit →
    front.flatten.length + piece.length ≤ outputLimit

section Output
variable {data piece : Bytes} {pieces : List Bytes}

theorem limitedWrite_full (h : outputLimit ≤ data.length) :
    limitedWrite data piece = (data, piece.length) := if_pos h

theorem limitedWrite_room (h : data.length < outputLimit) :
    limitedWrite data piece = (data ++ piece.take (outputLimit - data.length),
      min (outputLimit - data.length) piece.length) := by
  rw [limitedWrite, if_neg (Nat.not_le.mpr h)]
  simp only [List.length_take]

/-- The pieces are copied to the last one if and only if none crosses the limit. -/
theorem copyStderr_complete : (copyStderr data pieces).2 = false ↔
    ∀ front piece back, pieces = front ++ piece :: back →
      data.length + front.flatten.length < outputLimit →
      data.length + front.flatten.length + piece.length ≤ outputLimit := by
  induction pieces generalizing data with
  | nil => simp [copyStderr]
  | cons first pieces ih =>
      have hsplit : (∀ front piece back, first :: pieces = front ++ piece :: back →
            data.length + front.flatten.length < outputLimit →
            data.length + front.flatten.length + piece.length ≤ outputLimit) ↔
          (data.length < outputLimit → data.length + first.length ≤ outputLimit) ∧
          ∀ front piece back, pieces = front ++ piece :: back →
            data.length + first.length + front.flatten.length < outputLimit →
            data.length + first.length + front.flatten.length + piece.length ≤ outputLimit := by
        constructor
        · intro h
          refine ⟨fun hroom => by simpa using h [] first pieces rfl (by simpa using hroom), ?_⟩
          intro front piece back heq hroom
          have hlonger := h (first :: front) piece back (by rw [heq]; rfl)
          simp only [List.flatten_cons, List.length_append, ← Nat.add_assoc] at hlonger
          exact hlonger hroom
        · rintro ⟨hfirst, hrest⟩ front piece back heq hroom
          cases front with
          | nil =>
              cases heq
              simpa using hfirst (by simpa using hroom)
          | cons head front =>
              cases heq
              simp only [List.flatten_cons, List.length_append, ← Nat.add_assoc] at hroom ⊢
              exact hrest front piece back rfl hroom
      rw [copyStderr, hsplit]
      by_cases hfull : outputLimit ≤ data.length
      · rw [limitedWrite_full hfull]
        dsimp only
        rw [if_neg (lt_irrefl _), ih]
        constructor
        · intro _
          exact ⟨fun hroom => absurd hroom (by omega), fun _ _ _ _ hroom => by omega⟩
        · intro _ _ _ _ _ hroom
          omega
      · rw [limitedWrite_room (Nat.not_le.mp hfull)]
        dsimp only
        by_cases hcross : outputLimit - data.length < first.length
        · rw [if_pos (by omega)]
          refine iff_of_false (fun h => by cases h) fun h => ?_
          have hfirst := h.1 (Nat.not_le.mp hfull)
          omega
        · rw [if_neg (by omega), ih, List.take_of_length_le (by omega), List.length_append]
          exact ⟨fun h => ⟨fun _ => by omega, h⟩, fun h => h.2⟩

theorem copyStderr_fits : (copyStderr [] pieces).2 = false ↔ Fits pieces := by
  rw [copyStderr_complete]
  simp [Fits]

end Output

/-! ## Processes -/

/-- The program starts, is not stopped and exits with 0. -/
def ExitsZero (p : Process) : Prop := p.failure = none ∧ p.killed = false ∧ p.exitCode = 0

instance (p : Process) : Decidable (ExitsZero p) := inferInstanceAs (Decidable (_ ∧ _))

theorem runProcess_ok {live : Bool} {p : Process} :
    (runProcess live p).2 = none ↔ live = true ∧ ExitsZero p ∧ Fits p.stderr := by
  rw [← copyStderr_fits, ExitsZero, Process.killed]
  unfold runProcess
  match hcopy : copyStderr [] p.stderr with
  | (stderr, short) =>
      cases live with
      | false => simp
      | true =>
          cases hfailure : p.failure with
          | some text => simp
          | none =>
              cases hexpired : p.expired with
              | true => simp [failed]
              | false =>
                  cases hcancelled : p.cancelled with
                  | true => simp
                  | false =>
                      by_cases hexit : p.exitCode = 0
                      · cases short <;> simp [hexit]
                      · simp [hexit]

theorem runProcess_exit {live : Bool} {p : Process} (h : (runProcess live p).2 = none) :
    (runProcess live p).1.exitCode = 0 := by
  obtain ⟨rfl, ⟨hfailure, hkilled, hexit⟩, hfits⟩ := runProcess_ok.mp h
  rw [← copyStderr_fits] at hfits
  obtain ⟨hcancelled, hexpired⟩ := Bool.or_eq_false_iff.mp hkilled
  simp [runProcess, hfailure, hcancelled, hexpired, hexit, hfits]

/-! ## Disks -/

/-- Nothing has changed but that directories down to a parent are there. -/
def Kept (parent : List Bytes) (before after : Disk) : Prop :=
  ∀ path, after.node path = before.node path ∨ (after.node path = some .dir ∧ path <+: parent)

section Disk
variable {disk next last : Disk} {parent path : List Bytes} {p : Process}

theorem kept_refl : Kept parent disk disk := fun _ => .inl rfl

theorem Kept.congr (h : Kept parent disk next) (hsame : ∀ path, last.node path = next.node path) :
    Kept parent disk last := by
  intro path
  rw [hsame path]
  exact h path

theorem kept_mkdirAll (h : disk.mkdirAll parent = some next) : Kept parent disk next := by
  intro path
  rw [FileTree.node_mkdirAll h]
  split
  · rename_i hfront
    exact .inr ⟨rfl, hfront⟩
  · exact .inl rfl

/-- Below a file there is nothing. -/
theorem occupied_file {content : Content} (h : disk.content path = some content) :
    disk.occupied path = false := by
  rw [FileTree.occupied_eq_false]
  intro q hq hne
  by_contra hsome
  have hdir := FileTree.node_above (Option.isSome_iff_ne_none.mpr hsome) hq (Ne.symm hne)
  rw [FileTree.content_of_dir hdir] at h
  cases h

theorem put_ne_nil {content : Content} (h : disk.put path content = some next) : path ≠ [] := by
  rintro rfl
  exact (FileTree.put_isSome.mp (h ▸ rfl : (disk.put [] content).isSome)).1 FileTree.node_nil

/-- A new file that is removed again leaves no trace. -/
theorem node_unlink_put {content : Content} (hfresh : disk.node path = none)
    (hput : disk.put path content = some next) (q : List Bytes) :
    (unlink next path).node q = disk.node q := by
  have hcontent : next.content path = some content := by
    rw [FileTree.content_put hput, if_pos rfl]
  have hfree := occupied_file hcontent
  unfold unlink
  cases hremove : next.remove path with
  | none =>
      unfold FileTree.remove at hremove
      rw [dif_pos hfree] at hremove
      cases hremove
  | some removed =>
      rw [Option.getD_some, FileTree.node_remove hremove (put_ne_nil hput), FileTree.node_put hput]
      split
      · rename_i heq
        rw [heq, hfresh]
      · rfl

theorem freshPath_some {front back : Bytes} {numbers : List ℕ}
    (h : freshPath disk parent front back numbers = some path) :
    disk.node path = none ∧ ∃ name, path = parent ++ [name] := by
  unfold freshPath at h
  have hnone := List.find?_some h
  obtain ⟨n, -, rfl⟩ := List.mem_map.mp (List.mem_of_find?_eq_some h)
  exact ⟨Option.isNone_iff_eq_none.mp hnone, _, rfl⟩

theorem not_prefix_parent (name : Bytes) : ¬ parent ++ [name] <+: parent := by
  intro h
  have hlength := h.length_le
  simp at hlength

theorem freshPath_mkdirAll (h : disk.mkdirAll parent = some next) (front back : Bytes)
    (numbers : List ℕ) :
    freshPath next parent front back numbers = freshPath disk parent front back numbers := by
  unfold freshPath
  refine List.find?_congr fun path hpath => ?_
  obtain ⟨n, -, rfl⟩ := List.mem_map.mp hpath
  rw [FileTree.node_mkdirAll h, if_neg (not_prefix_parent _)]

/-- Directories above a path do not change what its check says. -/
theorem validate_mkdirAll {directory artifact : Bytes}
    (h : disk.mkdirAll (place directory artifact).dropLast = some next) :
    validateDatabaseBackupOutputPath directory next artifact =
      validateDatabaseBackupOutputPath directory disk artifact := by
  have hcontent : next.content = disk.content := funext fun q => FileTree.content_mkdirAll h q
  have hnode : next.node (place directory artifact) = disk.node (place directory artifact) := by
    rw [FileTree.node_mkdirAll h]
    split
    · rename_i hfront
      have hnil : place directory artifact = [] := by
        have hlength := hfront.length_le
        rw [List.length_dropLast] at hlength
        exact List.length_eq_zero_iff.mp (by omega)
      rw [hnil, FileTree.node_nil]
    · rfl
  unfold validateDatabaseBackupOutputPath rejectSymlinkComponents
  rw [hcontent, hnode]

end Disk

/-! ## The file for the output -/

section Output
variable {directory path : Bytes} {p : Process} {disk : Disk} {command : Command} {live : Bool}

/-- The file for the output at a path can be made. -/
structure Creatable (directory : Bytes) (p : Process) (path : Bytes) (disk : Disk) : Prop where
  valid : validateDatabaseBackupOutputPath directory disk path = .ok ()
  mkdir : .mkdir ∉ p.refused
  temp : .temp ∉ p.refused
  mode : .mode ∉ p.refused
  fresh : freshPath disk (place directory path).dropLast (bytes ".workmesh-backup-")
    (bytes ".tmp") p.numbers ≠ none

theorem above_of_valid (h : validateDatabaseBackupOutputPath directory disk path = .ok ()) :
    ∀ q, q <+: (place directory path).dropLast → disk.content q = none := by
  intro q hq
  unfold validateDatabaseBackupOutputPath rejectSymlinkComponents at h
  cases hcheck : validateDatabaseBackupPath path with
  | error e =>
      rw [hcheck] at h
      cases h
  | ok _ =>
      rw [hcheck] at h
      simp only [bind, Except.bind] at h
      split at h
      · cases h
      · rename_i hreject
        split at hreject
        · rename_i hnone
          exact List.findSome?_eq_none_iff.mp hnone q ((List.mem_inits ..).mpr hq)
        · cases hreject
        · cases hreject

/-- The file for the output leaves no trace once it is removed, and is made if and only if it can
be. -/
theorem createDatabaseBackupOutput_spec :
    let made := createDatabaseBackupOutput directory p path disk
    Kept (place directory path).dropLast disk
        (made.1.toOption.elim made.2 (unlink made.2)) ∧
      (made.1.toOption ≠ none ↔ Creatable directory p path disk) := by
  unfold createDatabaseBackupOutput
  dsimp only
  cases hvalid : validateDatabaseBackupOutputPath directory disk path with
  | error e =>
      refine ⟨kept_refl, iff_of_false (fun h => h rfl) fun h => ?_⟩
      rw [h.valid] at hvalid
      cases hvalid
  | ok _ =>
      dsimp only
      by_cases hmkdir : Step.mkdir ∈ p.refused
      · rw [if_pos hmkdir]
        exact ⟨kept_refl, iff_of_false (fun h => h rfl) fun h => h.mkdir hmkdir⟩
      · rw [if_neg hmkdir]
        obtain ⟨next, hnext⟩ := Option.isSome_iff_exists.mp
          (FileTree.mkdirAll_isSome.mpr (above_of_valid hvalid))
        have hkept := kept_mkdirAll hnext
        rw [hnext]
        dsimp only
        rw [validate_mkdirAll hnext, hvalid, freshPath_mkdirAll hnext]
        dsimp only
        cases hfresh : freshPath disk (place directory path).dropLast (bytes ".workmesh-backup-")
            (bytes ".tmp") p.numbers with
        | none => exact ⟨hkept, iff_of_false (fun h => h rfl) fun h => h.fresh hfresh⟩
        | some temp =>
            rw [Option.bind_some]
            by_cases htemp : Step.temp ∈ p.refused
            · rw [if_pos htemp]
              exact ⟨hkept, iff_of_false (fun h => h rfl) fun h => h.temp htemp⟩
            · rw [if_neg htemp]
              have hnew : next.node temp = none := by
                have hfresh' := hfresh
                rw [← freshPath_mkdirAll hnext] at hfresh'
                exact (freshPath_some hfresh').1
              obtain ⟨name, rfl⟩ := (freshPath_some hfresh).2
              have hdir : next.node (place directory path).dropLast = some .dir := by
                rw [FileTree.node_mkdirAll hnext, if_pos (List.prefix_refl _)]
              have hput : (next.put ((place directory path).dropLast ++ [name])
                  (.regular [])).isSome := by
                rw [FileTree.put_isSome, hnew, List.dropLast_concat]
                exact ⟨nofun, hdir⟩
              obtain ⟨last, hlast⟩ := Option.isSome_iff_exists.mp hput
              rw [hlast]
              dsimp only
              have hgone := hkept.congr (node_unlink_put hnew hlast)
              by_cases hmode : Step.mode ∈ p.refused
              · rw [if_pos hmode]
                exact ⟨hgone, iff_of_false (fun h => h rfl) fun h => h.mode hmode⟩
              · rw [if_neg hmode]
                refine ⟨hgone, iff_of_true (fun h => by cases h) ⟨hvalid, hmkdir, htemp, hmode, ?_⟩⟩
                exact fun h => by cases hfresh.symm.trans h

@[simp] theorem leaveCopy_none : leaveCopy live p none disk = disk := by
  unfold leaveCopy
  split <;> rfl

/-- The dump of a SQL database is made. -/
structure Dumps (m : Machine) (command : Command) (p : Process) : Prop where
  checked : checkCommand command = .ok ()
  input : (commandInput m.directory m.disk command).toOption ≠ none
  output : Creatable m.directory p command.stdoutPath m.disk
  exits : ExitsZero p
  fits : Fits p.stderr

/-- The command of a SQL dump leaves the files as they were. -/
theorem run_dump {m : Machine} (hcopy : isRedisBackupCopyCommand command = false)
    (hpath : command.stdoutPath ≠ []) (hcontainer : command.container ≠ []) :
    let out := runDatabaseBackupCommand m.directory live p command m.disk
    Kept (place m.directory command.stdoutPath).dropLast m.disk out.2 ∧
      (out.1.2 = none ↔ live = true ∧ Dumps m command p) ∧
      (out.1.2 = none → out.1.1.exitCode = 0) := by
  obtain ⟨hkept, hmade⟩ := @createDatabaseBackupOutput_spec m.directory command.stdoutPath p m.disk
  unfold runDatabaseBackupCommand
  cases hcheck : checkCommand command with
  | error e =>
      refine ⟨kept_refl, iff_of_false nofun fun h => ?_, nofun⟩
      rw [h.2.checked] at hcheck
      cases hcheck
  | ok _ =>
      dsimp only
      rw [hcopy, if_neg Bool.false_ne_true]
      unfold startCommand
      cases hinput : commandInput m.directory m.disk command with
      | error e =>
          refine ⟨kept_refl, iff_of_false nofun fun h => ?_, nofun⟩
          exact h.2.input (by rw [hinput]; rfl)
      | ok input =>
          dsimp only
          rw [if_neg hpath]
          generalize createDatabaseBackupOutput m.directory p command.stdoutPath m.disk = made
            at hkept hmade
          obtain ⟨temp, disk⟩ := made
          cases temp with
          | error e =>
              exact ⟨hkept, iff_of_false nofun fun h => hmade.mpr h.2.output rfl, nofun⟩
          | ok temp =>
              have houtput := hmade.mp fun h => by cases h
              dsimp only [Except.map]
              rw [leaveCopy_none]
              rw [startProcess, if_pos hcontainer]
              refine ⟨hkept, runProcess_ok.trans ?_, runProcess_exit⟩
              refine ⟨fun h => ⟨h.1, hcheck, fun hnone => ?_, houtput, h.2.1, h.2.2⟩,
                fun h => ⟨h.1, h.2.exits, h.2.fits⟩⟩
              rw [hinput] at hnone
              cases hnone

end Output

section Single
variable {σ : Type} {exec : Executor σ} {secret : Bytes} {command : Command} {session : Session σ}

theorem verdict_none {report : Report} {done : Bool} :
    verdict secret command report done = none ↔ done = false ∧ report.error = none ∧
      report.result.exitCode = 0 ∧
      verifyDatabaseBackupOutput command.verification report.result.stdout = none := by
  unfold verdict
  cases done with
  | true => simp
  | false =>
      cases herror : report.error with
      | some text => simp
      | none =>
          by_cases hexit : report.result.exitCode = 0 <;> simp [hexit]

/-- A command without retries is executed once. -/
theorem executeCommand_single (hretry : command.retry.maxAttempts = 0) :
    let out := exec command (!session.cancelled) session.state
    let after := executeCommand exec secret command session
    after.1.2 = verdict secret command out.1
        (session.cancelled || out.1.cancelled || out.1.expired) ∧
      after.2.state = out.2 := by
  rw [executeCommand, hretry]
  unfold attempts
  dsimp only [Int.toNat_zero]
  simp only [Bool.or_false, Bool.false_or]
  split
  · rename_i h
    exact ⟨h.symm, rfl⟩
  · rename_i h
    exact ⟨h.symm, rfl⟩

end Single

/-! ## SQL dumps -/

/-- The command of a SQL dump. -/
structure SqlDump (request : Request) (command : Command) : Prop where
  once : command.retry.maxAttempts = 0
  unverified : command.verification.requiredOutput = []
  program : isRedisBackupCopyCommand command = false
  output : command.stdoutPath = request.artifactPath
  artifact : command.stdoutPath ≠ []
  container : command.container ≠ []

section Plans
variable {request : Request} {plan : Plan}

theorem trimSpace_nil : trimSpace [] = [] := by decide +kernel

theorem checked_of_plan {operation : Operation}
    (hplan : buildDatabaseBackupPlan operation request = .ok plan) :
    ∃ type, normalizeDatabaseBackupType request.type = .ok type ∧
      validateDatabaseBackupContainer request.containerName = .ok () ∧
      validateDatabaseBackupPath request.artifactPath = .ok () := by
  unfold buildDatabaseBackupPlan at hplan
  cases htype : normalizeDatabaseBackupType request.type with
  | error e =>
      rw [htype] at hplan
      cases hplan
  | ok type =>
      cases hcontainer : validateDatabaseBackupContainer request.containerName with
      | error e =>
          rw [htype, hcontainer] at hplan
          cases hplan
      | ok _ =>
          cases hpath : validateDatabaseBackupPath request.artifactPath with
          | error e =>
              rw [htype, hcontainer, hpath] at hplan
              cases hplan
          | ok _ => exact ⟨type, rfl, rfl, rfl⟩

theorem containerName_ne_nil
    (h : validateDatabaseBackupContainer request.containerName = .ok ()) :
    request.containerName ≠ [] := by
  intro hnil
  rw [hnil, validateDatabaseBackupContainer, trimSpace_nil] at h
  cases h

theorem artifactPath_ne_nil (h : validateDatabaseBackupPath request.artifactPath = .ok ()) :
    request.artifactPath ≠ [] := by
  intro hnil
  rw [hnil, validateDatabaseBackupPath, trimSpace_nil] at h
  cases h

theorem not_copy {command : Command}
    (h : command.program = "pg_dump" ∨ command.program = "mariadb-dump") :
    isRedisBackupCopyCommand command = false := by
  have hpostgres : basePath (trimSpace (bytes "pg_dump")) ≠ bytes "docker" := by decide +kernel
  have hmariadb : basePath (trimSpace (bytes "mariadb-dump")) ≠ bytes "docker" := by
    decide +kernel
  obtain h | h := h <;> simp [isRedisBackupCopyCommand, h, hpostgres, hmariadb]

/-- The plan of a backup: one dump to the artifact, or the three commands for Redis. -/
theorem backup_plan (hplan : buildDatabaseBackupPlan .backup request = .ok plan) :
    plan.compensations = [] ∧
      ((plan.type = .redis ∧ plan.commands = redisBackupCommands request) ∨
        (plan.type ≠ .redis ∧ ∃ command, plan.commands = [command] ∧ SqlDump request command)) := by
  obtain ⟨type, htype, hcontainer, hpath⟩ := checked_of_plan hplan
  have hname := containerName_ne_nil hcontainer
  have hartifact := artifactPath_ne_nil hpath
  rw [buildDatabaseBackupPlan, htype, hcontainer, hpath] at hplan
  simp only [bind, Except.bind] at hplan
  cases type with
  | redis =>
      cases hplan
      exact ⟨rfl, .inl ⟨rfl, rfl⟩⟩
  | postgres =>
      dsimp only at hplan
      split at hplan
      · cases hplan
      · split at hplan
        · cases hplan
        · cases hplan
          exact ⟨rfl, .inr ⟨nofun, _, rfl, rfl, rfl, not_copy (.inl rfl), rfl, hartifact, hname⟩⟩
  | mariadb =>
      dsimp only at hplan
      split at hplan
      · cases hplan
      · split at hplan
        · cases hplan
        · cases hplan
          exact ⟨rfl, .inr ⟨nofun, _, rfl, rfl, rfl, not_copy (.inr rfl), rfl, hartifact, hname⟩⟩

end Plans

section Dump
variable {request : Request} {command : Command} {m : Machine} {cancelled : Bool} {secret : Bytes}

/-- What the built-in runner reports. -/
theorem builtin_report {live : Bool} :
    let p := (m.programs command.name).headD {}
    let out := runDatabaseBackupCommand m.directory live p command m.disk
    (builtin command live m).1 =
      { result := out.1.1, error := out.1.2, cancelled := p.cancelled, expired := p.expired
        pauseCancelled := p.pauseCancelled, pauseExpired := p.pauseExpired } := rfl

/-- An execution that the runner says went well has succeeded when its process was not stopped. -/
theorem verdict_builtin (hunverified : command.verification.requiredOutput = [])
    (herror : (runDatabaseBackupCommand m.directory (!cancelled)
      ((m.programs command.name).headD {}) command m.disk).1.2 = none)
    (hexit : (runDatabaseBackupCommand m.directory (!cancelled)
      ((m.programs command.name).headD {}) command m.disk).1.1.exitCode = 0)
    (hlive : cancelled = false) (hkilled : ((m.programs command.name).headD {}).killed = false) :
    verdict secret command (builtin command (!cancelled) m).1
      (cancelled || (builtin command (!cancelled) m).1.cancelled ||
        (builtin command (!cancelled) m).1.expired) = none := by
  obtain ⟨hcancelled, hexpired⟩ := Bool.or_eq_false_iff.mp hkilled
  rw [verdict_none, builtin_report]
  refine ⟨?_, herror, hexit, ?_⟩
  · dsimp only
    rw [hlive, hcancelled, hexpired]
    rfl
  · simp [verifyDatabaseBackupOutput, hunverified]

/-- A SQL dump leaves the files as they were, also when it ends well. -/
theorem executeCommand_sql (hsql : SqlDump request command) :
    let out := executeCommand builtin secret command ⟨m, cancelled⟩
    Kept (place m.directory request.artifactPath).dropLast m.disk out.2.state.disk ∧
      (out.1.2 = none ↔
        cancelled = false ∧ Dumps m command ((m.programs command.name).headD {})) := by
  obtain ⟨hverdict, hstate⟩ := @executeCommand_single _ builtin secret command ⟨m, cancelled⟩
    hsql.once
  obtain ⟨hkept, hok, hexit⟩ := @run_dump ((m.programs command.name).headD {}) command (!cancelled)
    m hsql.program hsql.artifact hsql.container
  rw [hsql.output] at hkept
  dsimp only at hverdict hstate ⊢
  rw [hverdict, hstate]
  refine ⟨hkept, ⟨fun h => ?_, fun h => ?_⟩⟩
  · have hrun := hok.mp (verdict_none.mp h).2.1
    exact ⟨by simpa using hrun.1, hrun.2⟩
  · have hrun := hok.mpr ⟨by simp [h.1], h.2⟩
    exact verdict_builtin hsql.unverified hrun (hexit hrun) h.1 h.2.exits.2.1

end Dump

/-! ## Redis dumps -/

section Copy
variable {directory artifact : Bytes} {p : Process} {disk next last : Disk} {live : Bool}
  {command : Command} {stage target parent path : List Bytes} {outcome : Outcome}

theorem node_leaveCopy (q : List Bytes) (hq : q ≠ path) :
    (leaveCopy live p (some path) disk).node q = disk.node q := by
  unfold leaveCopy
  split
  · rfl
  · cases hcopied : p.copied with
    | none => rfl
    | some content =>
        dsimp only
        cases hput : disk.put path content with
        | none => rfl
        | some next => exact (FileTree.node_put hput q).trans (if_neg hq)

theorem copied_of_leaveCopy {data : Bytes} (hnew : disk.node path = none)
    (h : (leaveCopy live p (some path) disk).node path = some (.file (.regular data))) :
    p.copied = some (.regular data) := by
  unfold leaveCopy at h
  split at h
  · rw [hnew] at h
    cases h
  · cases hcopied : p.copied with
    | none =>
        rw [hcopied] at h
        dsimp only at h
        rw [hnew] at h
        cases h
    | some content =>
        rw [hcopied] at h
        dsimp only at h
        cases hput : disk.put path content with
        | none =>
            rw [hput, Option.getD_none, hnew] at h
            cases h
        | some next =>
            rw [hput, Option.getD_some, FileTree.node_put hput, if_pos rfl] at h
            cases h
            rfl

/-- A command without an output file changes nothing but what its copy leaves. -/
theorem startCommand_disk (hpath : command.stdoutPath = []) (target : Option (List Bytes)) :
    let out := startCommand directory live p command target disk
    (out.2 = disk ∨ out.2 = leaveCopy live p target disk) ∧
      (out.1.2 = none → out.2 = leaveCopy live p target disk ∧ live = true ∧ ExitsZero p ∧
        out.1.1.exitCode = 0) := by
  unfold startCommand
  cases hinput : commandInput directory disk command with
  | error e => exact ⟨.inl rfl, nofun⟩
  | ok input =>
      dsimp only
      rw [if_pos hpath]
      dsimp only [Option.elim]
      refine ⟨.inr rfl, fun h => ⟨rfl, ?_⟩⟩
      have hrun : startProcess live p command = runProcess live p := by
        unfold startProcess at h ⊢
        split at h
        · rw [if_pos ‹_›]
        · rw [if_neg ‹_›]
          split at h
          · cases h
          · rfl
      rw [hrun] at h ⊢
      obtain ⟨hlive, hexits, -⟩ := runProcess_ok.mp h
      exact ⟨hlive, hexits, runProcess_exit h⟩

/-- The copy is moved to the target, or the disk is as it was. -/
theorem commitCopy_spec :
    let out := commitCopy p path target outcome disk
    (out.1.2 ≠ none → out.2 = disk) ∧
      (out.1.2 = none → outcome.2 = none ∧ out.1 = outcome ∧ disk.node target ≠ some .dir ∧
        disk.move path target = some out.2 ∧
        ∃ data, disk.node path = some (.file (.regular data))) := by
  unfold commitCopy
  cases houtcome : outcome.2 with
  | some e =>
      dsimp only
      exact ⟨fun _ => rfl, fun h => by rw [houtcome] at h; cases h⟩
  | none =>
      dsimp only
      rcases hstage : disk.node path with _ | (_ | (data | _ | _))
      · exact ⟨fun _ => rfl, nofun⟩
      · exact ⟨fun _ => rfl, nofun⟩
      · dsimp only
        by_cases hmode : Step.mode ∈ p.refused
        · rw [if_pos hmode]
          exact ⟨fun _ => rfl, nofun⟩
        · rw [if_neg hmode]
          rcases hmoved : (if Step.commit ∈ p.refused then none else disk.move path target)
            with _ | next
          · rcases disk.node target with _ | (_ | (_ | _ | _)) <;> exact ⟨fun _ => rfl, nofun⟩
          · have hmove : disk.move path target = some next := by
              split at hmoved
              · cases hmoved
              · exact hmoved
            rcases disk.node target with _ | (_ | (_ | _ | _))
            · exact ⟨fun h => absurd houtcome h, fun _ => ⟨rfl, rfl, nofun, hmove, data, rfl⟩⟩
            · exact ⟨fun _ => rfl, nofun⟩
            · exact ⟨fun h => absurd houtcome h, fun _ => ⟨rfl, rfl, nofun, hmove, data, rfl⟩⟩
            · exact ⟨fun _ => rfl, nofun⟩
            · exact ⟨fun _ => rfl, nofun⟩
      · exact ⟨fun _ => rfl, nofun⟩
      · exact ⟨fun _ => rfl, nofun⟩

/-- A directory that was made afresh is gone with all that is below it. -/
theorem node_removeAll_fresh {name : Bytes} (hparent : disk.node parent = some .dir)
    (hnew : disk.node (parent ++ [name]) = none)
    (hmade : disk.mkdirAll (parent ++ [name]) = some next)
    (hlast : ∀ q, ¬ parent ++ [name] <+: q → last.node q = next.node q) (q : List Bytes) :
    (last.removeAll (parent ++ [name])).node q = disk.node q := by
  rw [FileTree.node_removeAll (List.append_ne_nil_of_right_ne_nil _ (List.cons_ne_nil _ _))]
  by_cases hq : parent ++ [name] <+: q
  · rw [if_pos hq]
    by_contra hsome
    have hfound : (disk.node q).isSome := Option.isSome_iff_ne_none.mpr (Ne.symm hsome)
    obtain heq | hne := eq_or_ne (parent ++ [name]) q
    · rw [← heq, hnew] at hfound
      cases hfound
    · rw [FileTree.node_above hfound hq hne] at hnew
      cases hnew
  · rw [if_neg hq, hlast q hq, FileTree.node_mkdirAll hmade]
    split
    · rename_i habove
      have hne : q ≠ parent ++ [name] := fun heq => hq (heq ▸ List.prefix_refl _)
      have hfront : q <+: parent := by
        have hdrop := FileTree.prefix_dropLast habove hne
        rwa [List.dropLast_concat] at hdrop
      obtain rfl | hne := eq_or_ne q parent
      · exact hparent.symm
      · exact (FileTree.node_above (by rw [hparent]; rfl) hfront hne).symm
    · rfl

/-- A copy that is moved from the fresh directory to the target stands there. -/
theorem content_of_move {name file : Bytes} {data : Bytes}
    (hmove : disk.move (parent ++ [name] ++ [file]) target = some next)
    (hdata : disk.node (parent ++ [name] ++ [file]) = some (.file (.regular data)))
    (hstage : disk.node (parent ++ [name]) = some .dir) (hdir : disk.node target ≠ some .dir)
    (htarget : target.dropLast = parent) :
    (next.removeAll (parent ++ [name])).content target = some (.regular data) := by
  have hne : target ≠ [] := fun hnil => hdir (hnil ▸ FileTree.node_nil)
  have hlength : target.length = parent.length + 1 := by
    rw [← htarget, List.length_dropLast]
    have hpos := List.length_pos_of_ne_nil hne
    omega
  have houtside : ¬ parent ++ [name] <+: target := by
    intro hfront
    have heq := hfront.eq_of_length (by simp [hlength])
    rw [heq] at hstage
    exact hdir hstage
  have hmovable : disk.Movable (parent ++ [name] ++ [file]) target := by
    unfold FileTree.move at hmove
    split at hmove
    · assumption
    · split at hmove
      · rename_i hsame
        have hlengths := congrArg List.length hsame.1
        simp [hlength] at hlengths
      · cases hmove
  obtain ⟨moved, hmoved, hnodes⟩ := FileTree.move_of_movable hmovable
  rw [hmove] at hmoved
  cases hmoved
  rw [FileTree.content_eq_some, FileTree.node_removeAll (by simp), if_neg houtside, hnodes,
    if_pos (List.prefix_refl _)]
  simpa using hdata

/-- The dump takes its place at the artifact, or the files are as they were. -/
theorem runRedisBackupCopyToHost_spec :
    let out := runRedisBackupCopyToHost directory live p command artifact disk
    (out.1.2 ≠ none → Kept (place directory artifact).dropLast disk out.2) ∧
      (out.1.2 = none → live = true ∧ ExitsZero p ∧ out.1.1.exitCode = 0 ∧
        ∃ data, p.copied = some (.regular data) ∧
          out.2.content (place directory artifact) = some (.regular data)) := by
  unfold runRedisBackupCopyToHost
  dsimp only
  cases hvalid : validateDatabaseBackupOutputPath directory disk artifact with
  | error e => exact ⟨fun _ => kept_refl, nofun⟩
  | ok _ =>
      dsimp only
      by_cases hmkdir : Step.mkdir ∈ p.refused
      · rw [if_pos hmkdir]
        exact ⟨fun _ => kept_refl, nofun⟩
      · rw [if_neg hmkdir]
        cases hparent : disk.mkdirAll (place directory artifact).dropLast with
        | none => exact ⟨fun _ => kept_refl, nofun⟩
        | some next =>
            have hkept := kept_mkdirAll hparent
            have hdir : next.node (place directory artifact).dropLast = some .dir := by
              rw [FileTree.node_mkdirAll hparent, if_pos (List.prefix_refl _)]
            dsimp only
            rw [validate_mkdirAll hparent, hvalid]
            dsimp only
            cases hfresh : freshPath next (place directory artifact).dropLast
                (bytes ".workmesh-redis-copy-") [] p.numbers with
            | none => exact ⟨fun _ => hkept, nofun⟩
            | some stage =>
                obtain ⟨hnew, name, rfl⟩ := freshPath_some hfresh
                rw [Option.bind_some]
                by_cases htemp : Step.temp ∈ p.refused
                · rw [if_pos htemp]
                  exact ⟨fun _ => hkept, nofun⟩
                · rw [if_neg htemp]
                  cases hmade : next.mkdirAll ((place directory artifact).dropLast ++ [name]) with
                  | none => exact ⟨fun _ => hkept, nofun⟩
                  | some made =>
                      dsimp only
                      generalize hout : startCommand directory live p
                        { command with name := command.name ++ "-staged", streamMode := .none
                                       stdoutPath := [] }
                        (some ((place directory artifact).dropLast ++ [name] ++
                          [bytes "dump.rdb"])) made = out
                      obtain ⟨hleft, hrun⟩ := hout ▸ startCommand_disk rfl _
                      have hlonger : (place directory artifact).dropLast ++ [name] ≠
                          (place directory artifact).dropLast ++ [name] ++ [bytes "dump.rdb"] :=
                        fun heq => by simpa using congrArg List.length heq
                      have hcopy : ∀ q, q ≠ (place directory artifact).dropLast ++ [name] ++
                          [bytes "dump.rdb"] → out.2.node q = made.node q := by
                        intro q hq
                        obtain heq | heq := hleft
                        · rw [heq]
                        · rw [heq, node_leaveCopy q hq]
                      have hstage : out.2.node ((place directory artifact).dropLast ++ [name]) =
                          some .dir := by
                        rw [hcopy _ hlonger, FileTree.node_mkdirAll hmade,
                          if_pos (List.prefix_refl _)]
                      obtain ⟨hfails, hok⟩ := @commitCopy_spec p out.2
                        (place directory artifact)
                        ((place directory artifact).dropLast ++ [name] ++ [bytes "dump.rdb"])
                        out.1
                      constructor
                      · intro herror
                        refine hkept.congr (node_removeAll_fresh hdir hnew hmade fun q hq => ?_)
                        rw [hfails herror]
                        exact hcopy q fun heq => hq (heq ▸ List.prefix_append _ _)
                      · intro hnone
                        obtain ⟨houtcome, hsame, htarget, hmove, data, hdata⟩ := hok hnone
                        obtain ⟨hdisk, hlive, hexits, hexit⟩ := hrun houtcome
                        refine ⟨hlive, hexits, by rw [hsame]; exact hexit, data, ?_,
                          content_of_move hmove hdata hstage htarget rfl⟩
                        refine copied_of_leaveCopy ?_ (hdisk ▸ hdata)
                        rw [FileTree.node_mkdirAll hmade, if_neg (not_prefix_parent _)]
                        by_contra hsome
                        have hbelow := FileTree.node_above (Option.isSome_iff_ne_none.mpr hsome)
                          (List.prefix_append _ [bytes "dump.rdb"]) hlonger
                        rw [hnew] at hbelow
                        cases hbelow

end Copy

/-! ## The commands of Redis -/

section Redis
variable {request : Request} {m : Machine} {live : Bool} {p : Process} {command : Command}

/-- The beginning of a text that does not start with white space stays. -/
theorem dropMarks_suffix (marks : List Bytes) (n : ℕ) (text : Bytes) :
    dropMarks marks n text <:+ text := by
  induction n generalizing text with
  | zero => exact List.suffix_refl _
  | succ n ih =>
      rw [dropMarks]
      split
      · exact (ih _).trans (List.drop_suffix _ _)
      · exact List.suffix_refl _

theorem isContainerName_head {name : Bytes} (h : isContainerName name = true) :
    ∃ c rest, name = c :: rest ∧ (isLetter c || isDigit c) = true := by
  cases name with
  | nil => cases h
  | cons c rest =>
      rw [isContainerName, isWord, Bool.and_assoc, Bool.and_eq_true] at h
      exact ⟨c, rest, rfl, h.1⟩

theorem trimSpace_head {c : UInt8} {rest : Bytes} (hc : (isLetter c || isDigit c) = true)
    (hne : trimSpace (c :: rest) ≠ []) : (trimSpace (c :: rest)).head? = some c := by
  have hspaces : ∀ c : UInt8, (isLetter c || isDigit c) = true →
      ∀ mark ∈ spaceRunes.map String.utf8EncodeChar, mark.head? ≠ some c := by
    decide +kernel
  have hfront : dropMarks (spaceRunes.map String.utf8EncodeChar) (c :: rest).length (c :: rest) =
      c :: rest := dropMarks_of_head (by decide +kernel) (hspaces c hc) _ _
  have hfront : trimSpace (c :: rest) <+: c :: rest := by
    rw [trimSpace, hfront]
    have hsuffix := dropMarks_suffix ((spaceRunes.map String.utf8EncodeChar).map List.reverse)
      (c :: rest).length (c :: rest).reverse
    rw [← List.reverse_prefix, List.reverse_reverse] at hsuffix
    exact hsuffix
  cases htrim : trimSpace (c :: rest) with
  | nil => exact absurd htrim hne
  | cons d tail =>
      rw [htrim, List.cons_prefix_cons] at hfront
      rw [hfront.1]
      rfl

/-- A path for an artifact names no container. -/
theorem parse_artifact (h : validateDatabaseBackupPath request.artifactPath = .ok ()) :
    parseRedisContainerPath request.artifactPath = none := by
  have hname : ∀ n, isContainerName (request.artifactPath.take n) = false := by
    intro n
    by_contra hname
    obtain ⟨c, rest, htake, hc⟩ := isContainerName_head (Bool.not_eq_false _ ▸ hname)
    obtain ⟨tail, hpath⟩ : ∃ tail, request.artifactPath = c :: tail := by
      cases hpath : request.artifactPath with
      | nil =>
          rw [hpath, List.take_nil] at htake
          cases htake
      | cons d tail =>
          rw [hpath] at htake
          cases n with
          | zero => cases htake
          | succ n =>
              cases htake
              exact ⟨tail, rfl⟩
    rw [hpath, validateDatabaseBackupPath] at h
    split at h
    · cases h
    · rename_i hvalue
      rw [not_or, not_or] at hvalue
      have hrooted : isRooted (trimSpace (c :: tail)) = true := by simpa using hvalue.2.1
      rw [isRooted, decide_eq_true_eq, trimSpace_head hc hvalue.1] at hrooted
      cases hrooted
      exact absurd hc (by decide)
  unfold parseRedisContainerPath
  split
  · rfl
  · rfl
  · rw [if_pos (.inr (by rw [hname]; rfl))]

/-- The disk, the directory and the runs of the other commands are the same. -/
structure Idle (command : Command) (m after : Machine) : Prop where
  disk : after.disk = m.disk
  directory : after.directory = m.directory
  programs : ∀ name, name ≠ command.name → after.programs name = m.programs name

theorem Idle.builtin {after : Machine} (h : Idle command m after)
    (hprogram : isRedisBackupCopyCommand command = false) (hpath : command.stdoutPath = [])
    (live : Bool) : Idle command m (builtin command live after).2 where
  disk := by
    change (runDatabaseBackupCommand _ _ _ command after.disk).2 = m.disk
    unfold runDatabaseBackupCommand
    split
    · exact h.disk
    · rw [hprogram, if_neg Bool.false_ne_true]
      obtain ⟨heq | heq, -⟩ := @startCommand_disk after.directory
        ((after.programs command.name).headD {}) after.disk live command hpath none
      · exact heq.trans h.disk
      · exact heq.trans (leaveCopy_none.trans h.disk)
  directory := h.directory
  programs name hne := by
    change Function.update after.programs command.name _ name = _
    rw [Function.update_of_ne hne]
    exact h.programs name hne

/-- A command in a container without an output file changes nothing on the disk. -/
theorem executeCommand_container {secret : Bytes}
    (hprogram : isRedisBackupCopyCommand command = false) (hpath : command.stdoutPath = [])
    (session : Session Machine) :
    Idle command session.state (executeCommand builtin secret command session).2.state :=
  attempts_keeps (Idle.builtin ⟨rfl, rfl, fun _ _ => rfl⟩ hprogram hpath _)
    fun live _ _ h => h.builtin hprogram hpath live

theorem isCopy_backup : isRedisBackupCopyCommand
    (copyOut request "redis-copy-backup" request.artifactPath) = true := by
  have hdocker : basePath (trimSpace (bytes "docker")) = bytes "docker" := by decide +kernel
  simp [isRedisBackupCopyCommand, copyOut, dockerCommand, hdocker]

theorem copyArtifact_copyOut :
    copyArtifact (copyOut request "redis-copy-backup" request.artifactPath) request.artifactPath =
      request.artifactPath := by
  rw [copyArtifact, show (copyOut request _ _).stdoutPath = [] from rfl, trimSpace_nil]
  rfl

/-- The copy of a dump puts it in the place of the artifact or leaves the files as they were. -/
theorem run_copyOut (hpath : validateDatabaseBackupPath request.artifactPath = .ok ()) :
    let out := runDatabaseBackupCommand m.directory live p
      (copyOut request "redis-copy-backup" request.artifactPath) m.disk
    (out.1.2 ≠ none → Kept (place m.directory request.artifactPath).dropLast m.disk out.2) ∧
      (out.1.2 = none → live = true ∧ ExitsZero p ∧ out.1.1.exitCode = 0 ∧
        ∃ data, p.copied = some (.regular data) ∧
          out.2.content (place m.directory request.artifactPath) = some (.regular data)) := by
  unfold runDatabaseBackupCommand
  cases checkCommand (copyOut request "redis-copy-backup" request.artifactPath) with
  | error e => exact ⟨fun _ => kept_refl, nofun⟩
  | ok _ =>
      have hargs : (copyOut request "redis-copy-backup" request.artifactPath).args =
        [bytes "cp", request.dumpInContainer, request.artifactPath] := rfl
      dsimp only
      rw [isCopy_backup, if_pos rfl, hargs]
      dsimp only
      rw [runRedisBackupCopyCommand, parse_artifact hpath, copyArtifact_copyOut]
      dsimp only
      cases parseRedisContainerPath request.dumpInContainer with
      | none => exact ⟨fun _ => kept_refl, nofun⟩
      | some source =>
          dsimp only
          by_cases hdump : source.2 ≠ redisDumpPath
          · rw [if_pos hdump]
            exact ⟨fun _ => kept_refl, nofun⟩
          · rw [if_neg hdump]
            cases validateDatabaseBackupContainer source.1 with
            | error e => exact ⟨fun _ => kept_refl, nofun⟩
            | ok _ =>
                dsimp only
                rw [if_neg (not_not.mpr rfl)]
                exact runRedisBackupCopyToHost_spec

/-- The copy of the dump takes its place at the artifact, or the files are as they were. -/
theorem executeCommand_copy {secret : Bytes} {cancelled : Bool}
    (hpath : validateDatabaseBackupPath request.artifactPath = .ok ()) :
    let out := executeCommand builtin secret
      (copyOut request "redis-copy-backup" request.artifactPath) ⟨m, cancelled⟩
    (out.1.2 ≠ none →
        Kept (place m.directory request.artifactPath).dropLast m.disk out.2.state.disk) ∧
      (out.1.2 = none →
        ∃ data, ((m.programs "redis-copy-backup").headD {}).copied = some (.regular data) ∧
          out.2.state.disk.content (place m.directory request.artifactPath) =
            some (.regular data)) := by
  obtain ⟨hverdict, hstate⟩ := @executeCommand_single _ builtin secret
    (copyOut request "redis-copy-backup" request.artifactPath) ⟨m, cancelled⟩ rfl
  obtain ⟨hkept, hok⟩ := @run_copyOut request m (!cancelled)
    ((m.programs (copyOut request "redis-copy-backup" request.artifactPath).name).headD {}) hpath
  dsimp only at hverdict hstate ⊢
  rw [hverdict, hstate]
  constructor
  · intro hfails
    refine hkept fun hnone => hfails ?_
    obtain ⟨hlive, hexits, hexit, -⟩ := hok hnone
    exact verdict_builtin rfl hnone hexit (by simpa using hlive) hexits.2.1
  · intro hnone
    obtain ⟨-, -, -, hdata⟩ := hok (verdict_none.mp hnone).2.1
    exact hdata

theorem not_copy_redis {command : Command} (h : command.program = "redis-cli") :
    isRedisBackupCopyCommand command = false := by
  have hredis : basePath (trimSpace (bytes "redis-cli")) ≠ bytes "docker" := by decide +kernel
  simp [isRedisBackupCopyCommand, h, hredis]

/-- A backup of Redis puts the copy in the place of the artifact or leaves the files as they
were. -/
theorem executeCommands_redis {secret : Bytes} {cancelled : Bool}
    (hpath : validateDatabaseBackupPath request.artifactPath = .ok ()) :
    let out := executeCommands builtin secret [] (redisBackupCommands request) ⟨m, cancelled⟩
    (out.1.2 ≠ none →
        Kept (place m.directory request.artifactPath).dropLast m.disk out.2.state.disk) ∧
      (out.1.2 = none →
        ∃ data, ((m.programs "redis-copy-backup").headD {}).copied = some (.regular data) ∧
          out.2.state.disk.content (place m.directory request.artifactPath) =
            some (.regular data)) := by
  obtain ⟨bgsave, wait, hcommands, hsave, hwait, hsaveName, hwaitName, hsavePath, hwaitPath⟩ :
      ∃ bgsave wait : Command, redisBackupCommands request =
        [bgsave, wait, copyOut request "redis-copy-backup" request.artifactPath] ∧
        bgsave.program = "redis-cli" ∧ wait.program = "redis-cli" ∧
        "redis-copy-backup" ≠ bgsave.name ∧ "redis-copy-backup" ≠ wait.name ∧
        bgsave.stdoutPath = [] ∧ wait.stdoutPath = [] :=
    ⟨_, _, rfl, rfl, rfl, by simp, by simp, rfl, rfl⟩
  have hfirst := @executeCommand_container bgsave secret (not_copy_redis hsave) hsavePath
    ⟨m, cancelled⟩
  rw [hcommands]
  generalize hsaved : executeCommand builtin secret bgsave ⟨m, cancelled⟩ = saved at hfirst
  have hsecond := @executeCommand_container wait secret (not_copy_redis hwait) hwaitPath saved.2
  generalize hwaited : executeCommand builtin secret wait saved.2 = waited at hsecond
  have hdisk : waited.2.state.disk = m.disk := hsecond.disk.trans hfirst.disk
  have hdirectory : waited.2.state.directory = m.directory :=
    hsecond.directory.trans hfirst.directory
  have hprograms : waited.2.state.programs "redis-copy-backup" = m.programs "redis-copy-backup" :=
    (hsecond.programs _ hwaitName).trans (hfirst.programs _ hsaveName)
  rw [executeCommands, hsaved]
  obtain ⟨⟨result, _ | e⟩, next⟩ := saved
  · dsimp only
    rw [executeCommands, hwaited]
    obtain ⟨⟨result', _ | e⟩, last⟩ := waited
    · dsimp only at hdisk hdirectory hprograms ⊢
      have hcopy := @executeCommand_copy request last.state secret last.cancelled hpath
      rw [hdisk, hdirectory, hprograms] at hcopy
      rw [executeCommands]
      rcases hrun : executeCommand builtin secret
        (copyOut request "redis-copy-backup" request.artifactPath) last
        with ⟨⟨final, _ | e⟩, after⟩
      · rw [hrun] at hcopy
        exact ⟨fun h => absurd rfl h, fun _ => hcopy.2 rfl⟩
      · rw [hrun] at hcopy
        exact ⟨fun _ => hcopy.1 (Option.some_ne_none _), fun h => by cases h⟩
    · exact ⟨fun _ => by rw [← hdisk]; exact kept_refl, fun h => by cases h⟩
  · exact ⟨fun _ => by rw [← hfirst.disk]; exact kept_refl, fun h => by cases h⟩

end Redis

/-! ## Backups -/

section Backup
variable (request : Request) (m : Machine) (cancelled : Bool)

/-- The command of the dump when the database is not Redis. -/
def sqlCommand : Option Command :=
  match buildDatabaseBackupPlan .backup request with
  | .error _ => none
  | .ok plan => if plan.type = .redis then none else plan.commands.head?

/-- The runs of the programs of the plan. -/
def backupPrograms : List Process :=
  match buildDatabaseBackupPlan .backup request with
  | .error _ => []
  | .ok plan => plan.commands.flatMap fun command => m.programs command.name

/-- What the program of the dump produces: its output, or the copy it makes. -/
def produced : Option Content :=
  match sqlCommand request with
  | some command => some (.regular ((m.programs command.name).headD {}).stdout)
  | none => ((m.programs "redis-copy-backup").headD {}).copied

/-- A backup that ends well has put what was produced at its artifact, one that fails has left the
files as they were, no program fails for the amount of its output, and the row of a completed backup
describes the file. -/
structure BackupSound : Prop where
  written : let out := perform builtin .backup request ⟨m, cancelled⟩
    out.1.2 = none → ∃ data, produced request m = some (.regular data) ∧
      out.2.state.disk.content (place m.directory request.artifactPath) = some (.regular data)
  kept : let out := perform builtin .backup request ⟨m, cancelled⟩
    out.1.2 ≠ none →
      Kept (place m.directory request.artifactPath).dropLast m.disk out.2.state.disk
  amount : ∀ p ∈ backupPrograms request m, ExitsZero p → (runProcess true p).2 = none
  recorded : ∀ root record saves, record.operation = .backup →
    let out := handleDatabaseBackupOperation root record saves request ⟨m, cancelled⟩
    ∀ row ∈ out.1, row.status = .completed →
      ∃ data, out.2.state.disk.content (place m.directory request.artifactPath) =
          some (.regular data) ∧
        row.artifactSize = data.length ∧ row.sha256 = hexEncode (sha256 data)

end Backup

section Sound
variable {request : Request} {m : Machine} {cancelled : Bool} {plan : Plan} {command : Command}

theorem Kept.content {target : List Bytes} {before after : Disk}
    (h : Kept target.dropLast before after) : after.content target = before.content target := by
  obtain heq | ⟨hdir, hfront⟩ := h target
  · exact FileTree.content_congr heq
  · have hnil : target = [] := by
      have hlength := hfront.length_le
      rw [List.length_dropLast] at hlength
      exact List.length_eq_zero_iff.mp (by omega)
    rw [hnil, FileTree.content_of_dir FileTree.node_nil, FileTree.content_of_dir FileTree.node_nil]

theorem executeCommand_directory {secret : Bytes} (session : Session Machine) :
    (executeCommand builtin secret command session).2.state.directory = session.state.directory :=
  attempts_keeps (P := fun after : Machine => after.directory = session.state.directory) rfl
    fun _ _ _ h => h

theorem executeCommands_directory {secret : Bytes} {commands : List Command}
    (session : Session Machine) :
    (executeCommands builtin secret [] commands session).2.state.directory =
      session.state.directory := by
  induction commands generalizing session with
  | nil => rfl
  | cons command commands ih =>
      have hfirst := @executeCommand_directory command secret session
      rw [executeCommands]
      rcases hrun : executeCommand builtin secret command session with ⟨⟨result, _ | e⟩, next⟩
      · rw [hrun] at hfirst
        exact (ih next).trans hfirst
      · rw [hrun] at hfirst
        exact hfirst

theorem perform_directory :
    (perform builtin .backup request ⟨m, cancelled⟩).2.state.directory = m.directory := by
  unfold perform
  cases hplan : buildDatabaseBackupPlan .backup request with
  | error text => rfl
  | ok plan =>
      dsimp only
      rw [execute, (backup_plan hplan).1]
      exact executeCommands_directory _

/-- A row is completed for the regular file that a good end leaves. -/
theorem recorded_of_written
    (h : (perform builtin .backup request ⟨m, cancelled⟩).1.2 = none →
      ∃ data, (perform builtin .backup request ⟨m, cancelled⟩).2.state.disk.content
        (place m.directory request.artifactPath) = some (.regular data))
    (root : Bytes) (record : Record) (saves : Bool × Bool) (hbackup : record.operation = .backup) :
    let out := handleDatabaseBackupOperation root record saves request ⟨m, cancelled⟩
    ∀ row ∈ out.1, row.status = .completed →
      ∃ data, out.2.state.disk.content (place m.directory request.artifactPath) =
          some (.regular data) ∧
        row.artifactSize = data.length ∧ row.sha256 = hexEncode (sha256 data) := by
  have hdirectory := @perform_directory request m cancelled
  intro out row hrow hcompleted
  unfold out at hrow ⊢
  unfold handleDatabaseBackupOperation at hrow ⊢
  dsimp only at hrow ⊢
  rw [hbackup] at hrow ⊢
  cases hfirst : saves.1 with
  | false =>
      rw [hfirst] at hrow
      cases hrow
  | true =>
      rw [hfirst] at hrow
      simp only [Bool.not_true, Bool.false_eq_true, if_false] at hrow ⊢
      generalize perform builtin .backup request ⟨m, cancelled⟩ = out at h hdirectory hrow ⊢
      obtain ⟨⟨execution, refusal⟩, session⟩ := out
      obtain rfl | hrow := List.mem_cons.mp hrow
      · cases hcompleted
      · cases hlast : saves.2 with
        | false =>
            rw [hlast] at hrow
            cases hrow
        | true =>
            rw [hlast, if_pos rfl, List.mem_singleton] at hrow
            cases refusal with
            | some e =>
                rw [hrow] at hcompleted
                cases hcompleted
            | none =>
                obtain ⟨data, hdata⟩ := h rfl
                dsimp only at hdirectory hrow hdata ⊢
                rw [hdirectory, FileTree.content_eq_some.mp hdata] at hrow
                split at hrow
                · rw [hrow] at hcompleted
                  cases hcompleted
                · rw [hrow]
                  exact ⟨data, hdata, rfl, rfl⟩

theorem sound_refused {text : Bytes}
    (hplan : buildDatabaseBackupPlan .backup request = .error text) :
    sqlCommand request = none ∧ (BackupSound request m cancelled ↔
      ∀ p ∈ backupPrograms request m, ExitsZero p → (runProcess true p).2 = none) := by
  have hperform : perform builtin .backup request ⟨m, cancelled⟩ =
      (({}, some (.request text)), ⟨m, cancelled⟩) := by
    unfold perform
    rw [hplan]
  have hsql : sqlCommand request = none := by
    unfold sqlCommand
    rw [hplan]
  have hwritten : (perform builtin .backup request ⟨m, cancelled⟩).1.2 ≠ none := by
    rw [hperform]
    exact Option.some_ne_none _
  refine ⟨hsql, fun h => h.amount, fun h => ⟨fun h => absurd h hwritten, ?_, h,
    recorded_of_written fun h => absurd h hwritten⟩⟩
  intro out _
  unfold out
  rw [hperform]
  exact kept_refl

theorem sound_redis (hplan : buildDatabaseBackupPlan .backup request = .ok plan)
    (htype : plan.type = .redis) (hcommands : plan.commands = redisBackupCommands request) :
    sqlCommand request = none ∧ (BackupSound request m cancelled ↔
      ∀ p ∈ backupPrograms request m, ExitsZero p → (runProcess true p).2 = none) := by
  obtain ⟨-, -, -, hpath⟩ := checked_of_plan hplan
  obtain ⟨hcompensations, -⟩ := backup_plan hplan
  have hsql : sqlCommand request = none := by
    unfold sqlCommand
    rw [hplan]
    exact if_pos htype
  obtain ⟨hkept, hok⟩ := @executeCommands_redis request m request.password cancelled hpath
  have hperform : perform builtin .backup request ⟨m, cancelled⟩ =
      executeCommands builtin request.password [] (redisBackupCommands request)
        ⟨m, cancelled⟩ := by
    unfold perform
    rw [hplan]
    dsimp only
    rw [execute, hcommands, hcompensations]
  refine ⟨hsql, fun h => h.amount, fun h => ⟨?_, ?_, h, recorded_of_written ?_⟩⟩
  · intro out hnone
    unfold produced
    rw [hsql]
    unfold out at hnone ⊢
    rw [hperform] at hnone ⊢
    exact hok hnone
  · rw [hperform]
    exact hkept
  · rw [hperform]
    exact fun hnone => (hok hnone).imp fun data h => h.2

theorem perform_sql (hplan : buildDatabaseBackupPlan .backup request = .ok plan)
    (hcommands : plan.commands = [command]) :
    (perform builtin .backup request ⟨m, cancelled⟩).2.state =
        (executeCommand builtin request.password command ⟨m, cancelled⟩).2.state ∧
      ((perform builtin .backup request ⟨m, cancelled⟩).1.2 = none ↔
        (executeCommand builtin request.password command ⟨m, cancelled⟩).1.2 = none) := by
  unfold perform
  rw [hplan]
  dsimp only
  rw [execute, hcommands, (backup_plan hplan).1, executeCommands]
  rcases executeCommand builtin request.password command ⟨m, cancelled⟩
    with ⟨⟨result, _ | e⟩, next⟩
  · exact ⟨rfl, iff_of_true rfl rfl⟩
  · exact ⟨rfl, iff_of_false (Option.some_ne_none _) (Option.some_ne_none _)⟩

/-- The output of a SQL dump does not come to the artifact, which is as it was. -/
theorem sound_sql (hplan : buildDatabaseBackupPlan .backup request = .ok plan)
    (htype : plan.type ≠ .redis) (hcommands : plan.commands = [command])
    (hcommand : SqlDump request command) :
    sqlCommand request = some command ∧ (BackupSound request m cancelled ↔
      (∀ p ∈ backupPrograms request m, ExitsZero p → (runProcess true p).2 = none) ∧
        (cancelled = false → Dumps m command ((m.programs command.name).headD {}) →
          m.disk.content (place m.directory request.artifactPath) =
            some (.regular ((m.programs command.name).headD {}).stdout))) := by
  have hsql : sqlCommand request = some command := by
    unfold sqlCommand
    rw [hplan]
    dsimp only
    rw [if_neg htype, hcommands]
    rfl
  obtain ⟨hkept, hok⟩ := @executeCommand_sql request command m cancelled request.password hcommand
  obtain ⟨hstate, hverdict⟩ := @perform_sql request m cancelled plan command hplan hcommands
  have hproduced : produced request m =
      some (.regular ((m.programs command.name).headD {}).stdout) := by
    unfold produced
    rw [hsql]
  have hcontent := hkept.content
  rw [← hstate] at hkept hcontent
  refine ⟨hsql, fun h => ⟨h.amount, fun hlive hdumps => ?_⟩, fun h => ?_⟩
  · obtain ⟨data, hdata, hfile⟩ := h.written (hverdict.mpr (hok.mpr ⟨hlive, hdumps⟩))
    rw [hproduced] at hdata
    cases hdata
    exact hcontent.symm.trans hfile
  · have hwritten : (perform builtin .backup request ⟨m, cancelled⟩).1.2 = none →
        (perform builtin .backup request ⟨m, cancelled⟩).2.state.disk.content
          (place m.directory request.artifactPath) =
            some (.regular ((m.programs command.name).headD {}).stdout) := by
      intro hnone
      obtain ⟨hlive, hdumps⟩ := hok.mp (hverdict.mp hnone)
      exact hcontent.trans (h.2 hlive hdumps)
    exact ⟨fun hnone => ⟨_, hproduced, hwritten hnone⟩, fun _ => hkept, h.1,
      recorded_of_written fun hnone => ⟨_, hwritten hnone⟩⟩

/-- A backup is sound if and only if no program that exits with 0 prints a piece across the limit,
and a SQL dump that ends well finds its output at the artifact already. -/
theorem backup_sound_iff (request : Request) (m : Machine) (cancelled : Bool) :
    BackupSound request m cancelled ↔
      (∀ p ∈ backupPrograms request m, ExitsZero p → Fits p.stderr) ∧
        ∀ command, sqlCommand request = some command → cancelled = false →
          Dumps m command ((m.programs command.name).headD {}) →
          m.disk.content (place m.directory request.artifactPath) =
            some (.regular ((m.programs command.name).headD {}).stdout) := by
  have hamount : (∀ p ∈ backupPrograms request m, ExitsZero p → (runProcess true p).2 = none) ↔
      ∀ p ∈ backupPrograms request m, ExitsZero p → Fits p.stderr := by
    refine forall₂_congr fun p _ => forall_congr' fun hexits => ?_
    rw [runProcess_ok]
    exact ⟨fun h => h.2.2, fun h => ⟨rfl, hexits, h⟩⟩
  rw [← hamount]
  cases hplan : buildDatabaseBackupPlan .backup request with
  | error text =>
      obtain ⟨hsql, hsound⟩ := @sound_refused request m cancelled text hplan
      rw [hsound, hsql]
      exact (and_iff_left fun _ h => by cases h).symm
  | ok plan =>
      obtain ⟨-, ⟨htype, hcommands⟩ | ⟨htype, command, hcommands, hcommand⟩⟩ := backup_plan hplan
      · obtain ⟨hsql, hsound⟩ := @sound_redis request m cancelled plan hplan htype hcommands
        rw [hsound, hsql]
        exact (and_iff_left fun _ h => by cases h).symm
      · obtain ⟨hsql, hsound⟩ :=
          @sound_sql request m cancelled plan command hplan htype hcommands hcommand
        rw [hsound, hsql]
        refine and_congr_right fun _ => ⟨fun h other hother => ?_, fun h => h command rfl⟩
        rw [← Option.some.inj hother]
        exact h

end Sound

/-- A backup of a PostgreSQL database to a file that is not there yet. -/
def dumpRequest : Request where
  type := bytes "postgres"
  containerName := bytes "db"
  databaseName := bytes "app"
  username := bytes "app"
  artifactPath := bytes "/b/app.dump"

def dumpMachine : Machine where
  disk := .empty
  programs _ := [{ stdout := bytes "dump" }]

/-- The dump ends well, and no file is written. -/
theorem dump_not_sound : ¬ BackupSound dumpRequest dumpMachine false := by
  intro h
  obtain ⟨data, -, hfile⟩ := h.written (by decide +kernel)
  have hnone : (perform builtin .backup dumpRequest ⟨dumpMachine, false⟩).2.state.disk.content
      (place dumpMachine.directory dumpRequest.artifactPath) = none := by
    decide +kernel
  rw [hnone] at hfile
  cases hfile

end WorkMesh.Backup
