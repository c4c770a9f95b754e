import WorkMesh.AgentTeam.Value

/-!
# The migration ledger

Migrations run in the order of their list, each in a transaction that also
writes its row of the ledger. A transaction takes effect as a whole or not at
all, any statement can fail, and a run that fails is repeated later, perhaps
with more migrations.
-/

namespace WorkMesh.Storage

/-- A row of `schema_migrations`. -/
structure LedgerRow where
  id : String
  checksum : String
deriving DecidableEq

/-- A row of `migration_runs`. -/
structure MigrationRun where
  fromVersion : String
  toVersion : String
  status : String
  error : String := ""
deriving DecidableEq

/-- A database: what the migrations work on, the ledger and the audit of the runs. -/
structure Database (σ : Type*) where
  data : σ
  ledger : List LedgerRow := []
  runs : List MigrationRun := []

structure Migration (σ : Type*) where
  id : String
  checksum : String
  up : Option (σ → Except String σ)

/-- How a commit ends. One that is reported to have failed may have taken effect. -/
inductive Commit where
  | done
  | rolledBack (message : String)
  | unreported (message : String)

/-- The statements of one migration that fail, each with its error. -/
structure Statements where
  read : Option String := none
  start : Option String := none
  begin : Option String := none
  up : Option String := none
  insert : Option String := none
  commit : Commit := .done
  finish : Option String := none

/-- The statements of a call that fail. -/
structure Statements.Call where
  ledger : Option String := none
  audit : Option String := none
  each : ℕ → Statements := fun _ => {}
  noopStart : Option String := none
  noopFinish : Option String := none

section Model
variable {σ : Type*}

def Database.checksum (db : Database σ) (id : String) : Option String :=
  (db.ledger.find? fun row => row.id = id).map (·.checksum)

def validateMigration (m : Migration σ) : Option String :=
  if AgentTeam.trimSpace m.id = "" then some "迁移 ID 不能为空"
  else if AgentTeam.trimSpace m.checksum = "" then some s!"迁移 {m.id} 的 checksum 不能为空"
  else if m.up.isNone then some s!"迁移 {m.id} 缺少执行函数"
  else none

/-- `startMigrationRun`. -/
def Database.startRun (db : Database σ) (fromVersion toVersion : String) : Database σ :=
  { db with runs := db.runs ++ [⟨fromVersion, toVersion, "running", ""⟩] }

/-- `finishMigrationRun` of the run that was started last. -/
def Database.finishRun (db : Database σ) (status error : String) : Database σ :=
  match db.runs.getLast? with
  | some last => { db with runs := db.runs.dropLast ++ [{ last with status, error }] }
  | none => db

/-- A run that failed. Its audit row says so, unless that write fails too. -/
def Database.failRun (db : Database σ) (a : Statements) (error : String) : Database σ :=
  if a.finish.isNone then db.finishRun "failed" error else db

/-- The work of a migration inside its transaction. -/
def Migration.work (m : Migration σ) (a : Statements) (data : σ) : Except String σ :=
  match a.up, m.up with
  | some message, _ => .error message
  | none, some up => up data
  | none, none => .error "nil"

/-- The transaction of a migration that is not in the ledger yet. -/
def runMigration (a : Statements) (previous : String) (m : Migration σ) (db : Database σ) :
    Database σ × Except String Unit :=
  match a.start with
  | some message => (db, .error s!"记录迁移 {m.id} 启动状态失败: {message}")
  | none =>
  let db := db.startRun previous m.id
  match a.begin with
  | some message => (db.failRun a message, .error s!"开始迁移事务失败: {message}")
  | none =>
  match m.work a db.data with
  | .error message => (db.failRun a message, .error s!"执行迁移 {m.id} 失败: {message}")
  | .ok data =>
  match a.insert with
  | some message => (db.failRun a message, .error s!"记录迁移 {m.id} 失败: {message}")
  | none =>
  let committed := { db with data, ledger := db.ledger ++ [⟨m.id, m.checksum⟩] }
  match a.commit with
  | .rolledBack message => (db.failRun a message, .error s!"提交迁移 {m.id} 失败: {message}")
  | .unreported message =>
      (committed.failRun a message, .error s!"提交迁移 {m.id} 失败: {message}")
  | .done =>
  match a.finish with
  | some message => (committed, .error s!"记录迁移 {m.id} 完成状态失败: {message}")
  | none => (committed.finishRun "applied" "", .ok ())

/-- One pass of the loop: whether the migration was applied, or was before. -/
def applyMigration (a : Statements) (previous : String) (m : Migration σ) (db : Database σ) :
    Database σ × Except String Bool :=
  match validateMigration m with
  | some message => (db, .error message)
  | none =>
  match a.read with
  | some message => (db, .error s!"读取迁移账本失败: {message}")
  | none =>
  match db.checksum m.id with
  | some checksum =>
      if checksum ≠ m.checksum then
        (db, .error s!"迁移 checksum 冲突: id={m.id} stored={checksum} current={m.checksum}")
      else (db, .ok false)
  | none =>
      let (db, result) := runMigration a previous m db
      (db, result.map fun _ => true)

/-- The loop from a position of the list on. -/
def applyFrom (each : ℕ → Statements) :
    ℕ → List (Migration σ) → String → Bool → Database σ → Database σ × Except String (String × Bool)
  | _, [], previous, changed, db => (db, .ok (previous, changed))
  | i, m :: rest, previous, changed, db =>
      match applyMigration (each i) previous m db with
      | (db, .error message) => (db, .error message)
      | (db, .ok applied) => applyFrom each (i + 1) rest m.id (changed || applied) db

/-- `ApplyMigrations`, after the check for a missing connection. -/
def applyMigrations (a : Statements.Call) (migrations : List (Migration σ)) (db : Database σ) :
    Database σ × Except String Unit :=
  match a.ledger, a.audit with
  | some message, _ => (db, .error s!"初始化迁移账本失败: {message}")
  | none, some message => (db, .error s!"初始化迁移审计表失败: {message}")
  | none, none =>
  match applyFrom a.each 0 migrations "" false db with
  | (db, .error message) => (db, .error message)
  | (db, .ok (previous, changed)) =>
      if migrations ≠ [] ∧ changed = false then
        match a.noopStart, a.noopFinish with
        | some message, _ => (db, .error s!"记录迁移 noop 状态失败: {message}")
        | none, some message =>
            (db.startRun previous previous, .error s!"记录迁移 noop 完成状态失败: {message}")
        | none, none => ((db.startRun previous previous).finishRun "noop" "", .ok ())
      else (db, .ok ())

end Model

end WorkMesh.Storage
