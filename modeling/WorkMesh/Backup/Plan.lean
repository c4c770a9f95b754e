import WorkMesh.Encoding.Cookie
import WorkMesh.Encoding.Path
import WorkMesh.Encoding.Search

/-!
# Plans of database backups

A backup or a restore of a database is a list of commands with compensations for
the commands that may fail. The plan of a request is built first and names no
executor.
-/

namespace WorkMesh.Backup

open Encoding

/-! ## Requests -/

inductive DatabaseBackupType where
  | postgres
  | mariadb
  | redis
deriving DecidableEq

inductive Operation where
  | backup
  | restore
deriving DecidableEq

structure Request where
  type : Bytes
  containerName : Bytes
  databaseName : Bytes := []
  username : Bytes := []
  password : Bytes := []
  artifactPath : Bytes

/-! ## Commands -/

inductive StreamMode where
  | none
  | stdoutToArtifact
  | artifactToStdin
deriving DecidableEq

/-- The pause is in seconds. -/
structure RetryPolicy where
  maxAttempts : ℤ := 0
  delay : ℕ := 0

structure Verification where
  kind : String := ""
  requiredOutput : List String := []

/-- A command of a plan. The time limit is in seconds. -/
structure Command where
  name : String
  program : String
  args : List Bytes
  container : Bytes := []
  environment : List (String × Bytes) := []
  stdinPath : Bytes := []
  stdoutPath : Bytes := []
  streamMode : StreamMode := .none
  timeout : ℕ
  retry : RetryPolicy := {}
  verification : Verification := {}
  continueOnError : Bool := false

structure Compensation where
  name : String
  triggerCommands : List String
  commands : List Command

structure Plan where
  type : DatabaseBackupType
  operation : Operation
  artifactPath : Bytes
  rollbackArtifactPath : Bytes := []
  commands : List Command
  compensations : List Compensation := []

/-! ## Checks -/

abbrev Check := Except Bytes

def refuse {α : Type} (text : String) : Check α := .error (bytes text)

def normalizeDatabaseBackupType (value : Bytes) : Check DatabaseBackupType :=
  let name := toLower (trimSpace value)
  if name = bytes "postgres" ∨ name = bytes "postgresql" then pure .postgres
  else if name = bytes "mariadb" ∨ name = bytes "mysql" then pure .mariadb
  else if name = bytes "redis" then pure .redis
  else .error (bytes "未知数据库类型: \"" ++ value ++ bytes "\"")

def isLetter (c : UInt8) : Bool := (65 ≤ c && c ≤ 90) || (97 ≤ c && c ≤ 122)

def isDigit (c : UInt8) : Bool := 48 ≤ c && c ≤ 57

/-- A first character of one kind and at most 127 others of another. -/
def isWord (first rest : UInt8 → Bool) (text : Bytes) : Bool :=
  match text with
  | [] => false
  | c :: tail => first c && tail.length ≤ 127 && tail.all rest

/-- `^[A-Za-z0-9][A-Za-z0-9_.-]{0,127}$`. -/
def isContainerName : Bytes → Bool :=
  isWord (fun c => isLetter c || isDigit c)
    fun c => isLetter c || isDigit c || c = 95 || c = 46 || c = 45

/-- `^[A-Za-z_][A-Za-z0-9_$.-]{0,127}$`. -/
def isDatabaseName : Bytes → Bool :=
  isWord (fun c => isLetter c || c = 95)
    fun c => isLetter c || isDigit c || c = 95 || c = 36 || c = 46 || c = 45

def validateDatabaseBackupContainer (value : Bytes) : Check Unit :=
  if isContainerName (trimSpace value) then pure () else refuse "数据库备份容器名无效"

def validateDatabaseBackupName (value : Bytes) (field : String) : Check Unit :=
  if isDatabaseName (trimSpace value) then pure ()
  else .error (bytes "数据库" ++ bytes field ++ bytes "无效")

/-- One of the bytes stands in the text. -/
def holdsAny (text marks : Bytes) : Bool := text.any fun c => c ∈ marks

def validateDatabaseBackupPath (value : Bytes) : Check Unit :=
  let value := trimSpace value
  if value = [] ∨ !isRooted value ∨ holdsAny value [0, 13, 10] then
    refuse "数据库备份路径必须是绝对路径且不含控制字符"
  else if cleanPath value ≠ value ∨ cleanPath value = [47] ∨
      containsText value (bytes "/../") ∨ (bytes "/..").isSuffixOf value then
    refuse "数据库备份路径不安全"
  else pure ()

/-! ## Plans -/

def defaultTimeout : ℕ := 15 * 60

def redisDumpPath : Bytes := bytes "/data/dump.rdb"

/-- Where the dump of a Redis container stands. -/
def Request.dumpInContainer (request : Request) : Bytes :=
  request.containerName ++ 58 :: redisDumpPath

def buildPostgresBackupPlan (operation : Operation) (request : Request) : Plan :=
  let environment := [("PGPASSWORD", request.password)]
  match operation with
  | .backup =>
      { type := .postgres, operation, artifactPath := request.artifactPath
        commands := [
          { name := "pg_dump", program := "pg_dump"
            args := [bytes "--format=custom", bytes "--no-owner", bytes "--dbname",
              request.databaseName, bytes "--username", request.username, bytes "--file=-"]
            container := request.containerName, environment
            stdoutPath := request.artifactPath, streamMode := .stdoutToArtifact
            timeout := defaultTimeout }] }
  | .restore =>
      { type := .postgres, operation, artifactPath := request.artifactPath
        commands := [
          { name := "pg_restore", program := "pg_restore"
            args := [bytes "--clean", bytes "--if-exists", bytes "--no-owner", bytes "--dbname",
              request.databaseName, bytes "--username", request.username, bytes "-"]
            container := request.containerName, environment
            stdinPath := request.artifactPath, streamMode := .artifactToStdin
            timeout := defaultTimeout }] }

def buildMariaDBBackupPlan (operation : Operation) (request : Request) : Plan :=
  let environment := [("MYSQL_PWD", request.password)]
  match operation with
  | .backup =>
      { type := .mariadb, operation, artifactPath := request.artifactPath
        commands := [
          { name := "mariadb-dump", program := "mariadb-dump"
            args := [bytes "--single-transaction", bytes "--routines", bytes "--events",
              bytes "--triggers", bytes "--databases", request.databaseName, bytes "--user",
              request.username]
            container := request.containerName, environment
            stdoutPath := request.artifactPath, streamMode := .stdoutToArtifact
            timeout := defaultTimeout }] }
  | .restore =>
      { type := .mariadb, operation, artifactPath := request.artifactPath
        commands := [
          { name := "mariadb", program := "mariadb"
            args := [bytes "--database", request.databaseName, bytes "--user", request.username]
            container := request.containerName, environment
            stdinPath := request.artifactPath, streamMode := .artifactToStdin
            timeout := defaultTimeout }] }

section Redis
variable (request : Request)

/-- A command of Docker. -/
def dockerCommand (name : String) (args : List Bytes) : Command :=
  { name, program := "docker", args, timeout := defaultTimeout }

def dockerStop (name : String) : Command :=
  dockerCommand name [bytes "stop", request.containerName]

def dockerStart (name : String) : Command :=
  dockerCommand name [bytes "start", request.containerName]

/-- The dump is copied out of the container. -/
def copyOut (name : String) (path : Bytes) : Command :=
  dockerCommand name [bytes "cp", request.dumpInContainer, path]

/-- A dump is copied into the container. -/
def copyIn (name : String) (path : Bytes) : Command :=
  dockerCommand name [bytes "cp", path, request.dumpInContainer]

def healthCheck (name : String) : Command :=
  { name, program := "redis-cli", args := [bytes "--raw", bytes "PING"]
    container := request.containerName, environment := [("REDISCLI_AUTH", request.password)]
    timeout := 30, retry := { maxAttempts := 30, delay := 1 }
    verification := { kind := "redis_health", requiredOutput := ["PONG"] } }

def redisBackupCommands : List Command :=
  let environment := [("REDISCLI_AUTH", request.password)]
  [ { name := "redis-bgsave", program := "redis-cli", args := [bytes "--raw", bytes "BGSAVE"]
      container := request.containerName, environment, timeout := defaultTimeout },
    { name := "redis-wait-bgsave", program := "redis-cli"
      args := [bytes "--raw", bytes "INFO", bytes "persistence"]
      container := request.containerName, environment, timeout := 120
      retry := { maxAttempts := 120, delay := 1 }
      verification :=
        { kind := "redis_bgsave_complete"
          requiredOutput := ["rdb_bgsave_in_progress:0", "rdb_last_bgsave_status:ok"] } },
    copyOut request "redis-copy-backup" request.artifactPath ]

/-- The file that keeps the dump from before a restore. -/
def Request.rollbackPath : Bytes := request.artifactPath ++ bytes ".pre-restore"

def redisRestoreCommands : List Command :=
  [ dockerStop request "redis-stop-for-restore",
    copyOut request "redis-backup-existing-rdb" request.rollbackPath,
    copyIn request "redis-restore-copy" request.artifactPath,
    dockerStart request "redis-start-after-restore",
    healthCheck request "redis-health-check" ]

def redisRestart : Compensation where
  name := "redis-restart-after-restore-preparation-failure"
  triggerCommands := ["redis-backup-existing-rdb"]
  commands :=
    [ dockerStart request "redis-start-after-pre-restore-failure",
      healthCheck request "redis-health-check-after-pre-restore-failure" ]

def redisRollback : Compensation where
  name := "redis-rollback-after-restore-failure"
  triggerCommands := ["redis-restore-copy", "redis-start-after-restore", "redis-health-check"]
  commands :=
    [ { dockerStop request "redis-rollback-stop" with continueOnError := true },
      copyIn request "redis-rollback-copy" request.rollbackPath,
      dockerStart request "redis-rollback-start",
      healthCheck request "redis-rollback-health-check" ]

def buildRedisBackupPlan (operation : Operation) : Check Plan := do
  match operation with
  | .backup =>
      pure
        { type := .redis, operation, artifactPath := request.artifactPath
          commands := redisBackupCommands request }
  | .restore =>
      match validateDatabaseBackupPath request.rollbackPath with
      | .error e => .error (bytes "Redis 恢复回滚路径无效: " ++ e)
      | .ok () =>
          pure
            { type := .redis, operation, artifactPath := request.artifactPath
              rollbackArtifactPath := request.rollbackPath
              commands := redisRestoreCommands request
              compensations := [redisRestart request, redisRollback request] }

end Redis

def buildDatabaseBackupPlan (operation : Operation) (request : Request) : Check Plan := do
  let type ← normalizeDatabaseBackupType request.type
  validateDatabaseBackupContainer request.containerName
  validateDatabaseBackupPath request.artifactPath
  match type with
  | .postgres =>
      validateDatabaseBackupName request.databaseName "名称"
      validateDatabaseBackupName request.username "用户名"
      pure (buildPostgresBackupPlan operation request)
  | .mariadb =>
      validateDatabaseBackupName request.databaseName "名称"
      validateDatabaseBackupName request.username "用户名"
      pure (buildMariaDBBackupPlan operation request)
  | .redis => buildRedisBackupPlan request operation

end WorkMesh.Backup
