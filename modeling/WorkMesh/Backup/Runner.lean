import Mathlib.Logic.Function.Basic
import WorkMesh.Backup.Execute
import WorkMesh.Encoding.Sha256
import WorkMesh.StateMachine.FileTree

/-!
# The built-in runner

Each command is one process. What it prints goes to bounded buffers or to a new file
in the place of the artifact. The dump of a Redis container is copied to a directory
of its own and moved from there.
-/

namespace WorkMesh.Backup

open Encoding StateMachine

/-! ## The machine -/

/-- What stands at a path and is no directory. -/
inductive Content where
  | regular (data : Bytes)
  | link
  | other
deriving DecidableEq

abbrev Disk := FileTree Bytes Content

/-- Steps on the disk that the system may refuse. -/
inductive Step where
  | mkdir
  | temp
  | mode
  | commit
deriving DecidableEq

/-- One run of a program: why it does not start, what it prints to `stderr` in the pieces in which
it is read, and what a copy leaves at its target. Contexts end while it runs or in the pause behind
it. The numbers are those drawn for names of new files. -/
structure Process where
  failure : Option Bytes := none
  stdout : Bytes := []
  stderr : List Bytes := []
  exitCode : ℤ := 0
  copied : Option Content := none
  cancelled : Bool := false
  expired : Bool := false
  pauseCancelled : Bool := false
  pauseExpired : Bool := false
  numbers : List ℕ := [0]
  refused : List Step := []

/-- The disk, the working directory, and the runs of the programs to come by their commands. -/
structure Machine where
  disk : Disk
  directory : Bytes := [47]
  programs : String → List Process

/-- The elements of the absolute path. -/
def place (directory path : Bytes) : List Bytes :=
  elements (if isRooted path then cleanPath path else joinPath directory path)

/-! ## Checks -/

/-- Programs that run in a container by a script of their own. -/
def databaseBackupContainerScript (program : String) : Bool :=
  basePath (trimSpace (bytes program)) ∈
    ["pg_dump", "pg_restore", "mariadb-dump", "mysqldump", "mariadb", "mysql", "redis-cli"].map
      bytes

def passwordKeys : List String := ["PGPASSWORD", "MYSQL_PWD", "REDISCLI_AUTH"]

def validateDatabaseBackupArgs (command : Command) : Check Unit := do
  if command.container ≠ [] then
    validateDatabaseBackupContainer command.container
    if !databaseBackupContainerScript command.program then
      .error (bytes "不支持的容器备份程序: " ++ bytes command.program)
    match command.environment.find? fun entry => entry.1 ∉ passwordKeys with
    | some entry => .error (bytes "容器备份环境变量不允许: " ++ bytes entry.1)
    | none => pure ()
  if command.args.any fun arg => holdsAny arg [0, 13, 10] then
    refuse "备份命令参数包含控制字符"

def checkCommand (command : Command) : Check Unit :=
  if trimSpace (bytes command.program) = [] then refuse "备份命令程序不能为空"
  else validateDatabaseBackupArgs command

/-- No file and no link stands at a path or above it. -/
def rejectSymlinkComponents (disk : Disk) (path : List Bytes) (atLink atFile : String) :
    Check Unit :=
  match path.inits.findSome? disk.content with
  | none => pure ()
  | some .link => refuse atLink
  | some _ => refuse atFile

section Paths
variable (directory : Bytes) (disk : Disk) (path : Bytes)

def validateDatabaseBackupOutputPath : Check Unit := do
  validateDatabaseBackupPath path
  rejectSymlinkComponents disk (place directory path).dropLast
    "备份路径不能包含符号链接" "备份路径父项必须是目录"
  match disk.node (place directory path) with
  | none | some (.file (.regular _)) => pure ()
  | some (.file .link) => refuse "备份输出不能覆盖符号链接"
  | some _ => refuse "备份输出必须是普通文件"

/-- `openDatabaseBackupInput`, with the content of the file. -/
def openDatabaseBackupInput : Check Bytes := do
  validateDatabaseBackupOutputPath directory disk path
  match disk.node (place directory path) with
  | some (.file (.regular data)) => pure data
  | none => refuse "备份文件不存在"
  | some (.file .link) => refuse "备份输入不能是符号链接"
  | some _ => refuse "备份输入必须是普通文件"

end Paths

/-! ## Input -/

def databaseBackupPassword (environment : List (String × Bytes)) : Bytes :=
  (passwordKeys.findSome? fun key => environment.lookup key).getD []

def databaseBackupCredentialPrefix (password : Bytes) : Check Bytes :=
  if 0 ∈ password then refuse "数据库备份密码包含不支持的空字节"
  else pure (formatUint password.length ++ 10 :: password ++ [10])

/-- What the process reads. -/
def commandInput (directory : Bytes) (disk : Disk) (command : Command) : Check Bytes := do
  if command.container ≠ [] then
    let head ← databaseBackupCredentialPrefix (databaseBackupPassword command.environment)
    if command.stdinPath ≠ [] then
      let file ← openDatabaseBackupInput directory disk command.stdinPath
      pure (head ++ file)
    else pure head
  else if command.stdinPath ≠ [] then openDatabaseBackupInput directory disk command.stdinPath
  else pure []

/-! ## Output -/

/-- The first path with one of the numbers in its name at which nothing stands. -/
def freshPath (disk : Disk) (parent : List Bytes) (front back : Bytes) (numbers : List ℕ) :
    Option (List Bytes) :=
  (numbers.map fun n => parent ++ [front ++ formatUint n ++ back]).find? fun path =>
    (disk.node path).isNone

def unlink (disk : Disk) (path : List Bytes) : Disk := (disk.remove path).getD disk

/-- The new file for the output at a path. -/
def createDatabaseBackupOutput (directory : Bytes) (p : Process) (path : Bytes) (disk : Disk) :
    Check (List Bytes) × Disk :=
  let parent := (place directory path).dropLast
  match validateDatabaseBackupOutputPath directory disk path with
  | .error e => (.error e, disk)
  | .ok () =>
      match if .mkdir ∈ p.refused then none else disk.mkdirAll parent with
      | none => (refuse "创建备份目录失败", disk)
      | some disk =>
          match validateDatabaseBackupOutputPath directory disk path with
          | .error e => (.error e, disk)
          | .ok () =>
              let temp := freshPath disk parent (bytes ".workmesh-backup-") (bytes ".tmp") p.numbers
              match temp, temp.bind fun temp => if .temp ∈ p.refused then none
                  else disk.put temp (.regular []) with
              | some temp, some disk =>
                  if .mode ∈ p.refused then (refuse "设置备份文件权限失败", unlink disk temp)
                  else (.ok temp, disk)
              | _, _ => (refuse "创建备份临时文件失败", disk)

def outputLimit : ℕ := 2 ^ 20

/-- `limitedBackupBuffer.Write`: what the buffer holds afterwards, and how many bytes it says it
has taken. -/
def limitedWrite (data piece : Bytes) : Bytes × ℕ :=
  if outputLimit ≤ data.length then (data, piece.length)
  else
    let piece := piece.take (outputLimit - data.length)
    (data ++ piece, piece.length)

/-- The pieces are copied until a write takes less than its piece. -/
def copyStderr (data : Bytes) : List Bytes → Bytes × Bool
  | [] => (data, false)
  | piece :: pieces =>
      let (data, taken) := limitedWrite data piece
      if taken < piece.length then (data, true) else copyStderr data pieces

/-! ## Processes -/

abbrev Outcome := Result × Option Bytes

def failed (text : Bytes) : Outcome := ({}, some text)

/-- The context of the command ends while the process runs. -/
def Process.killed (p : Process) : Bool := p.cancelled || p.expired

/-- The run of the process under a context that is live at its start or not. -/
def runProcess (live : Bool) (p : Process) : Outcome :=
  let (stderr, short) := copyStderr [] p.stderr
  if !live then ({ exitCode := -1 }, some (bytes "context canceled"))
  else match p.failure with
    | some text => ({ exitCode := -1 }, some text)
    | none =>
        if p.expired then failed (bytes "context deadline exceeded")
        else if p.cancelled then
          ({ exitCode := -1, stdout := p.stdout, stderr }, some (bytes "signal: killed"))
        else if p.exitCode ≠ 0 then
          ({ exitCode := p.exitCode, stdout := p.stdout, stderr },
            some (bytes "exit status " ++ formatInt p.exitCode))
        else if short then
          ({ exitCode := -1, stdout := p.stdout, stderr }, some (bytes "short write"))
        else ({ stdout := p.stdout, stderr }, none)

/-- What a copy out of a container leaves at its target. -/
def leaveCopy (live : Bool) (p : Process) (target : Option (List Bytes)) (disk : Disk) : Disk :=
  if !live || p.failure.isSome then disk
  else match target, p.copied with
    | some path, some content => (disk.put path content).getD disk
    | _, _ => disk

def validBackupEnvironmentKey (key : String) : Bool :=
  key ≠ "" && !holdsAny (bytes key) [61, 0, 13, 10]

/-- The variables of a process outside of a container have names. -/
def startProcess (live : Bool) (p : Process) (command : Command) : Outcome :=
  if command.container ≠ [] then runProcess live p
  else match command.environment.find? fun entry => !validBackupEnvironmentKey entry.1 with
    | some entry => failed (bytes "备份环境变量名无效: \"" ++ bytes entry.1 ++ bytes "\"")
    | none => runProcess live p

/-- The rest of `runDatabaseBackupCommand`, for a command that passed its checks. The target is
where a copy out of a container goes. -/
def startCommand (directory : Bytes) (live : Bool) (p : Process) (command : Command)
    (target : Option (List Bytes)) (disk : Disk) : Outcome × Disk :=
  match commandInput directory disk command with
  | .error e => (failed e, disk)
  | .ok _ =>
      let (output, disk) :=
        if command.stdoutPath = [] then (.ok none, disk)
        else
          let (temp, disk) := createDatabaseBackupOutput directory p command.stdoutPath disk
          (temp.map some, disk)
      match output with
      | .error e => (failed e, disk)
      | .ok temp =>
          -- the file and its name are new variables of the block that creates them: the process
          -- does not write to the file, which is only removed
          let disk := leaveCopy live p target disk
          (startProcess live p command, temp.elim disk (unlink disk))

/-! ## Copies -/

def isRedisBackupCopyCommand (command : Command) : Bool :=
  basePath (trimSpace (bytes command.program)) = bytes "docker" &&
    (command.args.length = 3 && command.args.head? = some (bytes "cp")) &&
    (command.name ∈ ["redis-copy-backup", "redis-backup-existing-rdb", "redis-restore-copy",
        "redis-rollback-copy"] ||
      (command.streamMode = .stdoutToArtifact && command.stdoutPath ≠ []))

def parseRedisContainerPath (value : Bytes) : Option (Bytes × Bytes) :=
  match indexOf [58] value with
  | none | some 0 => none
  | some index =>
      if index + 1 = value.length ∨ !isContainerName (value.take index) then none
      else some (value.take index, value.drop (index + 1))

/-- The copy from the directory it was made in to the artifact. -/
def commitCopy (p : Process) (stage target : List Bytes) (outcome : Outcome) (disk : Disk) :
    Outcome × Disk :=
  match outcome.2 with
  | some _ => (outcome, disk)
  | none =>
      let fails (text : String) : Outcome × Disk := ((outcome.1, some (bytes text)), disk)
      match disk.node stage with
      | none => fails "Redis 备份未生成 RDB 文件"
      | some (.file (.regular _)) =>
          if .mode ∈ p.refused then fails "设置 Redis 备份文件权限失败"
          else match disk.node target with
            | some (.file .link) => fails "Redis 备份不能覆盖符号链接"
            | some (.file .other) | some .dir => fails "Redis 备份目标不是普通文件"
            | none | some (.file (.regular _)) =>
                match if .commit ∈ p.refused then none else disk.move stage target with
                | none => fails "提交 Redis 备份文件失败"
                | some disk => (outcome, disk)
      | some _ => fails "Redis 备份输出不是普通文件"

def runRedisBackupCopyToHost (directory : Bytes) (live : Bool) (p : Process) (command : Command)
    (artifact : Bytes) (disk : Disk) : Outcome × Disk :=
  let target := place directory artifact
  match validateDatabaseBackupOutputPath directory disk artifact with
  | .error e => (failed e, disk)
  | .ok () =>
      match if .mkdir ∈ p.refused then none else disk.mkdirAll target.dropLast with
      | none => (failed (bytes "创建 Redis 备份目录失败"), disk)
      | some disk =>
          match validateDatabaseBackupOutputPath directory disk artifact with
          | .error e => (failed e, disk)
          | .ok () =>
              let stage := freshPath disk target.dropLast (bytes ".workmesh-redis-copy-") [] p.numbers
              match stage, stage.bind fun stage => if .temp ∈ p.refused then none
                  else disk.mkdirAll stage with
              | some stage, some disk =>
                  let path := stage ++ [bytes "dump.rdb"]
                  let staged :=
                    { command with name := command.name ++ "-staged", streamMode := .none
                                   stdoutPath := [] }
                  let (outcome, disk) := startCommand directory live p staged (some path) disk
                  let (outcome, disk) := commitCopy p path target outcome disk
                  (outcome, disk.removeAll stage)
              | _, _ => (failed (bytes "创建 Redis 备份临时目录失败"), disk)

/-- Where a copy out of a container goes. -/
def copyArtifact (command : Command) (destination : Bytes) : Bytes :=
  let artifact := trimSpace command.stdoutPath
  if artifact = [] then destination else artifact

/-- The direction of a copy is told by the side that names a container. -/
def runRedisBackupCopyCommand (directory : Bytes) (live : Bool) (p : Process) (command : Command)
    (source destination : Bytes) (disk : Disk) : Outcome × Disk :=
  let fails (text : String) : Outcome × Disk := (failed (bytes text), disk)
  match parseRedisContainerPath source, parseRedisContainerPath destination with
  | some (container, path), none =>
      if path ≠ redisDumpPath then fails "Redis 备份源路径无效"
      else match validateDatabaseBackupContainer container with
        | .error e => (failed e, disk)
        | .ok () =>
            let artifact := copyArtifact command destination
            if artifact ≠ destination then fails "Redis 备份目标路径无效"
            else runRedisBackupCopyToHost directory live p command artifact disk
  | none, some (container, path) =>
      if path ≠ redisDumpPath then fails "Redis 恢复目标路径无效"
      else match validateDatabaseBackupContainer container with
        | .error e => (failed e, disk)
        | .ok () =>
            if command.stdinPath ≠ [] ∧ cleanPath command.stdinPath ≠ cleanPath source then
              fails "Redis 恢复输入路径不一致"
            else
              let input := if command.stdinPath = [] then source else command.stdinPath
              match openDatabaseBackupInput directory disk input with
              | .error e => (failed e, disk)
              | .ok _ =>
                  let raw :=
                    { command with name := command.name ++ "-validated", streamMode := .none
                                   stdinPath := [] }
                  startCommand directory live p raw none disk
  | _, _ => fails "Redis 备份复制方向无效"

def runDatabaseBackupCommand (directory : Bytes) (live : Bool) (p : Process) (command : Command)
    (disk : Disk) : Outcome × Disk :=
  match checkCommand command with
  | .error e => (failed e, disk)
  | .ok () =>
      if isRedisBackupCopyCommand command then
        match command.args with
        | [_, source, destination] =>
            runRedisBackupCopyCommand directory live p command source destination disk
        | _ => startCommand directory live p command none disk
      else startCommand directory live p command none disk

/-- `DockerDatabaseBackupExecutor` without a runner of its own. -/
def builtin : Executor Machine := fun command live m =>
  let processes := m.programs command.name
  let p := processes.headD {}
  let ((result, error), disk) := runDatabaseBackupCommand m.directory live p command m.disk
  ({ result, error, cancelled := p.cancelled, expired := p.expired
     pauseCancelled := p.pauseCancelled, pauseExpired := p.pauseExpired },
    { m with disk, programs := Function.update m.programs command.name processes.tail })

/-! ## Records -/

inductive Status where
  | running
  | failed
  | completed
deriving DecidableEq

/-- A row of `database_backups`. -/
structure Record where
  id : Bytes
  databaseId : ℕ
  databaseName : Bytes
  databaseType : Bytes
  containerName : Bytes
  artifactPath : Bytes
  artifactSize : ℕ := 0
  sha256 : Bytes := []
  operation : Operation
  status : Status := .running
  error : Bytes := []

def validateDatabaseBackupArtifactPath (directory : Bytes) (disk : Disk) (root candidate : Bytes) :
    Check Unit := do
  let path := place directory candidate
  if ¬ place directory root <+: path then refuse "数据库备份路径越界"
  rejectSymlinkComponents disk path.dropLast
    "数据库备份目录不能包含符号链接" "数据库备份目录路径包含非目录项"
  match disk.node path with
  | none | some (.file (.regular _)) => pure ()
  | some (.file .link) => refuse "数据库备份路径不能是符号链接"
  | some _ => refuse "数据库备份路径必须是普通文件"
  if (disk.node (place directory root)).isNone then refuse "解析数据库备份根目录失败"
  if (disk.node path.dropLast).isNone then refuse "解析数据库备份文件目录失败"

def databaseBackupOperationError : Operation → Bytes
  | .backup => bytes "数据库备份执行失败"
  | .restore => bytes "数据库恢复执行失败"

/-- `handleDatabaseBackupOperation` from the request for the service on: the rows that are saved
for it. Each of the two saves may fail. A regular file can be read for its hash. -/
def handleDatabaseBackupOperation (root : Bytes) (record : Record) (saves : Bool × Bool)
    (request : Request) (session : Session Machine) : List Record × Session Machine :=
  let record := { record with status := .running }
  if !saves.1 then ([], session)
  else
    let ((_, refusal), session) := perform builtin record.operation request session
    let m := session.state
    let final : Record :=
      match refusal with
      | some _ =>
          { record with status := .failed, error := databaseBackupOperationError record.operation }
      | none =>
          match validateDatabaseBackupArtifactPath m.directory m.disk root request.artifactPath with
          | .error _ => { record with status := .failed, error := bytes "数据库备份文件校验失败" }
          | .ok () =>
              match m.disk.node (place m.directory request.artifactPath) with
              | some (.file (.regular data)) =>
                  { record with status := .completed, artifactSize := data.length
                                sha256 := hexEncode (sha256 data) }
              | _ => { record with status := .completed }
    (record :: if saves.2 then [final] else [], session)

end WorkMesh.Backup
