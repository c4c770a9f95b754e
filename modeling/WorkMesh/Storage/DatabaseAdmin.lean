import WorkMesh.Sqlite.Rows

/-!
# The tables of the control plane and the database administration

Two initialisers create the tables at every start: `ensureControlTables` all of
them, and `initializeDatabase` those of the database administration. Each
statement is executed by itself, on whatever the file holds.
-/

namespace WorkMesh.Storage

open Encoding Sqlite

/-! ## Columns -/

instance : Coe String Column := ⟨fun name => { name }⟩

/-- `DEFAULT ''`. -/
def emptyText (name : String) : Column := { name, default := .text [] }

/-- `DEFAULT 0`. -/
def zero (name : String) : Column := { name, default := .integer 0 }

/-- A table of one row, as the stores of whole documents have it. -/
def createState (name : String) : Statement :=
  .createTable name ["id", "payload", "updated_at"] [["id"]] none

def createUsers : Statement :=
  .createTable "database_users"
    ["id", zero "database_id", "database_name", emptyText "type", "username",
      { name := "host", default := .text (bytes "%") }, emptyText "description",
      zero "password_set", "created_at"]
    [["id"]] (some "id")

def createUsersIdentity : Statement :=
  .createIndex "idx_database_users_identity" "database_users"
    ["database_name", "username", "host"] true

def createUsersDatabase : Statement :=
  .createIndex "idx_database_users_database" "database_users" ["database_name", "id"] false

def createGrants : Statement :=
  .createTable "database_grants"
    ["id", emptyText "server_name", "database_name", "username",
      { name := "host", default := .text (bytes "%") },
      { name := "privileges", default := .text (bytes "[]") }]
    [["id"]] (some "id")

/-- The identity of a grant before grants had servers. -/
def createGrantsIdentity : Statement :=
  .createIndex "idx_database_grants_identity" "database_grants"
    ["database_name", "username", "host"] true

def createVariables : Statement :=
  .createTable "database_variables" ["database_name", "name", "value", "updated_at"]
    [["database_name", "name"]] none

def createConfigs : Statement :=
  .createTable "database_configs" ["database_name", "content", "updated_at"]
    [["database_name"]] none

/-- The first statements of `ensureControlTables`. -/
def controlTables : List Statement := [
  createState "app_store_state",
  createState "app_catalog_cache",
  createState "container_store_state",
  .createTable "app_installs"
    ["id", "app_key", "name", emptyText "version", "status", emptyText "install_path",
      emptyText "compose_path", emptyText "compose_project", emptyText "container_names",
      { name := "config_json", default := .text (bytes "{}") }, emptyText "message",
      "created_at", "updated_at"]
    [["id"]] none,
  .createIndex "idx_app_installs_status" "app_installs" ["status", "updated_at"] false,
  .createTable "app_install_tasks"
    ["id", "app_install_id", "status", emptyText "step", zero "progress", emptyText "message",
      emptyText "error", emptyText "log_path", "created_at", "updated_at"]
    [["id"]] none,
  .createIndex "idx_app_install_tasks_install" "app_install_tasks"
    ["app_install_id", "updated_at"] false,
  .createTable "container_compose_projects"
    ["id", "name", "path", emptyText "app_install_id", emptyText "project_name", zero "pinned",
      "created_at", "updated_at"]
    [["id"], ["path"]] none,
  .createTable "image_repositories"
    ["id", "name", emptyText "download_url", emptyText "protocol", emptyText "username",
      emptyText "password", zero "auth", "created_at", "updated_at"]
    [["id"]] none,
  .createTable "compose_templates"
    ["id", "name", emptyText "description", "content", "created_at", "updated_at"]
    [["id"]] none,
  createState "docker_settings",
  .createTable "node_hosts"
    ["id", "name", "address", "port", emptyText "user_name", zero "group_id", "payload",
      "created_at", "updated_at"]
    [["id"]] none,
  .createIndex "idx_node_hosts_group_name" "node_hosts" ["group_id", "name", "id"] false,
  .createTable "node_ssh_certs"
    ["id", "name", "encryption_mode", emptyText "pass_phrase", "public_key_path",
      "private_key_path", emptyText "description", "created_at", "updated_at"]
    [["id"], ["name"]] (some "id"),
  .createIndex "idx_node_ssh_certs_name" "node_ssh_certs" ["name"] false,
  .createTable "node_quick_commands"
    ["id", "name", { name := "type", default := .text (bytes "command") }, "command",
      zero "group_id", emptyText "group_belong", emptyText "description", "payload",
      "created_at", "updated_at"]
    [["id"]] none,
  .createIndex "idx_node_quick_commands_type_name" "node_quick_commands"
    ["type", "name", "id"] false,
  .createTable "node_settings" ["setting_key", "payload", "updated_at"] [["setting_key"]] none,
  .createTable "databases"
    ["id", "name", "type", emptyText "version",
      { name := "source", default := .text (bytes "local") }, zero "app_install_id",
      emptyText "container_name", emptyText "address", zero "port", emptyText "initial_db",
      emptyText "username", emptyText "password", zero "ssl", emptyText "description",
      "created_at", "updated_at"]
    [["id"]] (some "id"),
  .createIndex "idx_databases_type_name" "databases" ["type", "name"] true,
  .createIndex "idx_databases_app_install" "databases" ["app_install_id"] false,
  .createTable "database_operations"
    ["id", "type", emptyText "target", "status", emptyText "message", "created_at"]
    [["id"]] none,
  .createIndex "idx_database_operations_created" "database_operations" ["created_at"] false,
  .createTable "resource_groups"
    ["id", "name", "type", zero "is_default", zero "is_delete", "created_at", "updated_at"]
    [["id"], ["type", "name"]] (some "id"),
  .createIndex "idx_resource_groups_type_default" "resource_groups"
    ["type", "is_default", "id"] false,
  .createTable "cronjobs"
    ["id", "payload", { name := "records", default := .text (bytes "[]") }, "updated_at"]
    [["id"]] none,
  createUsers,
  createUsersIdentity,
  createUsersDatabase,
  createGrants,
  createGrantsIdentity,
  .createIndex "idx_database_grants_database" "database_grants" ["database_name", "id"] false,
  createVariables,
  createConfigs,
  .createTable "database_runtime_configs"
    ["database_name", "config_key", "content", "updated_at"]
    [["database_name", "config_key"]] none,
  .createTable "script_library"
    ["id", "name", "script", emptyText "description", emptyText "version", zero "approved",
      "created_at", "updated_at"]
    [["id"]] none,
  createState "ai_state",
  createState "file_aux_state",
  createState "file_shares_state",
  createState "functional_domain_state",
  createState "docker_port_guard_state"]

/-- The first statements of `initializeDatabase`. -/
def adminTables : List Statement :=
  [createUsers, createUsersIdentity, createUsersDatabase, createGrants, createVariables,
    createConfigs]

/-- The last statements of both initialisers, which give grants their servers. -/
def grantIndexes : List Statement := [
  .dropIndex "idx_database_grants_identity",
  .createIndex "idx_database_grants_server_identity" "database_grants"
    ["server_name", "database_name", "username", "host"] true,
  .createIndex "idx_database_grants_server_database" "database_grants"
    ["server_name", "database_name", "id"] false]

/-! ## The initialisers -/

inductive StartError where
  | statement (context : String) (e : SqlError)
  | archive (context message : String)
deriving DecidableEq

def ensureDatabaseContainerNameColumn (db : Sqlite.Database) : Except StartError Sqlite.Database :=
  if hasColumn db "databases" "container_name" then .ok db
  else
    match exec db (.addColumn "databases" (emptyText "container_name")) with
    | .error e => .error (.statement "升级数据库资源表失败: 增加 container_name 字段" e)
    | .ok db => .ok db

/-- The column of the server, which a table may have already. -/
def addServerName (db : Sqlite.Database) : Except StartError Sqlite.Database :=
  match exec db (.addColumn "database_grants" (emptyText "server_name")) with
  | .ok db => .ok db
  | .error (.duplicateColumn _) => .ok db
  | .error e => .error (.statement "升级数据库授权表失败" e)

/-- Statements whose failure ends a start. -/
def execStatements (context : String) (sts : List Statement) (db : Sqlite.Database) :
    Sqlite.Database × Except StartError Unit :=
  match execAll db sts with
  | (db, .error e) => (db, .error (.statement context e))
  | (db, .ok ()) => (db, .ok ())

def ensureControlTables (db : Sqlite.Database) : Sqlite.Database × Except StartError Unit :=
  match execStatements "初始化公共控制面表失败" controlTables db with
  | (db, .error e) => (db, .error e)
  | (db, .ok ()) =>
  match ensureDatabaseContainerNameColumn db with
  | .error e => (db, .error e)
  | .ok db =>
  match addServerName db with
  | .error e => (db, .error e)
  | .ok db => execStatements "初始化数据库授权索引失败" grantIndexes db

/-- A user of a database. Times are the texts they are stored as. -/
structure DatabaseUser where
  id : ℤ := 0
  databaseID : ℤ := 0
  database : Bytes
  type : Bytes := []
  username : Bytes
  host : Bytes := []
  description : Bytes := []
  passwordSet : Bool := false
  createdAt : Bytes := []

/-- A grant, its privileges perhaps nil. -/
structure DatabaseGrant where
  id : ℤ := 0
  server : Bytes := []
  database : Bytes
  username : Bytes
  host : Bytes := []
  privileges : Option (List Bytes) := none

structure DatabaseVariable where
  database : Bytes
  name : Bytes
  value : Bytes
  updatedAt : Bytes := []

/-- The content of `database-admin.json`. The entries of its maps come in any order. -/
structure Legacy where
  users : List DatabaseUser := []
  grants : List DatabaseGrant := []
  databaseVariables : List DatabaseVariable := []
  configs : List (Bytes × Bytes) := []

/-- What a call of the store finds: the time, the old file if there is one that can be
read, and the error of moving it away. -/
structure Context where
  now : Bytes
  legacy : Option Legacy := none
  archive : Option String := none

/-- The text of the time that is not set. -/
def zeroTime : Bytes := bytes "0001-01-01T00:00:00Z"

def defaultAdminHost (host : Bytes) : Bytes :=
  if trimSpace host = [] then bytes "%" else trimSpace host

def databaseBoolInt (value : Bool) : Value := .integer (if value then 1 else 0)

/-- A character of a string of JSON, as the standard library escapes it. Texts are valid UTF-8. -/
def escapeByte (c : UInt8) : Bytes :=
  if c = 0x22 then bytes "\\\""
  else if c = 0x5c then bytes "\\\\"
  else if c = 0x08 then bytes "\\b"
  else if c = 0x0c then bytes "\\f"
  else if c = 0x0a then bytes "\\n"
  else if c = 0x0d then bytes "\\r"
  else if c = 0x09 then bytes "\\t"
  else if c < 0x20 ∨ c = 0x3c ∨ c = 0x3e ∨ c = 0x26 then bytes "\\u00" ++ hexEncode [c]
  else [c]

/-- The body of a string of JSON. The line separators U+2028 and U+2029 are escaped as well. -/
def escapeText : Bytes → Bytes
  | c :: d :: e :: rest =>
      if c = 0xe2 ∧ d = 0x80 ∧ e = 0xa8 then bytes "\\u2028" ++ escapeText rest
      else if c = 0xe2 ∧ d = 0x80 ∧ e = 0xa9 then bytes "\\u2029" ++ escapeText rest
      else escapeByte c ++ escapeText (d :: e :: rest)
  | rest => rest.flatMap escapeByte

/-- `json.Marshal` of privileges. -/
def marshalPrivileges : Option (List Bytes) → Bytes
  | none => bytes "null"
  | some privileges =>
      bytes "[" ++ (bytes ",").intercalate
        (privileges.map fun text => bytes "\"" ++ escapeText text ++ bytes "\"") ++ bytes "]"

/-- An insertion of an import: the message of its failure, the table and the values. -/
structure Insertion where
  context : String
  table : String
  values : List (String × Value)

def importUser (now : Bytes) (user : DatabaseUser) : Insertion where
  context := "导入数据库用户失败"
  table := "database_users"
  values := [("id", .integer user.id), ("database_id", .integer user.databaseID),
    ("database_name", .text user.database), ("type", .text user.type),
    ("username", .text user.username), ("host", .text (defaultAdminHost user.host)),
    ("description", .text user.description), ("password_set", databaseBoolInt user.passwordSet),
    ("created_at", .text (if user.createdAt = zeroTime then now else user.createdAt))]

def importGrant (grant : DatabaseGrant) : Insertion where
  context := "导入数据库授权失败"
  table := "database_grants"
  values := [("id", .integer grant.id), ("server_name", .text grant.server),
    ("database_name", .text grant.database), ("username", .text grant.username),
    ("host", .text (defaultAdminHost grant.host)),
    ("privileges", .blob (marshalPrivileges grant.privileges))]

def importVariable (now : Bytes) (item : DatabaseVariable) : Insertion where
  context := "导入数据库变量失败"
  table := "database_variables"
  values := [("database_name", .text item.database), ("name", .text item.name),
    ("value", .text item.value),
    ("updated_at", .text (if item.updatedAt = zeroTime then now else item.updatedAt))]

def importConfig (now : Bytes) (config : Bytes × Bytes) : Insertion where
  context := "导入数据库配置失败"
  table := "database_configs"
  values := [("database_name", .text config.1), ("content", .text config.2),
    ("updated_at", .text now)]

def Legacy.insertions (legacy : Legacy) (now : Bytes) : List Insertion :=
  legacy.users.map (importUser now) ++ legacy.grants.map importGrant ++
    legacy.databaseVariables.map (importVariable now) ++ legacy.configs.map (importConfig now)

/-- The insertions of an import, in one transaction. -/
def insertRows : List Insertion → Sqlite.Database → Except StartError Sqlite.Database
  | [], db => .ok db
  | row :: rest, db =>
      match insertOrIgnore db row.table row.values with
      | .error e => .error (.statement row.context e)
      | .ok db => insertRows rest db

/-- The old file is read only while there are no users. -/
def importLegacy (c : Context) (db : Sqlite.Database) : Sqlite.Database × Except StartError Unit :=
  match db.table "database_users" [] with
  | .error e => (db, .error (.statement "" e))
  | .ok t =>
  if t.rows ≠ [] then (db, .ok ())
  else
  match c.legacy with
  | none => (db, .ok ())
  | some legacy =>
  match insertRows (legacy.insertions c.now) db with
  | .error e => (db, .error e)
  | .ok db =>
  match c.archive with
  | some message => (db, .error (.archive "归档数据库管理旧文件失败" message))
  | none => (db, .ok ())

/-- `initializeDatabase` of a store that has not initialised the connection yet. -/
def initializeDatabase (c : Context) (db : Sqlite.Database) : Sqlite.Database × Except StartError Unit :=
  match execStatements "初始化数据库管理表失败" adminTables db with
  | (db, .error e) => (db, .error e)
  | (db, .ok ()) =>
  match addServerName db with
  | .error e => (db, .error e)
  | .ok db =>
  match execStatements "初始化数据库授权索引失败" grantIndexes db with
  | (db, .error e) => (db, .error e)
  | (db, .ok ()) => importLegacy c db

/-! ## The store -/

def asInteger : Value → ℤ
  | .integer n => n
  | _ => 0

def asText : Value → Bytes
  | .text content => content
  | _ => []

inductive AdminError where
  | message (text : String)
  | start (e : StartError)
  | statement (context : String) (e : SqlError)

/-- The connection, and whether the store has initialised it. -/
structure DatabaseAdminStore where
  db : Sqlite.Database
  initialized : Bool

namespace DatabaseAdminStore

variable (s : DatabaseAdminStore)

def executor (c : Context) : DatabaseAdminStore × Except AdminError Unit :=
  if s.initialized then (s, .ok ())
  else
    match initializeDatabase c s.db with
    | (db, .error e) => (⟨db, false⟩, .error (.start e))
    | (db, .ok ()) => (⟨db, true⟩, .ok ())

/-- A call that reads or writes once the store is initialised. -/
def call {α : Type} (c : Context) (f : Sqlite.Database → Except AdminError (Sqlite.Database × α)) :
    DatabaseAdminStore × Except AdminError α :=
  match s.executor c with
  | (s, .error e) => (s, .error e)
  | (s, .ok ()) =>
  match f s.db with
  | .error e => (s, .error e)
  | .ok (db, result) => ({ s with db }, .ok result)

/-- `lower`, which changes the letters of ASCII. -/
def lower : Value → Value
  | .text content => .text (content.map fun c => if 65 ≤ c ∧ c ≤ 90 then c + 32 else c)
  | value => value

def idIs (id : ℤ) : Condition := ⟨["id"], fun row => row "id" = .integer id⟩

def identityIs (database username host : Bytes) : Condition where
  columns := ["database_name", "username", "host"]
  holds row := lower (row "database_name") = lower (.text database) ∧
    lower (row "username") = lower (.text username) ∧ row "host" = .text host

/-- A row of `database_users`. -/
def readUser (row : Row) : DatabaseUser where
  id := asInteger (row "id")
  databaseID := asInteger (row "database_id")
  database := asText (row "database_name")
  type := asText (row "type")
  username := asText (row "username")
  host := asText (row "host")
  description := asText (row "description")
  passwordSet := asInteger (row "password_set") ≠ 0
  createdAt := asText (row "created_at")

def createUser (c : Context) (user : DatabaseUser) :
    DatabaseAdminStore × Except AdminError DatabaseUser :=
  if trimSpace user.database = [] ∨ trimSpace user.username = [] then
    (s, .error (.message "数据库和用户名不能为空"))
  else
  let user := { user with host := defaultAdminHost user.host, createdAt := c.now }
  s.call c fun db =>
    match insert db "database_users"
        [("database_id", .integer user.databaseID), ("database_name", .text user.database),
          ("type", .text user.type), ("username", .text user.username),
          ("host", .text user.host), ("description", .text user.description),
          ("password_set", databaseBoolInt user.passwordSet), ("created_at", .text user.createdAt)] with
    | .error e => .error (.statement "创建数据库用户失败" e)
    | .ok (db, row) => .ok (db, { user with id := asInteger (row "id") })

def updateUser (c : Context) (user : DatabaseUser) :
    DatabaseAdminStore × Except AdminError DatabaseUser :=
  if trimSpace user.username = [] ∨ trimSpace user.database = [] then
    (s, .error (.message "数据库和用户名不能为空"))
  else
  s.call c fun db =>
    match select db "database_users" (idIs user.id) with
    | .error _ | .ok [] => .error (.message "数据库用户不存在")
    | .ok (row :: _) =>
    let user := { user with host := defaultAdminHost user.host }
    match update db "database_users"
        [("database_id", .integer user.databaseID), ("database_name", .text user.database),
          ("type", .text user.type), ("username", .text user.username),
          ("host", .text user.host), ("description", .text user.description)]
        (idIs user.id) with
    | .error e => .error (.statement "更新数据库用户失败" e)
    | .ok (db, _) =>
        .ok (db, { user with
          createdAt := (readUser row).createdAt
          passwordSet := (readUser row).passwordSet })

/-- A write that must change a row. -/
def affecting (missing : String) : Except SqlError (Sqlite.Database × ℕ) →
    Except AdminError (Sqlite.Database × Unit)
  | .error e => .error (.statement "" e)
  | .ok (_, 0) => .error (.message missing)
  | .ok (db, _) => .ok (db, ())

def deleteUser (c : Context) (id : ℤ) : DatabaseAdminStore × Except AdminError Unit :=
  s.call c fun db => affecting "数据库用户不存在" (delete db "database_users" (idIs id))

def deleteUserByIdentity (c : Context) (database username host : Bytes) :
    DatabaseAdminStore × Except AdminError Unit :=
  s.call c fun db => affecting "数据库用户不存在" (delete db "database_users"
    (identityIs (trimSpace database) (trimSpace username) (defaultAdminHost host)))

def setPassword (c : Context) (id : ℤ) : DatabaseAdminStore × Except AdminError Unit :=
  s.call c fun db => affecting "数据库用户不存在"
    (update db "database_users" [("password_set", .integer 1)] (idIs id))

def setPasswordByIdentity (c : Context) (database username host : Bytes) :
    DatabaseAdminStore × Except AdminError Unit :=
  s.call c fun db => affecting "数据库用户不存在"
    (update db "database_users" [("password_set", .integer 1)]
      (identityIs (trimSpace database) (trimSpace username) (defaultAdminHost host)))

def updateUserByIdentity (c : Context) (user : DatabaseUser) (newHost : Bytes) :
    DatabaseAdminStore × Except AdminError DatabaseUser :=
  s.call c fun db =>
    match select db "database_users"
        (identityIs user.database user.username (defaultAdminHost user.host)) with
    | .error _ | .ok [] => .error (.message "数据库用户不存在")
    | .ok (row :: _) =>
    let item := readUser row
    match update db "database_users"
        [("host", .text (defaultAdminHost newHost)), ("description", .text user.description)]
        (idIs item.id) with
    | .error e => .error (.statement "更新数据库用户失败" e)
    | .ok (db, _) =>
        .ok (db, { item with host := defaultAdminHost newHost, description := user.description })

/-- The number of the grant with the same identity, or the number that the request brings. -/
def grantID (grant : DatabaseGrant) (db : Sqlite.Database) : ℤ :=
  let identity : Condition :=
    { columns := ["id", "server_name", "database_name", "username", "host"]
      holds := fun row => row "server_name" = .text grant.server ∧
        row "database_name" = .text grant.database ∧ row "username" = .text grant.username ∧
        row "host" = .text grant.host }
  match select db "database_grants" identity with
  | .ok (row :: _) => asInteger (row "id")
  | _ => grant.id

/-- The end of `UpsertGrant`: a grant with a number is changed, any other is inserted. -/
def storeGrant (grant : DatabaseGrant) (db : Sqlite.Database) :
    Except AdminError (Sqlite.Database × DatabaseGrant) :=
  let privileges : Value := .blob (marshalPrivileges grant.privileges)
  if grant.id > 0 then
    match update db "database_grants" [("privileges", privileges)] (idIs grant.id) with
    | .error e => .error (.statement "保存数据库授权失败" e)
    | .ok (db, _) => .ok (db, grant)
  else
    match insert db "database_grants"
        [("server_name", .text grant.server), ("database_name", .text grant.database),
          ("username", .text grant.username), ("host", .text grant.host),
          ("privileges", privileges)] with
    | .error e => .error (.statement "保存数据库授权失败" e)
    | .ok (db, row) => .ok (db, { grant with id := asInteger (row "id") })

def upsertGrant (c : Context) (grant : DatabaseGrant) :
    DatabaseAdminStore × Except AdminError DatabaseGrant :=
  if trimSpace grant.database = [] ∨ trimSpace grant.username = [] then
    (s, .error (.message "数据库和用户名不能为空"))
  else
  let server := trimSpace grant.server
  let grant := { grant with
    host := defaultAdminHost grant.host
    server := if server = [] then grant.database else server
    privileges := some (grant.privileges.getD []) }
  s.call c fun db => storeGrant { grant with id := grantID grant db } db

def deleteGrant (c : Context) (id : ℤ) : DatabaseAdminStore × Except AdminError Unit :=
  s.call c fun db => affecting "授权记录不存在" (delete db "database_grants" (idIs id))

def deleteGrantByIdentity (c : Context) (server database username host : Bytes) :
    DatabaseAdminStore × Except AdminError Unit :=
  let identity := identityIs (trimSpace database) (trimSpace username) (defaultAdminHost host)
  s.call c fun db => affecting "授权记录不存在" (delete db "database_grants"
    { columns := "server_name" :: identity.columns
      holds := fun row =>
        lower (row "server_name") = lower (.text (trimSpace server)) ∧ identity.holds row })

def setVariable (c : Context) (item : DatabaseVariable) :
    DatabaseAdminStore × Except AdminError DatabaseVariable :=
  if trimSpace item.name = [] ∨ item.name.length > 128 then
    (s, .error (.message "变量名称无效"))
  else if item.value.length > 4096 then (s, .error (.message "变量值过长"))
  else
  let item := { item with
    database := trimSpace item.database, name := trimSpace item.name, updatedAt := c.now }
  s.call c fun db =>
    match upsert db "database_variables"
        [("database_name", .text item.database), ("name", .text item.name),
          ("value", .text item.value), ("updated_at", .text item.updatedAt)]
        ["database_name", "name"] ["value", "updated_at"] with
    | .error e => .error (.statement "保存数据库变量失败" e)
    | .ok db => .ok (db, item)

def setConfig (c : Context) (database content : Bytes) :
    DatabaseAdminStore × Except AdminError Unit :=
  if content.length > 2 ^ 20 then (s, .error (.message "配置文件超过 1 MiB"))
  else
  s.call c fun db =>
    match upsert db "database_configs"
        [("database_name", .text database), ("content", .text content), ("updated_at", .text c.now)]
        ["database_name"] ["content", "updated_at"] with
    | .error e => .error (.statement "" e)
    | .ok db => .ok (db, ())

/-- A call of the store that can write. -/
inductive Operation where
  | createUser (user : DatabaseUser)
  | updateUser (user : DatabaseUser)
  | deleteUser (id : ℤ)
  | deleteUserByIdentity (database username host : Bytes)
  | setPassword (id : ℤ)
  | setPasswordByIdentity (database username host : Bytes)
  | updateUserByIdentity (user : DatabaseUser) (newHost : Bytes)
  | upsertGrant (grant : DatabaseGrant)
  | deleteGrant (id : ℤ)
  | deleteGrantByIdentity (server database username host : Bytes)
  | setVariable (item : DatabaseVariable)
  | setConfig (database content : Bytes)

/-- The store after a call. -/
def next (c : Context) : Operation → DatabaseAdminStore
  | .createUser user => (s.createUser c user).1
  | .updateUser user => (s.updateUser c user).1
  | .deleteUser id => (s.deleteUser c id).1
  | .deleteUserByIdentity database username host =>
      (s.deleteUserByIdentity c database username host).1
  | .setPassword id => (s.setPassword c id).1
  | .setPasswordByIdentity database username host =>
      (s.setPasswordByIdentity c database username host).1
  | .updateUserByIdentity user newHost => (s.updateUserByIdentity c user newHost).1
  | .upsertGrant grant => (s.upsertGrant c grant).1
  | .deleteGrant id => (s.deleteGrant c id).1
  | .deleteGrantByIdentity server database username host =>
      (s.deleteGrantByIdentity c server database username host).1
  | .setVariable item => (s.setVariable c item).1
  | .setConfig database content => (s.setConfig c database content).1

end DatabaseAdminStore

end WorkMesh.Storage
