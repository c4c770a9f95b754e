import WorkMesh.Runtime.Types

/-!
# Requests for runtimes

How a request becomes the record of a new runtime, how it changes the record of
an old one, what the catalog of applications adds, and the check of a record
against the runtimes there are.
-/

namespace WorkMesh.Runtime

open Encoding

/-! ## Parts of a request -/

def isAlphanumeric (c : UInt8) : Bool :=
  (65 ≤ c && c ≤ 90) || (97 ≤ c && c ≤ 122) || (48 ≤ c && c ≤ 57)

def validDockerIdentifier (value : Bytes) : Bool :=
  (match trimSpace value with
    | c :: rest =>
        isAlphanumeric c && rest.all (fun c => isAlphanumeric c || c ∈ bytes "_.:@/-") &&
          decide (rest.length ≤ 255)
    | [] => false) && value.all fun c => c ∉ [0, 13, 10]

def validEnvKey : Bytes → Bool
  | c :: rest =>
      (isAlphanumeric c && !(48 ≤ c && c ≤ 57) || c = 95) &&
        rest.all fun c => isAlphanumeric c || c = 95
  | [] => false

/-- Whether the runtime is installed by this request. -/
def runtimeInstallRequested (host : Host) (body : Fields) (item : RuntimeRecord) : Bool :=
  if item.hostRuntime then false
  else
    match body.lookup (bytes "install") with
    | some (.bool install) => install
    | _ => host.equalFold item.resource (bytes "appstore") || item.image ≠ [] ||
        item.dockerCompose ≠ []

/-- The names of the list, each once and in the order of their first mention. -/
def extensionNames (kept : List Bytes) : List Bytes → Except String (List Bytes)
  | [] => .ok kept
  | value :: rest =>
      let value := toLower (trimSpace value)
      if value = [] then extensionNames kept rest
      else if !value.all (fun c => isAlphanumeric c || c = 95) then .error "PHP 扩展名称无效"
      else if value ∈ kept then extensionNames kept rest
      else extensionNames (kept ++ [value]) rest

def normalizePHPExtensions (raw : Option Value) : Except String Bytes := do
  let values ←
    match raw with
    | none => pure []
    | some .null => pure []
    | some (.text value) => pure (value.splitOn 44)
    | some (.list items) =>
        items.mapM fun item =>
          match item with
          | .text name => pure name
          | _ => throw "PHP 扩展必须是字符串数组"
    | some _ => throw "PHP 扩展格式无效"
  let names ← extensionNames [] values
  return [44].intercalate names

/-- The port inside the container: the parameter, the one of the first mapped port, or the host
port. -/
def containerPort (item : RuntimeRecord) : Except String ℤ :=
  match item.params.lookup (bytes "APP_PORT") with
  | some raw =>
      let (value, ok) := runtimeNumberValue (some raw)
      if !ok || value < 1 || 65535 < value then .error "APP_PORT 必须在 1-65535 范围内" else .ok value
  | none =>
      let mapped := (item.exposedPorts.head?).bind (runtimeMapValue · (bytes "containerPort"))
      let (value, ok) := runtimeNumberValue mapped
      .ok (if ok ∧ value ≠ 0 then value else item.port)

/-- The host port of the first mapped port, zero where there is none. -/
def firstHostPort (item : RuntimeRecord) : ℤ :=
  (runtimeNumberValue ((item.exposedPorts.head?).bind (runtimeMapValue · (bytes "hostPort")))).1

/-- The host port: the one of the record, that of the first mapped port, or the one inside. -/
def publishedPort (item : RuntimeRecord) (inner : ℤ) : ℤ :=
  if item.port ≠ 0 then item.port
  else if firstHostPort item ≠ 0 then firstHostPort item
  else inner

/-- The container port and the host port of a runtime, each taken from the other where it is
missing. -/
def normalizeRuntimePorts (item : RuntimeRecord) (required : Bool) :
    Except String RuntimeRecord := do
  if item.isPHP then return item
  let inner ← containerPort item
  if inner = 0 then
    if required then
      throw "运行时容器端口不能为空，请设置 params.APP_PORT、exposedPorts.containerPort 或 port"
    return item
  if inner < 1 || 65535 < inner then throw "APP_PORT 必须在 1-65535 范围内"
  let port := publishedPort item inner
  if port < 1 || 65535 < port then throw "端口必须在 1-65535 范围内"
  return { item with params := item.params.put (bytes "APP_PORT") (.int inner), port := port }

def environmentRefused (raw : Value) : Bool :=
  !raw.isObject || !validEnvKey (runtimeString raw.fields [bytes "key"]) ||
    0 ∈ sprint ((raw.fields.lookup (bytes "value")).getD .null)

def volumeRefused (raw : Value) : Bool :=
  let source := runtimeString raw.fields [bytes "source"]
  let target := runtimeString raw.fields [bytes "target"]
  let mode := toLower (runtimeString raw.fields [bytes "mode"])
  !raw.isObject || source = [] || !isRooted target ||
    (source ++ target).any (fun c => c ∈ [13, 10, 0]) ||
    mode ∉ [[], bytes "ro", bytes "rw"]

def extraHostRefused (raw : Value) : Bool :=
  let hostname := runtimeString raw.fields [bytes "hostname", bytes "host"]
  let ip := runtimeString raw.fields [bytes "ip"]
  !raw.isObject || hostname = [] || 253 < hostname.length ||
    hostname.any (fun c => c ∈ [32, 47, 92, 13, 10, 0]) || !isAddress ip

def validateRuntimeCollections (item : RuntimeRecord) : Except String Unit :=
  if item.environments.any environmentRefused then .error "环境变量参数无效"
  else if item.volumes.any volumeRefused then .error "卷映射参数无效"
  else if item.extraHosts.any extraHostRefused then .error "extra_hosts 参数无效"
  else .ok ()

/-! ## The check against other runtimes -/

/-- A port and its protocol. -/
abbrev PortKey := ℤ × Bytes

def portProtocol (entry : Value) : Bytes :=
  let protocol := toLower (runtimeString entry.fields [bytes "protocol"])
  if protocol = [] then bytes "tcp" else protocol

/-- The host port that an entry of the mapped ports claims, if it has one. -/
def claimedPort (entry : Value) : Option PortKey :=
  if entry.isObject then
    let (port, valid) := runtimeNumberValue (entry.fields.lookup (bytes "hostPort"))
    if valid then some (port, portProtocol entry) else none
  else none

def runtimePortsConflict (left right : List Value) : Bool :=
  let seen := left.filterMap claimedPort
  (right.filterMap claimedPort).any (· ∈ seen)

/-- The check of the mapped ports of one record, with the ports seen so far. -/
def validateExposedPorts (seenHost seenContainer : List PortKey) :
    List Value → Except String Unit
  | [] => .ok ()
  | raw :: rest =>
      let (hostPort, hostOK) := runtimeNumberValue (raw.fields.lookup (bytes "hostPort"))
      let (containerPort, containerOK) :=
        runtimeNumberValue (raw.fields.lookup (bytes "containerPort"))
      let protocol := portProtocol raw
      if !raw.isObject then .error "exposedPorts 参数无效"
      else if !hostOK || !containerOK || hostPort < 1 || 65535 < hostPort || containerPort < 1 ||
          65535 < containerPort then
        .error "映射端口必须在 1-65535 范围内"
      else if protocol ≠ bytes "tcp" ∧ protocol ≠ bytes "udp" then .error "端口协议只允许 tcp 或 udp"
      else if (hostPort, protocol) ∈ seenHost ∨ (containerPort, protocol) ∈ seenContainer then
        .error "映射端口重复"
      else
        validateExposedPorts ((hostPort, protocol) :: seenHost)
          ((containerPort, protocol) :: seenContainer) rest

/-- The comparison of a candidate with one of the runtimes. -/
def compareRuntime (host : Host) (candidate item : RuntimeRecord) : Except String Unit :=
  if host.equalFold item.name candidate.name ||
      (candidate.container ≠ [] && host.equalFold item.container candidate.container) then
    .error "运行时名称或容器名已存在"
  else if candidate.codeDir ≠ [] && host.equalFold item.codeDir candidate.codeDir then
    .error "代码目录已被其他运行时使用"
  else if candidate.image ≠ [] && item.image ≠ [] && host.equalFold item.image candidate.image then
    .error "运行时镜像已被使用"
  else if (0 < candidate.port && item.port = candidate.port) ||
      runtimePortsConflict item.exposedPorts candidate.exposedPorts then
    .error "运行时端口已被占用"
  else .ok ()

def validateRuntimeCreateLocked (host : Host) (items : List RuntimeRecord)
    (candidate : RuntimeRecord) : Except String Unit := do
  validateExposedPorts [] [] candidate.exposedPorts
  items.forM (compareRuntime host candidate)

/-! ## The record of a new runtime -/

/-- The mode that a request asks for. -/
def requestMode (body : Fields) : Bytes :=
  let mode := runtimeString body [bytes "mode", bytes "runtimeMode"]
  normalizeRuntimeMode (if mode = [] then runtimeString body [bytes "runtime_mode"] else mode)

/-- A list in the request, empty where there is none. -/
def requestList (body : Fields) (key : Bytes) : List Value :=
  match body.lookup key with
  | some (.list items) => items
  | _ => []

/-- The parameters of a request, over those that the mode sets. -/
def requestParams (body : Fields) (mode : Bytes) : Fields :=
  let params : Fields := if mode = bytes "host" then [(bytes "RUNTIME_MODE", .text mode)] else []
  match body.lookup (bytes "params") with
  | some (.object raw) => raw.reverse.foldl (fun m e => m.put e.1 e.2) params
  | _ => params

/-- The package of a runtime among its parameters. -/
def withPackageURL (item : RuntimeRecord) : Fields :=
  if item.source = [] then item.params
  else item.params.put (bytes "CONTAINER_PACKAGE_URL") (.text item.source)

/-- `RUN_INSTALL` among the parameters, where the request says whether to install. -/
def withRunInstall (body params : Fields) : Fields :=
  match body.lookup (bytes "install") with
  | some (.bool install) =>
      params.put (bytes "RUN_INSTALL") (.text (if install then bytes "1" else bytes "0"))
  | _ => params

/-- The parameters that only a Node runtime has. -/
def withNodeParams (body : Fields) (item : RuntimeRecord) : RuntimeRecord :=
  if item.isNode then { item with params := withRunInstall body (withPackageURL item) } else item

/-- The parameters and the extensions of a PHP runtime. -/
def withExtensions (item : RuntimeRecord) : Except String RuntimeRecord := do
  if !item.isPHP then return item
  let params := withPackageURL item
  match params.lookup (bytes "PHP_EXTENSIONS") with
  | none => return { item with params := params }
  | some raw =>
      let extensions ← normalizePHPExtensions (some raw)
      return { item with
        params := params.put (bytes "PHP_EXTENSIONS") (.text extensions)
        extensions := if extensions = [] then [] else extensions.splitOn 44 }

/-- The container of a new runtime. -/
def requestContainer (host : Host) (body : Fields) (item : RuntimeRecord) :
    Except String Bytes :=
  let install := runtimeInstallRequested host body item
  let named := runtimeString body [bytes "container", bytes "containerName"]
  let given :=
    if named = [] then runtimeString item.params [bytes "CONTAINER_NAME", bytes "containerName"]
    else named
  let container :=
    if given = [] ∧ (install ∨ item.mode = bytes "host") then item.name else given
  if container = [] ∨ validDockerIdentifier container then .ok container
  else if install then .error "容器名无效"
  else .ok []

/-- The port of a new runtime, from the request or from its first mapped port. -/
def requestPort (body : Fields) (item : RuntimeRecord) : Except String ℤ :=
  match body.lookup (bytes "port") with
  | some raw =>
      let (value, ok) := runtimeNumberValue (some raw)
      if !ok || value < 1 || 65535 < value then .error "端口必须在 1-65535 范围内" else .ok value
  | none =>
      let port := firstHostPort item
      if port < 0 || 65535 < port then .error "端口必须在 1-65535 范围内" else .ok port

/-- The code directory of a new runtime, made absolute. -/
def requestCodeDir (host : Host) (codeDir : Bytes) : Except String Bytes :=
  if codeDir = [] then .ok []
  else
    let clean := host.abs (cleanPath codeDir)
    if clean = bytes "." ∨ clean = bytes ".." ∨ (bytes "../").isPrefixOf clean then
      .error "代码目录无效"
    else .ok clean

/-- A host runtime lives in its code directory and has no Compose file. -/
def hostPaths (item : RuntimeRecord) : Except String RuntimeRecord :=
  if item.mode ≠ bytes "host" then .ok item
  else if runtimeString item.params [bytes "EXEC_SCRIPT"] = [] then
    .error "宿主机运行时启动命令不能为空"
  else if item.codeDir = [] then .error "宿主机运行时工作目录不能为空"
  else .ok { item with installPath := item.codeDir, composePath := [] }

/-- The fields that a request gives as they are. -/
def requestRecord (now : ℤ) (body : Fields) : RuntimeRecord where
  id := runtimeString body [bytes "id", bytes "runtimeId"]
  name := runtimeString body [bytes "name"]
  type := runtimeString body [bytes "type"]
  mode := requestMode body
  version := runtimeString body [bytes "version"]
  codeDir := runtimeString body [bytes "codeDir", bytes "path"]
  workDir := runtimeString body [bytes "workDir"]
  resource := runtimeString body [bytes "resource"]
  source := runtimeString body [bytes "source"]
  image := runtimeString body [bytes "image"]
  dockerCompose := runtimeString body [bytes "dockerCompose", bytes "compose"]
  downloadURL := runtimeString body [bytes "downloadUrl", bytes "downloadURL"]
  env := runtimeString body [bytes "env"]
  appDetailID := runtimeString body [bytes "appDetailID", bytes "appDetailId"]
  appID := runtimeString body [bytes "appID", bytes "appId"]
  remark := runtimeString body [bytes "remark"]
  taskID := runtimeString body [bytes "taskID", bytes "taskId"]
  createdAt := now
  updatedAt := now
  params := requestParams body (requestMode body)
  exposedPorts := requestList body (bytes "exposedPorts")
  environments := requestList body (bytes "environments")
  volumes := requestList body (bytes "volumes")
  extraHosts := requestList body (bytes "extraHosts")

def runtimeRecordFromRequest (host : Host) (now : ℤ) (body : Fields) :
    Except String RuntimeRecord := do
  let item := requestRecord now body
  if item.name = [] then throw "运行时名称不能为空"
  if item.name.any fun c => c ∈ [13, 10, 0, 47, 92] then throw "运行时名称无效"
  let item ← withExtensions (withNodeParams body item)
  let container ← requestContainer host body item
  let port ← requestPort body item
  let item ← normalizeRuntimePorts { item with container := container, port := port }
    (runtimeInstallRequested host body item)
  let codeDir ← requestCodeDir host item.codeDir
  let item ← hostPaths { item with codeDir := codeDir }
  let item := hydrateRuntimePaths host item
  validateRuntimeCollections item
  validateRuntimeCreateLocked host [] item
  return item

/-! ## The catalog of applications -/

structure AppVersion where
  id : Bytes := []
  version : Bytes := []
  downloadURL : Bytes := []
  composeURL : Bytes := []
  dockerCompose : Bytes := []
  lastModified : ℤ := 0

structure App where
  id : Bytes := []
  key : Bytes := []
  name : Bytes := []
  type : Bytes := []
  tags : List Bytes := []
  versions : List AppVersion := []

/-- The catalog at the time of a request, and what the network answers for the address of a
Compose file: nothing where it fails. -/
structure AppStore where
  catalog : List App := []
  fetchRemoteCompose : Bytes → Bytes := fun _ => []

def appMatchesType (app : App) (wanted : Bytes) : Bool :=
  let wanted := normalizeRuntimeTypeFilter wanted
  let actual := normalizeRuntimeTypeFilter app.type
  actual = wanted ||
    (actual ≠ [] && actual ≠ bytes "app" && containsText actual wanted) ||
    [toLower (trimSpace app.key), toLower (trimSpace app.name)].any (fun candidate =>
      candidate = wanted || (wanted ++ [45]).isPrefixOf candidate ||
        (wanted ++ [32]).isPrefixOf candidate) ||
    app.tags.any fun tag => normalizeRuntimeTypeFilter tag = wanted

/-- The image that a line of a Compose file names, without its tag. -/
def imageOfLine (line : Bytes) : Option Bytes :=
  let trimmed := trimSpace line
  if !(bytes "image:").isPrefixOf trimmed then none
  else
    let isQuote := fun c : UInt8 => c = 34 ∨ c = 39
    let image := ((trimSpace (trimmed.drop 6)).dropWhile (isQuote ·)).rdropWhile (isQuote ·)
    if image = [] ∨ containsText image [36, 123] then none
    else
      let last := image.rtakeWhile (fun c => c ≠ 58)
      if last.length = image.length ∨ 47 ∈ last then some image
      else some (image.take (image.length - last.length - 1))

def appRuntimeImage (app : App) (compose : Bytes) : Bytes :=
  match (compose.splitOn 10).findSome? imageOfLine with
  | some image => image
  | none =>
      let type := normalizeRuntimeTypeFilter app.type
      if type = bytes "php" then bytes "1panel-php-fpm"
      else if type = bytes "java" then bytes "1panel/java"
      else if type = bytes "node" then bytes "1panel/node"
      else if type = bytes "go" then bytes "golang"
      else if type = bytes "python" then bytes "python"
      else if type = bytes "dotnet" then bytes "mcr.microsoft.com/dotnet/aspnet"
      else []

/-- What a version of an application adds to a record. -/
def fillFromVersion (host : Host) (store : AppStore) (app : App) (version : AppVersion)
    (item : RuntimeRecord) : Except String RuntimeRecord :=
  if item.version ≠ [] ∧ host.equalFold item.version version.version = false then
    .error "运行时版本与应用详情不匹配"
  else
    let itemVersion := if item.version = [] then version.version else item.version
    let compose :=
      if item.dockerCompose ≠ [] then item.dockerCompose
      else if version.dockerCompose = [] ∧ version.composeURL ≠ [] then
        store.fetchRemoteCompose version.composeURL
      else version.dockerCompose
    let repository := appRuntimeImage app compose
    .ok { item with
      version := itemVersion
      dockerCompose := compose
      image :=
        if item.image = [] ∧ repository ≠ [] then repository ++ 58 :: itemVersion else item.image
      downloadURL := if item.downloadURL = [] then version.downloadURL else item.downloadURL
      packageModified := version.lastModified
      appID := if item.appID = [] then app.id else item.appID
      resource := if item.resource = [] then bytes "appstore" else item.resource }

def hydrateRuntimeFromAppStore (host : Host) (store : AppStore) (item : RuntimeRecord) :
    Except String RuntimeRecord := do
  let type := normalizeRuntimeTypeFilter item.type
  if type ∉ runtimeTypes then throw "运行时类型无效"
  let item := { item with type := type }
  if item.appDetailID = [] then
    if host.equalFold item.resource (bytes "appstore") then throw "应用详情 ID 不能为空"
    return item
  let fits (app : App) : Bool :=
    appMatchesType app type &&
      (type ≠ bytes "php" || host.equalFold (trimSpace app.key) (bytes "php"))
  let found := (store.catalog.filter fits).findSome? fun app =>
    (app.versions.find? fun version =>
      host.equalFold (trimSpace version.id) (trimSpace item.appDetailID)).map (app, ·)
  match found with
  | some (app, version) => fillFromVersion host store app version item
  | none => throw "应用详情不存在或不属于所选运行时类型"

/-! ## The change of a record -/

section Merge

variable (body : Fields) (item : RuntimeRecord)

def mergeMode : RuntimeRecord :=
  let mode := runtimeString body [bytes "mode", bytes "runtimeMode", bytes "runtime_mode"]
  if mode = [] then item else { item with mode := normalizeRuntimeMode mode }

def mergeParams : Except String RuntimeRecord :=
  match body.lookup (bytes "params") with
  | some (.object values) => .ok { item with params := values }
  | some _ => .error "params 必须是对象"
  | none => .ok item

/-- The code directory is cleaned but not made absolute. -/
def mergeCodeDir : Except String RuntimeRecord :=
  match body.lookup (bytes "codeDir") with
  | some (.text value) =>
      if trimSpace value = [] then .error "codeDir 必须是非空字符串"
      else .ok { item with codeDir := cleanPath value }
  | some _ => .error "codeDir 必须是非空字符串"
  | none => .ok item

def mergeWorkDir : Except String RuntimeRecord :=
  match body.lookup (bytes "workDir") with
  | some (.text value) => .ok { item with workDir := trimSpace value }
  | some _ => .error "workDir 必须是字符串"
  | none => .ok item

def mergeSource : Except String RuntimeRecord :=
  match body.lookup (bytes "source") with
  | some (.text value) =>
      let item := { item with source := trimSpace value }
      .ok { item with params := withPackageURL item }
  | some _ => .error "source 必须是字符串"
  | none => .ok item

def mergeInstall : RuntimeRecord :=
  if item.isNode then { item with params := withRunInstall body item.params } else item

def mergePort : Except String RuntimeRecord :=
  match body.lookup (bytes "port") with
  | some raw =>
      let (port, ok) := runtimeNumberValue (some raw)
      if !ok || port < 1 || 65535 < port then .error "端口必须在 1-65535 范围内"
      else .ok { item with port := port }
  | none => .ok item

/-- A list of the request, or the one there is where the request has none. -/
def mergeList (key : String) (old : List Value) : Except String (List Value) :=
  match body.lookup (bytes key) with
  | some (.list items) => .ok items
  | some _ => .error (key ++ " 必须是数组")
  | none => .ok old

def mergeLists : Except String RuntimeRecord := do
  let exposedPorts ← mergeList body "exposedPorts" item.exposedPorts
  let environments ← mergeList body "environments" item.environments
  let volumes ← mergeList body "volumes" item.volumes
  let extraHosts ← mergeList body "extraHosts" item.extraHosts
  return { item with
    exposedPorts := exposedPorts, environments := environments, volumes := volumes
    extraHosts := extraHosts }

def mergeContainer : Except String RuntimeRecord :=
  let container := runtimeString item.params [bytes "CONTAINER_NAME"]
  if container = [] then .ok item
  else if validDockerIdentifier container then .ok { item with container := container }
  else .error "容器名无效"

/-- The mode of the record, and the paths of a host runtime. -/
def mergeHost : Except String RuntimeRecord :=
  let mode := normalizeRuntimeMode item.mode
  if mode ≠ bytes "host" then .ok { item with mode := mode }
  else
    let params := item.params.put (bytes "RUNTIME_MODE") (.text mode)
    if runtimeString params [bytes "EXEC_SCRIPT"] = [] then .error "宿主机运行时启动命令不能为空"
    else if trimSpace item.codeDir = [] then .error "宿主机运行时工作目录不能为空"
    else .ok { item with
      mode := mode, params := params, installPath := item.codeDir, composePath := [] }

def mergeRemark : Except String RuntimeRecord :=
  match body.lookup (bytes "remark") with
  | some (.text value) => .ok { item with remark := trimSpace value }
  | some _ => .error "remark 必须是字符串"
  | none => .ok item

def mergeRuntimeUpdateFields : Except String RuntimeRecord := do
  let item ← mergeParams body (mergeMode body item)
  let item ← mergeCodeDir body item
  let item ← mergeWorkDir body item
  let item ← mergeSource body item
  let item ← mergePort body (mergeInstall body item)
  let item ← mergeLists body item
  let item ← mergeContainer item
  let item ← mergeHost item
  mergeRemark body item

end Merge

/-- The image of a PHP runtime is built from its version. -/
def phpImage (item : RuntimeRecord) : Except String RuntimeRecord := do
  if !item.isPHP then return item
  let extensions ← normalizePHPExtensions (item.params.lookup (bytes "PHP_EXTENSIONS"))
  let params := item.params.put (bytes "PHP_EXTENSIONS") (.text extensions)
  let version := runtimeString params [bytes "PHP_VERSION"]
  if version = [] then throw "PHP_VERSION 不能为空"
  return { item with
    params := params
    extensions := if extensions = [] then [] else extensions.splitOn 44
    image := bytes "1panel-php-fpm:" ++ version }

def mergeRuntimeUpdate (host : Host) (current : RuntimeRecord) (body : Fields) :
    Except String RuntimeRecord := do
  let item ← mergeRuntimeUpdateFields body current
  let item ← phpImage item
  let item ← normalizeRuntimePorts item (runtimeInstallRequested host body item)
  validateRuntimeCollections item
  validateRuntimeCreateLocked host [] item
  return item

/-! ## What a request leaves of a record -/

theorem ok_of_bind {ε α β : Type} {x : Except ε α} {f : α → Except ε β} {b : β}
    (h : x >>= f = .ok b) : ∃ a, x = .ok a ∧ f a = .ok b := by
  cases x with
  | error e => cases h
  | ok a => exact ⟨a, rfl, h⟩

section Frames

variable {host : Host} {body : Fields} {item r : RuntimeRecord} {required : Bool}

theorem normalizeRuntimePorts_ok (h : normalizeRuntimePorts item required = .ok r) :
    r = { item with params := r.params, port := r.port } ∧ (0 ≤ item.port → 0 ≤ r.port) := by
  unfold normalizeRuntimePorts at h
  split at h
  · cases h
    exact ⟨rfl, id⟩
  · obtain ⟨inner, -, h⟩ := ok_of_bind h
    dsimp only at h
    split at h
    · split at h
      · cases h
      · cases h
        exact ⟨rfl, id⟩
    · split at h
      · cases h
      · split at h
        · cases h
        · rename_i hrange
          cases h
          refine ⟨rfl, fun _ => ?_⟩
          simp only [Bool.or_eq_true, decide_eq_true_eq, not_or] at hrange
          exact (not_lt.mp hrange.1).trans' zero_le_one

theorem hostPaths_ok (h : hostPaths item = .ok r) :
    r = { item with installPath := r.installPath, composePath := r.composePath } := by
  unfold hostPaths at h
  split_ifs at h <;> cases h <;> rfl

theorem requestPort_nonneg {port : ℤ} (h : requestPort body item = .ok port) : 0 ≤ port := by
  unfold requestPort at h
  split at h
  · dsimp only at h
    split at h
    · cases h
    · rename_i hrange
      cases h
      simp only [Bool.or_eq_true, decide_eq_true_eq, not_or] at hrange
      exact (not_lt.mp hrange.1.2).trans' zero_le_one
  · dsimp only at h
    split at h
    · cases h
    · rename_i hrange
      cases h
      simp only [Bool.or_eq_true, decide_eq_true_eq, not_or] at hrange
      exact not_lt.mp hrange.1

theorem runtimeRecordFromRequest_port {now : ℤ}
    (h : runtimeRecordFromRequest host now body = .ok r) : 0 ≤ r.port := by
  unfold runtimeRecordFromRequest at h
  dsimp only at h
  split at h
  · cases h
  · split at h
    · cases h
    · obtain ⟨extended, -, h⟩ := ok_of_bind h
      obtain ⟨container, -, h⟩ := ok_of_bind h
      obtain ⟨port, hport, h⟩ := ok_of_bind h
      obtain ⟨normal, hnormal, h⟩ := ok_of_bind h
      obtain ⟨codeDir, -, h⟩ := ok_of_bind h
      obtain ⟨placed, hplaced, h⟩ := ok_of_bind h
      obtain ⟨-, -, h⟩ := ok_of_bind h
      obtain ⟨-, -, h⟩ := ok_of_bind h
      cases h
      rw [hydrateRuntimePaths, hostPaths_ok hplaced]
      exact (normalizeRuntimePorts_ok hnormal).2 (requestPort_nonneg hport)

/-- The catalog gives neither ports nor names. -/
theorem hydrateRuntimeFromAppStore_ok {apps : AppStore}
    (h : hydrateRuntimeFromAppStore host apps item = .ok r) :
    r = { item with
      type := r.type, version := r.version, dockerCompose := r.dockerCompose, image := r.image
      downloadURL := r.downloadURL, packageModified := r.packageModified, appID := r.appID
      resource := r.resource } := by
  unfold hydrateRuntimeFromAppStore at h
  dsimp only at h
  split at h
  · cases h
  · split at h
    · split at h
      · cases h
      · cases h
        rfl
    · split at h
      · unfold fillFromVersion at h
        split at h
        · cases h
        · cases h
          rfl
      · cases h

/-- What an update never changes, and the sign of the port. -/
structure Merged (current r : RuntimeRecord) : Prop where
  id : r.id = current.id
  name : r.name = current.name
  type : r.type = current.type
  port : 0 ≤ current.port → 0 ≤ r.port

theorem Merged.trans {a b c : RuntimeRecord} (hab : Merged a b) (hbc : Merged b c) :
    Merged a c where
  id := hbc.id.trans hab.id
  name := hbc.name.trans hab.name
  type := hbc.type.trans hab.type
  port := hbc.port ∘ hab.port

instance : Trans Merged Merged Merged := ⟨Merged.trans⟩

theorem mergeMode_merged (body : Fields) (item : RuntimeRecord) :
    Merged item (mergeMode body item) := by
  unfold mergeMode
  dsimp only
  split_ifs <;> exact ⟨rfl, rfl, rfl, id⟩

theorem mergeParams_merged (h : mergeParams body item = .ok r) : Merged item r := by
  unfold mergeParams at h
  split at h <;> cases h <;> exact ⟨rfl, rfl, rfl, id⟩

theorem mergeCodeDir_merged (h : mergeCodeDir body item = .ok r) : Merged item r := by
  unfold mergeCodeDir at h
  split at h
  · split at h <;> cases h
    exact ⟨rfl, rfl, rfl, id⟩
  · cases h
  · cases h
    exact ⟨rfl, rfl, rfl, id⟩

theorem mergeWorkDir_merged (h : mergeWorkDir body item = .ok r) : Merged item r := by
  unfold mergeWorkDir at h
  split at h <;> cases h <;> exact ⟨rfl, rfl, rfl, id⟩

theorem mergeSource_merged (h : mergeSource body item = .ok r) : Merged item r := by
  unfold mergeSource at h
  split at h <;> cases h <;> exact ⟨rfl, rfl, rfl, id⟩

theorem mergeInstall_merged (body : Fields) (item : RuntimeRecord) :
    Merged item (mergeInstall body item) := by
  unfold mergeInstall
  split_ifs <;> exact ⟨rfl, rfl, rfl, id⟩

theorem mergePort_merged (h : mergePort body item = .ok r) : Merged item r := by
  unfold mergePort at h
  split at h
  · dsimp only at h
    split at h
    · cases h
    · rename_i hrange
      cases h
      refine ⟨rfl, rfl, rfl, fun _ => ?_⟩
      simp only [Bool.or_eq_true, decide_eq_true_eq, not_or] at hrange
      exact (not_lt.mp hrange.1.2).trans' zero_le_one
  · cases h
    exact ⟨rfl, rfl, rfl, id⟩

theorem mergeLists_merged (h : mergeLists body item = .ok r) : Merged item r := by
  unfold mergeLists at h
  obtain ⟨exposedPorts, -, h⟩ := ok_of_bind h
  obtain ⟨environments, -, h⟩ := ok_of_bind h
  obtain ⟨volumes, -, h⟩ := ok_of_bind h
  obtain ⟨extraHosts, -, h⟩ := ok_of_bind h
  cases h
  exact ⟨rfl, rfl, rfl, id⟩

theorem mergeContainer_merged (h : mergeContainer item = .ok r) : Merged item r := by
  unfold mergeContainer at h
  dsimp only at h
  split_ifs at h <;> cases h <;> exact ⟨rfl, rfl, rfl, id⟩

theorem mergeHost_merged (h : mergeHost item = .ok r) : Merged item r := by
  unfold mergeHost at h
  dsimp only at h
  split_ifs at h <;> cases h <;> exact ⟨rfl, rfl, rfl, id⟩

theorem mergeRemark_merged (h : mergeRemark body item = .ok r) : Merged item r := by
  unfold mergeRemark at h
  split at h <;> cases h <;> exact ⟨rfl, rfl, rfl, id⟩

theorem mergeRuntimeUpdateFields_merged (h : mergeRuntimeUpdateFields body item = .ok r) :
    Merged item r := by
  unfold mergeRuntimeUpdateFields at h
  obtain ⟨a, hparams, h⟩ := ok_of_bind h
  obtain ⟨b, hcodeDir, h⟩ := ok_of_bind h
  obtain ⟨c, hworkDir, h⟩ := ok_of_bind h
  obtain ⟨d, hsource, h⟩ := ok_of_bind h
  obtain ⟨e, hport, h⟩ := ok_of_bind h
  obtain ⟨f, hlists, h⟩ := ok_of_bind h
  obtain ⟨g, hcontainer, h⟩ := ok_of_bind h
  obtain ⟨k, hhost, h⟩ := ok_of_bind h
  calc Merged item (mergeMode body item) := mergeMode_merged body item
    Merged _ a := mergeParams_merged hparams
    Merged _ b := mergeCodeDir_merged hcodeDir
    Merged _ c := mergeWorkDir_merged hworkDir
    Merged _ d := mergeSource_merged hsource
    Merged _ (mergeInstall body d) := mergeInstall_merged body d
    Merged _ e := mergePort_merged hport
    Merged _ f := mergeLists_merged hlists
    Merged _ g := mergeContainer_merged hcontainer
    Merged _ k := mergeHost_merged hhost
    Merged _ r := mergeRemark_merged h

theorem phpImage_merged (h : phpImage item = .ok r) : Merged item r := by
  unfold phpImage at h
  split at h
  · cases h
    exact ⟨rfl, rfl, rfl, id⟩
  · obtain ⟨extensions, -, h⟩ := ok_of_bind h
    dsimp only at h
    split at h
    · cases h
    · cases h
      exact ⟨rfl, rfl, rfl, id⟩

theorem mergeRuntimeUpdate_merged {current : RuntimeRecord}
    (h : mergeRuntimeUpdate host current body = .ok r) : Merged current r := by
  unfold mergeRuntimeUpdate at h
  obtain ⟨a, hfields, h⟩ := ok_of_bind h
  obtain ⟨b, himage, h⟩ := ok_of_bind h
  obtain ⟨c, hports, h⟩ := ok_of_bind h
  obtain ⟨-, -, h⟩ := ok_of_bind h
  obtain ⟨-, -, h⟩ := ok_of_bind h
  cases h
  obtain ⟨heq, hport⟩ := normalizeRuntimePorts_ok hports
  have hnormal : Merged b r := by
    rw [heq] at hport ⊢
    exact ⟨rfl, rfl, rfl, hport⟩
  exact ((mergeRuntimeUpdateFields_merged hfields).trans (phpImage_merged himage)).trans hnormal

end Frames

end WorkMesh.Runtime
