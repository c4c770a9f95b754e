import WorkMesh.Sites.Types

/-!
# The files of the firewall

Where the files of a website stand, how they are written, the snapshot that an
update takes of the files of the firewall and its restoration, the rules
generated for the engine, and the two functions that write the settings out.
-/

namespace WorkMesh.Sites

open Encoding StateMachine Fallible

/-! ## Paths -/

/-- A path of the file system by its elements. -/
def Host.path (h : Host) (text : Bytes) : Path :=
  elements (if isRooted text then cleanPath text else joinPath h.workingDirectory text)

def Host.siteRootPath (h : Host) : Bytes :=
  if trimSpace h.websiteRoot ≠ [] then cleanPath (trimSpace h.websiteRoot)
  else bytes "/www/wwwroot"

def Host.siteDirPath (h : Host) (domain : Bytes) : Bytes := joinPath h.siteRootPath domain

/-- The kinds of `SitePath`. -/
inductive Kind where
  | root | app | nginx | siteConf | streamConf | rewrite | waf | runtime | cache | ssl | logs
  | proxy | redirect | authBasic | pathAuth | upstream | cors | realip | php | leech

def Host.sitePath (h : Host) (site : Website) (kind : Kind) : Path :=
  let base := h.path
    (if trimSpace site.siteDir = [] then h.siteDirPath site.primaryDomain
      else trimSpace site.siteDir)
  let nginx := base ++ [bytes "nginx"]
  match kind with
  | .root => base
  | .app => base ++ [bytes "app"]
  | .nginx => nginx
  | .siteConf => nginx ++ [bytes "site.conf"]
  | .streamConf => nginx ++ [bytes "stream.conf"]
  | .rewrite => nginx ++ [bytes "rewrite", site.primaryDomain ++ bytes ".conf"]
  | .waf => base ++ [bytes "waf"]
  | .runtime => base ++ [bytes ".workmesh", bytes "runtime"]
  | .cache => base ++ [bytes ".workmesh", bytes "cache"]
  | .ssl => base ++ [bytes "ssl"]
  | .logs => base ++ [bytes "logs"]
  | .proxy => nginx ++ [bytes "proxy"]
  | .redirect => nginx ++ [bytes "redirect"]
  | .authBasic => nginx ++ [bytes "auth_basic"]
  | .pathAuth => nginx ++ [bytes "path_auth"]
  | .upstream => nginx ++ [bytes "upstream"]
  | .cors => nginx ++ [bytes "cors.conf"]
  | .realip => nginx ++ [bytes "realip.conf"]
  | .php => nginx ++ [bytes "php.conf"]
  | .leech => nginx ++ [bytes "leech"]

def configFile (base : Path) : Path := base ++ [bytes "config.json"]

def rulesFile (base : Path) : Path := base ++ [bytes "rules.json"]

section Roots
variable (h : Host)

def Host.globalFile : Path := h.wafRoot ++ [bytes "global.json"]
def Host.listsFile : Path := h.wafRoot ++ [bytes "access-lists.json"]
def Host.defaultRulesFile : Path := h.wafRoot ++ [bytes "default-rules.json"]
def Host.customRulesFile : Path := h.wafRoot ++ [bytes "custom-rules.json"]
def Host.runtimeFile : Path := h.wafRoot ++ [bytes "runtime.json"]
def Host.engineModeFile : Path := h.wafGeneratedRoot ++ [bytes "modsecurity-mode.conf"]
def Host.hostRulesFile : Path := h.wafGeneratedRoot ++ [bytes "custom-rules.conf"]
def Host.standardRulesFile : Path := h.wafGeneratedRoot ++ [bytes "standard-rules.conf"]
def Host.globalRulesFile : Path := h.wafGeneratedRoot ++ [bytes "global-rules.conf"]

def Host.generatedFiles : List Path :=
  [h.engineModeFile, h.hostRulesFile, h.standardRulesFile, h.globalRulesFile]

end Roots

/-! ## Websites -/

/-- `getWebsiteLocked`, `none` for `os.ErrNotExist`. -/
def getWebsite (websites : List Website) (id : ℕ) : Option Website :=
  websites.find? (·.id = id)

theorem getWebsite_some {websites : List Website} {id : ℕ} {website : Website}
    (hget : getWebsite websites id = some website) : website ∈ websites ∧ website.id = id :=
  ⟨List.mem_of_find?_eq_some hget, by simpa using List.find?_some hget⟩

def domainForWebsite (websites : List Website) (id : ℕ) : Bytes :=
  ((getWebsite websites id).map Website.primaryDomain).getD (formatUint id)

def defaultWAFSite (id : ℕ) (aliasName : Bytes) : WAFSite :=
  { websiteID := id, aliasName, enabled := true, mode := bytes "observe", detectionLevel := 1,
    frequencyEnabled := true }

/-- The world with a change of the memory. -/
def World.onMemory (f : Memory → Memory) (w : World) : World := { w with memory := f w.memory }

/-! ## Files -/

/-- An operation of the file system. -/
def alter (f : Files → Option Files) : Op Unit := do
  step .broken
  let files ← look World.files
  let files ← demand .broken (f files)
  change fun w => { w with files }

/-- `atomicWriteFile`, and `atomicJSON` of an encoded document. -/
def atomicWriteFile (path : Path) (document : Document) : Op Unit := do
  alter (·.mkdirAll path.dropLast)
  alter (·.put path document)

/-- `Stat` and `ReadFile`, `none` for a file that does not exist. -/
def readFile (path : Path) : Op (Option Document) := do
  step .broken
  let files ← look World.files
  if files.passable path ∧ files.isDir path = false then pure (files.content path)
  else throw .broken

/-- `Remove`. A file that does not exist is no error. -/
def removeFile (path : Path) : Op Unit := do
  let files ← look World.files
  if files.passable path = false then throw .broken
  else if (files.node path).isNone then pure ()
  else alter (·.remove path)

structure WafFileBackup where
  path : Path
  data : Option Document

/-- The files that an update of the firewall may change. -/
def Host.runtimePaths (h : Host) (websites : List Website) : List Path :=
  let common := [h.globalFile, h.listsFile, h.defaultRulesFile, h.customRulesFile, h.runtimeFile] ++
    h.generatedFiles
  let ofSite (site : Website) : List Path :=
    let base := h.sitePath { site with primaryDomain := domainForWebsite websites site.id } .waf
    [configFile base, rulesFile base]
  (common ++ websites.flatMap ofSite).eraseDups

def readBackups : List Path → Op (List WafFileBackup)
  | [] => pure []
  | path :: paths => do
      let data ← readFile path
      let rest ← readBackups paths
      pure ({ path, data } :: rest)

def snapshotWAFRuntime (h : Host) : Op (List WafFileBackup) := do
  let websites ← look (·.memory.websites)
  readBackups (h.runtimePaths websites)

def restoreFile (backup : WafFileBackup) : Op Unit :=
  match backup.data with
  | some document => atomicWriteFile backup.path document
  | none => removeFile backup.path

/-- The failures met. -/
def restoreWAFRuntime : List WafFileBackup → Op (List Failure)
  | [] => pure []
  | backup :: backups => do
      let restored ← attempt (restoreFile backup)
      let rest ← restoreWAFRuntime backups
      match restored with
      | .ok () => pure rest
      | .error e => pure (e :: rest)

/-! ## OpenResty -/

/-- A command of OpenResty. -/
def ask : Op Unit := do
  let answers ← look World.answers
  change fun w => { w with answers := w.answers.tail }
  if answers.head? = some false then throw .broken else pure ()

/-- The generated files are there and OpenResty has loaded them. -/
def verifyWAFRuntimeLoaded (h : Host) : Op Unit := do
  let files ← look World.files
  if h.generatedFiles.all fun path => (files.content path).isSome then ask else throw .broken

/-- The configuration is valid, it is loaded, and the reload is confirmed. -/
def reloadWAFRuntime (h : Host) : Op Unit := do
  ask
  verifyWAFRuntimeLoaded h
  ask

/-- The failures met. -/
def rollbackWAFRuntime (h : Host) (backups : List WafFileBackup) : Op (List Failure) := do
  let failures ← restoreWAFRuntime backups
  if h.wafRuntimeRequired then
    match ← attempt (reloadWAFRuntime h) with
    | .ok () => pure failures
    | .error e => pure (failures ++ [e])
  else pure failures

/-! ## Generated rules -/

/-- The mode of the engine for the host of a website. -/
def hostMode (global : WAFGlobalConfig) (site : WAFSite) : Bytes :=
  if !global.enabled || !site.enabled then bytes "Off"
  else if global.mode = bytes "block" ∨ site.mode = bytes "block" then bytes "On"
  else bytes "DetectionOnly"

/-- The hosts with their modes, in the order in which they are met. -/
def hostModes (m : Memory) : List (Bytes × Bytes) :=
  let ofSite (site : Website) : List (Bytes × Bytes) :=
    let wafSite := (m.wafSites.lookup site.id).getD (defaultWAFSite site.id site.aliasName)
    let names := site.primaryDomain ::
      ((m.domains.lookup site.id).getD []).map WebsiteDomain.domain
    ((names.map fun name => toLower (trimSpace name)).filter (· ≠ [])).map fun name =>
      (name, hostMode m.global wafSite)
  (m.websites.flatMap ofSite).eraseDups

/-- The order in which the rules are written. -/
def hostBefore (a b : Bytes × Bytes) : Bool :=
  if a.1 = b.1 then decide (a.2 ≤ b.2) else decide (a.1 ≤ b.1)

def hostRule (index : ℕ) (item : Bytes × Bytes) : Bytes :=
  bytes "SecRule SERVER_NAME \"@streq " ++ item.1 ++ bytes "\" \"id:" ++
    formatUint (101000 + index) ++ bytes ",phase:1,pass,nolog,ctl:ruleEngine=" ++ item.2 ++
    bytes "\"\n"

def sortedHosts (m : Memory) : List (Bytes × Bytes) :=
  (hostModes m).insertionSort fun a b => hostBefore a b

def wafModSecurityRuntimeConfig (m : Memory) : Bytes :=
  let limit := if m.global.requestBodyLimit ≤ 0 then 2 ^ 20 else m.global.requestBodyLimit
  bytes "# WorkMesh global ModSecurity runtime settings\nSecRequestBodyLimit " ++
    formatInt limit ++ bytes "\n" ++
    ((sortedHosts m).mapIdx hostRule).flatten

def wafModSecurityThresholdConfig (global : WAFGlobalConfig) : Bytes :=
  let paranoia := formatInt (if global.paranoiaLevel < 1 then 1 else global.paranoiaLevel)
  let threshold := formatInt (if global.inboundThreshold < 1 then 5 else global.inboundThreshold)
  bytes "SecAction \"id:100900,phase:1,nolog,pass,t:none,setvar:tx.paranoia_level=" ++ paranoia ++
    bytes ",setvar:tx.blocking_paranoia_level=" ++ paranoia ++
    bytes ",setvar:tx.detection_paranoia_level=" ++ paranoia ++
    bytes ",setvar:tx.inbound_anomaly_score_threshold=" ++ threshold ++ bytes "\"\n"

def engineMode (global : WAFGlobalConfig) : Bytes :=
  if !global.enabled then bytes "Off"
  else if global.mode = bytes "block" then bytes "On"
  else bytes "DetectionOnly"

def standardRulesConfig (global : WAFGlobalConfig) : Bytes :=
  if global.standardRules then
    bytes "# WorkMesh standard CRS rules enabled\nInclude /etc/workmesh-waf/crs/crs-setup.conf\n" ++
      wafModSecurityThresholdConfig global ++ bytes "Include /etc/workmesh-waf/crs/rules/*.conf\n"
  else bytes "# WorkMesh standard CRS rules disabled\n"

def writeWAFGeneratedConfig (h : Host) : Op Unit := do
  let m ← look World.memory
  atomicWriteFile h.engineModeFile
    (.text (bytes "# WorkMesh WAF mode\nSecRuleEngine " ++ engineMode m.global ++ bytes "\n"))
  atomicWriteFile h.hostRulesFile (.text (wafModSecurityRuntimeConfig m))
  atomicWriteFile h.standardRulesFile (.text (standardRulesConfig m.global))
  atomicWriteFile h.globalRulesFile
    (.text (bytes "# WorkMesh global rules are handled by Lua and the image baseline\n"))

/-! ## Writing the settings out -/

/-- What the hash of the running configuration is taken of. -/
def wafRuntimeHash (h : Host) : Op (List (Path × Document)) := do
  let backups ← snapshotWAFRuntime h
  pure (backups.filterMap fun backup =>
    if backup.path.getLast? = some (bytes "runtime.json") then none
    else backup.data.map fun data => (backup.path, data))

def persistWAFRuntime (h : Host) : Op Unit := do
  writeWAFGeneratedConfig h
  if h.wafRuntimeRequired then
    reloadWAFRuntime h
    verifyWAFRuntimeLoaded h
    let hashed ← wafRuntimeHash h
    let now ← look World.now
    atomicWriteFile h.runtimeFile (.manifest hashed now)
  else pure ()

/-- A step of an update. When it fails, the memory is put right and the files go back to the
snapshot. -/
def orRollback (h : Host) (backups : List WafFileBackup) (undo : Memory → Memory)
    (m : Op Unit) : Op Unit := do
  match ← attempt m with
  | .ok () => pure ()
  | .error e =>
      change (World.onMemory undo)
      let failures ← rollbackWAFRuntime h backups
      throw (.joined e failures)

/-- The order of the next loop over a map of the websites. -/
def nextOrder (keys : Finset ℕ) : Op (List ℕ) := do
  let orders ← look World.orders
  change fun w => { w with orders := w.orders.tail }
  pure (walk (orders.headD []) keys)

def persistWAFSite (h : Host) (backups : List WafFileBackup) (websiteID : ℕ) : Op Unit := do
  let m ← look World.memory
  let site ← demand .notExist (m.wafSites.lookup websiteID)
  let website ← demand .notExist (getWebsite m.websites site.websiteID)
  let base := h.sitePath website .waf
  orRollback h backups id (atomicWriteFile (configFile base) (.site site))
  orRollback h backups id (atomicWriteFile (rulesFile base) (.rules site.rules))

def persistWAFSites (h : Host) : Op Unit := do
  let backups ← snapshotWAFRuntime h
  let m ← look World.memory
  let ids ← nextOrder m.wafSites.keys
  ids.forM (persistWAFSite h backups)
  orRollback h backups id (persistWAFRuntime h)

end WorkMesh.Sites
