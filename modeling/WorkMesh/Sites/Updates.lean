import WorkMesh.Sites.Firewall
import WorkMesh.StateMachine.KeyedList

/-!
# Updates of the firewall

The settings and rules of one website, the configuration and the lists of the
node, the default and the custom rules, and the application of the default rules
to all websites.
-/

namespace WorkMesh.Sites

open Encoding StateMachine Fallible
open Waf (WAFRule)

/-- A check that may refuse. -/
abbrev Check := Except Failure

def refuse {α : Type} (text : String) : Check α := .error (.refused (bytes text))

/-- One of the marks stands in the text. -/
def containsAny (text marks : Bytes) : Bool := text.any fun c => c ∈ marks

/-! ## Checks -/

def checkSiteSettings (websiteID : ℕ) (mode : Bytes) (detectionLevel : Option ℤ) : Check Unit :=
  if websiteID = 0 ∨ (mode ≠ bytes "observe" ∧ mode ≠ bytes "block") then
    refuse "网站 WAF 参数无效"
  else if detectionLevel.any fun level => level < 1 ∨ 4 < level then
    refuse "网站 WAF 检测强度无效"
  else pure ()

/-- A rule that is stored at a time, or why it is refused. -/
def checkWAFRule (h : Host) (now : ℤ) (rule : WAFRule) : Check WAFRule :=
  (Waf.validateWAFRule h.compiles (bytes "rule-" ++ formatInt now) rule).mapError fun text =>
    .refused (bytes text)

def checkRule (h : Host) (now : ℤ) (websiteID : ℕ) (rule : WAFRule) : Check WAFRule :=
  if websiteID = 0 then refuse "WAF 规则参数无效" else checkWAFRule h now rule

def checkRuleID (websiteID : ℕ) (ruleID : Bytes) : Check Unit :=
  if websiteID = 0 ∨ trimSpace ruleID = [] then refuse "WAF 规则参数无效" else pure ()

/-- One limit of the configuration of the node, under its trimmed name. -/
def cleanLimit (limits : Limits) (entry : Bytes × WAFFrequencyLimit) : Check Limits := do
  let name := trimSpace entry.1
  if name = [] ∨ 64 < name.length ∨ containsAny name (bytes "\x00\r\n;\x7b\x7d") then
    refuse "WAF 频率限制名称无效"
  let limit := if entry.2.mode = [] then { entry.2 with mode := bytes "global" } else entry.2
  if limit.mode ≠ bytes "global" ∧ limit.mode ≠ bytes "uri" then
    refuse "WAF 频率限制模式无效"
  if limit.period < 1 ∨ 86400 < limit.period ∨ limit.count < 1 ∨ 1000000 < limit.count ∨
      limit.blockTime < 1 ∨ 525600 < limit.blockTime then
    refuse "WAF 频率限制参数无效"
  pure (limits.insert name limit)

def redisInvalid (redis : WAFRedisConfig) : Bool :=
  redis.enabled && (redis.host = [] || 255 < redis.host.length ||
    containsAny redis.host (bytes "\x00\r\n;\x7b\x7d") || redis.port < 1 || 65535 < redis.port ||
    redis.db < 0 || 255 < redis.db)

/-- The configuration that `UpdateGlobal` stores. The limits are walked in the order `names`. -/
def checkGlobal (names : List Bytes) (cfg : WAFGlobalConfig) : Check WAFGlobalConfig := do
  if cfg.mode ≠ bytes "observe" ∧ cfg.mode ≠ bytes "block" then
    refuse "WAF 模式无效"
  let cfg := { cfg with
    paranoiaLevel := if cfg.paranoiaLevel = 0 then 1 else cfg.paranoiaLevel
    requestBodyLimit := if cfg.requestBodyLimit = 0 then 2 ^ 20 else cfg.requestBodyLimit }
  if cfg.paranoiaLevel < 1 ∨ 4 < cfg.paranoiaLevel ∨ cfg.inboundThreshold < 1 ∨
      99 < cfg.inboundThreshold ∨ cfg.requestBodyLimit < 0 ∨ 10485760 < cfg.requestBodyLimit then
    refuse "WAF 全局参数无效"
  let cfg := { cfg with redis := cfg.redis.map fun r => { r with host := trimSpace r.host } }
  if cfg.redis.any redisInvalid then
    refuse "WAF Redis 参数无效"
  let source := if cfg.frequencyLimit = (∅ : Limits) then cfg.frequency else cfg.frequencyLimit
  let entries := (walk names source.keys).filterMap fun name =>
    (source.lookup name).map fun limit => (name, limit)
  let limits ← entries.foldlM cleanLimit ∅
  if limits = (∅ : Limits) then pure cfg
  else pure { cfg with frequency := limits, frequencyLimit := limits }

/-- The addresses of a list, trimmed and without repetitions. -/
def cleanAddresses : List Bytes → List Bytes → Check (List Bytes)
  | out, [] => pure out
  | out, item :: items =>
      let item := trimSpace item
      if item = [] then cleanAddresses out items
      else if isAddress item = false ∧ isNetwork item = false then
        .error (.refused (bytes "IP 或网段无效: " ++ item))
      else if item ∈ out then cleanAddresses out items
      else cleanAddresses (out ++ [item]) items

def cleanText (items : List Bytes) : List Bytes :=
  ((items.map trimSpace).filter (· ≠ [])).eraseDups

/-- The notes that belong to the entries of the lists. -/
def cleanMeta (given : Finmap fun _ : Bytes => WAFListMeta) :
    List Bytes → Check (Finmap fun _ : Bytes => WAFListMeta)
  | [] => pure ∅
  | key :: keys =>
      match given.lookup key with
      | none => cleanMeta given keys
      | some item => do
          let remark := trimSpace item.remark
          if 500 < remark.length then refuse "黑白名单备注过长"
          let rest ← cleanMeta given keys
          pure (rest.insert key { item with remark })

def cleanGroup (group : WAFIPGroup) : Check WAFIPGroup := do
  let name := trimSpace group.name
  if name = [] ∨ 120 < name.length then refuse "IP 组名称无效"
  let entries ← cleanAddresses [] group.entries
  pure { group with name, entries }

def listSwitches : List Bytes :=
  ["blacklist", "whitelist", "urlBlacklist", "urlWhitelist", "uaBlacklist", "uaWhitelist",
    "ipGroups"].map bytes

def normalizeWAFListEnabled (input : Finmap fun _ : Bytes => Bool) : Finmap fun _ : Bytes => Bool :=
  listSwitches.foldl (fun out key => out.insert key ((input.lookup key).getD true)) ∅

/-- The lists that `UpdateLists` stores. -/
def checkLists (lists : WAFAccessLists) : Check WAFAccessLists := do
  let whitelist ← cleanAddresses [] lists.whitelist
  let blacklist ← cleanAddresses [] lists.blacklist
  let fields : List (String × List Bytes) :=
    [("blacklist", blacklist), ("whitelist", whitelist),
      ("urlBlacklist", cleanText lists.urlBlacklist), ("urlWhitelist", cleanText lists.urlWhitelist),
      ("uaBlacklist", cleanText lists.uaBlacklist), ("uaWhitelist", cleanText lists.uaWhitelist)]
  let keys := fields.flatMap fun field => field.2.map fun value => bytes field.1 ++ 58 :: value
  let listMeta ← cleanMeta lists.listMeta keys
  let ipGroups ← lists.ipGroups.mapM cleanGroup
  pure
    { whitelist, blacklist, ipGroups, listMeta
      enabled := normalizeWAFListEnabled lists.enabled
      urlWhitelist := cleanText lists.urlWhitelist
      urlBlacklist := cleanText lists.urlBlacklist
      uaWhitelist := cleanText lists.uaWhitelist
      uaBlacklist := cleanText lists.uaBlacklist }

/-! ## One website -/

/-- The copy that an update keeps. The loop over the limits ranges over the fresh map. -/
def cloneWAFSite (site : WAFSite) : WAFSite :=
  let fresh : Limits := ∅
  { site with
    rateLimits := (increasing fresh.keys).foldl
      (fun limits name => match fresh.lookup name with
        | some limit => limits.insert name limit
        | none => limits) fresh }

theorem cloneWAFSite_eq (site : WAFSite) : cloneWAFSite site = { site with rateLimits := ∅ } := by
  simp [cloneWAFSite]

def setSite (websiteID : ℕ) (site : WAFSite) (m : Memory) : Memory :=
  { m with wafSites := m.wafSites.insert websiteID site }

/-- Put back what an update found in the memory. -/
def restoreSite (websiteID : ℕ) (old : Option WAFSite) (m : Memory) : Memory :=
  { m with wafSites := match old with
    | some site => m.wafSites.insert websiteID (cloneWAFSite site)
    | none => m.wafSites.erase websiteID }

/-- An update of the settings of one website: `edit` makes the new ones. -/
def updateSite (h : Host) (websiteID : ℕ) (edit : Website → Option WAFSite → WAFSite) :
    Op Unit := do
  let backups ← snapshotWAFRuntime h
  let m ← look World.memory
  let website ← demand .notExist (getWebsite m.websites websiteID)
  let old := m.wafSites.lookup websiteID
  change (World.onMemory (setSite websiteID (edit website old)))
  orRollback h backups (restoreSite websiteID old) (persistWAFSites h)

def editSettings (websiteID : ℕ) (enabled : Bool) (mode : Bytes) (frequencyEnabled : Option Bool)
    (detectionLevel : Option ℤ) (website : Website) (old : Option WAFSite) : WAFSite :=
  let site := old.getD (defaultWAFSite websiteID website.aliasName)
  { site with
    websiteID, enabled, mode
    detectionLevel := detectionLevel.getD (if site.detectionLevel < 1 then 1 else site.detectionLevel)
    aliasName := if site.aliasName = [] then website.aliasName else site.aliasName
    frequencyEnabled := frequencyEnabled.getD site.frequencyEnabled
    rateLimits := if frequencyEnabled = some false then ∅ else site.rateLimits }

def editRule (websiteID : ℕ) (rule : WAFRule) (website : Website) (old : Option WAFSite) :
    WAFSite :=
  let site := old.getD (defaultWAFSite websiteID website.aliasName)
  { site with
    websiteID
    rules := if (lookupKey WAFRule.id rule.id site.rules).isSome then
        replaceKey WAFRule.id rule site.rules
      else site.rules ++ [rule] }

/-- A website without settings gets the zero value. -/
def dropRule (ruleID : Bytes) (_ : Website) (old : Option WAFSite) : WAFSite :=
  let site := old.getD {}
  { site with rules := site.rules.filter (·.id ≠ ruleID) }

/-! ## The node -/

/-- An update of the node: the memory is changed before the file is written. -/
def updateNode (h : Host) (path : Path) (document : Document) (set undo : Memory → Memory) :
    Op Unit := do
  let backups ← snapshotWAFRuntime h
  change (World.onMemory set)
  match ← attempt (atomicWriteFile path document) with
  | .ok () => orRollback h backups undo (persistWAFRuntime h)
  | .error e =>
      change (World.onMemory undo)
      throw e

def updateGlobal (h : Host) (cfg : WAFGlobalConfig) : Op Unit := do
  let names ← look World.names
  let cfg ← accept (checkGlobal names cfg)
  let old ← look (·.memory.global)
  updateNode h h.globalFile (.global cfg) (fun m => { m with global := cfg })
    fun m => { m with global := old }

def updateLists (h : Host) (lists : WAFAccessLists) : Op Unit := do
  let lists ← accept (checkLists lists)
  let old ← look (·.memory.lists)
  updateNode h h.listsFile (.lists lists) (fun m => { m with lists }) fun m => { m with lists := old }

/-- `updateGlobalRules`: the memory is changed after the file is written. -/
def updateGlobalRules (h : Host) (path : Path) (get : Memory → List WAFRule)
    (set : List WAFRule → Memory → Memory) (rules : List WAFRule) : Op Unit := do
  let now ← look World.now
  let rules ← accept (rules.mapM (checkWAFRule h now))
  let backups ← snapshotWAFRuntime h
  let old ← look fun w => get w.memory
  atomicWriteFile path (.rules rules)
  change (World.onMemory (set rules))
  orRollback h backups (set old) (persistWAFRuntime h)

def setDefaultRules (rules : List WAFRule) (m : Memory) : Memory := { m with wafDefaultRules := rules }

def setCustomRules (rules : List WAFRule) (m : Memory) : Memory := { m with wafCustomRules := rules }

/-! ## Applying the default rules -/

/-- `ListDefaultWAFRules`: the file is read into the memory. The rules of a list have all their
keys, with values of the right kinds, as the service writes them, so that nothing is left of the
rules they are decoded over. -/
def listDefaultWAFRules (h : Host) : Op (List WAFRule) := do
  match ← readFile h.defaultRulesFile with
  | some (.rules rules) =>
      change (World.onMemory (setDefaultRules rules))
      pure rules
  | some _ => throw .broken
  | none =>
      change (World.onMemory (setDefaultRules []))
      pure []

/-- Every website gets settings, and all settings the rules. -/
def spreadRules (rules : List WAFRule) (m : Memory) : Memory :=
  let filled := m.websites.foldl (fun sites website =>
    if website.id ∈ sites then sites
    else sites.insert website.id (defaultWAFSite website.id website.aliasName)) m.wafSites
  { m with wafSites := mapValues (fun site => { site with rules }) filled }

def writeSpreadRules (h : Host) (backups : List WafFileBackup) (undo : Memory → Memory)
    (websiteID : ℕ) : Op Unit := do
  let m ← look World.memory
  let site ← demand .notExist (m.wafSites.lookup websiteID)
  match getWebsite m.websites websiteID with
  | none =>
      change (World.onMemory undo)
      throw .notExist
  | some website =>
      orRollback h backups undo
        (atomicWriteFile (rulesFile (h.sitePath website .waf)) (.rules site.rules))

/-- The settings as they are put back. -/
def restoreSites (old : Finmap fun _ : ℕ => WAFSite) (m : Memory) : Memory :=
  { m with wafSites := mapValues cloneWAFSite old }

def spreadDefaults (h : Host) (rules : List WAFRule) (backups : List WafFileBackup) : Op Unit := do
  let old ← look (·.memory.wafSites)
  change (World.onMemory (spreadRules rules))
  let sites ← look (·.memory.wafSites)
  let ids ← nextOrder sites.keys
  ids.forM (writeSpreadRules h backups (restoreSites old))
  orRollback h backups (restoreSites old) (persistWAFRuntime h)

def applyDefaultWAFToWebsites (h : Host) : Op Unit := do
  let rules ← listDefaultWAFRules h
  let backups ← snapshotWAFRuntime h
  spreadDefaults h rules backups

inductive WafUpdate where
  | siteSettings (websiteID : ℕ) (enabled : Bool) (mode : Bytes) (frequencyEnabled : Option Bool)
      (detectionLevel : Option ℤ)
  | upsertRule (websiteID : ℕ) (rule : WAFRule)
  | deleteRule (websiteID : ℕ) (ruleID : Bytes)
  | global (cfg : WAFGlobalConfig)
  | lists (given : WAFAccessLists)
  | defaultRules (rules : List WAFRule)
  | customRules (rules : List WAFRule)
  | applyDefaults

def WafUpdate.run (h : Host) : WafUpdate → Op Unit
  | .siteSettings websiteID enabled mode frequencyEnabled detectionLevel => do
      accept (checkSiteSettings websiteID mode detectionLevel)
      updateSite h websiteID (editSettings websiteID enabled mode frequencyEnabled detectionLevel)
  | .upsertRule websiteID rule => do
      let now ← look World.now
      let rule ← accept (checkRule h now websiteID rule)
      updateSite h websiteID (editRule websiteID rule)
  | .deleteRule websiteID ruleID => do
      accept (checkRuleID websiteID ruleID)
      updateSite h websiteID (dropRule ruleID)
  | .global cfg => updateGlobal h cfg
  | .lists given => updateLists h given
  | .defaultRules rules =>
      updateGlobalRules h h.defaultRulesFile Memory.wafDefaultRules setDefaultRules rules
  | .customRules rules =>
      updateGlobalRules h h.customRulesFile Memory.wafCustomRules setCustomRules rules
  | .applyDefaults => applyDefaultWAFToWebsites h

end WorkMesh.Sites
