import WorkMesh.Encoding.Address
import WorkMesh.Encoding.Cookie
import WorkMesh.Encoding.Path
import WorkMesh.StateMachine.Fallible
import WorkMesh.StateMachine.FileTree
import WorkMesh.StateMachine.Walk
import WorkMesh.Waf.Rules

/-!
# The data of the website service

Websites, their domains and their firewall settings, as the service holds them
in memory; the rows of the database; the documents in the files of the
firewall. A map of the source is a finite map, and a file holds the decoded
document, not its text.
-/

namespace WorkMesh.Sites

open Encoding StateMachine
open Waf (WAFRule)

/-! ## Records -/

structure StreamServer where
  server : Bytes := []
  weight : ℤ := 0
  failTimeout : ℤ := 0
  failTimeoutUnit : Bytes := []
  maxFails : ℤ := 0
  maxConns : ℤ := 0
  flag : Bytes := []
deriving DecidableEq

structure WebsiteDomain where
  id : Bytes := []
  websiteID : ℕ := 0
  domain : Bytes := []
  port : ℤ := 0
  ssl : Bool := false
  remark : Bytes := []
deriving DecidableEq

/-- A website. The times are nanoseconds. -/
structure Website where
  id : ℕ := 0
  primaryDomain : Bytes := []
  aliasName : Bytes := []
  type : Bytes := []
  remark : Bytes := []
  siteDir : Bytes := []
  status : Bytes := []
  httpConfig : Bytes := []
  proxy : Bytes := []
  proxyType : Bytes := []
  errorLog : Bool := false
  accessLog : Bool := false
  defaultServer : Bool := false
  ipv6 : Bool := false
  rewrite : Bytes := []
  websiteSSLID : ℕ := 0
  runtimeID : Bytes := []
  appInstallID : ℕ := 0
  appInstallRef : Bytes := []
  ftpID : ℕ := 0
  parentWebsiteID : ℕ := 0
  user : Bytes := []
  group : Bytes := []
  dbType : Bytes := []
  dbID : ℕ := 0
  streamPorts : Bytes := []
  udp : Bool := false
  algorithm : Bytes := []
  servers : List StreamServer := []
  favorite : Bool := false
  websiteGroupID : ℕ := 0
  protocol : Bytes := []
  expireDate : ℤ := 0
  createdAt : ℤ := 0
  updatedAt : ℤ := 0
  domains : List WebsiteDomain := []
deriving DecidableEq

structure WAFFrequencyLimit where
  enabled : Bool := false
  mode : Bytes := []
  period : ℤ := 0
  count : ℤ := 0
  blockTime : ℤ := 0
deriving DecidableEq

/-- Limits by their names. -/
abbrev Limits := Finmap fun _ : Bytes => WAFFrequencyLimit

structure WAFSite where
  websiteID : ℕ := 0
  aliasName : Bytes := []
  enabled : Bool := false
  mode : Bytes := []
  detectionLevel : ℤ := 0
  frequencyEnabled : Bool := false
  rateLimits : Limits := ∅
  rules : List WAFRule := []
deriving DecidableEq

structure WAFRedisConfig where
  enabled : Bool := false
  host : Bytes := []
  port : ℤ := 0
  password : Bytes := []
  db : ℤ := 0
deriving DecidableEq

structure WAFGlobalConfig where
  enabled : Bool := false
  standardRules : Bool := false
  mode : Bytes := []
  paranoiaLevel : ℤ := 0
  inboundThreshold : ℤ := 0
  requestBodyLimit : ℤ := 0
  strictMode : Bool := false
  redis : Option WAFRedisConfig := none
  frequency : Limits := ∅
  frequencyLimit : Limits := ∅
deriving DecidableEq

structure WAFListMeta where
  enabled : Bool := false
  remark : Bytes := []
deriving DecidableEq

structure WAFIPGroup where
  name : Bytes := []
  entries : List Bytes := []
  enabled : Bool := false
deriving DecidableEq

structure WAFAccessLists where
  whitelist : List Bytes := []
  blacklist : List Bytes := []
  enabled : Finmap (fun _ : Bytes => Bool) := ∅
  urlWhitelist : List Bytes := []
  urlBlacklist : List Bytes := []
  uaWhitelist : List Bytes := []
  uaBlacklist : List Bytes := []
  ipGroups : List WAFIPGroup := []
  listMeta : Finmap (fun _ : Bytes => WAFListMeta) := ∅
deriving DecidableEq

/-- A decoded JSON value. -/
inductive Value where
  | null
  | flag (b : Bool)
  | number (n : ℤ)
  | text (t : Bytes)
  | items (values : List Value)
  | entries (values : List (Bytes × Value))

/-- The settings of a website by their types. -/
abbrev Settings := Finmap fun _ : Bytes => Value

/-- The fields of `WebsiteService` that operations change. -/
structure Memory where
  websites : List Website := []
  wafSites : Finmap (fun _ : ℕ => WAFSite) := ∅
  wafDefaultRules : List WAFRule := []
  wafCustomRules : List WAFRule := []
  global : WAFGlobalConfig := {}
  lists : WAFAccessLists := {}
  domains : Finmap (fun _ : ℕ => List WebsiteDomain) := ∅
  configs : Finmap (fun _ : ℕ => Settings) := ∅

/-! ## Files -/

abbrev Path := List Bytes

/-- What a file of the service holds. -/
inductive Document where
  | site (config : WAFSite)
  | rules (rules : List WAFRule)
  | global (config : WAFGlobalConfig)
  | lists (lists : WAFAccessLists)
  /-- The manifest of the last reload: the files that its hash is taken of, and the time. -/
  | manifest (hashed : List (Path × Document)) (appliedAt : ℤ)
  | text (content : Bytes)

abbrev Files := FileTree Bytes Document

/-- A row of `website_domains` without its id. -/
structure DomainRow where
  websiteID : ℕ
  domain : Bytes
  port : ℤ
  ssl : Bool
deriving DecidableEq

/-- The tables `websites`, `website_domains` and `website_settings` by their primary keys, and
the greatest id that `website_domains` ever had. -/
structure Database where
  websites : Finmap (fun _ : ℕ => Website) := ∅
  domains : Finmap (fun _ : ℤ => DomainRow) := ∅
  settings : Finmap (fun _ : ℕ × Bytes => Value) := ∅
  lastDomainID : ℤ := 0

/-! ## The service -/

/-- Why an operation fails. -/
inductive Failure where
  /-- It is refused with a text. -/
  | refused (text : Bytes)
  | notExist
  /-- A step of the operating system, of the database or of OpenResty fails. -/
  | broken
  /-- `errors.Join` of an error and those met in making up for it. -/
  | joined (cause : Failure) (more : List Failure)

/-- The service with its files and its database. What surrounds it is given in advance: the
answers of OpenResty, the orders in which the maps of the websites and those of names are
walked, what a removal of a directory has taken by the time it fails, and the time. -/
structure World where
  memory : Memory := {}
  files : Files
  database : Database := {}
  answers : List Bool := []
  orders : List (List ℕ) := []
  names : List Bytes := []
  taken : List Path := []
  now : ℤ := 0

/-- What the environment variables and the start of the service fix. -/
structure Host where
  websiteRoot : Bytes
  wafRoot : Path
  wafGeneratedRoot : Path
  workingDirectory : Bytes
  /-- A write must be confirmed by OpenResty. -/
  wafRuntimeRequired : Bool
  /-- `regexp.Compile` accepts the expression. -/
  compiles : Bytes → Bool

/-- The operations of the service. -/
abbrev Op := Fallible Failure World

end WorkMesh.Sites
