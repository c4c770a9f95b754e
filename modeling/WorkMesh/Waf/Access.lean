import WorkMesh.Waf.Lists
import WorkMesh.Waf.Rules
import WorkMesh.StateMachine.Run

/-!
# The phases of a request

`access.lua` runs before a request is served and `log.lua` after it. Both read
the configuration anew for every request. What they remember are counters and
bans, in a dictionary shared by the workers and, if there is one, in Redis.
-/

namespace WorkMesh.Waf

open Encoding StateMachine

/-! ## Configuration -/

structure Rule where
  id : Bytes := []
  name : Bytes := []
  location : Bytes := []
  key : Option Bytes := none
  operator : Bytes := []
  value : Bytes := []
  action : Option Bytes := none
  enabled : Option Bool := none

def WAFRule.encoded (rule : WAFRule) : Rule where
  id := rule.id
  name := rule.name
  location := rule.location
  key := if rule.key = [] then none else some rule.key
  operator := rule.operator
  value := rule.value
  action := some rule.action
  enabled := some rule.enabled

/-- A limit, with the names that its numbers may have. -/
structure FrequencyTable where
  enabled : Option Bool := none
  limit : Option ℤ := none
  count : Option ℤ := none
  times : Option ℤ := none
  period : Option ℤ := none
  seconds : Option ℤ := none
  interval : Option ℤ := none
  blockTime : Option ℤ := none
  block_time : Option ℤ := none
  banTime : Option ℤ := none
deriving DecidableEq

abbrev Limits := List (String × FrequencyTable)

structure RedisTable where
  enabled : Option Bool := none
  host : Bytes := []
  port : Option ℤ := none
  db : Option ℤ := none

/-- `global.json`. -/
structure GlobalTable where
  enabled : Option Bool := none
  mode : Option Bytes := none
  standardRules : Option Bool := none
  strictMode : Option Bool := none
  paranoiaLevel : Option ℤ := none
  inboundThreshold : Option ℤ := none
  requestBodyLimit : Option ℤ := none
  redis : Option RedisTable := none
  rateLimits : Option Limits := none
  frequencyLimit : Option Limits := none
  frequency : Option Limits := none

/-- `config.json` or `site.json` of a site. -/
structure SiteTable where
  enabled : Option Bool := none
  mode : Option Bytes := none
  frequencyEnabled : Option Bool := none
  detectionLevel : Option ℤ := none
  requestBodyLimit : Option ℤ := none
  rateLimits : Option Limits := none
  frequencyLimit : Option Limits := none
  rules : Option (List Rule) := none

/-- What can be decoded of the files. The files of a site are found by its directory. -/
structure Files where
  global : Option GlobalTable := none
  lists : Option AccessLists := none
  defaultRules : Option (List Rule) := none
  customRules : Option (List Rule) := none
  config : Bytes → Option SiteTable := fun _ => none
  site : Bytes → Option SiteTable := fun _ => none
  rules : Bytes → Option (List Rule) := fun _ => none

structure Request where
  remoteAddr : Bytes
  host : Bytes
  uri : Bytes := bytes "/"
  args : Bytes := []
  method : Bytes := bytes "GET"
  headers : List (Bytes × Bytes) := []
  contentLength : ℕ := 0
  body : Option Bytes := none

def hostName (r : Request) : Bytes :=
  let isWord := fun c : UInt8 => (48 ≤ c && c ≤ 57) || (65 ≤ c && c ≤ 90) || (97 ≤ c && c ≤ 122) ||
    c = 46 || c = 95 || c = 45
  if r.host ≠ [] ∧ r.host.all isWord then r.host else bytes "_"

def siteDir (host : Bytes) : Bytes := bytes "/www/wwwroot/" ++ host ++ bytes "/waf/"

namespace Files

variable (files : Files)

def defaultGlobal : GlobalTable where
  enabled := some true
  standardRules := some true
  mode := some (bytes "observe")
  requestBodyLimit := some 1048576

def globalTable : GlobalTable := files.global.getD defaultGlobal

def accessLists : AccessLists := files.lists.getD {}

/-- `decode_site_config`. -/
def decodeSiteConfig (dir : Bytes) (fallback : SiteTable) : SiteTable :=
  ((files.config dir).or (files.site dir)).getD fallback

def siteTable (host : Bytes) : SiteTable :=
  files.decodeSiteConfig (siteDir host) { enabled := some true, mode := files.globalTable.mode }

def siteRules (host : Bytes) : List Rule :=
  (files.rules (siteDir host)).getD ((files.siteTable host).rules.getD [])

end Files

/-- A mode, as it is compared with `block`. -/
def effectiveMode (global : GlobalTable) (site : SiteTable) : Bytes :=
  if global.mode = some (bytes "block") then bytes "block"
  else ((site.mode).or global.mode).getD (bytes "observe")

/-- A site that blocks. -/
def Blocks (global : GlobalTable) (site : SiteTable) : Prop :=
  effectiveMode global site = bytes "block"

instance (global : GlobalTable) (site : SiteTable) : Decidable (Blocks global site) :=
  inferInstanceAs (Decidable (_ = _))

structure RateConfig where
  limit : ℤ
  period : ℤ
  blockTime : Option ℤ

def FrequencyTable.rateConfig (value : FrequencyTable) : Option RateConfig :=
  match (value.limit.or value.count).or value.times,
    (value.period.or value.seconds).or value.interval with
  | some limit, some period =>
      if value.enabled = some false ∨ limit < 1 ∨ period < 1 then none
      else some ⟨limit, period, (value.blockTime.or value.block_time).or value.banTime⟩
  | _, _ => none

/-- The limits of a site, or those of the node. -/
def limitsOf (global : GlobalTable) (site : SiteTable) : Limits :=
  (((site.rateLimits.or site.frequencyLimit).or global.rateLimits).or
    (global.frequencyLimit.or global.frequency)).getD []

/-- What is limited. -/
inductive Kind where
  | access
  | url
  | notFound
  | attack
deriving DecidableEq

def Kind.name : Kind → String
  | .access => "access"
  | .url => "url"
  | .notFound => "notFound"
  | .attack => "attack"

def Kind.frequencyName : Kind → String
  | .access => "accessFrequency"
  | .url => "urlFrequency"
  | .notFound => "notFoundFrequency"
  | .attack => "attackFrequency"

def rateConfig (global : GlobalTable) (site : SiteTable) (kind : Kind) : Option RateConfig :=
  if site.frequencyEnabled = some false then none
  else
  let limits := limitsOf global site
  ((limits.lookup kind.name).or (limits.lookup kind.frequencyName)).bind
    FrequencyTable.rateConfig

/-- How long a ban lasts. -/
def RateConfig.banTTL (config : RateConfig) : ℕ :=
  match config.blockTime with
  | some minutes => if 0 < minutes then (minutes * 60).toNat else config.period.toNat
  | none => config.period.toNat

/-! ## Counters and bans -/

structure Entry where
  count : ℕ
  expires : ℕ

abbrev Store := Bytes → Option Entry

namespace Store

variable (s : Store) (now : ℕ) (key : Bytes)

def live : Option Entry := (s key).filter fun entry => now < entry.expires

def set (entry : Entry) : Store := fun other => if other = key then some entry else s other

/-- One is added to a counter that expires after a period. -/
def incr (period : ℕ) : ℕ × Store :=
  match s.live now key with
  | some entry => (entry.count + 1, s.set key { entry with count := entry.count + 1 })
  | none => (1, s.set key ⟨1, now + period⟩)

end Store

/-- What becomes of a command to Redis. -/
inductive Fate where
  | unsent
  | unanswered
  | answered

/-- A server with its database. -/
abbrev Server := Bytes × ℤ × ℤ

/-- The memory of the filter, and what becomes of the commands of the current request: which
bans can be looked up, and the writes in their order. -/
structure World where
  now : ℕ := 0
  dict : Store := fun _ => none
  redis : Server → Store := fun _ _ => none
  lookups : Bytes → Bool := fun _ => true
  fates : List Fate := []

/-- The server that commands go to. -/
def GlobalTable.server (global : GlobalTable) : Option Server :=
  match global.redis with
  | none => none
  | some redis =>
      let host := trim redis.host
      let port := redis.port.getD 6379
      let db := redis.db.getD 0
      if redis.enabled ≠ some true ∨ host = [] ∨ port < 1 ∨ 65535 < port ∨ db < 0 then none
      else some (host, port, db)

namespace World

variable (w : World) (global : GlobalTable)

/-- `redis_command` for a command that writes. -/
def redisCommand {α : Type} (command : Store → α × Store) : Option α × World :=
  match global.server with
  | none => (none, w)
  | some server =>
      let (reply, store) := command (w.redis server)
      let written := { w with
        redis := fun other => if other = server then store else w.redis other
        fates := w.fates.tail }
      match w.fates.head?.getD .answered with
      | .unsent => (none, { w with fates := w.fates.tail })
      | .unanswered => (none, written)
      | .answered => (some reply, written)

/-- `redis_exists`. -/
def redisExists (key : Bytes) : Bool :=
  match global.server with
  | none => false
  | some server => w.lookups key && ((w.redis server).live w.now key).isSome

end World

def banKey (kind : Kind) (clientIP suffix : Bytes) : Bytes :=
  bytes "ban:" ++ bytes kind.name ++ bytes ":" ++ clientIP ++ bytes ":" ++ suffix

def rateKey (kind : Kind) (clientIP suffix : Bytes) : Bytes :=
  bytes "rate:" ++ bytes kind.name ++ bytes ":" ++ clientIP ++ bytes ":" ++ suffix

/-- The bans of a request. -/
def banKeys (r : Request) : List Bytes :=
  [banKey .access r.remoteAddr (bytes "*"), banKey .url r.remoteAddr r.uri,
    banKey .notFound r.remoteAddr (bytes "*"), banKey .attack r.remoteAddr (bytes "*")]

def World.banned (w : World) (global : GlobalTable) (key : Bytes) : Bool :=
  (w.dict.live w.now key).isSome || w.redisExists global key

namespace World

variable (w : World) (global : GlobalTable)

/-- The counter of a key, in Redis or else in the dictionary. -/
def count (key : Bytes) (period : ℕ) : ℕ × World :=
  match w.redisCommand global fun store => store.incr w.now key period with
  | (some n, w) => (n, w)
  | (none, w) =>
      let (n, dict) := w.dict.incr w.now key period
      (n, { w with dict })

/-- A ban is written to both stores. -/
def ban (key : Bytes) (ttl : ℕ) : World :=
  let w := { w with dict := w.dict.set key ⟨1, w.now + ttl⟩ }
  (w.redisCommand global fun store => ((), store.set key ⟨1, w.now + ttl⟩)).2

end World

/-- The configuration of a request. -/
structure Context where
  global : GlobalTable
  lists : AccessLists
  site : SiteTable
  clientIP : Bytes

namespace Context

variable (c : Context)

/-- `rate_hit`. -/
def rateHit (w : World) (kind : Kind) (suffix : Bytes) : Bool × World :=
  match rateConfig c.global c.site kind with
  | none => (false, w)
  | some config =>
      let (n, w) := w.count c.global (rateKey kind c.clientIP suffix) config.period.toNat
      if (n : ℤ) ≤ config.limit then (false, w)
      else if Blocks c.global c.site then
        (true, w.ban c.global (banKey kind c.clientIP suffix) config.banTTL)
      else (true, w)

end Context

/-! ## Rules -/

/-- Why a request is ended. -/
inductive Cause where
  | blacklist
  | ban
  | rate
  | rule
  | standard
deriving DecidableEq

/-- What the access phase comes to. -/
inductive Outcome where
  | served
  | denied (status : ℕ) (cause : Cause)
deriving DecidableEq

/-- What a list of rules comes to: the next one is tried, or the phase is over. -/
inductive Verdict where
  | next
  | done (outcome : Outcome)
deriving DecidableEq

def headerValue (r : Request) (key : Bytes) : Bytes :=
  ((r.headers.find? fun header => lower header.1 = lower key).map Prod.snd).getD []

def valueFor (r : Request) (body : Bytes) (rule : Rule) : Bytes :=
  let location := rule.location
  if location = bytes "ip" ∨ location = bytes "ipGroup" ∨ location = bytes "ip-group" then
    r.remoteAddr
  else if location = bytes "uri" then r.uri
  else if location = bytes "args" then r.args
  else if location = bytes "method" then r.method
  else if location = bytes "body" then body
  else if location = bytes "header" then headerValue r (rule.key.getD rule.name)
  else if location = bytes "cookie" then headerValue r (bytes "Cookie")
  else []

/-- `^group:(.+)$` and the like. -/
def afterMark (mark : String) (value : Bytes) : Option Bytes :=
  if (bytes mark).isPrefixOf value ∧ value.length ≠ (bytes mark).length then
    some (value.drop (bytes mark).length)
  else none

def referencedIPGroup (lists : AccessLists) (rule : Rule) : Option Bytes :=
  if lists.listEnabled "ipGroups" = false then none
  else
  let key := lower (trim (rule.key.getD []))
  let expected := trim rule.value
  if rule.location = bytes "ipGroup" ∨ rule.location = bytes "ip-group" ∨
      key = bytes "ipgroup" ∨ key = bytes "ip-group" then some expected
  else if rule.location = bytes "ip" ∧ lists.ipGroup expected ≠ none then some expected
  else
    ((afterMark "@group:" expected).or (afterMark "group:" expected)).or
      (afterMark "ip-group:" expected)

section Phase
variable (find : Bytes → Bytes → Bool)

/-- `matches`, where `find` is the search for a regular expression. -/
def ruleMatches (lists : AccessLists) (clientIP : Bytes) (rule : Rule) (value : Bytes) : Bool :=
  match referencedIPGroup lists rule with
  | some group => lists.ipGroupMatch clientIP group
  | none =>
      if rule.operator = bytes "equals" then decide (value = rule.value)
      else if rule.operator = bytes "contains" then contains (lower value) (lower rule.value)
      else if rule.operator = bytes "regex" then find value rule.value
      else if rule.operator = bytes "ip-cidr" then cidrMatch value rule.value
      else false

/-- `apply_rules`. -/
def applyRules (c : Context) (r : Request) (body : Bytes) : List Rule → World → Verdict × World
  | [], w => (.next, w)
  | rule :: rules, w =>
      if rule.enabled ≠ some false ∧
          ruleMatches find c.lists c.clientIP rule (valueFor r body rule) = true then
        let action := rule.action.getD (bytes "block")
        if action = bytes "allow" then (.done .served, w)
        else if action = bytes "block" then
          match c.rateHit w .attack (bytes "*") with
          | (true, w) =>
              if Blocks c.global c.site then (.done (.denied 429 .rate), w)
              else applyRules c r body rules w
          | (false, w) =>
              if Blocks c.global c.site then (.done (.denied 403 .rule), w)
              else applyRules c r body rules w
        else applyRules c r body rules w
      else applyRules c r body rules w

def standardPatterns : List Bytes :=
  [bytes "(?i)\\bunion\\s+select\\b|\\b(or|and)\\s+['\"]?1['\"]?\\s*=\\s*['\"]?1",
    bytes "(?i)<script\\b|javascript:", bytes "\\.\\./|/etc/passwd|boot\\.ini"]

def strictPatterns : List Bytes :=
  [bytes "(?i)(;|\\||`|\\$\\().*(cat|curl|wget|chmod|id|whoami)",
    bytes "(?i)\\b(nikto|nmap|masscan)\\b"]

/-- `inspect_standard_rules`. -/
def inspectStandardRules (c : Context) (r : Request) (body : Bytes) : Verdict :=
  if c.global.standardRules = some false then .next
  else
  let sample := (bytes "\n").intercalate [r.uri, r.args, r.method, body,
    headerValue r (bytes "User-Agent"), headerValue r (bytes "Cookie")]
  let level := (c.site.detectionLevel.or c.global.paranoiaLevel).getD 1
  let threshold := c.global.inboundThreshold.getD 5
  let score := 5 * (standardPatterns.countP (find sample) +
    (if 2 ≤ level ∧ contains (lower sample) (bytes "sqlmap") = true then 1 else 0) +
    (if c.global.strictMode = some true then strictPatterns.countP (find sample) else 0))
  if (score : ℤ) < threshold then .next
  else if Blocks c.global c.site then .done (.denied 403 .standard)
  else .done .served

/-! ## Phases -/

/-- The lists of addresses, paths and user agents. -/
def checkLists (lists : AccessLists) (r : Request) : Verdict :=
  let agent := headerValue r (bytes "User-Agent")
  if lists.listEnabled "whitelist" ∧ lists.inList r.remoteAddr lists.whitelist "whitelist" ∨
      lists.listEnabled "urlWhitelist" ∧
        lists.textInList r.uri lists.urlWhitelist "urlWhitelist" ∨
      lists.listEnabled "uaWhitelist" ∧ lists.textInList agent lists.uaWhitelist "uaWhitelist" then
    .done .served
  else if lists.listEnabled "blacklist" ∧
        lists.inList r.remoteAddr lists.blacklist "blacklist" ∨
      lists.listEnabled "urlBlacklist" ∧
        lists.textInList r.uri lists.urlBlacklist "urlBlacklist" ∨
      lists.listEnabled "uaBlacklist" ∧ lists.textInList agent lists.uaBlacklist "uaBlacklist" then
    .done (.denied 403 .blacklist)
  else .next

/-- The rules, one list after another. -/
def applyRuleLists (c : Context) (r : Request) (body : Bytes) :
    List (List Rule) → World → Outcome × World
  | [], w => (.served, w)
  | rules :: lists, w =>
      match applyRules find c r body rules w with
      | (.done outcome, w) => (outcome, w)
      | (.next, w) => applyRuleLists c r body lists w

/-- The part of `access.lua` after the bans. -/
def checkRates (files : Files) (c : Context) (r : Request) (w : World) : Outcome × World :=
  let limited :=
    match c.rateHit w .access (bytes "*") with
    | (true, w) => (true, w)
    | (false, w) => c.rateHit w .url r.uri
  if limited.1 ∧ Blocks c.global c.site then (.denied 429 .rate, limited.2)
  else
  let limit := (c.site.requestBodyLimit.or c.global.requestBodyLimit).getD 1048576
  let body := if (r.contentLength : ℤ) ≤ limit then r.body.getD [] else []
  match inspectStandardRules find c r body with
  | .done outcome => (outcome, limited.2)
  | .next =>
      applyRuleLists find c r body [files.defaultRules.getD [], files.customRules.getD [],
        files.siteRules (hostName r)] limited.2

def Files.context (files : Files) (r : Request) : Context where
  global := files.globalTable
  lists := files.accessLists
  site := files.siteTable (hostName r)
  clientIP := r.remoteAddr

/-- `access.lua`. -/
def access (files : Files) (r : Request) (w : World) : Outcome × World :=
  let c := files.context r
  if c.global.enabled ≠ some true then (.served, w)
  else
  match checkLists c.lists r with
  | .done outcome => (outcome, w)
  | .next =>
      if c.site.enabled ≠ some true then (.served, w)
      else if (banKeys r).any (w.banned c.global) then (.denied 429 .ban, w)
      else checkRates find files c r w

end Phase

/-- `log.lua`. -/
def log (files : Files) (r : Request) (status : ℕ) (w : World) : World :=
  let global := files.global.getD { enabled := some true }
  let site := files.decodeSiteConfig (siteDir (hostName r)) { enabled := some true }
  if global.enabled ≠ some true ∨ site.enabled ≠ some true ∨ status ≠ 404 then w
  else
  match rateConfig global site .notFound with
  | none => w
  | some config =>
      let key := bytes "rate:notFound:" ++ r.remoteAddr
      let (n, w) := w.count global key config.period.toNat
      if (n : ℤ) ≤ config.limit then w
      else if Blocks global site then
        w.ban global (banKey .notFound r.remoteAddr (bytes "*")) config.banTTL
      else w

/-! ## Runs -/

/-- A filter with the files it reads. -/
structure Filter where
  files : Files := {}
  world : World := {}

/-- A request comes in, or is logged; the configuration changes; time passes; an entry of the
dictionary is evicted. -/
inductive Event where
  | access (request : Request) (lookups : Bytes → Bool) (fates : List Fate)
  | log (request : Request) (status : ℕ) (fates : List Fate)
  | configure (files : Files)
  | elapse (seconds : ℕ)
  | evict (key : Bytes)

def Filter.step (find : Bytes → Bytes → Bool) (f : Filter) : Event → Filter
  | .access request lookups fates =>
      { f with world := (Waf.access find f.files request { f.world with lookups, fates }).2 }
  | .log request status fates =>
      { f with world := Waf.log f.files request status { f.world with fates } }
  | .configure files => { f with files }
  | .elapse seconds => { f with world := { f.world with now := f.world.now + seconds } }
  | .evict key => { f with world := { f.world with
      dict := fun other => if other = key then none else f.world.dict other } }

end WorkMesh.Waf
