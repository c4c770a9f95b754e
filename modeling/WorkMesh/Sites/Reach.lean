import WorkMesh.Sites.Firewall
import WorkMesh.Waf.Access

/-!
# The settings that reach a host

The service stores the settings of the firewall by websites. The filter in
front of the websites derives a directory from the host of a request, and reads
the settings there. This module relates what it reads to what is stored.
-/

namespace WorkMesh.Sites

open Encoding StateMachine
open Waf (WAFRule)

/-! ## The hosts of the websites -/

/-- The names that are attached to a website: its primary domain and those of its records. -/
def attachedNames (domains : Finmap fun _ : ℕ => List WebsiteDomain) (website : Website) :
    List Bytes :=
  website.primaryDomain :: ((domains.lookup website.id).getD []).map WebsiteDomain.domain

/-- The host of the requests for a name. -/
def hostOf (name : Bytes) : Bytes := toLower (trimSpace name)

/-- The settings of a website, or those that it starts with. -/
def wafSiteOf (m : Memory) (website : Website) : WAFSite :=
  (m.wafSites.lookup website.id).getD (defaultWAFSite website.id website.aliasName)

theorem mem_hostModes {m : Memory} {host mode : Bytes} :
    (host, mode) ∈ hostModes m ↔
      ∃ website ∈ m.websites, host ∈ (attachedNames m.domains website).map hostOf ∧ host ≠ [] ∧
        mode = hostMode m.global (wafSiteOf m website) := by
  unfold hostModes
  rw [List.mem_eraseDups, List.mem_flatMap]
  constructor
  · rintro ⟨website, hwebsite, hmem⟩
    obtain ⟨name, hname, heq⟩ := List.mem_map.mp hmem
    obtain ⟨hname, hne⟩ := List.mem_filter.mp hname
    obtain ⟨rfl, rfl⟩ := Prod.mk.inj heq
    exact ⟨website, hwebsite, hname, of_decide_eq_true hne, rfl⟩
  · rintro ⟨website, hwebsite, hname, hne, rfl⟩
    refine ⟨website, hwebsite, ?_⟩
    apply List.mem_map_of_mem
    exact List.mem_filter.mpr ⟨hname, decide_eq_true hne⟩

/-! ## The documents as the filter decodes them -/

def WAFFrequencyLimit.table (limit : WAFFrequencyLimit) : Waf.FrequencyTable where
  enabled := some limit.enabled
  count := some limit.count
  period := some limit.period
  blockTime := some limit.blockTime

/-- The names of limits that the filter asks for. -/
def limitNames : List String :=
  [Waf.Kind.access, .url, .notFound, .attack].flatMap fun kind => [kind.name, kind.frequencyName]

/-- Limits, `none` where the document leaves them out. -/
def limitsTable (limits : Limits) : Option Waf.Limits :=
  if limits = (∅ : Limits) then none
  else some (limitNames.filterMap fun name =>
    (limits.lookup (bytes name)).map fun limit => (name, limit.table))

def WAFSite.table (site : WAFSite) : Waf.SiteTable where
  enabled := some site.enabled
  mode := some site.mode
  frequencyEnabled := some site.frequencyEnabled
  detectionLevel := some site.detectionLevel
  rateLimits := limitsTable site.rateLimits
  rules := some (site.rules.map WAFRule.encoded)

def WAFRedisConfig.table (redis : WAFRedisConfig) : Waf.RedisTable where
  enabled := some redis.enabled
  host := redis.host
  port := some redis.port
  db := if redis.db = 0 then none else some redis.db

def WAFGlobalConfig.table (global : WAFGlobalConfig) : Waf.GlobalTable where
  enabled := some global.enabled
  mode := some global.mode
  standardRules := some global.standardRules
  strictMode := if global.strictMode then some true else none
  paranoiaLevel := some global.paranoiaLevel
  inboundThreshold := some global.inboundThreshold
  requestBodyLimit := some global.requestBodyLimit
  redis := global.redis.map WAFRedisConfig.table
  frequency := limitsTable global.frequency
  frequencyLimit := limitsTable global.frequencyLimit

def Document.siteTable : Document → Option Waf.SiteTable
  | .site config => some config.table
  | _ => none

def Document.globalTable : Document → Option Waf.GlobalTable
  | .global config => some config.table
  | _ => none

def Document.ruleTables : Document → Option (List Waf.Rule)
  | .rules list => some (list.map WAFRule.encoded)
  | _ => none

/-- Where a path below `/www/wwwroot` stands, which is the root of the websites. -/
def Host.mounted (h : Host) (dir : Bytes) : Path :=
  h.path (joinPath h.siteRootPath (dir.drop (bytes "/www/wwwroot/").length))

/-- The settings in the files, as the filter finds them. -/
def Host.filterFiles (h : Host) (content : Path → Option Document) : Waf.Files where
  global := (content h.globalFile).bind Document.globalTable
  config := fun dir => (content (configFile (h.mounted dir))).bind Document.siteTable
  site := fun dir => (content (h.mounted dir ++ [bytes "site.json"])).bind Document.siteTable
  rules := fun dir => (content (rulesFile (h.mounted dir))).bind Document.ruleTables

/-! ## Treatment -/

/-- How the filter treats the requests of a site that it does not pass over. -/
structure Treatment where
  mode : Bytes
  rules : List Waf.Rule
  rate : Waf.Kind → Option Waf.RateConfig

/-- How `access.lua` treats a request, `none` where a switch is off. -/
def treatment (files : Waf.Files) (r : Waf.Request) : Option Treatment :=
  let c := files.context r
  if c.global.enabled ≠ some true ∨ c.site.enabled ≠ some true then none
  else some
    { mode := Waf.effectiveMode c.global c.site
      rules := files.siteRules (Waf.hostName r)
      rate := Waf.rateConfig c.global c.site }

/-- The limits stored for a website, or else those of the node. -/
def storedLimits (global : WAFGlobalConfig) (site : WAFSite) : Limits :=
  if site.rateLimits ≠ (∅ : Limits) then site.rateLimits
  else if global.frequencyLimit ≠ (∅ : Limits) then global.frequencyLimit
  else global.frequency

def storedRate (global : WAFGlobalConfig) (site : WAFSite) (kind : Waf.Kind) :
    Option Waf.RateConfig :=
  if site.frequencyEnabled then
    let limits := storedLimits global site
    ((limits.lookup (bytes kind.name)).or (limits.lookup (bytes kind.frequencyName))).bind
      fun limit =>
        if limit.enabled ∧ 1 ≤ limit.count ∧ 1 ≤ limit.period then
          some ⟨limit.count, limit.period, some limit.blockTime⟩
        else none
  else none

/-- How the requests of a website are to be treated. -/
def storedTreatment (global : WAFGlobalConfig) (site : WAFSite) : Option Treatment :=
  if global.enabled && site.enabled then some
    { mode := if global.mode = bytes "block" then bytes "block" else site.mode
      rules := site.rules.map WAFRule.encoded
      rate := storedRate global site }
  else none

/-- The mode of the engine that goes with a treatment. -/
def engineFor : Option Treatment → Bytes
  | none => bytes "Off"
  | some t => if t.mode = bytes "block" then bytes "On" else bytes "DetectionOnly"

/-- The rule that is generated for a host sets the mode that the settings ask for. -/
theorem engineFor_storedTreatment (global : WAFGlobalConfig) (site : WAFSite) :
    engineFor (storedTreatment global site) = hostMode global site := by
  unfold storedTreatment hostMode
  cases global.enabled with
  | false => rfl
  | true =>
      cases site.enabled with
      | false => rfl
      | true =>
          by_cases hblock : global.mode = bytes "block"
          · simp [engineFor, hblock]
          · simp [engineFor, hblock]

/-! ## Reading back what is stored -/

theorem mem_limitNames (kind : Waf.Kind) :
    kind.name ∈ limitNames ∧ kind.frequencyName ∈ limitNames := by
  cases kind <;> decide

theorem lookup_filterMap {α β : Type} (names : List String) (f : Bytes → Option α) (g : α → β)
    (name : String) :
    (names.filterMap fun n => (f (bytes n)).map fun a => (n, g a)).lookup name =
      if name ∈ names then (f (bytes name)).map g else none := by
  induction names with
  | nil => rfl
  | cons first names ih =>
      by_cases hname : name = first
      · subst hname
        cases hf : f (bytes name) with
        | none =>
            rw [List.filterMap_cons_none (by rw [hf]; rfl), ih, hf]
            simp
        | some a =>
            rw [List.filterMap_cons_some (by rw [hf]; rfl)]
            simp
      · have hrest : (name ∈ first :: names) ↔ name ∈ names := by simp [hname]
        cases hf : f (bytes first) with
        | none => rw [List.filterMap_cons_none (by rw [hf]; rfl), ih, if_congr hrest rfl rfl]
        | some a =>
            rw [List.filterMap_cons_some (by rw [hf]; rfl), List.lookup_cons,
              beq_false_of_ne hname, ih, if_congr hrest rfl rfl]

/-- A limit in the table is the one that is stored. -/
theorem lookup_limitsTable {limits : Limits} {tables : Waf.Limits}
    (h : limitsTable limits = some tables) {name : String} (hname : name ∈ limitNames) :
    tables.lookup name = (limits.lookup (bytes name)).map WAFFrequencyLimit.table := by
  unfold limitsTable at h
  split at h
  · cases h
  · rw [← Option.some.inj h]
    exact (lookup_filterMap limitNames (limits.lookup ·) _ name).trans (if_pos hname)

theorem rateConfig_table (limit : WAFFrequencyLimit) :
    limit.table.rateConfig =
      if limit.enabled ∧ 1 ≤ limit.count ∧ 1 ≤ limit.period then
        some ⟨limit.count, limit.period, some limit.blockTime⟩
      else none := by
  have hcond : (some limit.enabled = some false ∨ limit.count < 1 ∨ limit.period < 1) ↔
      ¬ (limit.enabled = true ∧ 1 ≤ limit.count ∧ 1 ≤ limit.period) := by
    cases limit.enabled with
    | false => simp
    | true => simp; omega
  change (if some limit.enabled = some false ∨ limit.count < 1 ∨ limit.period < 1 then none
    else some _) = _
  rw [if_congr hcond rfl rfl, ite_not]
  rfl

theorem limitsTable_of_ne {limits : Limits} (h : limits ≠ ∅) :
    ∃ tables, limitsTable limits = some tables := ⟨_, if_neg h⟩

theorem lookup_limitsOf (global : WAFGlobalConfig) (site : WAFSite) {name : String}
    (hname : name ∈ limitNames) :
    (Waf.limitsOf global.table site.table).lookup name =
      ((storedLimits global site).lookup (bytes name)).map WAFFrequencyLimit.table := by
  have hof : Waf.limitsOf global.table site.table =
      ((limitsTable site.rateLimits).or
        ((limitsTable global.frequencyLimit).or (limitsTable global.frequency))).getD [] := by
    unfold Waf.limitsOf
    simp [WAFSite.table, WAFGlobalConfig.table]
  rw [hof, storedLimits]
  by_cases hsite : site.rateLimits = ∅
  · rw [if_neg (not_not.mpr hsite), hsite]
    by_cases hlimit : global.frequencyLimit = ∅
    · rw [if_neg (not_not.mpr hlimit), hlimit]
      by_cases hfrequency : global.frequency = ∅
      · rw [hfrequency]
        rfl
      · obtain ⟨tables, htables⟩ := limitsTable_of_ne hfrequency
        rw [htables]
        exact lookup_limitsTable htables hname
    · obtain ⟨tables, htables⟩ := limitsTable_of_ne hlimit
      rw [if_pos hlimit, htables]
      exact lookup_limitsTable htables hname
  · obtain ⟨tables, htables⟩ := limitsTable_of_ne hsite
    rw [if_pos hsite, htables]
    exact lookup_limitsTable htables hname

/-- The filter limits requests as the settings say. -/
theorem rateConfig_stored (global : WAFGlobalConfig) (site : WAFSite) (kind : Waf.Kind) :
    Waf.rateConfig global.table site.table kind = storedRate global site kind := by
  have hnames := mem_limitNames kind
  unfold Waf.rateConfig storedRate
  cases hfrequency : site.frequencyEnabled with
  | false => simp [WAFSite.table, hfrequency]
  | true =>
      have hon : site.table.frequencyEnabled ≠ some false := by simp [WAFSite.table, hfrequency]
      rw [if_neg hon, if_pos rfl]
      dsimp only
      rw [lookup_limitsOf global site hnames.1, lookup_limitsOf global site hnames.2,
        ← Option.map_or, Option.bind_map]
      congr 1
      funext limit
      exact rateConfig_table limit

/-! ## From the directory of a host -/

/-- The service has written its settings: those of every website stand in its directory, and
the configuration of the node stands in its file or is the one that its absence means. -/
structure Persisted (h : Host) (m : Memory) (content : Path → Option Document) : Prop where
  config : ∀ id website site, getWebsite m.websites id = some website →
    m.wafSites.lookup id = some site →
    content (configFile (h.sitePath website .waf)) = some (.site site)
  rules : ∀ id website site, getWebsite m.websites id = some website →
    m.wafSites.lookup id = some site →
    content (rulesFile (h.sitePath website .waf)) = some (.rules site.rules)
  global : content h.globalFile = some (.global m.global) ∨
    content h.globalFile = none ∧ m.global.enabled = true ∧ m.global.mode = bytes "observe" ∧
      m.global.frequency = ∅ ∧ m.global.frequencyLimit = ∅

section Treatment
variable {h : Host} {m : Memory} {content : Path → Option Document} {site : WAFSite}

/-- What the filter takes for the configuration of the node. -/
theorem Persisted.globalTable (hp : Persisted h m content) :
    (h.filterFiles content).globalTable.enabled = some m.global.enabled ∧
      (h.filterFiles content).globalTable.mode = some m.global.mode ∧
      ∀ s : WAFSite, Waf.limitsOf (h.filterFiles content).globalTable s.table =
        Waf.limitsOf m.global.table s.table := by
  rcases hp.global with hfile | ⟨hnone, henabled, hmode, hfrequency, hlimit⟩
  · have htable : (h.filterFiles content).globalTable = m.global.table := by
      simp [Waf.Files.globalTable, Host.filterFiles, hfile, Document.globalTable]
    rw [htable]
    exact ⟨rfl, rfl, fun _ => rfl⟩
  · have htable : (h.filterFiles content).globalTable = Waf.Files.defaultGlobal := by
      simp [Waf.Files.globalTable, Host.filterFiles, hnone]
    rw [htable, henabled, hmode]
    refine ⟨rfl, rfl, fun s => ?_⟩
    unfold Waf.limitsOf
    simp [WAFGlobalConfig.table, Waf.Files.defaultGlobal, hfrequency, hlimit, limitsTable]

/-- Where the filter reads the settings of a website, it treats the request as they say. -/
theorem treatment_of_dir (hp : Persisted h m content) {r : Waf.Request} {base : Path}
    (hdir : h.mounted (Waf.siteDir (Waf.hostName r)) = base)
    (hconfig : content (configFile base) = some (.site site))
    (hrules : content (rulesFile base) = some (.rules site.rules)) :
    treatment (h.filterFiles content) r = storedTreatment m.global site := by
  obtain ⟨henabled, hmode, hlimits⟩ := hp.globalTable
  have hsite : (h.filterFiles content).siteTable (Waf.hostName r) = site.table := by
    simp [Waf.Files.siteTable, Waf.Files.decodeSiteConfig, Host.filterFiles, hdir, hconfig,
      Document.siteTable]
  have hlist : (h.filterFiles content).siteRules (Waf.hostName r) =
      site.rules.map WAFRule.encoded := by
    simp [Waf.Files.siteRules, Host.filterFiles, hdir, hrules, Document.ruleTables]
  have hrate : Waf.rateConfig (h.filterFiles content).globalTable site.table =
      storedRate m.global site := by
    funext kind
    rw [← rateConfig_stored]
    unfold Waf.rateConfig
    rw [hlimits]
  unfold treatment storedTreatment
  simp only [Waf.Files.context, hsite, hlist, hrate, henabled]
  rw [show site.table.enabled = some site.enabled from rfl, Waf.effectiveMode, hmode,
    show site.table.mode = some site.mode from rfl]
  cases m.global.enabled with
  | false => simp
  | true =>
      cases site.enabled with
      | false => simp
      | true => simp

end Treatment

/-! ## Which names are reached -/

/-- The requests for a name are treated as the settings of the website say, whatever they are,
and the rules generated for its host set the mode that goes with this. -/
def Reaches (h : Host) (websites : List Website) (domains : Finmap fun _ : ℕ => List WebsiteDomain)
    (website : Website) (name : Bytes) : Prop :=
  ∀ (m : Memory) (content : Path → Option Document) (site : WAFSite) (r : Waf.Request),
    m.websites = websites → m.domains = domains → Persisted h m content →
    m.wafSites.lookup website.id = some site → r.host = hostOf name →
    treatment (h.filterFiles content) r = storedTreatment m.global site ∧
      ∀ mode, (r.host, mode) ∈ hostModes m ↔
        mode = engineFor (treatment (h.filterFiles content) r)

/-- The directory that the filter derives from a host. -/
def derivedDir (h : Host) (host : Bytes) : Path :=
  h.mounted (Waf.siteDir (Waf.hostName { remoteAddr := [], host }))

/-- The filter derives the directory of the website from the name, and no other website has
it. -/
structure FoundAlone (h : Host) (websites : List Website)
    (domains : Finmap fun _ : ℕ => List WebsiteDomain) (website : Website) (name : Bytes) :
    Prop where
  dir : derivedDir h (hostOf name) = h.sitePath website .waf
  alone : ∀ other ∈ websites, other.id ≠ website.id →
    hostOf name ∉ (attachedNames domains other).map hostOf

theorem derivedDir_host (h : Host) (r : Waf.Request) :
    derivedDir h r.host = h.mounted (Waf.siteDir (Waf.hostName r)) := rfl

section Off
variable (h : Host) (websites : List Website) (domains : Finmap fun _ : ℕ => List WebsiteDomain)
  (website : Website)

/-- One website is switched off. -/
def offMemory : Memory where
  websites
  domains
  global := { enabled := true, mode := bytes "observe" }
  wafSites := Finmap.singleton website.id { enabled := false }

/-- Every directory but that of the website has settings that are switched on. -/
def offContent (path : Path) : Option Document :=
  if path = h.globalFile then some (.global (offMemory websites domains website).global)
  else if path = configFile (h.sitePath website .waf) then some (.site { enabled := false })
  else if path.getLast? = some (bytes "config.json") then some (.site { enabled := true })
  else if path.getLast? = some (bytes "rules.json") then some (.rules [])
  else none

variable {h websites domains website}

theorem last_globalFile : h.globalFile.getLast? = some (bytes "global.json") := by
  simp [Host.globalFile]

theorem last_configFile (base : Path) :
    (configFile base).getLast? = some (bytes "config.json") := by
  simp [configFile]

theorem last_rulesFile (base : Path) : (rulesFile base).getLast? = some (bytes "rules.json") := by
  simp [rulesFile]

theorem configFile_ne_globalFile (base : Path) : configFile base ≠ h.globalFile := by
  intro heq
  have hlast := congrArg List.getLast? heq
  rw [last_configFile, last_globalFile] at hlast
  revert hlast
  decide

theorem offContent_config {base : Path} (hne : base ≠ h.sitePath website .waf) :
    offContent h websites domains website (configFile base) = some (.site { enabled := true }) := by
  have hown : configFile base ≠ configFile (h.sitePath website .waf) := by
    intro heq
    exact hne (List.append_cancel_right heq)
  rw [offContent, if_neg (configFile_ne_globalFile base), if_neg hown,
    if_pos (last_configFile base)]

theorem offContent_own :
    offContent h websites domains website (configFile (h.sitePath website .waf)) =
      some (.site { enabled := false }) := by
  rw [offContent, if_neg (configFile_ne_globalFile _), if_pos rfl]

theorem offContent_rules (base : Path) :
    offContent h websites domains website (rulesFile base) = some (.rules []) := by
  have hother : ∀ path : Path, path.getLast? ≠ some (bytes "rules.json") → rulesFile base ≠ path := by
    rintro path hpath rfl
    exact hpath (last_rulesFile base)
  have hglobal : rulesFile base ≠ h.globalFile := by
    apply hother
    rw [last_globalFile]
    decide
  have hconfig : rulesFile base ≠ configFile (h.sitePath website .waf) := by
    apply hother
    rw [last_configFile]
    decide
  have hname : (rulesFile base).getLast? ≠ some (bytes "config.json") := by
    rw [last_rulesFile]
    decide
  rw [offContent, if_neg hglobal, if_neg hconfig, if_neg hname, if_pos (last_rulesFile base)]

theorem offMemory_lookup {id : ℕ} {site : WAFSite}
    (hsite : (offMemory websites domains website).wafSites.lookup id = some site) :
    id = website.id ∧ site = { enabled := false } := by
  have hid : id = website.id := by
    have hmem := Finmap.mem_of_lookup_eq_some hsite
    exact (Finmap.mem_singleton id website.id _).mp hmem
  subst hid
  have hlookup : (offMemory websites domains website).wafSites.lookup website.id =
      some { enabled := false } := Finmap.lookup_singleton_eq
  rw [hlookup] at hsite
  exact ⟨rfl, (Option.some.inj hsite).symm⟩

theorem persisted_off (hget : getWebsite websites website.id = some website) :
    Persisted h (offMemory websites domains website)
      (offContent h websites domains website) where
  config := by
    intro id other site hother hsite
    obtain ⟨rfl, rfl⟩ := offMemory_lookup hsite
    obtain rfl := Option.some.inj (hget.symm.trans hother)
    exact offContent_own
  rules := by
    intro id other site hother hsite
    obtain ⟨rfl, rfl⟩ := offMemory_lookup hsite
    exact offContent_rules _
  global := .inl (if_pos rfl)

end Off

section Reaches
variable {h : Host} {websites : List Website} {domains : Finmap fun _ : ℕ => List WebsiteDomain}
  {website : Website} {name : Bytes}

/-- A website that is switched off is treated so. -/
theorem Reaches.off (hreach : Reaches h websites domains website name)
    (hget : getWebsite websites website.id = some website) {r : Waf.Request}
    (hr : r.host = hostOf name) :
    treatment (h.filterFiles (offContent h websites domains website)) r = none ∧
      ∀ mode, (r.host, mode) ∈ hostModes (offMemory websites domains website) →
        mode = bytes "Off" := by
  obtain ⟨htreatment, hrule⟩ := hreach (offMemory websites domains website)
    (offContent h websites domains website) { enabled := false } r rfl rfl (persisted_off hget)
    Finmap.lookup_singleton_eq hr
  have hoff : storedTreatment (offMemory websites domains website).global { enabled := false } =
      none := rfl
  rw [hoff] at htreatment
  refine ⟨htreatment, fun mode hmode => ?_⟩
  rw [(hrule mode).mp hmode, htreatment]
  rfl

/-- Another directory would show settings that are switched on. -/
theorem Reaches.dir (hreach : Reaches h websites domains website name)
    (hget : getWebsite websites website.id = some website) :
    derivedDir h (hostOf name) = h.sitePath website .waf := by
  by_contra hne
  have htreatment := (@Reaches.off _ _ _ _ _ hreach hget { remoteAddr := [], host := hostOf name } rfl).1
  have hconfig := @offContent_config h websites domains website _ hne
  have hglobal : (h.filterFiles (offContent h websites domains website)).globalTable.enabled =
      some true := (persisted_off hget).globalTable.1
  have hsite : (h.filterFiles (offContent h websites domains website)).siteTable
      (Waf.hostName { remoteAddr := [], host := hostOf name }) =
        ({ enabled := true } : WAFSite).table := by
    unfold derivedDir at hconfig
    simp [Waf.Files.siteTable, Waf.Files.decodeSiteConfig, Host.filterFiles, hconfig,
      Document.siteTable]
  unfold treatment at htreatment
  simp only [Waf.Files.context, hsite, hglobal] at htreatment
  cases htreatment

/-- Another website of the name would get a rule that says something else. -/
theorem Reaches.alone (hreach : Reaches h websites domains website name)
    (hget : getWebsite websites website.id = some website) (hhost : hostOf name ≠ [])
    {other : Website} (hother : other ∈ websites) (hid : other.id ≠ website.id) :
    hostOf name ∉ (attachedNames domains other).map hostOf := by
  intro hmem
  have hlookup : (offMemory websites domains website).wafSites.lookup other.id = none := by
    rw [Finmap.lookup_eq_none]
    intro hin
    exact hid ((Finmap.mem_singleton other.id website.id _).mp hin)
  have hmode := (@Reaches.off _ _ _ _ _ hreach hget { remoteAddr := [], host := hostOf name } rfl).2
    (bytes "DetectionOnly") (mem_hostModes.mpr
      ⟨other, hother, hmem, hhost, by rw [wafSiteOf, hlookup]; rfl⟩)
  revert hmode
  decide

theorem FoundAlone.reaches (hfound : FoundAlone h websites domains website name)
    (hget : getWebsite websites website.id = some website)
    (hname : name ∈ attachedNames domains website) (hhost : hostOf name ≠ []) :
    Reaches h websites domains website name := by
  rintro m content site r rfl rfl hp hsite hr
  have htreatment : treatment (h.filterFiles content) r = storedTreatment m.global site := by
    have hdir := hfound.dir
    rw [← hr, derivedDir_host] at hdir
    exact treatment_of_dir hp hdir (hp.config _ _ _ hget hsite) (hp.rules _ _ _ hget hsite)
  have hmode : ∀ w : Website, w.id = website.id → wafSiteOf m w = site := by
    intro w hw
    rw [wafSiteOf, hw, hsite]
    rfl
  refine ⟨htreatment, fun mode => ?_⟩
  rw [htreatment, engineFor_storedTreatment, hr, mem_hostModes]
  constructor
  · rintro ⟨other, hother, hmem, -, rfl⟩
    have hid : other.id = website.id := by
      by_contra hne
      exact hfound.alone other hother hne hmem
    rw [hmode other hid]
  · rintro rfl
    refine ⟨website, (getWebsite_some hget).1, List.mem_map_of_mem hname, hhost, ?_⟩
    rw [hmode website rfl]

/-- The settings of a website reach the requests for one of its names, whatever they are, exactly
if the filter derives the directory of the website from the name and no other website has it. -/
theorem waf_settings_reach_iff (hget : getWebsite websites website.id = some website)
    (hname : name ∈ attachedNames domains website) (hhost : hostOf name ≠ []) :
    Reaches h websites domains website name ↔ FoundAlone h websites domains website name := by
  constructor
  · intro hreach
    constructor
    · exact hreach.dir hget
    · intro other hother hid
      exact hreach.alone hget hhost hother hid
  · intro hfound
    exact hfound.reaches hget hname hhost

end Reaches

/-! ## A website with a second name -/

def edge : Host where
  websiteRoot := bytes "/www/wwwroot"
  wafRoot := ["opt", "workmesh", "waf", "data"].map bytes
  wafGeneratedRoot := ["opt", "workmesh", "waf", "generated"].map bytes
  workingDirectory := bytes "/"
  wafRuntimeRequired := true
  compiles := fun _ => true

def store : Website := { id := 1, primaryDomain := bytes "shop.example.com" }

def storeDomains : Finmap fun _ : ℕ => List WebsiteDomain :=
  Finmap.singleton 1 [{ id := bytes "1", websiteID := 1, domain := bytes "shop.example.com" },
    { id := bytes "2", websiteID := 1, domain := bytes "www.shop.example.com" }]

theorem waf_settings_reach_iff_primary :
    Reaches edge [store] storeDomains store (bytes "shop.example.com") ↔
      FoundAlone edge [store] storeDomains store (bytes "shop.example.com") :=
  waf_settings_reach_iff rfl List.mem_cons_self (by decide +kernel)

/-- The settings of the website do not reach its second name. -/
theorem second_name_unreached :
    bytes "www.shop.example.com" ∈ attachedNames storeDomains store ∧
      ¬ Reaches edge [store] storeDomains store (bytes "www.shop.example.com") := by
  constructor
  · decide +kernel
  · intro hreach
    have hdir := hreach.dir rfl
    revert hdir
    decide +kernel

end WorkMesh.Sites
