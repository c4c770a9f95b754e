import WorkMesh.Runtime.Store
import WorkMesh.StateMachine.Run

/-!
# The registry under interleaved requests

Requests to create, update and delete runtimes and restarts of the service, in
any order. A request holds the lock of its runtime from its first step to its
last, and between them the registry may change. Two runtimes are to share no
identifier, name, container, directory or host port.
-/

namespace WorkMesh.Runtime

open Encoding StateMachine

/-! ## Requests in progress -/

/-- A request between its first step and its last. An update keeps the record it stores in the
end and the runtimes it was compared with. -/
inductive Flight where
  | creating (item : RuntimeRecord)
  | updating (updated : RuntimeRecord) (others : List RuntimeRecord)
  | deleting (id : Bytes)

def Flight.id : Flight → Bytes
  | .creating item => item.id
  | .updating updated _ => updated.id
  | .deleting id => id

structure Registry where
  store : Store := {}
  flights : List Flight := []

inductive Event where
  | create (apps : AppStore) (now : ℤ) (body : Fields) (token : Bytes) (usable : Bool)
      (o : Outcome)
  | endCreate (id : Bytes) (undone : Bool) (o : Outcome)
  | beginUpdate (body : Fields)
  | endUpdate (id : Bytes) (package : Option (Bytes × ℤ)) (now : ℤ) (o : Outcome)
  | giveUp (id : Bytes)
  | beginDelete (id : Bytes)
  | endDelete (id : Bytes) (o : Outcome)
  | restart (rows : Option ℕ) (messages : Bytes → Option (Bytes × Bytes)) (now : ℤ)
      (o : Outcomes)

/-! ## The steps -/

/-- The record that a request to create asks for. -/
def requestedRecord (host : Host) (apps : AppStore) (now : ℤ) (body : Fields) :
    Except String RuntimeRecord := do
  let item ← runtimeRecordFromRequest host now body
  let item ← hydrateRuntimeFromAppStore host apps item
  return { item with id := if item.id = [] then item.name else item.id }

/-- The record as it is stored, with the task of its installation. -/
def startedRecord (install : Bool) (token : Bytes) (item : RuntimeRecord) : RuntimeRecord :=
  { item with
    taskID := if install ∧ trimSpace item.taskID = [] then token else item.taskID
    status := if install then bytes "Creating" else bytes "Running"
    taskStatus := if install then bytes "installing" else item.taskStatus }

def interruptedStatuses : List Bytes :=
  ["creating", "building", "recreating", "installing", "downloading", "pulling", "starting"].map
    bytes

/-- A record whose task failed without its status telling so. -/
def taskFailed (item : RuntimeRecord) : Bool :=
  toLower (trimSpace item.taskStatus) ∈ [bytes "failed", bytes "error"] ∧
    toLower (trimSpace item.status) ≠ bytes "error"

def taskInterrupted (item : RuntimeRecord) : Bool :=
  toLower (trimSpace item.status) ∈ interruptedStatuses

/-- What a restart makes of a record. `messages` reads the row of a task. -/
def recoverInterrupted (messages : Bytes → Option (Bytes × Bytes)) (now : ℤ)
    (item : RuntimeRecord) : RuntimeRecord :=
  if taskFailed item then
    let row := if item.taskID = [] then none else messages item.taskID
    let filled (own : Bytes) (other : Option Bytes) : Bytes :=
      if trimSpace own = [] then other.getD own else own
    let message := filled item.message (row.map (·.1))
    let error := filled item.error (row.map (·.2))
    let message := if trimSpace message = [] then error else message
    { item with
      status := bytes "Error", message := message
      error := if trimSpace error = [] then message else error, updatedAt := now }
  else if taskInterrupted item then
    { item with
      status := bytes "Error", taskStatus := bytes "failed"
      message := bytes "系统重启导致任务中断", error := bytes "系统重启导致任务中断", updatedAt := now }
  else item

/-- `repository.save`, which leaves memory as it is. -/
def Store.saveState (s : Store) (o : Outcome) : Store :=
  (s.saveLocked { o with load := false }).2

/-- The records that a load reads: all of them, or those before the one it fails at. -/
def Tables.read (tables : Tables) : Option ℕ → List RuntimeRecord
  | none => tables.load
  | some n => tables.load.take n

/-- The load at a start, with what becomes of interrupted tasks. -/
def Store.recover (rows : Option ℕ) (messages : Bytes → Option (Bytes × Bytes)) (now : ℤ)
    (o : Outcome) (s : Store) : Store :=
  let loaded := s.tables.read rows
  let read : Store := { s with
    runtimes := loaded.map (recoverInterrupted messages now)
    settings := if rows = none then s.tables.settings else [] }
  if (loaded.any fun item => taskFailed item || taskInterrupted item) ∧ rows = none then
    read.saveState o
  else read

/-- A template of PHP extensions, as it is stored. -/
def phpExtensionTemplate (id : ℤ) (name extensions : String) : Value :=
  .object [(bytes "id", .int id), (bytes "name", .text (bytes name)),
    (bytes "extensions", .text (bytes extensions))]

def defaultPHPExtensionTemplates : List Value :=
  [phpExtensionTemplate 1 "Default"
      "bcmath,ftp,gd,gettext,intl,mysqli,pcntl,pdo_mysql,shmop,soap,sockets,sysvsem,xmlrpc,zip",
    phpExtensionTemplate 2 "WordPress"
      "exif,igbinary,imagick,intl,zip,apcu,memcached,opcache,redis,shmop,mysqli,pdo_mysql,gd",
    phpExtensionTemplate 3 "Flarum" "curl,gd,pdo_mysql,mysqli,bz2,exif,yaf,imap",
    phpExtensionTemplate 4 "SeaCMS" "mysqli,pdo_mysql,gd,curl",
    phpExtensionTemplate 5 "Dev" ("bcmath,ftp,gd,gettext,intl,mysqli,pcntl,pdo_mysql,shmop,soap," ++
      "sockets,sysvsem,xmlrpc,zip,exif,igbinary,imagick,apcu,memcached,opcache,redis,bc,image," ++
      "dom,iconv,mbstring,mysqlnd,openssl,pdo,tokenizer,xml,curl,bz2,yaf,imap,xdebug,swoole," ++
      "pdo_pgsql,fileinfo,pgsql,calendar,gmp")]

/-- `getRuntimeStore`. After a load that fails nothing is saved. -/
def Store.start (rows : Option ℕ) (messages : Bytes → Option (Bytes × Bytes)) (now : ℤ)
    (o : Outcomes) (s : Store) : Store :=
  let s := s.recover rows messages now o.first
  let key := bytes "php_extension_templates"
  let filled : Store := { s with
    settings := s.settings.put key (.list defaultPHPExtensionTemplates) }
  if (s.settings.lookup key).isSome then s
  else if rows = none then filled.saveState o.second
  else filled

namespace Registry

variable (host : Host) (c : Registry)

def Locked (id : Bytes) : Prop := ∃ f ∈ c.flights, f.id = id

instance (id : Bytes) : Decidable (c.Locked id) := inferInstanceAs (Decidable (∃ f ∈ _, _))

/-- The registry without the requests of a runtime. -/
def unlock (id : Bytes) : Registry := { c with flights := c.flights.filter fun f => f.id ≠ id }

/-- `runtimeCreateHandler` as far as the first save. -/
def create (apps : AppStore) (now : ℤ) (body : Fields) (token : Bytes) (usable : Bool)
    (o : Outcome) : Registry :=
  match requestedRecord host apps now body with
  | .error _ => c
  | .ok item =>
      let install := runtimeInstallRequested host body item
      if c.Locked item.id ∨ (install ∧ ¬item.isPHP ∧ ¬usable) then c
      else
        match validateRuntimeCreateLocked host c.store.runtimes item with
        | .error _ => c
        | .ok () =>
            let item := startedRecord install token item
            let (saved, s) :=
              ({ c.store with runtimes := c.store.runtimes ++ [item] } : Store).saveLocked o
            { store := s, flights := if saved then .creating item :: c.flights else c.flights }

/-- The rest of `runtimeCreateHandler`, which takes the runtime out again where the task, its
log or the host runtime cannot be written. -/
def endCreate (id : Bytes) (undone : Bool) (o : Outcome) : Registry :=
  match c.flights.find? (·.id = id) with
  | some (.creating item) =>
      let c := c.unlock id
      if undone then
        { c with
          store := ({ c.store with
            runtimes := removeRuntimeByID c.store.runtimes item.id } : Store).saveLocked o |>.2 }
      else c
  | _ => c

/-- `runtimeUpdateHandler` as far as the check of the new record. -/
def beginUpdate (body : Fields) : Registry :=
  let id := runtimeString body [bytes "id", bytes "runtimeId", bytes "ID"]
  if c.Locked id then c
  else
    match runtimeByIDLocked c.store.runtimes id with
    | none => c
    | some i =>
        match c.store.runtimes[i]? with
        | none => c
        | some current =>
            match mergeRuntimeUpdate host (operational host current) body with
            | .error _ => c
            | .ok updated =>
                let others := c.store.runtimes.eraseIdx i
                match validateRuntimeCreateLocked host others updated with
                | .error _ => c
                | .ok () => { c with flights := .updating updated others :: c.flights }

/-- The end of `runtimeUpdateHandler`, with what the package refresh changed. -/
def endUpdate (id : Bytes) (package : Option (Bytes × ℤ)) (now : ℤ) (o : Outcome) : Registry :=
  match c.flights.find? (·.id = id) with
  | some (.updating updated _) =>
      let item := { updated with
        downloadURL := (package.map (·.1)).getD updated.downloadURL
        packageModified := (package.map (·.2)).getD updated.packageModified }
      { c.unlock id with store := (c.store.update { first := o } item now).store }
  | _ => c

def beginDelete (id : Bytes) : Registry :=
  if c.Locked id ∨ (runtimeByIDLocked c.store.runtimes id).isNone then c
  else { c with flights := .deleting id :: c.flights }

def endDelete (id : Bytes) (o : Outcome) : Registry :=
  match c.flights.find? (·.id = id) with
  | some (.deleting _) => { c.unlock id with store := (c.store.delete { first := o } id).store }
  | _ => c

def step : Event → Registry
  | .create apps now body token usable o => c.create host apps now body token usable o
  | .endCreate id undone o => c.endCreate id undone o
  | .beginUpdate body => c.beginUpdate host body
  | .endUpdate id package now o => c.endUpdate id package now o
  | .giveUp id => c.unlock id
  | .beginDelete id => c.beginDelete id
  | .endDelete id o => c.endDelete id o
  | .restart rows messages now o => { store := c.store.start rows messages now o }

end Registry

/-! ## Runtimes apart from each other -/

/-- The host ports of a runtime. -/
def RuntimeRecord.claims (item : RuntimeRecord) : List PortKey :=
  (if item.port = 0 then [] else [(item.port, bytes "tcp")]) ++
    item.exposedPorts.filterMap claimedPort

/-- Two runtimes that share nothing they must not share. -/
structure Apart (host : Host) (a b : RuntimeRecord) : Prop where
  id : a.id ≠ b.id
  name : host.equalFold a.name b.name = false
  container : a.container ≠ [] → a.container ≠ b.container
  codeDir : a.codeDir ≠ [] → b.codeDir ≠ [] → host.abs a.codeDir ≠ host.abs b.codeDir
  ports : ∀ key ∈ a.claims, key ∉ b.claims

/-- What the comparison of two records looks at, their images aside. -/
def clash (host : Host) (candidate item : RuntimeRecord) : Bool :=
  host.equalFold item.name candidate.name ||
    (candidate.container ≠ [] && host.equalFold item.container candidate.container) ||
    (candidate.codeDir ≠ [] && host.equalFold item.codeDir candidate.codeDir) ||
    (0 < candidate.port && item.port = candidate.port) ||
    runtimePortsConflict item.exposedPorts candidate.exposedPorts

/-- What the comparison does not look at: the port of one among the mapped ports of the other,
and one directory under two names. -/
def Missed (host : Host) (candidate item : RuntimeRecord) : Prop :=
  candidate.port ≠ 0 ∧ (candidate.port, bytes "tcp") ∈ item.exposedPorts.filterMap claimedPort ∨
    item.port ≠ 0 ∧ (item.port, bytes "tcp") ∈ candidate.exposedPorts.filterMap claimedPort ∨
    candidate.codeDir ≠ [] ∧ item.codeDir ≠ [] ∧ candidate.codeDir ≠ item.codeDir ∧
      host.abs candidate.codeDir = host.abs item.codeDir

/-- The condition on a step: what the comparison misses does not occur, a repeated identifier
does not stay in memory, and a runtime that came after the check of an update would have passed
it. -/
def Event.Checked (host : Host) (c : Registry) : Event → Prop
  | .create apps now body _ _ o =>
      ∀ candidate, requestedRecord host apps now body = .ok candidate →
        ∀ item ∈ c.store.runtimes, ¬Missed host candidate item ∧
          (item.id = candidate.id → o.load = true)
  | .endUpdate id _ _ _ =>
      ∀ updated others, c.flights.find? (·.id = id) = some (.updating updated others) →
        ∀ item ∈ c.store.runtimes, item.id ≠ id →
          (item ∈ others ∨ clash host updated item = false) ∧ ¬Missed host updated item
  | _ => True

variable {host : Host}

theorem Apart.symm {a b : RuntimeRecord} (h : Apart host a b) : Apart host b a where
  id := h.id.symm
  name := by simpa [Host.equalFold, eq_comm] using h.name
  container := fun hb heq => h.container (heq ▸ hb) heq.symm
  codeDir := fun hb ha heq => h.codeDir ha hb heq.symm
  ports := fun key hb ha => h.ports key ha hb

theorem mem_claims {item : RuntimeRecord} {key : PortKey} :
    key ∈ item.claims ↔ (item.port ≠ 0 ∧ key = (item.port, bytes "tcp")) ∨
      key ∈ item.exposedPorts.filterMap claimedPort := by
  unfold RuntimeRecord.claims
  split_ifs with h <;> simp [h]

/-- The comparison and what it leaves out tell two runtimes apart. -/
theorem apart_of_compared {candidate item : RuntimeRecord}
    (hclash : clash host candidate item = false) (hmissed : ¬Missed host candidate item)
    (hid : candidate.id ≠ item.id) (hport : 0 ≤ candidate.port) : Apart host candidate item := by
  simp only [clash, Bool.or_eq_false_iff] at hclash
  obtain ⟨⟨⟨⟨hname, hcontainer⟩, hcodeDir⟩, hports⟩, hlists⟩ := hclash
  simp only [Missed, not_or] at hmissed
  obtain ⟨hfirst, hsecond, hsame⟩ := hmissed
  constructor
  · exact hid
  · simpa [Host.equalFold, eq_comm] using hname
  · intro hnamed heq
    simp only [heq, Host.equalFold, decide_true, Bool.and_true] at hcontainer
    exact of_decide_eq_false hcontainer (heq ▸ hnamed)
  · intro hcand hitem heq
    have hsameText : candidate.codeDir = item.codeDir := by
      by_contra hne
      exact hsame ⟨hcand, hitem, hne, heq⟩
    simp [hsameText, Host.equalFold, hitem] at hcodeDir
  · intro key hkey hother
    rcases mem_claims.mp hkey with ⟨hne, rfl⟩ | hmapped
    · rcases mem_claims.mp hother with ⟨-, heq⟩ | hmapped
      · have hpos : 0 < candidate.port := lt_of_le_of_ne hport (Ne.symm hne)
        have hsamePort : item.port = candidate.port := (congrArg Prod.fst heq).symm
        simp [hpos, hsamePort] at hports
      · exact hfirst ⟨hne, hmapped⟩
    · rcases mem_claims.mp hother with ⟨hne, rfl⟩ | hmapped'
      · exact hsecond ⟨hne, hmapped⟩
      · have hconflict : runtimePortsConflict item.exposedPorts candidate.exposedPorts = true := by
          unfold runtimePortsConflict
          exact List.any_eq_true.mpr ⟨key, hmapped, decide_eq_true hmapped'⟩
        rw [hconflict] at hlists
        cases hlists

/-! ## Sound lists of records -/

/-- Runtimes pairwise apart, with no negative port. -/
structure Sound (host : Host) (l : List RuntimeRecord) : Prop where
  apart : l.Pairwise (Apart host)
  ports : ∀ item ∈ l, 0 ≤ item.port

namespace Sound

variable {l l' : List RuntimeRecord} {a : RuntimeRecord}

theorem perm (h : Sound host l) (hperm : l.Perm l') : Sound host l' where
  apart := h.apart.perm hperm fun hab => hab.symm
  ports := fun item hitem => h.ports item (hperm.mem_iff.mpr hitem)

theorem sublist (h : Sound host l) (hsub : l'.Sublist l) : Sound host l' where
  apart := h.apart.sublist hsub
  ports := fun item hitem => h.ports item (hsub.subset hitem)

theorem cons (h : Sound host l) (hapart : ∀ item ∈ l, Apart host a item) (hport : 0 ≤ a.port) :
    Sound host (a :: l) where
  apart := List.pairwise_cons.mpr ⟨hapart, h.apart⟩
  ports := List.forall_mem_cons.mpr ⟨hport, h.ports⟩

theorem append (h : Sound host l) (hapart : ∀ item ∈ l, Apart host a item) (hport : 0 ≤ a.port) :
    Sound host (l ++ [a]) :=
  (h.cons hapart hport).perm (List.perm_append_singleton a l).symm

/-- A record may take the place of the one with its identifier. -/
theorem set (h : Sound host l) {i : ℕ} (hi : i < l.length) (hid : l[i].id = a.id)
    (hapart : ∀ item ∈ l, item.id ≠ a.id → Apart host a item) (hport : 0 ≤ a.port) :
    Sound host (l.set i a) := by
  have hrest : Sound host (l[i] :: l.eraseIdx i) :=
    h.perm (List.getElem_cons_eraseIdx_perm hi).symm
  have hsound : Sound host (a :: l.eraseIdx i) := by
    refine (hrest.sublist (List.sublist_cons_self _ _)).cons (fun item hitem => ?_) hport
    have hne := (List.rel_of_pairwise_cons hrest.apart hitem).id
    exact hapart item (List.mem_of_mem_eraseIdx hitem) fun heq => hne (hid.trans heq.symm)
  exact hsound.perm (List.set_perm_cons_eraseIdx hi a).symm

/-- A map that changes nothing two runtimes must not share. -/
theorem map (h : Sound host l) {f : RuntimeRecord → RuntimeRecord}
    (hid : ∀ r, (f r).id = r.id) (hname : ∀ r, (f r).name = r.name)
    (hcontainer : ∀ r, (f r).container = r.container) (hcodeDir : ∀ r, (f r).codeDir = r.codeDir)
    (hport : ∀ r, (f r).port = r.port)
    (hexposed : ∀ r, (f r).exposedPorts = r.exposedPorts) : Sound host (l.map f) where
  apart := by
    refine List.pairwise_map.mpr (h.apart.imp fun {a b} hab => ?_)
    have hclaims (r : RuntimeRecord) : (f r).claims = r.claims := by
      rw [RuntimeRecord.claims, RuntimeRecord.claims, hport, hexposed]
    exact ⟨by simpa [hid] using hab.id, by simpa [hname] using hab.name,
      by simpa [hcontainer] using hab.container, by simpa [hcodeDir] using hab.codeDir,
      by simpa [hclaims] using hab.ports⟩
  ports := fun item hitem => by
    obtain ⟨r, hr, rfl⟩ := List.mem_map.mp hitem
    rw [hport]
    exact h.ports r hr

end Sound

/-! ## The steps keep the runtimes apart -/

/-- The records in memory and those of the tables are sound. -/
structure SoundStore (host : Host) (s : Store) : Prop where
  memory : Sound host s.runtimes
  tables : Sound host s.tables.records

namespace SoundStore

variable {s : Store} {o : Outcome}

/-- An attempt to save keeps the tables sound. Memory is as sound as what stays in it. -/
theorem saveLocked (htables : Sound host s.tables.records)
    (hmemory : s.Saves o ∨ o.load = false → Sound host s.runtimes) :
    SoundStore host (s.saveLocked o).2 := by
  by_cases hsaves : s.Saves o
  · rw [Store.saveLocked_ok hsaves]
    exact ⟨hmemory (.inl hsaves), hmemory (.inl hsaves)⟩
  · rw [Store.saveLocked_failed hsaves]
    dsimp only
    split
    · exact ⟨htables.perm (Store.load_perm _).symm, htables⟩
    · rename_i hload
      exact ⟨hmemory (.inr (Bool.eq_false_iff.mpr hload)), htables⟩

theorem saveState (h : SoundStore host s) : SoundStore host (s.saveState o) :=
  saveLocked h.tables fun _ => h.memory

theorem sublist {l : List RuntimeRecord} (h : SoundStore host s) (hsub : l.Sublist s.runtimes) :
    SoundStore host (({ s with runtimes := l } : Store).saveLocked o).2 :=
  saveLocked h.tables fun _ => h.memory.sublist hsub

theorem delete {o : Outcomes} {id : Bytes} (h : SoundStore host s) :
    SoundStore host (s.delete o id).store := by
  unfold Store.delete
  split
  · exact h
  · exact h.sublist (List.eraseIdx_sublist _ _)

theorem update {o : Outcomes} {updated : RuntimeRecord} {now : ℤ} (h : SoundStore host s)
    (hapart : ∀ item ∈ s.runtimes, item.id ≠ updated.id → Apart host updated item)
    (hport : 0 ≤ updated.port) : SoundStore host (s.update o updated now).store := by
  unfold Store.update Store.replaceOnly
  dsimp only
  split
  · exact h
  · rename_i i hi
    refine saveLocked h.tables fun _ => ?_
    unfold runtimeByIDLocked at hi
    split at hi
    · cases hi
    · obtain ⟨hlt, hid, -⟩ := List.findIdx?_eq_some_iff_getElem.mp hi
      refine h.memory.set hlt (by simpa using hid) (fun item hitem hne => ?_) hport
      obtain ⟨hid', hname, hcontainer, hcodeDir, hports⟩ := hapart item hitem hne
      exact ⟨hid', hname, hcontainer, hcodeDir, hports⟩

theorem recover {rows : Option ℕ} {messages : Bytes → Option (Bytes × Bytes)} {now : ℤ}
    (h : Sound host s.tables.records) : SoundStore host (s.recover rows messages now o) := by
  have hloaded : Sound host s.tables.load := h.perm (Store.load_perm _).symm
  have hread : Sound host (s.tables.read rows) := by
    cases rows with
    | none => exact hloaded
    | some n => exact hloaded.sublist (List.take_sublist n _)
  have hrecovered : Sound host ((s.tables.read rows).map (recoverInterrupted messages now)) := by
    apply hread.map
    all_goals
      intro r
      unfold recoverInterrupted
      split_ifs <;> rfl
  unfold Store.recover
  dsimp only
  split
  · exact saveState ⟨hrecovered, h⟩
  · exact ⟨hrecovered, h⟩

theorem start {rows : Option ℕ} {messages : Bytes → Option (Bytes × Bytes)} {now : ℤ}
    {o : Outcomes} (h : Sound host s.tables.records) :
    SoundStore host (s.start rows messages now o) := by
  have hrecovered := @recover host s o.first rows messages now h
  unfold Store.start
  dsimp only
  split
  · exact hrecovered
  · split
    · exact saveState ⟨hrecovered.memory, hrecovered.tables⟩
    · exact ⟨hrecovered.memory, hrecovered.tables⟩

end SoundStore

/-- An update in progress was compared with the runtimes there were. -/
def Flight.Compared (host : Host) : Flight → Prop
  | .updating updated others =>
      0 ≤ updated.port ∧ ∀ item ∈ others, clash host updated item = false
  | _ => True

structure Inv (host : Host) (c : Registry) : Prop where
  store : SoundStore host c.store
  flights : ∀ f ∈ c.flights, f.Compared host

theorem clash_of_compared {candidate item : RuntimeRecord}
    (h : compareRuntime host candidate item = .ok ()) : clash host candidate item = false := by
  unfold compareRuntime at h
  split_ifs at h with hnames hcodeDir himage hports
  simp only [Bool.not_eq_true, Bool.or_eq_false_iff] at hnames hcodeDir hports
  simp only [clash, Bool.or_eq_false_iff]
  exact ⟨⟨⟨⟨hnames.1, hnames.2⟩, hcodeDir⟩, hports.1⟩, hports.2⟩

theorem clash_of_validated {items : List RuntimeRecord} {candidate : RuntimeRecord}
    (h : validateRuntimeCreateLocked host items candidate = .ok ()) :
    ∀ item ∈ items, clash host candidate item = false := by
  obtain ⟨-, -, hall⟩ := ok_of_bind h
  clear h
  induction items with
  | nil => simp
  | cons first rest ih =>
      rw [List.forM_eq_forM, List.forM_cons] at hall
      obtain ⟨_, hfirst, hrest⟩ := ok_of_bind hall
      exact List.forall_mem_cons.mpr ⟨clash_of_compared hfirst, ih hrest⟩

theorem requestedRecord_port {apps : AppStore} {now : ℤ} {body : Fields} {item : RuntimeRecord}
    (h : requestedRecord host apps now body = .ok item) : 0 ≤ item.port := by
  unfold requestedRecord at h
  obtain ⟨asked, hasked, h⟩ := ok_of_bind h
  obtain ⟨filled, hfilled, h⟩ := ok_of_bind h
  cases h
  have hport := runtimeRecordFromRequest_port hasked
  rw [hydrateRuntimeFromAppStore_ok hfilled]
  exact hport

namespace Inv

variable {c : Registry}

theorem unlock (h : Inv host c) (id : Bytes) : Inv host (c.unlock id) where
  store := h.store
  flights := fun f hf => h.flights f (List.mem_of_mem_filter hf)

theorem create (h : Inv host c) {apps : AppStore} {now : ℤ} {body : Fields} {token : Bytes}
    {usable : Bool} {o : Outcome}
    (hchecked : (Event.create apps now body token usable o).Checked host c) :
    Inv host (c.create host apps now body token usable o) := by
  unfold Registry.create
  split
  · exact h
  · rename_i candidate hcandidate
    dsimp only
    split
    · exact h
    · split
      · exact h
      · rename_i hvalid
        have hclash := clash_of_validated hvalid
        have hport := requestedRecord_port hcandidate
        have hstore := SoundStore.saveLocked (s := { c.store with
          runtimes := c.store.runtimes ++
            [startedRecord (runtimeInstallRequested host body candidate) token candidate] })
          (o := o) h.store.tables fun hstays => by
            refine h.store.memory.append (fun item hitem => ?_) hport
            obtain ⟨hmissed, hid⟩ := hchecked candidate hcandidate item hitem
            have hne : candidate.id ≠ item.id := by
              intro heq
              rcases hstays with hsaves | hload
              · have hnodup := hsaves.2
                rw [List.map_append, List.nodup_append] at hnodup
                exact hnodup.2.2 _ (List.mem_map_of_mem hitem) _ (by simp [startedRecord]) heq.symm
              · rw [hid heq.symm] at hload
                cases hload
            obtain ⟨hid', hname, hcontainer, hcodeDir, hports⟩ :=
              apart_of_compared (hclash item hitem) hmissed hne hport
            exact ⟨hid', hname, hcontainer, hcodeDir, hports⟩
        refine ⟨hstore, fun f hf => ?_⟩
        split at hf
        · rcases List.mem_cons.mp hf with rfl | hf
          · trivial
          · exact h.flights f hf
        · exact h.flights f hf

theorem endCreate (h : Inv host c) {id : Bytes} {undone : Bool} {o : Outcome} :
    Inv host (c.endCreate id undone o) := by
  unfold Registry.endCreate
  split
  · rename_i item hfound
    dsimp only
    have hopen := h.unlock id
    split
    · exact ⟨hopen.store.sublist (List.eraseP_sublist), hopen.flights⟩
    · exact hopen
  · exact h

theorem beginUpdate (h : Inv host c) {body : Fields} : Inv host (c.beginUpdate host body) := by
  unfold Registry.beginUpdate
  dsimp only
  split
  · exact h
  · split
    · exact h
    · rename_i i hi
      split
      · exact h
      · rename_i current hcurrent
        split
        · exact h
        · rename_i updated hupdated
          split
          · exact h
          · rename_i hvalid
            refine ⟨h.store, List.forall_mem_cons.mpr ⟨⟨?_, clash_of_validated hvalid⟩, h.flights⟩⟩
            have hport := h.store.memory.ports current (List.mem_of_getElem? hcurrent)
            exact (mergeRuntimeUpdate_merged hupdated).port hport

theorem endUpdate (h : Inv host c) {id : Bytes} {package : Option (Bytes × ℤ)} {now : ℤ}
    {o : Outcome} (hchecked : (Event.endUpdate id package now o).Checked host c) :
    Inv host (c.endUpdate id package now o) := by
  unfold Registry.endUpdate
  split
  · rename_i updated others hfound
    have hid : (Flight.updating updated others).id = id := by simpa using List.find?_some hfound
    obtain ⟨hport, hcompared⟩ := h.flights _ (List.mem_of_find?_eq_some hfound)
    refine ⟨h.store.update (fun item hitem hne => ?_) hport, (h.unlock id).flights⟩
    have hne' : item.id ≠ updated.id := hne
    obtain ⟨hseen, hmissed⟩ := hchecked updated others hfound item hitem (hid ▸ hne')
    have hclash : clash host updated item = false := by
      rcases hseen with hold | hnew
      · exact hcompared item hold
      · exact hnew
    obtain ⟨hid', hname, hcontainer, hcodeDir, hports⟩ :=
      apart_of_compared hclash hmissed hne'.symm hport
    exact ⟨hid', hname, hcontainer, hcodeDir, hports⟩
  · exact h

theorem beginDelete (h : Inv host c) {id : Bytes} : Inv host (c.beginDelete id) := by
  unfold Registry.beginDelete
  split
  · exact h
  · exact ⟨h.store, List.forall_mem_cons.mpr ⟨trivial, h.flights⟩⟩

theorem endDelete (h : Inv host c) {id : Bytes} {o : Outcome} : Inv host (c.endDelete id o) := by
  unfold Registry.endDelete
  split
  · exact ⟨h.store.delete, (h.unlock id).flights⟩
  · exact h

/-- One step. -/
theorem step (h : Inv host c) (e : Event) (hchecked : e.Checked host c) :
    Inv host (c.step host e) := by
  cases e with
  | create apps now body token usable o => exact h.create hchecked
  | endCreate id undone o => exact h.endCreate
  | beginUpdate body => exact h.beginUpdate
  | endUpdate id package now o => exact h.endUpdate hchecked
  | giveUp id => exact h.unlock id
  | beginDelete id => exact h.beginDelete
  | endDelete id o => exact h.endDelete
  | restart rows messages now o => exact ⟨SoundStore.start h.store.tables, by simp [Registry.step]⟩

end Inv

end WorkMesh.Runtime
