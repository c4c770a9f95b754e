import WorkMesh.Runtime.Request

/-!
# The registry of runtimes

The records in memory, the tables they are saved to, and every operation that
saves them: the steps of an installation, the handlers of a runtime and the
tasks of a Node runtime. What happens outside of the registry is an input of
the operation, and so is how each attempt to save ends.
-/

namespace WorkMesh.Runtime

open Encoding

/-! ## Saving and loading -/

/-- The tables. The identifier is the primary key of the records. -/
structure Tables where
  records : List RuntimeRecord := []
  settings : Fields := []
  distinct : (records.map (·.id)).Nodup := by simp

/-- `ORDER BY name,id`. -/
def loadedBefore (a b : RuntimeRecord) : Bool :=
  decide (a.name < b.name) || (decide (a.name = b.name) && decide (a.id ≤ b.id))

/-- The records as a load returns them. -/
def Tables.load (tables : Tables) : List RuntimeRecord :=
  tables.records.insertionSort (loadedBefore · ·)

/-- How an attempt to save ends: whether the transaction can commit and, where it does not,
whether the tables can be read again. -/
structure Outcome where
  save : Bool := true
  load : Bool := true
deriving DecidableEq

structure Store where
  runtimes : List RuntimeRecord := []
  settings : Fields := []
  tables : Tables := {}

namespace Store

variable (s : Store)

def reload : Store := { s with runtimes := s.tables.load, settings := s.tables.settings }

/-- Whether the state was saved, and the store after it. -/
def saveLocked (o : Outcome) : Bool × Store :=
  if h : o.save = true ∧ (s.runtimes.map (·.id)).Nodup then
    (true, { s with tables := ⟨s.runtimes, s.settings, h.2⟩ })
  else (false, if o.load then s.reload else s)

/-- The store with another record at an index. -/
def put (i : ℕ) (item : RuntimeRecord) : Store := { s with runtimes := s.runtimes.set i item }

/-- The records can be saved: the transaction can commit and no identifier is given twice. -/
def Saves (s : Store) (o : Outcome) : Prop :=
  o.save = true ∧ (s.runtimes.map (·.id)).Nodup

instance (o : Outcome) : Decidable (s.Saves o) := inferInstanceAs (Decidable (_ ∧ _))

variable {s} {o : Outcome}

theorem load_perm (tables : Tables) : tables.load.Perm tables.records :=
  List.perm_insertionSort _ _

theorem saveLocked_ok (h : s.Saves o) :
    s.saveLocked o = (true, { s with tables := ⟨s.runtimes, s.settings, h.2⟩ }) := dif_pos h

theorem saveLocked_failed (h : ¬s.Saves o) :
    s.saveLocked o = (false, if o.load then s.reload else s) := dif_neg h

end Store

/-! ## Looking up -/

/-- A record as the operations see it, with what older records lack. -/
def operational (host : Host) (item : RuntimeRecord) : RuntimeRecord :=
  let version := runtimeString item.params [bytes "PHP_VERSION"]
  { hydrateRuntimePaths host item with
    image :=
      if item.isPHP ∧ item.image = [] ∧ version ≠ [] then bytes "1panel-php-fpm:" ++ version
      else item.image }

/-- The place of a runtime. -/
def indexOfID (items : List RuntimeRecord) (id : Bytes) : Option ℕ :=
  items.findIdx? fun item => item.id = id

/-- The place of a runtime whose identifier is not blank. -/
def runtimeByIDLocked (items : List RuntimeRecord) (id : Bytes) : Option ℕ :=
  if trimSpace id = [] then none else indexOfID items id

def removeRuntimeByID (items : List RuntimeRecord) (id : Bytes) : List RuntimeRecord :=
  items.eraseP fun item => item.id = id

/-! ## The operations -/

/-- What an operation leaves: the store, whether an attempt to save failed on the way, and
whether an index was out of range. -/
structure Done where
  store : Store
  failed : Bool := false
  crashed : Bool := false

/-- How the attempts of an operation end, in their order. -/
structure Outcomes where
  first : Outcome := {}
  second : Outcome := {}

namespace Store

variable (host : Host) (o : Outcomes) (s : Store)

/-- The status that stands for a state of a task. -/
def statusOfTask (state : Bytes) : Bytes :=
  if state = bytes "running" then bytes "Running"
  else if state = bytes "failed" ∨ state = bytes "error" then bytes "Error"
  else if state = bytes "building" then bytes "Building"
  else if state = bytes "recreating" then bytes "ReCreating"
  else if state = bytes "restarting" then bytes "Restarting"
  else if state = bytes "stopped" then bytes "Stopped"
  else bytes "Creating"

/-- A record with a new state of its task. -/
def updatedTask (status message : Bytes) (now : ℤ) (current : RuntimeRecord) : RuntimeRecord :=
  let state := toLower (trimSpace status)
  let failed : Bool := state = bytes "failed" ∨ state = bytes "error"
  { hydrateRuntimePaths host current with
    taskStatus := toLower status
    updatedAt := now
    status := statusOfTask state
    message :=
      if state = bytes "running" then []
      else if failed ∨ trimSpace message ≠ [] then message
      else current.message
    error :=
      if state = bytes "running" then [] else if failed then message else current.error }

/-- A record is replaced and saved; where the attempt fails, the old record is written to its
old index. -/
def replaceAt (i : ℕ) (previous item : RuntimeRecord) : Done :=
  match (s.put i item).saveLocked o.first with
  | (true, s') => { store := s' }
  | (false, s') =>
      { store := s'.put i previous, failed := true, crashed := s'.runtimes.length ≤ i }

/-- The state of a task. `persisted` says whether the row of the task could be written. -/
def updateRuntimeTaskChecked (id status message : Bytes) (now : ℤ) (persisted : Bool) : Done :=
  match indexOfID s.runtimes id with
  | none => { store := s }
  | some i =>
      match s.runtimes[i]? with
      | none => { store := s }
      | some previous =>
          let item := updatedTask host status message now previous
          let done := replaceAt o s i previous item
          if done.failed ∨ persisted then done
          else
            match done.store.runtimes.findIdx? (fun r =>
                r.id = id ∧ r.taskStatus = item.taskStatus ∧ r.updatedAt = item.updatedAt) with
            | none => done
            | some j =>
                let (saved, s') := (done.store.put j previous).saveLocked o.second
                { store := s', failed := !saved }

/-- The name of the task, at the start of an installation. -/
def writeTaskID (id taskID : Bytes) : Done :=
  match indexOfID s.runtimes id with
  | none => { store := s }
  | some i =>
      match s.runtimes[i]? with
      | none => { store := s }
      | some previous => replaceAt o s i previous { previous with taskID := taskID }

/-- A record is replaced and saved; where the attempt fails, the old list is put back. -/
def replaceOrRestore (i : ℕ) (item : RuntimeRecord) : Done :=
  match (s.put i item).saveLocked o.first with
  | (true, s') => { store := s' }
  | (false, s') => { store := { s' with runtimes := s.runtimes }, failed := true }

def persistRuntimeInstallPath (id path : Bytes) : Done :=
  if id = [] ∨ path = [] then { store := s }
  else
    match indexOfID s.runtimes id with
    | none => { store := s }
    | some i =>
        match s.runtimes[i]? with
        | none => { store := s }
        | some previous =>
            let item := hydrateRuntimePaths host previous
            replaceOrRestore o s i
              (if item.installPath = [] then
                { item with
                  installPath := path, composePath := join [path, bytes "docker-compose.yml"] }
              else item)

def persistRuntimeInstallFiles (item : RuntimeRecord) : Done :=
  match indexOfID s.runtimes item.id with
  | none => { store := s }
  | some i => replaceOrRestore o s i item

/-- A record is replaced and saved, with nothing done where the attempt fails. -/
def replaceOnly (id : Bytes) (item : RuntimeRecord) : Done :=
  match runtimeByIDLocked s.runtimes id with
  | none => { store := s }
  | some i =>
      let (saved, s') := (s.put i item).saveLocked o.first
      { store := s', failed := !saved }

/-- What `runtimeCreateHandler` does with a record. The three flags say whether the row of the
task, the line of the log and the host runtime could be written. -/
def create (item : RuntimeRecord) (install persisted logged applied : Bool) : Done :=
  match validateRuntimeCreateLocked host s.runtimes item with
  | .error _ => { store := s }
  | .ok () =>
      match ({ s with runtimes := s.runtimes ++ [item] }).saveLocked o.first with
      | (false, s') => { store := s', failed := true }
      | (true, s') =>
          if (install ∧ ¬(persisted ∧ logged)) ∨ (item.hostRuntime ∧ ¬applied) then
            let (saved, s'') :=
              ({ s' with runtimes := removeRuntimeByID s'.runtimes item.id }).saveLocked o.second
            { store := s'', failed := !saved }
          else { store := s' }

/-- The end of `runtimeUpdateHandler`. -/
def update (updated : RuntimeRecord) (now : ℤ) : Done :=
  replaceOnly o s updated.id
    { updated with
      status := bytes "Running", message := [], error := [], taskStatus := [], updatedAt := now }

/-- The runtime that a request names, as the operations see it. -/
def runtimeByID (id : Bytes) : Option RuntimeRecord :=
  ((runtimeByIDLocked s.runtimes id).bind fun i => s.runtimes[i]?).map (operational host)

def remark (id text : Bytes) (now : ℤ) : Done :=
  match runtimeByID host s id with
  | none => { store := s }
  | some item => replaceOnly o s item.id { item with remark := text, updatedAt := now }

def runtimeStatusForOperation (operation : Bytes) : Bytes :=
  let op := toLower (trimSpace operation)
  if op ∈ [bytes "up", bytes "start", bytes "启动", bytes "restart", bytes "重启"] then bytes "Running"
  else if op ∈ [bytes "down", bytes "stop", bytes "停止"] then bytes "Stopped"
  else bytes "Normal"

/-- `runtimeOperateHandler`. The error is that of the operation on the container. -/
def operate (id operation : Bytes) (error : Option Bytes) (now : ℤ) : Done :=
  match runtimeByID host s id with
  | none => { store := s }
  | some item =>
      match error with
      | none =>
          replaceOnly o s item.id { item with
            status := runtimeStatusForOperation operation
            message := [], error := [], taskStatus := [], updatedAt := now }
      | some message =>
          match (runtimeByIDLocked s.runtimes item.id).bind fun i => s.runtimes[i]? with
          | none => { store := s }
          | some stored =>
              replaceOnly o s item.id { stored with
                status := bytes "Error", taskStatus := bytes "failed"
                message := message, error := message, updatedAt := now }

/-- The end of `runtimeDeleteHandler`. -/
def delete (id : Bytes) : Done :=
  match runtimeByIDLocked s.runtimes id with
  | none => { store := s }
  | some i =>
      let (saved, s') := ({ s with runtimes := s.runtimes.eraseIdx i }).saveLocked o.first
      { store := s', failed := !saved }

def nodeTaskKey (taskID : Bytes) : Bytes := bytes "node-task:" ++ taskID

/-- A setting is written and saved; where the attempt fails, the old setting is put back. -/
def replaceSetting (key : Bytes) (value : Value) : Done :=
  match ({ s with settings := s.settings.put key value }).saveLocked o.first with
  | (true, s') => { store := s' }
  | (false, s') =>
      let settings :=
        match s.settings.lookup key with
        | some previous => s'.settings.put key previous
        | none => s'.settings.filter fun e => e.1 ≠ key
      { store := { s' with settings := settings }, failed := true }

/-- The task that `nodeModuleOperationHandler` queues. -/
def queueNodeTask (taskID : Bytes) (task : Value) : Done :=
  replaceSetting o s (nodeTaskKey taskID) task

/-- The state of a task of `runNodeModuleTask`. -/
def updateNodeTask (taskID status message : Bytes) (now : Value) : Done :=
  match s.settings.lookup (nodeTaskKey taskID) with
  | some (.object task) =>
      let next : Fields :=
        (Fields.put task (bytes "status") (.text status)).put (bytes "updatedAt") now
      replaceSetting o s (nodeTaskKey taskID)
        (.object (if message = [] then next else next.put (bytes "error") (.text message)))
  | _ => { store := s }

end Store

/-- An operation on the registry. -/
inductive Operation where
  | updateTask (id status message : Bytes) (now : ℤ) (persisted : Bool)
  | writeTaskID (id taskID : Bytes)
  | installPath (id path : Bytes)
  | installFiles (item : RuntimeRecord)
  | create (item : RuntimeRecord) (install persisted logged applied : Bool)
  | update (updated : RuntimeRecord) (now : ℤ)
  | remark (id text : Bytes) (now : ℤ)
  | operate (id operation : Bytes) (error : Option Bytes) (now : ℤ)
  | delete (id : Bytes)
  | queueNodeTask (taskID : Bytes) (task : Value)
  | updateNodeTask (taskID status message : Bytes) (now : Value)

def Operation.perform (host : Host) (o : Outcomes) (s : Store) : Operation → Done
  | .updateTask id status message now persisted =>
      s.updateRuntimeTaskChecked host o id status message now persisted
  | .writeTaskID id taskID => s.writeTaskID o id taskID
  | .installPath id path => s.persistRuntimeInstallPath host o id path
  | .installFiles item => s.persistRuntimeInstallFiles o item
  | .create item install persisted logged applied =>
      s.create host o item install persisted logged applied
  | .update updated now => s.update o updated now
  | .remark id text now => s.remark host o id text now
  | .operate id operation error now => s.operate host o id operation error now
  | .delete id => s.delete o id
  | .queueNodeTask taskID task => s.queueNodeTask o taskID task
  | .updateNodeTask taskID status message now => s.updateNodeTask o taskID status message now

end WorkMesh.Runtime
