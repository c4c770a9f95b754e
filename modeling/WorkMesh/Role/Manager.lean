import WorkMesh.AgentTeam.Value
import WorkMesh.Encoding.Text

/-!
# The role manager of a node

A node is primary or secondary, and an epoch counts the changes of its role.
The manager switches the role against an expected epoch and keeps the pair in
memory, in a state file or in a row of the shared database. This module is
`manager.go` and the constructor `NewRoleManager` of the control API.

## Implementation notes

What lies outside the process is a `Disk`: the content of the state file and the
rows of `role_state`. A failure of an operation is the text of its error; a
statement or a file operation that fails leaves the disk as it was.
-/

namespace WorkMesh.Role

open Encoding

def primary : String := "primary"
def secondary : String := "secondary"

def validRole (role : String) : Bool := role == primary || role == secondary

structure State where
  nodeID : String
  role : String
  roleEpoch : UInt64
deriving DecidableEq

/-- An operation that switches the role. -/
structure Transition where
  operationID : String
  nodeID : String
  fromRole : String
  toRole : String
  expectedEpoch : UInt64
deriving DecidableEq

/-! ## The state file -/

inductive JsonValue where
  | null
  | string (s : String)
  | number (literal : Bytes)
  | other

/-- What reading the state file gives: no file, an error, a text that is no JSON
object, or the fields of one. -/
inductive StateFile where
  | missing
  | unreadable (err : String)
  | malformed (err : String)
  | object (fields : List (String × JsonValue))

/-- A key stands for a tag up to the case of its letters. -/
def matchesTag (tag key : String) : Bool := key.toLower == tag.toLower

/-- The value that the fields of a tag leave, `none` if one of them has another type. -/
def decodeField {α : Type} (read : JsonValue → Option α) (tag : String) (zero : α)
    (fields : List (String × JsonValue)) : Option α :=
  fields.foldl (fun decoded field => decoded.bind fun old =>
    if matchesTag tag field.1 then
      match field.2 with
      | .null => some old
      | value => read value
    else some old) (some zero)

def JsonValue.asString : JsonValue → Option String
  | .string s => some s
  | _ => none

def JsonValue.asUint64 : JsonValue → Option UInt64
  | .number literal => (parseUint literal).map UInt64.ofNat
  | _ => none

def decodeString (tag : String) (fields : List (String × JsonValue)) : Option String :=
  decodeField JsonValue.asString tag "" fields

def decodeUint64 (tag : String) (fields : List (String × JsonValue)) : Option UInt64 :=
  decodeField JsonValue.asUint64 tag 0 fields

/-- The file that holds a state. -/
def savedFile (state : State) : StateFile :=
  .object [("node_id", .string state.nodeID), ("role", .string state.role),
    ("role_epoch", .number (formatUint state.roleEpoch.toNat))]

/-- The state that a file restores, starting from the configured one. -/
def load (initial : State) : StateFile → Except String State
  | .missing => .ok initial
  | .unreadable err => .error ("读取角色状态失败: " ++ err)
  | .malformed err => .error ("解析角色状态失败: " ++ err)
  | .object fields =>
      match decodeString "node_id" fields, decodeString "role" fields,
          decodeUint64 "role_epoch" fields with
      | some nodeID, some role, some roleEpoch =>
          if nodeID ≠ initial.nodeID ∨ validRole role = false ∨ roleEpoch = 0 then
            .error "角色状态文件内容无效"
          else .ok { nodeID, role, roleEpoch }
      | _, _, _ => .error "解析角色状态失败"

/-! ## The manager -/

/-- A row of `role_state`. The epoch is `none` where it does not scan. -/
structure RoleRow where
  role : String
  roleEpoch : Option UInt64

structure Disk where
  file : StateFile
  rows : List (String × RoleRow)

/-- Where a manager saves its state. -/
inductive Medium where
  | memory
  | file
  | sqlite
deriving DecidableEq

structure Manager where
  state : State
  medium : Medium

def new (nodeID initialRole : String) : Except String Manager :=
  if validRole initialRole then
    .ok { state := { nodeID, role := initialRole, roleEpoch := 1 }, medium := .memory }
  else .error "节点角色必须为 primary 或 secondary"

def newPersistent (nodeID initialRole statePath : String) (file : StateFile) :
    Except String Manager :=
  match new nodeID initialRole with
  | .error err => .error err
  | .ok manager =>
      let statePath := AgentTeam.trimSpace statePath
      if statePath = "" then .ok manager
      else if statePath.toList.head? ≠ some '/' then .error "角色状态路径必须是绝对路径"
      else (load manager.state file).map fun state => { state, medium := .file }

/-- The manager over the database, and the rows it leaves. -/
def newSQLite (nodeID initialRole : String) (failure : Option String)
    (rows : List (String × RoleRow)) : Except String Manager × List (String × RoleRow) :=
  match new nodeID initialRole, failure with
  | .error err, _ => (.error err, rows)
  | .ok _, some err => (.error err, rows)
  | .ok manager, none =>
      match rows.lookup nodeID with
      | none =>
          (.ok { manager with medium := .sqlite },
            (nodeID, { role := initialRole, roleEpoch := some 1 }) :: rows)
      | some row =>
          match row.roleEpoch with
          | none => (.error "sql: Scan error", rows)
          | some roleEpoch =>
              if validRole row.role = false ∨ roleEpoch = 0 then
                (.error "角色 SQLite 状态无效", rows)
              else
                (.ok { state := { nodeID, role := row.role, roleEpoch }, medium := .sqlite }, rows)

/-- What the process is configured with: no data directory, one with the control
database, or one with a state file. -/
inductive Backing where
  | none
  | database
  | directory (statePath : String)

/-- The manager of a process. A constructor that fails is replaced by a
secondary in memory. -/
def newRoleManager (backing : Backing) (disk : Disk) (nodeID initialRole : String)
    (failure : Option String) : Manager × Disk :=
  let fallback : Manager :=
    { state := { nodeID, role := secondary, roleEpoch := 1 }, medium := .memory }
  match backing with
  | .none => ((new nodeID initialRole).toOption.getD fallback, disk)
  | .database =>
      let (manager, rows) := newSQLite nodeID initialRole failure disk.rows
      (manager.toOption.getD fallback, { disk with rows })
  | .directory statePath =>
      let file := match failure with
        | some err => .unreadable err
        | Option.none => disk.file
      ((newPersistent nodeID initialRole statePath file).toOption.getD fallback, disk)

/-- What the constructor that `newRoleManager` calls answers. -/
def constructed (backing : Backing) (disk : Disk) (nodeID initialRole : String)
    (failure : Option String) : Except String Manager :=
  match backing with
  | .none => new nodeID initialRole
  | .database => (newSQLite nodeID initialRole failure disk.rows).1
  | .directory statePath =>
      newPersistent nodeID initialRole statePath ((failure.map .unreadable).getD disk.file)

/-- A start whose constructor fails goes on as a secondary at epoch 1. -/
theorem newRoleManager_fallback {backing : Backing} {disk : Disk} {nodeID initialRole err : String}
    {failure : Option String}
    (h : constructed backing disk nodeID initialRole failure = .error err) :
    (newRoleManager backing disk nodeID initialRole failure).1 =
      ⟨⟨nodeID, secondary, 1⟩, .memory⟩ := by
  cases backing with
  | none =>
      have hnew : new nodeID initialRole = .error err := h
      simp only [newRoleManager, hnew]
      rfl
  | database =>
      have hnew : (newSQLite nodeID initialRole failure disk.rows).1 = .error err := h
      simp only [newRoleManager, hnew]
      rfl
  | directory statePath =>
      cases failure with
      | none =>
          have hnew : newPersistent nodeID initialRole statePath disk.file = .error err := h
          simp only [newRoleManager, hnew]
          rfl
      | some text =>
          have hnew : newPersistent nodeID initialRole statePath (.unreadable text) =
              .error err := h
          simp only [newRoleManager, hnew]
          rfl

/-- The manager and the disk after a switch, with its answer. -/
structure Switched where
  manager : Manager
  disk : Disk
  answer : Except String State

/-- The rows after the update of one whose epoch is still the previous one. -/
def updateRow (rows : List (String × RoleRow)) (previous state : State) :
    List (String × RoleRow) :=
  rows.map fun entry =>
    if entry.1 = state.nodeID ∧ entry.2.roleEpoch = some previous.roleEpoch then
      (entry.1, { role := state.role, roleEpoch := some state.roleEpoch })
    else entry

/-- `database/sql` takes no unsigned number from 2^63 on. -/
def bindError (previous state : State) : Option String :=
  if 2 ^ 63 ≤ previous.roleEpoch.toNat ∨ 2 ^ 63 ≤ state.roleEpoch.toNat then
    some "uint64 values with high bit set are not supported"
  else none

/-- Saves a state in the medium of the manager. -/
def save (medium : Medium) (previous state : State) (failure : Option String) (disk : Disk) :
    Except String Disk :=
  match medium with
  | .memory => .ok disk
  | .file =>
      match failure with
      | some err => .error ("保存角色状态失败: " ++ err)
      | none => .ok { disk with file := savedFile state }
  | .sqlite =>
      match failure.or (bindError previous state) with
      | some err => .error ("保存角色 SQLite 状态失败: " ++ err)
      | none => .ok { disk with rows := updateRow disk.rows previous state }

def Manager.switch (m : Manager) (disk : Disk) (cancelled : Bool) (failure : Option String)
    (expectedEpoch : UInt64) (target : String) : Switched :=
  if cancelled then ⟨m, disk, .error "context canceled"⟩
  else if validRole target = false then ⟨m, disk, .error "无效的目标角色"⟩
  else if expectedEpoch ≠ m.state.roleEpoch then ⟨m, disk, .error "角色版本冲突"⟩
  else if target = m.state.role then ⟨m, disk, .ok m.state⟩
  else
    let state := { m.state with role := target, roleEpoch := m.state.roleEpoch + 1 }
    match save m.medium m.state state failure disk with
    | .error err => ⟨m, disk, .error err⟩
    | .ok disk => ⟨{ m with state }, disk, .ok state⟩

/-! ## What a switch does -/

/-- The state after a change of role. -/
def State.changed (s : State) (target : String) : State :=
  { s with role := target, roleEpoch := s.roleEpoch + 1 }

/-- The three outcomes of a switch: an error, no change, or a change that is saved. -/
inductive SwitchOutcome (m : Manager) (disk : Disk) (failure : Option String)
    (expectedEpoch : UInt64) (target : String) : Switched → Prop
  | refused (err : String) : SwitchOutcome m disk failure expectedEpoch target
      ⟨m, disk, .error err⟩
  | kept (hepoch : expectedEpoch = m.state.roleEpoch) (hrole : target = m.state.role)
      (hvalid : validRole target = true) :
      SwitchOutcome m disk failure expectedEpoch target ⟨m, disk, .ok m.state⟩
  | changed (hepoch : expectedEpoch = m.state.roleEpoch) (hrole : target ≠ m.state.role)
      (hvalid : validRole target = true) {after : Disk}
      (hsaved : save m.medium m.state (m.state.changed target) failure disk = .ok after) :
      SwitchOutcome m disk failure expectedEpoch target
        ⟨{ m with state := m.state.changed target }, after, .ok (m.state.changed target)⟩

theorem switch_outcome (m : Manager) (disk : Disk) (cancelled : Bool) (failure : Option String)
    (expectedEpoch : UInt64) (target : String) :
    SwitchOutcome m disk failure expectedEpoch target
      (m.switch disk cancelled failure expectedEpoch target) := by
  simp only [Manager.switch]
  split
  · exact .refused _
  · split
    · exact .refused _
    · rename_i hvalid
      have hvalid : validRole target = true := by simpa using hvalid
      split
      · exact .refused _
      · rename_i hepoch
        have hepoch : expectedEpoch = m.state.roleEpoch := by simpa using hepoch
        split
        · rename_i hrole
          exact .kept hepoch hrole hvalid
        · rename_i hrole
          split
          · exact .refused _
          · rename_i hsaved
            exact .changed hepoch hrole hvalid hsaved

/-- A manager in memory writes nothing. -/
theorem switch_memory {m : Manager} (hmedium : m.medium = .memory) (disk : Disk)
    (cancelled : Bool) (failure : Option String) (expectedEpoch : UInt64) (target : String) :
    (m.switch disk cancelled failure expectedEpoch target).disk = disk := by
  have houtcome := switch_outcome m disk cancelled failure expectedEpoch target
  generalize m.switch disk cancelled failure expectedEpoch target = switched at houtcome ⊢
  cases houtcome with
  | refused _ => rfl
  | kept _ _ _ => rfl
  | changed _ _ _ hsaved =>
      rw [hmedium, save] at hsaved
      exact (Except.ok.inj hsaved).symm

/-- A switch that answers with an error has changed neither memory nor disk. -/
theorem switch_error {m : Manager} {disk : Disk} {cancelled : Bool} {failure : Option String}
    {expectedEpoch : UInt64} {target err : String}
    (h : (m.switch disk cancelled failure expectedEpoch target).answer = .error err) :
    (m.switch disk cancelled failure expectedEpoch target).manager = m ∧
      (m.switch disk cancelled failure expectedEpoch target).disk = disk := by
  have houtcome := switch_outcome m disk cancelled failure expectedEpoch target
  generalize m.switch disk cancelled failure expectedEpoch target = switched at h houtcome ⊢
  cases houtcome with
  | refused _ => exact ⟨rfl, rfl⟩
  | kept _ _ _ => cases h
  | changed _ _ _ _ => cases h

/-- The switch changes the role: the context is alive, the epoch is the present one, the
target is the other role, and the medium takes the new state. -/
structure Manager.Changes (m : Manager) (disk : Disk) (cancelled : Bool) (failure : Option String)
    (expectedEpoch : UInt64) (target : String) : Prop where
  alive : cancelled = false
  valid : validRole target = true
  epoch : expectedEpoch = m.state.roleEpoch
  role : target ≠ m.state.role
  saved : (save m.medium m.state (m.state.changed target) failure disk).isOk

section Changes
variable {m : Manager} {disk : Disk} {cancelled : Bool} {failure : Option String}
  {expectedEpoch : UInt64} {target : String}

theorem switch_changes (h : m.Changes disk cancelled failure expectedEpoch target) :
    ∃ after, save m.medium m.state (m.state.changed target) failure disk = .ok after ∧
      m.switch disk cancelled failure expectedEpoch target =
        ⟨{ m with state := m.state.changed target }, after, .ok (m.state.changed target)⟩ := by
  have hsaved := h.saved
  cases hsave : save m.medium m.state (m.state.changed target) failure disk with
  | error err =>
      rw [hsave] at hsaved
      cases hsaved
  | ok after =>
      refine ⟨after, rfl, ?_⟩
      rw [State.changed] at hsave ⊢
      simp [Manager.switch, h.alive, h.valid, h.epoch, h.role, hsave]

theorem switch_unchanged (h : ¬m.Changes disk cancelled failure expectedEpoch target) :
    (m.switch disk cancelled failure expectedEpoch target).manager = m ∧
      (m.switch disk cancelled failure expectedEpoch target).disk = disk := by
  by_cases halive : cancelled = true
  · simp [Manager.switch, halive]
  · have houtcome := switch_outcome m disk cancelled failure expectedEpoch target
    generalize m.switch disk cancelled failure expectedEpoch target = switched at houtcome ⊢
    cases houtcome with
    | refused err => exact ⟨rfl, rfl⟩
    | kept hepoch hrole hvalid => exact ⟨rfl, rfl⟩
    | changed hepoch hrole hvalid hsaved =>
        have hok : (save m.medium m.state (m.state.changed target) failure disk).isOk := by
          rw [hsaved]
          rfl
        exact absurd ⟨by simpa using halive, hvalid, hepoch, hrole, hok⟩ h

end Changes

/-! ## What is read back -/

/-- A tag is read from the three fields of a saved state by its own name alone. -/
theorem load_savedFile {initial state : State} (hnode : state.nodeID = initial.nodeID)
    (hrole : validRole state.role = true) (hepoch : state.roleEpoch ≠ 0) :
    load initial (savedFile state) = .ok state := by
  have hnodeID : decodeString "node_id" [("node_id", .string state.nodeID),
      ("role", .string state.role), ("role_epoch", .number (formatUint state.roleEpoch.toNat))] =
        some state.nodeID := by
    have hself : matchesTag "node_id" "node_id" = true := by decide +kernel
    have hother : matchesTag "node_id" "role" = false := by decide +kernel
    have hepoch : matchesTag "node_id" "role_epoch" = false := by decide +kernel
    simp [decodeString, decodeField, hself, hother, hepoch, JsonValue.asString]
  have hroleName : decodeString "role" [("node_id", .string state.nodeID),
      ("role", .string state.role), ("role_epoch", .number (formatUint state.roleEpoch.toNat))] =
        some state.role := by
    have hself : matchesTag "role" "role" = true := by decide +kernel
    have hother : matchesTag "role" "node_id" = false := by decide +kernel
    have hepoch : matchesTag "role" "role_epoch" = false := by decide +kernel
    simp [decodeString, decodeField, hself, hother, hepoch, JsonValue.asString]
  have hroleEpoch : decodeUint64 "role_epoch" [("node_id", .string state.nodeID),
      ("role", .string state.role), ("role_epoch", .number (formatUint state.roleEpoch.toNat))] =
        some state.roleEpoch := by
    have hself : matchesTag "role_epoch" "role_epoch" = true := by decide +kernel
    have hother : matchesTag "role_epoch" "node_id" = false := by decide +kernel
    have hrole : matchesTag "role_epoch" "role" = false := by decide +kernel
    simp [decodeUint64, decodeField, hself, hother, hrole, JsonValue.asUint64,
      parseUint_formatUint state.roleEpoch.toNat_lt]
  have hvalid : ¬(state.nodeID ≠ initial.nodeID ∨ validRole state.role = false ∨
      state.roleEpoch = 0) := by simp [hnode, hrole, hepoch]
  simp only [load, savedFile, hnodeID, hroleName, hroleEpoch, if_neg hvalid]

/-- A file that is there restores the same state from every configured role. -/
theorem load_of_not_missing {a b : State} {file : StateFile} (hfile : file ≠ .missing)
    (hnode : a.nodeID = b.nodeID) : load a file = load b file := by
  cases file with
  | missing => exact absurd rfl hfile
  | unreadable err => rfl
  | malformed err => rfl
  | object fields => simp only [load, hnode]

theorem load_valid {initial state : State} {file : StateFile}
    (hinitial : validRole initial.role = true ∧ initial.roleEpoch ≠ 0)
    (h : load initial file = .ok state) :
    state.nodeID = initial.nodeID ∧ validRole state.role = true ∧ state.roleEpoch ≠ 0 := by
  cases file with
  | missing =>
      obtain rfl := Except.ok.inj h
      exact ⟨rfl, hinitial⟩
  | unreadable err => cases h
  | malformed err => cases h
  | object fields =>
      simp only [load] at h
      split at h
      · split at h
        · cases h
        · rename_i hvalid
          push Not at hvalid
          obtain rfl := Except.ok.inj h
          exact ⟨hvalid.1, by simpa using hvalid.2.1, hvalid.2.2⟩
      · cases h

theorem new_of_valid {nodeID initialRole : String} (h : validRole initialRole = true) :
    new nodeID initialRole = .ok ⟨⟨nodeID, initialRole, 1⟩, .memory⟩ := by
  rw [new, if_pos h]

/-- A path that a state file can stand under. -/
def FilePath (statePath : String) : Prop :=
  AgentTeam.trimSpace statePath ≠ "" ∧ (AgentTeam.trimSpace statePath).toList.head? = some '/'

theorem filePath_roleState : FilePath "/data/role-state.json" := by
  have hpath : AgentTeam.trimSpace "/data/role-state.json" = "/data/role-state.json" := by
    decide +kernel
  rw [FilePath, hpath]
  decide

theorem newPersistent_of_path {nodeID initialRole statePath : String} {file : StateFile}
    (hrole : validRole initialRole = true) (hpath : FilePath statePath) :
    newPersistent nodeID initialRole statePath file =
      (load ⟨nodeID, initialRole, 1⟩ file).map fun state => ⟨state, .file⟩ := by
  simp only [newPersistent, new_of_valid hrole, if_neg hpath.1, hpath.2, ne_eq,
    not_true_eq_false, if_false]

theorem newPersistent_ok {nodeID initialRole statePath : String} {file : StateFile}
    {manager : Manager} (h : newPersistent nodeID initialRole statePath file = .ok manager)
    (hmedium : manager.medium = .file) :
    validRole initialRole = true ∧ FilePath statePath := by
  have hrole : validRole initialRole = true := by
    by_contra hrole
    simp only [newPersistent, new, if_neg hrole] at h
    cases h
  refine ⟨hrole, ?_⟩
  simp only [newPersistent, new_of_valid hrole] at h
  by_cases hempty : AgentTeam.trimSpace statePath = ""
  · simp only [hempty, if_true] at h
    obtain rfl := Except.ok.inj h
    cases hmedium
  · by_cases habs : (AgentTeam.trimSpace statePath).toList.head? = some '/'
    · exact ⟨hempty, habs⟩
    · simp only [hempty, habs, if_false, ne_eq, not_false_eq_true, if_true] at h
      cases h

/-- The row of a node after an update that finds its epoch. -/
theorem lookup_updateRow {rows : List (String × RoleRow)} {previous state : State}
    {row : RoleRow} (hrow : rows.lookup state.nodeID = some row)
    (hepoch : row.roleEpoch = some previous.roleEpoch) :
    (updateRow rows previous state).lookup state.nodeID =
      some ⟨state.role, some state.roleEpoch⟩ := by
  induction rows with
  | nil => cases hrow
  | cons entry rows ih =>
      rw [List.lookup_cons] at hrow
      rw [updateRow, List.map_cons]
      by_cases hentry : state.nodeID = entry.1
      · have hkey : (state.nodeID == entry.1) = true := beq_iff_eq.mpr hentry
        rw [hkey] at hrow
        obtain rfl := Option.some.inj hrow
        rw [if_pos ⟨hentry.symm, hepoch⟩, List.lookup_cons, hkey]
      · have hkey : (state.nodeID == entry.1) = false := beq_eq_false_iff_ne.mpr hentry
        rw [hkey] at hrow
        rw [if_neg fun h => hentry h.1.symm, List.lookup_cons, hkey]
        exact ih hrow

end WorkMesh.Role
