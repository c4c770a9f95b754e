import WorkMesh.AgentTeam.Value
import WorkMesh.Encoding.Text

/-!
# The stores of the link

The server of the link keeps the latest snapshot of every stream with a version.
There are three stores for it: in memory, in a file and in SQLite. This module is
`memory_store.go`, `file_store.go`, `sql_store.go` and `stream_validation.go`.

## Implementation notes

A map of streams is the list of its entries, each stream at most once. Reading
and writing the file or the database does not fail here. A payload that is
`nil` is `none`; what is stored and returned does not tell it from an empty one.
-/

namespace WorkMesh.Link

open Encoding

structure SyncCursor where
  stream : String
  version : UInt64
deriving DecidableEq

def SyncCursor.zero : SyncCursor := ⟨"", 0⟩

/-- What `Push` returns, with the text of its error. -/
structure Pushed where
  cursor : SyncCursor
  err : Option String
deriving DecidableEq

/-- What `Pull` returns. -/
structure Pulled where
  payload : Bytes
  cursor : SyncCursor
  err : Option String
deriving DecidableEq

def errSyncConflict : String := "同步游标冲突"

def maxRequestBytes : Nat := 8 * 2 ^ 20
def maxPersistedStreams : Nat := 128

def isStreamChar (char : Char) : Bool :=
  ('a' ≤ char && char ≤ 'z') || ('A' ≤ char && char ≤ 'Z') || ('0' ≤ char && char ≤ '9') ||
    char == '.' || char == '_' || char == '-'

/-- The error of a stream that has no valid name. -/
def validateStream (stream : String) : Option String :=
  if stream = "" ∨ 128 < stream.utf8ByteSize then some "同步流名称无效"
  else if stream.toList.all isStreamChar then none
  else some "同步流名称包含非法字符"

/-- What all stores check before they look at a stream. -/
def checkPull (cancelled : Bool) (stream : String) : Option String :=
  if cancelled then some "context canceled" else validateStream stream

/-- What all stores check before they write. -/
def checkPush (cancelled : Bool) (stream : String) (payload : Option Bytes) : Option String :=
  match checkPull cancelled stream with
  | some err => some err
  | none =>
      if maxRequestBytes < (payload.getD []).length then some "同步数据超过 8 MiB 限制" else none

structure SyncRecord where
  payload : Bytes
  version : UInt64
deriving DecidableEq

/-- `map[string]syncRecord`. -/
abbrev Streams := List (String × SyncRecord)

/-- A stream that is not there has the zero record. -/
def Streams.get (streams : Streams) (stream : String) : SyncRecord :=
  (streams.lookup stream).getD ⟨[], 0⟩

def Streams.set (streams : Streams) (stream : String) (record : SyncRecord) : Streams :=
  (stream, record) :: streams.filter fun entry => entry.1 ≠ stream

/-- The snapshot of a record for a cursor. -/
def pullRecord (cursor : SyncCursor) (record : SyncRecord) : Pulled :=
  let current : SyncCursor := ⟨cursor.stream, record.version⟩
  if cursor.version ≥ record.version then ⟨[], current, none⟩ else ⟨record.payload, current, none⟩

/-! ## In memory -/

structure MemorySyncStore where
  streams : Streams

def MemorySyncStore.pull (s : MemorySyncStore) (cancelled : Bool) (cursor : SyncCursor) : Pulled :=
  match checkPull cancelled cursor.stream with
  | some err => ⟨[], .zero, some err⟩
  | none => pullRecord cursor (s.streams.get cursor.stream)

def MemorySyncStore.push (s : MemorySyncStore) (cancelled : Bool) (cursor : SyncCursor)
    (payload : Option Bytes) : MemorySyncStore × Pushed :=
  match checkPush cancelled cursor.stream payload with
  | some err => (s, ⟨.zero, some err⟩)
  | none =>
      let record := s.streams.get cursor.stream
      if cursor.version < record.version then
        -- a request that is sent again
        if record.payload = payload.getD [] then (s, ⟨⟨cursor.stream, record.version⟩, none⟩)
        else (s, ⟨⟨cursor.stream, record.version⟩, some errSyncConflict⟩)
      else if cursor.version > record.version then
        (s, ⟨⟨cursor.stream, record.version⟩, some errSyncConflict⟩)
      else
        let record : SyncRecord := ⟨payload.getD [], record.version + 1⟩
        (⟨s.streams.set cursor.stream record⟩, ⟨⟨cursor.stream, record.version⟩, none⟩)

/-! ## In a file -/

/-- The store with the content of its file, `none` if there is no file. -/
structure FileSyncStore where
  streams : Streams
  file : Option Streams

/-- `NewFileSyncStore` over the content of the file. -/
def newFileSyncStore (file : Option Streams) : Except String FileSyncStore :=
  match file with
  | none => .ok ⟨[], none⟩
  | some saved =>
      if maxPersistedStreams < saved.length then .error "同步存储流数量超过限制"
      else if saved.all fun entry => (validateStream entry.1).isNone && entry.2.version != 0 &&
          decide (entry.2.payload.length ≤ maxRequestBytes) then
        .ok ⟨saved, some saved⟩
      else .error "同步存储内容无效"

def FileSyncStore.pull (s : FileSyncStore) (cancelled : Bool) (cursor : SyncCursor) : Pulled :=
  match checkPull cancelled cursor.stream with
  | some err => ⟨[], .zero, some err⟩
  | none => pullRecord cursor (s.streams.get cursor.stream)

def FileSyncStore.push (s : FileSyncStore) (cancelled : Bool) (cursor : SyncCursor)
    (payload : Option Bytes) : FileSyncStore × Pushed :=
  match checkPush cancelled cursor.stream payload with
  | some err => (s, ⟨.zero, some err⟩)
  | none =>
      let record := s.streams.get cursor.stream
      let found := (s.streams.lookup cursor.stream).isSome
      if found = false ∧ s.streams.length ≥ maxPersistedStreams then
        (s, ⟨.zero, some "同步流数量超过限制"⟩)
      else if cursor.version < record.version then
        if found = true ∧ record.payload = payload.getD [] then
          (s, ⟨⟨cursor.stream, record.version⟩, none⟩)
        else (s, ⟨⟨cursor.stream, record.version⟩, some errSyncConflict⟩)
      else if cursor.version > record.version then
        (s, ⟨⟨cursor.stream, record.version⟩, some errSyncConflict⟩)
      else
        let record : SyncRecord := ⟨payload.getD [], record.version + 1⟩
        let streams := s.streams.set cursor.stream record
        (⟨streams, some streams⟩, ⟨⟨cursor.stream, record.version⟩, none⟩)

/-! ## In SQLite -/

/-- The rows of `link_sync`. -/
structure SQLiteSyncStore where
  rows : Streams

def SQLiteSyncStore.pull (s : SQLiteSyncStore) (cancelled : Bool) (cursor : SyncCursor) : Pulled :=
  match checkPull cancelled cursor.stream with
  | some err => ⟨[], .zero, some err⟩
  | none =>
      match s.rows.lookup cursor.stream with
      | none => ⟨[], ⟨cursor.stream, 0⟩, none⟩
      | some row => pullRecord cursor row

/-- What the driver and the table say to a row: `database/sql` takes no unsigned number from
2^63 on, and `nil` is bound as `NULL`. -/
def rowError (version : UInt64) (payload : Option Bytes) : Option String :=
  if 2 ^ 63 ≤ version.toNat then some "uint64 values with high bit set are not supported"
  else if payload = none then some "NOT NULL constraint failed: link_sync.payload"
  else none

/-- A transaction that fails is rolled back, and its cursor is still returned. -/
def SQLiteSyncStore.push (s : SQLiteSyncStore) (cancelled : Bool) (cursor : SyncCursor)
    (payload : Option Bytes) : SQLiteSyncStore × Pushed :=
  match checkPush cancelled cursor.stream payload with
  | some err => (s, ⟨.zero, some err⟩)
  | none =>
      let row := s.rows.get cursor.stream
      if cursor.version ≠ row.version then
        if cursor.version < row.version ∧ row.payload = payload.getD [] then
          (s, ⟨⟨cursor.stream, row.version⟩, none⟩)
        else (s, ⟨⟨cursor.stream, row.version⟩, some errSyncConflict⟩)
      else
        match rowError (row.version + 1) payload with
        | some err => (s, ⟨.zero, some err⟩)
        | none =>
            (⟨s.rows.set cursor.stream ⟨payload.getD [], row.version + 1⟩⟩,
              ⟨⟨cursor.stream, row.version + 1⟩, none⟩)

/-! ## Reading what was set -/

section Streams
variable {streams : Streams} {stream other : String} {record : SyncRecord}

theorem lookup_set_self : (streams.set stream record).lookup stream = some record :=
  List.lookup_cons_self

theorem lookup_filter_other (h : other ≠ stream) :
    (streams.filter fun entry => entry.1 ≠ stream).lookup other = streams.lookup other := by
  induction streams with
  | nil => rfl
  | cons entry rest ih =>
      by_cases hentry : entry.1 = stream
      · have hne : (other == entry.1) = false := beq_eq_false_iff_ne.mpr (hentry ▸ h)
        rw [List.filter_cons_of_neg (by simpa using hentry), ih, List.lookup_cons, hne]
      · rw [List.filter_cons_of_pos (by simpa using hentry), List.lookup_cons, List.lookup_cons, ih]

theorem lookup_set_of_ne (h : other ≠ stream) :
    (streams.set stream record).lookup other = streams.lookup other := by
  rw [Streams.set, List.lookup_cons, beq_eq_false_iff_ne.mpr h]
  exact lookup_filter_other h

@[simp] theorem get_set_self : (streams.set stream record).get stream = record := by
  rw [Streams.get, lookup_set_self]
  rfl

theorem get_set_of_ne (h : other ≠ stream) :
    (streams.set stream record).get other = streams.get other := by
  rw [Streams.get, lookup_set_of_ne h, Streams.get]

theorem get_of_lookup_none (h : streams.lookup stream = none) : streams.get stream = ⟨[], 0⟩ := by
  rw [Streams.get, h]
  rfl

theorem mem_set {entry : String × SyncRecord} (h : entry ∈ streams.set stream record) :
    entry = (stream, record) ∨ entry ∈ streams :=
  (List.mem_cons.mp h).imp_right fun hmem => (List.mem_filter.mp hmem).1

/-- A store with room for a stream stays within its limit. -/
theorem length_set_le {limit : Nat} (hlength : streams.length ≤ limit)
    (hroom : (streams.lookup stream).isSome ∨ streams.length < limit) :
    (streams.set stream record).length ≤ limit := by
  rw [Streams.set, List.length_cons]
  cases hroom with
  | inl hfound =>
      obtain ⟨held, hheld⟩ := Option.isSome_iff_exists.mp hfound
      obtain ⟨before, after, rfl, -⟩ := List.lookup_eq_some_iff.mp hheld
      have hlt : ((before ++ (stream, held) :: after).filter fun entry => entry.1 ≠ stream).length <
          (before ++ (stream, held) :: after).length :=
        List.length_filter_lt_length_iff_exists.mpr ⟨(stream, held), by simp, by simp⟩
      exact hlt.trans_le hlength
  | inr hlt => exact (Nat.succ_le_succ (List.length_filter_le _ _)).trans hlt

end Streams

end WorkMesh.Link
