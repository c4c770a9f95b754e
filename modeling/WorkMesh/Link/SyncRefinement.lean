import WorkMesh.Link.SyncStores
import WorkMesh.StateMachine.Versioned

/-!
# One specification for the stores of the link

The stores answer as one map from streams to versioned snapshots. A push against
the present version stores its payload under the next one. A push that is behind
but repeats the present payload is a retry and succeeds. Opening a store again
gives the same map.
-/

namespace WorkMesh.Link

open Encoding StateMachine

/-! ## The specification -/

abbrev Snapshots := VersionedMap String Bytes

inductive Op where
  | push (cancelled : Bool) (cursor : SyncCursor) (payload : Option Bytes)
  | pull (cancelled : Bool) (cursor : SyncCursor)
  | reopen

inductive Reply where
  | pushed (answer : Pushed)
  | pulled (answer : Pulled)
  | reopened (err : Option String)
deriving DecidableEq

def writeOf (cursor : SyncCursor) (payload : Option Bytes) : Write String Bytes :=
  ⟨cursor.stream, cursor.version.toNat, payload.getD []⟩

def Snapshots.push (m : Snapshots) (cancelled : Bool) (cursor : SyncCursor)
    (payload : Option Bytes) : Snapshots × Pushed :=
  match checkPush cancelled cursor.stream payload with
  | some err => (m, ⟨.zero, some err⟩)
  | none =>
      let after := m.write (writeOf cursor payload)
      (after, ⟨⟨cursor.stream, .ofNat (after cursor.stream).1⟩,
        if m.verdict (writeOf cursor payload) = .conflict then some errSyncConflict else none⟩)

def Snapshots.pull (m : Snapshots) (cancelled : Bool) (cursor : SyncCursor) : Pulled :=
  match checkPull cancelled cursor.stream with
  | some err => ⟨[], .zero, some err⟩
  | none => ⟨if (m cursor.stream).1 ≤ cursor.version.toNat then [] else (m cursor.stream).2,
      ⟨cursor.stream, .ofNat (m cursor.stream).1⟩, none⟩

def Snapshots.step (m : Snapshots) : Op → Snapshots
  | .push cancelled cursor payload => (Snapshots.push m cancelled cursor payload).1
  | _ => m

def Snapshots.reply (m : Snapshots) : Op → Reply
  | .push cancelled cursor payload => .pushed (Snapshots.push m cancelled cursor payload).2
  | .pull cancelled cursor => .pulled (Snapshots.pull m cancelled cursor)
  | .reopen => .reopened none

/-- The payload that an operation stores, under its stream. -/
def Snapshots.stores (m : Snapshots) : Op → List (String × Bytes)
  | .push cancelled cursor payload =>
      if checkPush cancelled cursor.stream payload = none then
        m.accepted (writeOf cursor payload)
      else []
  | _ => []

/-! ## The three stores side by side -/

structure Stores where
  memory : MemorySyncStore
  file : FileSyncStore
  sqlite : SQLiteSyncStore

def Stores.empty : Stores := ⟨⟨[]⟩, ⟨[], none⟩, ⟨[]⟩⟩

/-- Opening the file again replaces the store if it succeeds. The rows of the database
are what they were, and the memory is kept. -/
def Stores.step (s : Stores) : Op → Stores
  | .push cancelled cursor payload =>
      ⟨(s.memory.push cancelled cursor payload).1, (s.file.push cancelled cursor payload).1,
        (s.sqlite.push cancelled cursor payload).1⟩
  | .pull _ _ => s
  | .reopen => { s with file := (newFileSyncStore s.file.file).toOption.getD s.file }

def openError : Except String FileSyncStore → Option String
  | .ok _ => none
  | .error err => some err

/-- The replies in memory, in the file and in SQLite. -/
def Stores.reply (s : Stores) : Op → Reply × Reply × Reply
  | .push cancelled cursor payload =>
      (.pushed (s.memory.push cancelled cursor payload).2,
        .pushed (s.file.push cancelled cursor payload).2,
        .pushed (s.sqlite.push cancelled cursor payload).2)
  | .pull cancelled cursor =>
      (.pulled (s.memory.pull cancelled cursor), .pulled (s.file.pull cancelled cursor),
        .pulled (s.sqlite.pull cancelled cursor))
  | .reopen => (.reopened none, .reopened (openError (newFileSyncStore s.file.file)),
      .reopened none)

/-- A push that passes the checks has a payload and does not take the version out of the
signed numbers. -/
def Fits (s : Stores) : Op → Prop
  | .push cancelled cursor payload => checkPush cancelled cursor.stream payload = none →
      payload ≠ none ∧ (s.memory.streams.get cursor.stream).version.toNat + 1 < 2 ^ 63
  | _ => True

/-- A push that passes the checks finds its stream in the file or room for one more. -/
def Roomy (s : Stores) : Op → Prop
  | .push cancelled cursor payload => checkPush cancelled cursor.stream payload = none →
      (s.file.streams.lookup cursor.stream).isSome ∨
        s.file.streams.length < maxPersistedStreams
  | _ => True

/-! ## One record -/

/-- The streams of a store hold what the map holds. -/
def Mirrors (m : Snapshots) (streams : Streams) : Prop :=
  ∀ stream, (streams.get stream).version.toNat = (m stream).1 ∧
    (streams.get stream).payload = (m stream).2

/-- The verdict on a push, from the record of its stream. -/
def pushVerdict (record : SyncRecord) (version : UInt64) (payload : Bytes) : Verdict :=
  if version = record.version then .stored
  else if version < record.version ∧ payload = record.payload then .repeated
  else .conflict

/-- The streams and the answer after a verdict. -/
def settle (streams : Streams) (cursor : SyncCursor) (payload : Bytes) : Verdict → Streams × Pushed
  | .stored =>
      let version := (streams.get cursor.stream).version + 1
      (streams.set cursor.stream ⟨payload, version⟩, ⟨⟨cursor.stream, version⟩, none⟩)
  | .repeated => (streams, ⟨⟨cursor.stream, (streams.get cursor.stream).version⟩, none⟩)
  | .conflict =>
      (streams, ⟨⟨cursor.stream, (streams.get cursor.stream).version⟩, some errSyncConflict⟩)

section Push
variable {m : Snapshots} {streams : Streams} {cancelled : Bool} {cursor : SyncCursor}
  {payload : Option Bytes}

theorem verdict_eq (h : Mirrors m streams) :
    m.verdict (writeOf cursor payload) =
      pushVerdict (streams.get cursor.stream) cursor.version (payload.getD []) := by
  obtain ⟨hversion, hpayload⟩ := h cursor.stream
  simp only [VersionedMap.verdict, pushVerdict, writeOf, ← hversion, ← hpayload, UInt64.lt_iff_toNat_lt,
    UInt64.toNat_inj]

/-- The next version of a stream, as long as it stays among the signed numbers. -/
theorem toNat_next (h : Mirrors m streams) (hlast : (m cursor.stream).1 + 1 < 2 ^ 63) :
    ((streams.get cursor.stream).version + 1).toNat = (m cursor.stream).1 + 1 := by
  rw [← (h cursor.stream).1] at hlast ⊢
  rw [UInt64.toNat_add]
  exact Nat.mod_eq_of_lt (hlast.trans (by norm_num))

/-- The map after a push mirrors the streams after its verdict. -/
theorem mirrors_write (h : Mirrors m streams) (hlast : (m cursor.stream).1 + 1 < 2 ^ 63) :
    Mirrors (m.write (writeOf cursor payload))
      (settle streams cursor (payload.getD []) (m.verdict (writeOf cursor payload))).1 := by
  cases hverdict : m.verdict (writeOf cursor payload) with
  | stored =>
      rw [VersionedMap.write_of_stored hverdict]
      intro stream
      by_cases hstream : stream = cursor.stream
      · subst hstream
        simp only [settle, get_set_self, writeOf, Function.update_self, toNat_next h hlast, and_self]
      · simp only [settle, get_set_of_ne hstream, writeOf, Function.update_of_ne hstream]
        exact h stream
  | repeated =>
      rw [VersionedMap.write_of_not_stored (by simp [hverdict])]
      exact h
  | conflict =>
      rw [VersionedMap.write_of_not_stored (by simp [hverdict])]
      exact h

/-- The answer of the specification is the one of the verdict. -/
theorem snapshots_push (h : Mirrors m streams)
    (hcheck : checkPush cancelled cursor.stream payload = none)
    (hlast : (m cursor.stream).1 + 1 < 2 ^ 63) :
    Snapshots.push m cancelled cursor payload = (m.write (writeOf cursor payload),
      (settle streams cursor (payload.getD []) (m.verdict (writeOf cursor payload))).2) := by
  have hafter := (@mirrors_write m streams cursor payload h hlast cursor.stream).1
  have hversion := congrArg UInt64.ofNat hafter
  rw [UInt64.ofNat_toNat] at hversion
  simp only [Snapshots.push, hcheck, ← hversion]
  cases m.verdict (writeOf cursor payload) with
  | stored => simp [settle]
  | repeated => simp [settle]
  | conflict => simp [settle]

/-- Where the version of a push lies, with the verdict. -/
inductive Place (record : SyncRecord) (version : UInt64) (payload : Bytes) : Verdict → Prop
  | present (h : version = record.version) : Place record version payload .stored
  | behind (h : version < record.version) (hsame : payload = record.payload) :
      Place record version payload .repeated
  | stale (h : version < record.version) (hother : payload ≠ record.payload) :
      Place record version payload .conflict
  | ahead (h : record.version < version) : Place record version payload .conflict

theorem place_pushVerdict (record : SyncRecord) (version : UInt64) (payload : Bytes) :
    Place record version payload (pushVerdict record version payload) := by
  by_cases hpresent : version = record.version
  · rw [pushVerdict, if_pos hpresent]
    exact .present hpresent
  · rw [pushVerdict, if_neg hpresent]
    by_cases hbehind : version < record.version
    · by_cases hsame : payload = record.payload
      · rw [if_pos ⟨hbehind, hsame⟩]
        exact .behind hbehind hsame
      · rw [if_neg fun h => hsame h.2]
        exact .stale hbehind hsame
    · rw [if_neg fun h => hbehind h.1]
      have hle := UInt64.not_lt.mp hbehind
      exact .ahead (UInt64.lt_of_le_of_ne hle (Ne.symm hpresent))

theorem place_verdict (h : Mirrors m streams) :
    Place (streams.get cursor.stream) cursor.version (payload.getD [])
      (m.verdict (writeOf cursor payload)) := by
  rw [verdict_eq h]
  exact place_pushVerdict _ _ _

/-- Each store comes to the verdict by its own comparisons. -/
theorem memory_push {s : MemorySyncStore} {verdict : Verdict}
    (hcheck : checkPush cancelled cursor.stream payload = none)
    (hplace : Place (s.streams.get cursor.stream) cursor.version (payload.getD []) verdict) :
    s.push cancelled cursor payload =
      (⟨(settle s.streams cursor (payload.getD []) verdict).1⟩,
        (settle s.streams cursor (payload.getD []) verdict).2) := by
  simp only [MemorySyncStore.push, hcheck]
  cases hplace with
  | present h => simp [h, settle]
  | behind h hsame => simp [h, hsame, settle]
  | stale h hother => simp [h, hother.symm, settle]
  | ahead h => simp [h, UInt64.lt_asymm h, settle]

theorem file_push {s : FileSyncStore} {verdict : Verdict}
    (hcheck : checkPush cancelled cursor.stream payload = none)
    (hroom : (s.streams.lookup cursor.stream).isSome ∨ s.streams.length < maxPersistedStreams)
    (hplace : Place (s.streams.get cursor.stream) cursor.version (payload.getD []) verdict) :
    s.push cancelled cursor payload =
      (if verdict = .stored then ⟨(settle s.streams cursor (payload.getD []) verdict).1,
          some (settle s.streams cursor (payload.getD []) verdict).1⟩ else s,
        (settle s.streams cursor (payload.getD []) verdict).2) := by
  have hfree : ¬((s.streams.lookup cursor.stream).isSome = false ∧
      s.streams.length ≥ maxPersistedStreams) := by
    rintro ⟨hmissing, hfull⟩
    cases hroom with
    | inl hfound => exact absurd hfound (by simp [hmissing])
    | inr hlt => exact absurd hfull (not_le.mpr hlt)
  -- a version below the stored one belongs to a stream that is there
  have hfound : cursor.version < (s.streams.get cursor.stream).version →
      (s.streams.lookup cursor.stream).isSome = true := by
    intro hbehind
    by_contra hmissing
    rw [get_of_lookup_none (Option.not_isSome_iff_eq_none.mp hmissing)] at hbehind
    exact absurd hbehind UInt64.not_lt_zero
  simp only [FileSyncStore.push, hcheck, if_neg hfree]
  cases hplace with
  | present h => simp [h, settle]
  | behind h hsame => simp [h, hsame, hfound h, settle]
  | stale h hother => simp [h, hother.symm, settle]
  | ahead h => simp [h, UInt64.lt_asymm h, settle]

theorem sqlite_push {s : SQLiteSyncStore} {verdict : Verdict}
    (hcheck : checkPush cancelled cursor.stream payload = none) (hpayload : payload ≠ none)
    (hlast : ((s.rows.get cursor.stream).version + 1).toNat < 2 ^ 63)
    (hplace : Place (s.rows.get cursor.stream) cursor.version (payload.getD []) verdict) :
    s.push cancelled cursor payload =
      (⟨(settle s.rows cursor (payload.getD []) verdict).1⟩,
        (settle s.rows cursor (payload.getD []) verdict).2) := by
  have hrow : rowError ((s.rows.get cursor.stream).version + 1) payload = none := by
    rw [rowError, if_neg (not_le.mpr hlast), if_neg hpayload]
  simp only [SQLiteSyncStore.push, hcheck]
  cases hplace with
  | present h => simp [h, hrow, settle]
  | behind h hsame => simp [h, UInt64.ne_of_lt h, hsame, settle]
  | stale h hother => simp [UInt64.ne_of_lt h, hother.symm, settle]
  | ahead h => simp [(UInt64.ne_of_lt h).symm, UInt64.lt_asymm h, settle]

end Push

section Pull
variable {m : Snapshots} {streams : Streams} {cursor : SyncCursor}

theorem pullRecord_eq (h : Mirrors m streams) :
    pullRecord cursor (streams.get cursor.stream) =
      ⟨if (m cursor.stream).1 ≤ cursor.version.toNat then [] else (m cursor.stream).2,
        ⟨cursor.stream, .ofNat (m cursor.stream).1⟩, none⟩ := by
  obtain ⟨hversion, hpayload⟩ := h cursor.stream
  rw [pullRecord, ← hversion, ← hpayload, UInt64.ofNat_toNat]
  by_cases hcurrent : cursor.version ≥ (streams.get cursor.stream).version
  · have hle := UInt64.le_iff_toNat_le.mp hcurrent
    simp [hcurrent, hle]
  · have hlt := mt UInt64.le_iff_toNat_le.mpr hcurrent
    simp [hcurrent, hlt]

/-- A stream without a row answers like one with the zero record. -/
theorem sqlite_pull (s : SQLiteSyncStore) (cancelled : Bool) (cursor : SyncCursor) :
    s.pull cancelled cursor = match checkPull cancelled cursor.stream with
      | some err => ⟨[], .zero, some err⟩
      | none => pullRecord cursor (s.rows.get cursor.stream) := by
  rw [SQLiteSyncStore.pull]
  cases checkPull cancelled cursor.stream with
  | some err => rfl
  | none =>
      cases hrow : s.rows.lookup cursor.stream with
      | none =>
          have hzero : cursor.version ≥ 0 := UInt64.zero_le
          simp [get_of_lookup_none hrow, pullRecord, hzero]
      | some row => simp [hrow, Streams.get]

end Pull

/-! ## Opening the file again -/

/-- The file holds the streams, and what it holds passes the checks of a start. -/
structure Saved (s : FileSyncStore) : Prop where
  file : s.file = some s.streams ∨ s.file = none ∧ s.streams = []
  length : s.streams.length ≤ maxPersistedStreams
  valid : ∀ entry ∈ s.streams, validateStream entry.1 = none ∧ entry.2.version ≠ 0 ∧
    entry.2.payload.length ≤ maxRequestBytes

theorem Saved.reopen {s : FileSyncStore} (h : Saved s) : newFileSyncStore s.file = .ok s := by
  obtain ⟨streams, file⟩ := s
  cases h.file with
  | inl hfile =>
      obtain rfl : file = some streams := hfile
      have hall : (streams.all fun entry => (validateStream entry.1).isNone &&
          entry.2.version != 0 && decide (entry.2.payload.length ≤ maxRequestBytes)) = true := by
        refine List.all_eq_true.mpr fun entry hentry => ?_
        obtain ⟨hname, hversion, hpayload⟩ := h.valid entry hentry
        simp [hname, hversion, hpayload]
      rw [newFileSyncStore, if_neg (not_lt.mpr h.length), if_pos hall]
  | inr hnone =>
      obtain ⟨rfl, rfl⟩ : file = none ∧ streams = [] := hnone
      rfl

theorem Saved.push {s : FileSyncStore} (h : Saved s) {cursor : SyncCursor} {payload : Bytes}
    (hstream : validateStream cursor.stream = none)
    (hpayload : payload.length ≤ maxRequestBytes)
    (hversion : (s.streams.get cursor.stream).version + 1 ≠ 0)
    (hroom : (s.streams.lookup cursor.stream).isSome ∨ s.streams.length < maxPersistedStreams)
    (verdict : Verdict) :
    Saved (if verdict = .stored then ⟨(settle s.streams cursor payload verdict).1,
      some (settle s.streams cursor payload verdict).1⟩ else s) := by
  by_cases hstored : verdict = .stored
  · subst hstored
    refine ⟨.inl rfl, length_set_le h.length hroom, fun entry hentry => ?_⟩
    cases mem_set hentry with
    | inl hnew =>
        subst hnew
        exact ⟨hstream, hversion, hpayload⟩
    | inr hold => exact h.valid entry hold
  · rw [if_neg hstored]
    exact h

/-! ## The stores refine the specification -/

/-- The stores hold what the map holds, the file as long as it has room. -/
structure Refines (withFile : Prop) (m : Snapshots) (s : Stores) : Prop where
  memory : Mirrors m s.memory.streams
  sqlite : Mirrors m s.sqlite.rows
  file : withFile → Mirrors m s.file.streams
  saved : withFile → Saved s.file

theorem streams_settled (s : FileSyncStore) (cursor : SyncCursor) (payload : Bytes)
    (verdict : Verdict) :
    (if verdict = .stored then ⟨(settle s.streams cursor payload verdict).1,
      some (settle s.streams cursor payload verdict).1⟩ else s : FileSyncStore).streams =
        (settle s.streams cursor payload verdict).1 := by
  cases verdict with
  | stored => rfl
  | repeated => rfl
  | conflict => rfl

theorem checkPush_none {cancelled : Bool} {stream : String} {payload : Option Bytes}
    (h : checkPush cancelled stream payload = none) :
    validateStream stream = none ∧ (payload.getD []).length ≤ maxRequestBytes := by
  simp only [checkPush, checkPull] at h
  split at h
  · cases h
  · rename_i hchecked
    split at h
    · cases h
    · rename_i hsize
      split at hchecked
      · cases hchecked
      · exact ⟨hchecked, not_lt.mp hsize⟩

/-- The replies are the one of the map, the reply of the file as long as it has room. -/
structure RepliesAs (withFile : Prop) (replies : Reply × Reply × Reply) (reply : Reply) : Prop where
  memory : replies.1 = reply
  file : withFile → replies.2.1 = reply
  sqlite : replies.2.2 = reply

section Step
variable {withFile : Prop} {m : Snapshots} {s : Stores} {cancelled : Bool} {cursor : SyncCursor}
  {payload : Option Bytes}

/-- What the file comes to after a push that it has room for. -/
theorem refines_filePush (hfile : Mirrors m s.file.streams) (hsaved : Saved s.file)
    (hcheck : checkPush cancelled cursor.stream payload = none)
    (hlast : (m cursor.stream).1 + 1 < 2 ^ 63)
    (hroom : (s.file.streams.lookup cursor.stream).isSome ∨
      s.file.streams.length < maxPersistedStreams) :
    Mirrors (m.write (writeOf cursor payload)) (s.file.push cancelled cursor payload).1.streams ∧
      Saved (s.file.push cancelled cursor payload).1 ∧
      (s.file.push cancelled cursor payload).2 =
        (Snapshots.push m cancelled cursor payload).2 := by
  obtain ⟨hstream, hsize⟩ := checkPush_none hcheck
  have hnonzero : (s.file.streams.get cursor.stream).version + 1 ≠ 0 := by
    intro hzero
    have hnext := toNat_next hfile hlast
    rw [hzero] at hnext
    exact absurd hnext (Nat.succ_ne_zero _).symm
  rw [file_push hcheck hroom (place_verdict hfile), snapshots_push hfile hcheck hlast]
  refine ⟨?_, hsaved.push hstream hsize hnonzero hroom _, rfl⟩
  exact (streams_settled s.file cursor _ _).symm ▸ mirrors_write hfile hlast

theorem Refines.push (h : Refines withFile m s)
    (hfits : Fits s (.push cancelled cursor payload))
    (hroomy : withFile → Roomy s (.push cancelled cursor payload)) :
    Refines withFile (Snapshots.push m cancelled cursor payload).1
        (s.step (.push cancelled cursor payload)) ∧
      RepliesAs withFile (s.reply (.push cancelled cursor payload))
        (.pushed (Snapshots.push m cancelled cursor payload).2) := by
  cases hcheck : checkPush cancelled cursor.stream payload with
  | some err =>
      simp only [Stores.step, Stores.reply, MemorySyncStore.push, FileSyncStore.push,
        SQLiteSyncStore.push, Snapshots.push, hcheck]
      exact ⟨h, rfl, fun _ => rfl, rfl⟩
  | none =>
      obtain ⟨hpayload, hlast⟩ := hfits hcheck
      rw [(h.memory cursor.stream).1] at hlast
      have hmemory := memory_push hcheck (place_verdict h.memory)
      have hsqlite := sqlite_push hcheck hpayload
        (by rw [toNat_next h.sqlite hlast]; exact hlast) (place_verdict h.sqlite)
      have hfile := fun hwith =>
        refines_filePush (h.file hwith) (h.saved hwith) hcheck hlast (hroomy hwith hcheck)
      have hspec := snapshots_push h.memory hcheck hlast
      constructor
      · rw [Stores.step, hmemory, hsqlite, hspec]
        exact ⟨mirrors_write h.memory hlast, mirrors_write h.sqlite hlast,
          fun hwith => (hfile hwith).1, fun hwith => (hfile hwith).2.1⟩
      · refine ⟨?_, fun hwith => congrArg Reply.pushed (hfile hwith).2.2, ?_⟩
        · rw [Stores.reply, hmemory, hspec]
        · rw [Stores.reply, hsqlite, snapshots_push h.sqlite hcheck hlast]

theorem Refines.pull (h : Refines withFile m s) (cancelled : Bool) (cursor : SyncCursor) :
    RepliesAs withFile (s.reply (.pull cancelled cursor))
      (.pulled (Snapshots.pull m cancelled cursor)) := by
  rw [Stores.reply, MemorySyncStore.pull, FileSyncStore.pull, sqlite_pull, Snapshots.pull]
  cases checkPull cancelled cursor.stream with
  | some err => exact ⟨rfl, fun _ => rfl, rfl⟩
  | none => exact ⟨congrArg Reply.pulled (pullRecord_eq h.memory),
      fun hwith => congrArg Reply.pulled (pullRecord_eq (h.file hwith)),
      congrArg Reply.pulled (pullRecord_eq h.sqlite)⟩

theorem Refines.reopen (h : Refines withFile m s) :
    Refines withFile m (s.step .reopen) ∧ RepliesAs withFile (s.reply .reopen) (.reopened none) := by
  refine ⟨⟨h.memory, h.sqlite, fun hwith => ?_, fun hwith => ?_⟩, rfl, fun hwith => ?_, rfl⟩
  · rw [Stores.step, (h.saved hwith).reopen]
    exact h.file hwith
  · rw [Stores.step, (h.saved hwith).reopen]
    exact h.saved hwith
  · rw [Stores.reply, (h.saved hwith).reopen]
    rfl

/-- After a step the stores still hold the map, and their replies are the one of the map. -/
theorem Refines.step (h : Refines withFile m s) {op : Op} (hfits : Fits s op)
    (hroomy : withFile → Roomy s op) :
    Refines withFile (m.step op) (s.step op) ∧ RepliesAs withFile (s.reply op) (m.reply op) := by
  cases op with
  | push cancelled cursor payload => exact h.push hfits hroomy
  | pull cancelled cursor => exact ⟨h, h.pull cancelled cursor⟩
  | reopen => exact h.reopen

end Step

/-! ## Runs -/

/-- Nothing was pushed. -/
def Snapshots.empty : Snapshots := VersionedMap.empty []

theorem refines_empty (withFile : Prop) : Refines withFile Snapshots.empty .empty := by
  refine ⟨fun _ => ⟨rfl, rfl⟩, fun _ => ⟨rfl, rfl⟩, fun _ _ => ⟨rfl, rfl⟩, fun _ => ?_⟩
  exact ⟨.inr ⟨rfl, rfl⟩, Nat.zero_le _, fun _ hentry => by cases hentry⟩

/-- What the stores reply over a run, and what the map replies. -/
def memoryReplies (s : Stores) (ops : List Op) : List Reply :=
  outputs Stores.step (fun s op => [(s.reply op).1]) s ops

def fileReplies (s : Stores) (ops : List Op) : List Reply :=
  outputs Stores.step (fun s op => [(s.reply op).2.1]) s ops

def sqliteReplies (s : Stores) (ops : List Op) : List Reply :=
  outputs Stores.step (fun s op => [(s.reply op).2.2]) s ops

def mapReplies (m : Snapshots) (ops : List Op) : List Reply :=
  outputs Snapshots.step (fun m op => [Snapshots.reply m op]) m ops

theorem replies_of_refines {withFile : Prop} {m : Snapshots} {s : Stores}
    (h : Refines withFile m s) {ops : List Op} (hfits : Meets Stores.step Fits s ops)
    (hroomy : withFile → Meets Stores.step Roomy s ops) :
    memoryReplies s ops = mapReplies m ops ∧ sqliteReplies s ops = mapReplies m ops ∧
      (withFile → fileReplies s ops = mapReplies m ops) := by
  induction ops generalizing m s with
  | nil => exact ⟨rfl, rfl, fun _ => rfl⟩
  | cons op ops ih =>
      obtain ⟨hnext, hreply⟩ := h.step hfits.1 fun hwith => (hroomy hwith).1
      obtain ⟨hmemory, hsqlite, hfile⟩ := ih hnext hfits.2 fun hwith => (hroomy hwith).2
      refine ⟨?_, ?_, fun hwith => ?_⟩
      · exact congrArg₂ List.cons hreply.memory hmemory
      · exact congrArg₂ List.cons hreply.sqlite hsqlite
      · exact congrArg₂ List.cons (hreply.file hwith) (hfile hwith)

theorem counts_step {m : Snapshots} {writes : List (String × Bytes)} (h : Counts [] m writes)
    (op : Op) : Counts [] (m.step op) (writes ++ Snapshots.stores m op) := by
  cases op with
  | push cancelled cursor payload =>
      simp only [Snapshots.step, Snapshots.stores, Snapshots.push]
      cases checkPush cancelled cursor.stream payload with
      | some err => simpa using h
      | none => simpa using h.write (writeOf cursor payload)
  | pull cancelled cursor => simpa [Snapshots.step, Snapshots.stores] using h
  | reopen => simpa [Snapshots.step, Snapshots.stores] using h

theorem counts_run {m : Snapshots} {writes : List (String × Bytes)} (h : Counts [] m writes)
    (ops : List Op) :
    Counts [] (run Snapshots.step m ops) (writes ++ outputs Snapshots.step Snapshots.stores m ops) := by
  induction ops generalizing m writes with
  | nil => simpa [outputs] using h
  | cons op ops ih => simpa [outputs, List.append_assoc] using ih (counts_step h op)

/-- A full file refuses a new stream and changes nothing. -/
theorem push_full {s : FileSyncStore} {cancelled : Bool} {cursor : SyncCursor}
    {payload : Option Bytes} (hcheck : checkPush cancelled cursor.stream payload = none)
    (hnew : s.streams.lookup cursor.stream = none)
    (hfull : maxPersistedStreams ≤ s.streams.length) :
    s.push cancelled cursor payload = (s, ⟨.zero, some "同步流数量超过限制"⟩) := by
  simp [FileSyncStore.push, hcheck, hnew, hfull]

/-- On every sequence of pushes, pulls and restarts that fits, the stores reply as the map
does, the file as long as it has room. The map holds for each stream the number of its
accepted writes and the last of them. A file that is full refuses a further stream and keeps
what it has. -/
theorem stores_refine_map (ops : List Op) (h : Meets Stores.step Fits .empty ops) :
    memoryReplies .empty ops = mapReplies Snapshots.empty ops ∧
      sqliteReplies .empty ops = mapReplies Snapshots.empty ops ∧
      (Meets Stores.step Roomy .empty ops →
        fileReplies .empty ops = mapReplies Snapshots.empty ops) ∧
      Counts [] (run Snapshots.step Snapshots.empty ops)
        (outputs Snapshots.step Snapshots.stores Snapshots.empty ops) ∧
      ∀ (s : FileSyncStore) (cancelled : Bool) (cursor : SyncCursor) (payload : Option Bytes),
        checkPush cancelled cursor.stream payload = none →
        s.streams.lookup cursor.stream = none → maxPersistedStreams ≤ s.streams.length →
        s.push cancelled cursor payload = (s, ⟨.zero, some "同步流数量超过限制"⟩) := by
  obtain ⟨hmemory, hsqlite, hfile⟩ := replies_of_refines (refines_empty _) h id
  refine ⟨hmemory, hsqlite, hfile, ?_, fun _ _ _ _ => push_full⟩
  have hcounts := counts_run (@counts_empty String Bytes _ []) ops
  simpa [Snapshots.empty] using hcounts

/-- A stream that is written, written over, and read after a restart. -/
theorem stores_refine_map_settings :
    memoryReplies .empty [.push false ⟨"settings", 0⟩ (some (bytes "one")),
        .push false ⟨"settings", 1⟩ (some (bytes "two")), .reopen,
        .pull false ⟨"settings", 0⟩] =
      mapReplies Snapshots.empty [.push false ⟨"settings", 0⟩ (some (bytes "one")),
        .push false ⟨"settings", 1⟩ (some (bytes "two")), .reopen,
        .pull false ⟨"settings", 0⟩] := by
  have hfits : Meets Stores.step Fits .empty
      [.push false ⟨"settings", 0⟩ (some (bytes "one")),
        .push false ⟨"settings", 1⟩ (some (bytes "two")), .reopen,
        .pull false ⟨"settings", 0⟩] := by
    refine ⟨fun _ => ?_, fun _ => ?_, trivial, trivial, trivial⟩
    · decide +kernel
    · decide +kernel
  exact (stores_refine_map _ hfits).1

/-- A push that is behind succeeds when it repeats what is stored. -/
theorem behind_push_repeated :
    ¬∀ (s : MemorySyncStore) (cursor : SyncCursor) (payload : Bytes),
      checkPush false cursor.stream (some payload) = none →
        ((s.push false cursor (some payload)).2.err = none ↔
          cursor.version = (s.streams.get cursor.stream).version) := by
  intro h
  have hrepeated := h (MemorySyncStore.push ⟨[]⟩ false ⟨"settings", 0⟩ (some (bytes "one"))).1
    ⟨"settings", 0⟩ (bytes "one") (by decide +kernel)
  exact absurd (hrepeated.mp (by decide +kernel)) (by decide +kernel)

end WorkMesh.Link
