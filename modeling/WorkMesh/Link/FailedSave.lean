import WorkMesh.Link.SyncStores

/-!
# A snapshot that is not saved

The file store writes a record into its memory first and saves the file after that.
When the file is not saved it deletes the stream again. For a stream that was not there
this undoes the write. A stream that was there is lost: the store then takes it for a
new one, and a writer with cursor zero gets through.

## Implementation notes

The file is replaced by a rename at the very end, so a save that fails leaves it as it
was. Why a save fails is left open: it is the error of `persistLocked`, an argument here.
-/

namespace WorkMesh.Link

open Encoding

/-- `delete(s.streams, stream)`. -/
def Streams.delete (streams : Streams) (stream : String) : Streams :=
  streams.filter fun entry => entry.1 ≠ stream

/-- `Push`, given what `persistLocked` returns. -/
def FileSyncStore.pushSaving (s : FileSyncStore) (cancelled : Bool) (cursor : SyncCursor)
    (payload : Option Bytes) (saveErr : Option String) : FileSyncStore × Pushed :=
  match checkPush cancelled cursor.stream payload with
  | some err => (s, ⟨.zero, some err⟩)
  | none =>
      let record := s.streams.get cursor.stream
      let found := (s.streams.lookup cursor.stream).isSome
      if found = false ∧ s.streams.length ≥ maxPersistedStreams then
        (s, ⟨.zero, some "同步流数量超过限制"⟩)
      else if cursor.version < record.version then
        if found = true ∧ record.payload = payload.getD [] then
          (s, ⟨⟨cursor.stream, record.version⟩, none⟩)
        else (s, ⟨⟨cursor.stream, record.version⟩, some errSyncConflict⟩)
      else if cursor.version > record.version then
        (s, ⟨⟨cursor.stream, record.version⟩, some errSyncConflict⟩)
      else
        let record : SyncRecord := ⟨payload.getD [], record.version + 1⟩
        let streams := s.streams.set cursor.stream record
        match saveErr with
        -- the record before the write is not kept, only its stream is taken out again
        | some err => (⟨streams.delete cursor.stream, s.file⟩, ⟨.zero, some ("保存同步快照失败: " ++ err)⟩)
        | none => (⟨streams, some streams⟩, ⟨⟨cursor.stream, record.version⟩, none⟩)

/-- A call of the store. -/
inductive StoreCall where
  | pull (cancelled : Bool) (cursor : SyncCursor)
  | push (cancelled : Bool) (cursor : SyncCursor) (payload : Option Bytes) (saveErr : Option String)

def FileSyncStore.answer (s : FileSyncStore) : StoreCall → FileSyncStore × (Pulled ⊕ Pushed)
  | .pull cancelled cursor => (s, .inl (s.pull cancelled cursor))
  | .push cancelled cursor payload saveErr =>
      let pushed := s.pushSaving cancelled cursor payload saveErr
      (pushed.1, .inr pushed.2)

/-- What a sequence of calls returns. -/
def FileSyncStore.answers (s : FileSyncStore) : List StoreCall → List (Pulled ⊕ Pushed)
  | [] => []
  | call :: rest => (s.answer call).2 :: (s.answer call).1.answers rest

/-- The write goes over a record that is there and is not saved. -/
def FileSyncStore.Overwrites (s : FileSyncStore) (cancelled : Bool) (cursor : SyncCursor)
    (payload : Option Bytes) (saveErr : Option String) : Prop :=
  checkPush cancelled cursor.stream payload = none ∧ saveErr ≠ none ∧
    ∃ record, s.streams.lookup cursor.stream = some record ∧ record.version = cursor.version

section Delete
variable {streams : Streams} {stream : String} {record : SyncRecord}

theorem delete_set : (streams.set stream record).delete stream = streams.delete stream := by
  rw [Streams.delete, Streams.set, List.filter_cons_of_neg (by simp), List.filter_filter]
  simp only [Bool.and_self, Streams.delete]

theorem lookup_delete_self : (streams.delete stream).lookup stream = none := by
  rw [List.lookup_eq_none_iff]
  intro entry hentry
  have hne : entry.1 ≠ stream := by simpa using (List.mem_filter.mp hentry).2
  exact bne_iff_ne.mpr hne.symm

theorem delete_of_lookup_none (h : streams.lookup stream = none) : streams.delete stream = streams := by
  rw [Streams.delete, List.filter_eq_self]
  intro entry hentry
  have hne : stream ≠ entry.1 := bne_iff_ne.mp (List.lookup_eq_none_iff.mp h entry hentry)
  exact decide_eq_true hne.symm

end Delete

section Push
variable {s : FileSyncStore} {cancelled : Bool} {cursor : SyncCursor} {payload : Option Bytes}
  {saveErr : Option String}

/-- A store whose saves succeed is the store of the other modules. -/
theorem pushSaving_none :
    s.pushSaving cancelled cursor payload none = s.push cancelled cursor payload := by
  rfl

/-- What a failed push does to the store: nothing, or the stream is gone. -/
theorem pushSaving_error (hfail : (s.pushSaving cancelled cursor payload saveErr).2.err ≠ none) :
    (s.pushSaving cancelled cursor payload saveErr).1 = s ∨
      (checkPush cancelled cursor.stream payload = none ∧ saveErr ≠ none ∧
        cursor.version = (s.streams.get cursor.stream).version ∧
        (s.pushSaving cancelled cursor payload saveErr).1 =
          ⟨s.streams.delete cursor.stream, s.file⟩) := by
  unfold FileSyncStore.pushSaving at hfail ⊢
  split
  · exact .inl rfl
  · rename_i hcheck
    rw [hcheck] at hfail
    simp only at hfail ⊢
    split_ifs at hfail ⊢ with hroom hold hsame hnew
    · exact .inl rfl
    · exact .inl rfl
    · exact .inl rfl
    · exact .inl rfl
    · cases saveErr with
      | none => exact absurd rfl hfail
      | some err =>
          refine .inr ⟨hcheck, Option.some_ne_none err, ?_, ?_⟩
          · exact UInt64.le_antisymm (UInt64.not_lt.mp hnew) (UInt64.not_lt.mp hold)
          · exact congrArg (FileSyncStore.mk · s.file) delete_set

/-- A write over a record that is there, at its version, takes the stream out. -/
theorem pushSaving_overwrites (h : s.Overwrites cancelled cursor payload saveErr) :
    (s.pushSaving cancelled cursor payload saveErr).1 =
      ⟨s.streams.delete cursor.stream, s.file⟩ := by
  obtain ⟨hcheck, hsave, record, hrecord, hversion⟩ := h
  obtain ⟨err, rfl⟩ := Option.ne_none_iff_exists'.mp hsave
  have hget : s.streams.get cursor.stream = record := by rw [Streams.get, hrecord]; rfl
  simp only [FileSyncStore.pushSaving, hcheck, hget, hversion, hrecord, Option.isSome_some,
    Bool.true_eq_false, false_and, if_false, UInt64.lt_irrefl, gt_iff_lt]
  exact congrArg (FileSyncStore.mk · s.file) delete_set

theorem pushSaving_keeps (hfail : (s.pushSaving cancelled cursor payload saveErr).2.err ≠ none)
    (h : ¬ s.Overwrites cancelled cursor payload saveErr) :
    (s.pushSaving cancelled cursor payload saveErr).1 = s := by
  obtain hkeeps | ⟨hcheck, hsave, hversion, hgone⟩ := pushSaving_error hfail
  · exact hkeeps
  · have habsent : s.streams.lookup cursor.stream = none := by
      cases hfound : s.streams.lookup cursor.stream with
      | none => rfl
      | some record =>
          refine absurd ⟨hcheck, hsave, record, hfound, ?_⟩ h
          rw [hversion, Streams.get, hfound]
          rfl
    rw [hgone, delete_of_lookup_none habsent]

end Push

/-- A push that fails leaves no trace in any later answer, and an existing stream keeps its
record, exactly unless it was a write over an existing record that could not be saved. -/
theorem failed_push_unchanged_iff (s : FileSyncStore) (cancelled : Bool) (cursor : SyncCursor)
    (payload : Option Bytes) (saveErr : Option String)
    (hfail : (s.pushSaving cancelled cursor payload saveErr).2.err ≠ none) :
    ((∀ calls, (s.pushSaving cancelled cursor payload saveErr).1.answers calls = s.answers calls) ∧
      ∀ record, s.streams.lookup cursor.stream = some record →
        (s.pushSaving cancelled cursor payload saveErr).1.streams.lookup cursor.stream =
          some record) ↔
      ¬ s.Overwrites cancelled cursor payload saveErr := by
  constructor
  · intro h hover
    obtain ⟨_, _, record, hrecord, _⟩ := id hover
    have hkept := h.2 record hrecord
    rw [pushSaving_overwrites hover, lookup_delete_self] at hkept
    cases hkept
  · intro h
    rw [pushSaving_keeps hfail h]
    exact ⟨fun _ => rfl, fun _ hrecord => hrecord⟩

/-- A push on an old cursor is a conflict and leaves no trace. -/
theorem failed_push_unchanged_iff_conflict :
    (¬ FileSyncStore.Overwrites ⟨[("a", ⟨[1], 2⟩)], none⟩ false ⟨"a", 1⟩ (some [5]) none) ∧
      ∀ calls, (FileSyncStore.pushSaving ⟨[("a", ⟨[1], 2⟩)], none⟩ false ⟨"a", 1⟩ (some [5])
        none).1.answers calls = FileSyncStore.answers ⟨[("a", ⟨[1], 2⟩)], none⟩ calls := by
  have hnot : ¬ FileSyncStore.Overwrites ⟨[("a", ⟨[1], 2⟩)], none⟩ false ⟨"a", 1⟩ (some [5]) none :=
    fun h => h.2.1 rfl
  exact ⟨hnot, ((failed_push_unchanged_iff ⟨[("a", ⟨[1], 2⟩)], none⟩ false ⟨"a", 1⟩ (some [5]) none
    (by decide +kernel)).mpr hnot).1⟩

/-- Version one of a stream is stored and a write over it is not saved. After that the store
says the stream is empty and takes a write at cursor zero, which it refused before. -/
theorem failed_push_loses_stream :
    let s : FileSyncStore := ⟨[("a", ⟨[1], 1⟩)], some [("a", ⟨[1], 1⟩)]⟩
    let failed := s.pushSaving false ⟨"a", 1⟩ (some [2]) (some "no space left on device")
    failed.2.err ≠ none ∧ s.pull false ⟨"a", 0⟩ = ⟨[1], ⟨"a", 1⟩, none⟩ ∧
      failed.1.pull false ⟨"a", 0⟩ = ⟨[], ⟨"a", 0⟩, none⟩ ∧
      (s.push false ⟨"a", 0⟩ (some [3])).2.err = some errSyncConflict ∧
      (failed.1.push false ⟨"a", 0⟩ (some [3])).2 = ⟨⟨"a", 1⟩, none⟩ := by
  decide +kernel

end WorkMesh.Link
