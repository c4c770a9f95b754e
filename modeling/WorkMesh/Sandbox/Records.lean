import WorkMesh.Sandbox.Provider
import WorkMesh.StateMachine.KeyedList

/-!
# The records of tasks

The node keeps a record of every task in its own state, in a map and in the
list that is written to the disk. A write can fail. Then the record is put back,
and a caller that must not lose the new status marks the record instead.
-/

namespace WorkMesh.Sandbox

open Encoding StateMachine

/-- A record. The status is always the text of a `TaskState`. -/
structure TaskItem where
  taskID : Bytes
  sandboxID : Bytes := []
  imageDigest : Bytes := []
  sandboxType : Bytes := []
  backend : Bytes := []
  workspaceRef : Bytes := []
  status : TaskState
  stateSyncRequired : Bool := false
  stateSyncError : Option String := none
deriving DecidableEq

/-- `upsertPersistentTaskLocked`. -/
def upsertPersistentTask (item : TaskItem) : List TaskItem → List TaskItem
  | [] => [item]
  | existing :: rest =>
      if existing.taskID = item.taskID then item :: rest
      else existing :: upsertPersistentTask item rest

/-- The map as it is built from the list that was read. -/
def loadTasks (tasks : Table Bytes TaskItem) : List TaskItem → Table Bytes TaskItem
  | [] => tasks
  | item :: rest =>
      loadTasks (if item.taskID = [] then tasks else tasks.insert item.taskID item) rest

abbrev recordOf (id : Bytes) (items : List TaskItem) : Option TaskItem :=
  lookupKey TaskItem.taskID id items

theorem recordOf_upsert (item : TaskItem) (items : List TaskItem) (id : Bytes) :
    recordOf id (upsertPersistentTask item items) =
      if id = item.taskID then some item else recordOf id items := by
  induction items with
  | nil =>
      by_cases heq : id = item.taskID
      · simp [upsertPersistentTask, recordOf, lookupKey, heq]
      · simp [upsertPersistentTask, recordOf, lookupKey, heq, Ne.symm heq]
  | cons existing rest ih =>
      rw [upsertPersistentTask]
      by_cases hsame : existing.taskID = item.taskID
      · by_cases heq : id = item.taskID
        · simp [recordOf, lookupKey, hsame, heq]
        · simp [recordOf, lookupKey, hsame, heq, Ne.symm heq]
      · rw [if_neg hsame]
        by_cases hfirst : existing.taskID = id
        · have hne : id ≠ item.taskID := fun heq => hsame (hfirst.trans heq)
          simp [recordOf, lookupKey, hfirst, hne]
        · simp only [recordOf, lookupKey, List.find?_cons, hfirst, decide_false] at ih ⊢
          exact ih

theorem mem_upsert_taskID {item : TaskItem} {items : List TaskItem} {id : Bytes}
    (h : id ∈ (upsertPersistentTask item items).map (·.taskID)) :
    id = item.taskID ∨ id ∈ items.map (·.taskID) := by
  induction items with
  | nil => exact .inl (List.mem_singleton.mp h)
  | cons existing rest ih =>
      rw [upsertPersistentTask] at h
      split at h
      · rcases List.mem_cons.mp h with heq | hrest
        · exact .inl heq
        · exact .inr (List.mem_cons_of_mem _ hrest)
      · rcases List.mem_cons.mp h with heq | hrest
        · rw [heq]
          exact .inr List.mem_cons_self
        · exact (ih hrest).imp_right (List.mem_cons_of_mem _)

theorem nodup_upsert {item : TaskItem} {items : List TaskItem}
    (h : (items.map (·.taskID)).Nodup) :
    ((upsertPersistentTask item items).map (·.taskID)).Nodup := by
  induction items with
  | nil => exact List.nodup_singleton _
  | cons existing rest ih =>
      rw [List.map_cons, List.nodup_cons] at h
      rw [upsertPersistentTask]
      split
      · rename_i hsame
        rw [List.map_cons, List.nodup_cons, ← hsame]
        exact h
      · rename_i hsame
        rw [List.map_cons, List.nodup_cons]
        refine ⟨fun hmem => ?_, ih h.2⟩
        rcases mem_upsert_taskID hmem with heq | hold
        · exact hsame heq
        · exact h.1 hold

theorem lookup_loadTasks {items : List TaskItem} (hnodup : (items.map (·.taskID)).Nodup)
    {id : Bytes} (hid : id ≠ []) (tasks : Table Bytes TaskItem) :
    (loadTasks tasks items).lookup id = (recordOf id items).or (tasks.lookup id) := by
  induction items generalizing tasks with
  | nil => rfl
  | cons item rest ih =>
      rw [List.map_cons, List.nodup_cons] at hnodup
      rw [loadTasks, ih hnodup.2]
      by_cases heq : item.taskID = id
      · have hnone : recordOf id rest = none := by
          refine lookupKey_eq_none.mpr fun other hother hsame => hnodup.1 ?_
          rw [heq, ← hsame]
          exact List.mem_map_of_mem hother
        have hnamed : item.taskID ≠ [] := by rwa [heq]
        rw [hnone, if_neg hnamed, Table.lookup_insert, if_pos heq.symm]
        simp [recordOf, lookupKey, heq]
      · have hskip : (if item.taskID = [] then tasks
            else tasks.insert item.taskID item).lookup id = tasks.lookup id := by
          split
          · rfl
          · rw [Table.lookup_insert, if_neg (Ne.symm heq)]
        rw [hskip]
        simp [recordOf, lookupKey, heq]

/-- The records in memory. The map and the list have the same ones. -/
structure TaskRecords where
  tasks : Table Bytes TaskItem
  items : List TaskItem
  nodup : (items.map (·.taskID)).Nodup
  agree : ∀ id, id ≠ [] → tasks.lookup id = recordOf id items

namespace TaskRecords

def empty : TaskRecords where
  tasks := ∅
  items := []
  nodup := List.nodup_nil
  agree _ _ := rfl

def put (r : TaskRecords) (item : TaskItem) : TaskRecords where
  tasks := r.tasks.insert item.taskID item
  items := upsertPersistentTask item r.items
  nodup := nodup_upsert r.nodup
  agree id hid := by rw [Table.lookup_insert, recordOf_upsert, r.agree id hid]

@[simp] theorem put_lookup (r : TaskRecords) (item : TaskItem) (id : Bytes) :
    (r.put item).tasks.lookup id = if id = item.taskID then some item else r.tasks.lookup id :=
  Table.lookup_insert _ _ _ _

end TaskRecords

/-- The part of `executionState` that has the tasks, and the list on the disk. -/
structure ExecutionState where
  records : TaskRecords
  saved : { items : List TaskItem // (items.map (·.taskID)).Nodup }

namespace ExecutionState

def empty : ExecutionState := ⟨.empty, ⟨[], List.nodup_nil⟩⟩

def lookup (s : ExecutionState) (id : Bytes) : Option TaskItem := s.records.tasks.lookup id

def put (s : ExecutionState) (item : TaskItem) : ExecutionState :=
  { s with records := s.records.put item }

/-- The state is written, or the write fails. -/
def saveLocked (s : ExecutionState) (failure : Option String) : ExecutionState × Option String :=
  match failure with
  | some e => (s, some e)
  | none => ({ s with saved := ⟨s.records.items, s.records.nodup⟩ }, none)

/-- Write a record, or put the earlier one back. -/
def write (s : ExecutionState) (item : TaskItem) (failure : Option String) :
    ExecutionState × Option String :=
  match (s.put item).saveLocked failure with
  | (_, some e) => (s, some e)
  | (saved, none) => (saved, none)

def persistTaskHandle (s : ExecutionState) (h : TaskHandle) (failure : Option String) :
    ExecutionState × Option String :=
  s.write
    { taskID := h.taskID, sandboxID := h.sandboxID, imageDigest := h.imageDigest
      sandboxType := h.sandboxType, backend := h.backend, workspaceRef := h.workspaceRef
      status := h.state } failure

/-- The record of a task, or a new one with its status. -/
def item (s : ExecutionState) (id : Bytes) (status : TaskState) : TaskItem :=
  match s.lookup id with
  | some item => { item with taskID := id, status }
  | none => { taskID := id, status }

def updatePersistedTask (s : ExecutionState) (id : Bytes) (status : TaskState)
    (failure : Option String) : ExecutionState × Option String :=
  s.write { s.item id status with stateSyncRequired := false, stateSyncError := none } failure

def markTaskStateUnsynced (s : ExecutionState) (id : Bytes) (status : TaskState)
    (cause : String) : ExecutionState :=
  s.put { s.item id status with stateSyncRequired := true, stateSyncError := some cause }

def updateTaskStateAfterSaveFailure (s : ExecutionState) (id : Bytes) (status : TaskState)
    (failure : Option String) : ExecutionState :=
  match s.updatePersistedTask id status failure with
  | (s, some e) => s.markTaskStateUnsynced id status e
  | (s, none) => s

/-- The state as a new process reads it. -/
def reload (s : ExecutionState) : ExecutionState where
  records :=
    { tasks := loadTasks ∅ s.saved.1
      items := s.saved.1
      nodup := s.saved.2
      agree := fun id hid => by
        rw [lookup_loadTasks s.saved.2 hid, AList.lookup_empty, Option.or_none] }
  saved := s.saved

end ExecutionState

/-- A record that a caller can go by: it says the state, or that it has to be compared. -/
def TaskItem.Tells (item : TaskItem) (state : TaskState) : Prop :=
  item.status = state ∨ item.stateSyncRequired = true

instance (item : TaskItem) (state : TaskState) : Decidable (item.Tells state) :=
  inferInstanceAs (Decidable (item.status = state ∨ item.stateSyncRequired = true))

namespace ExecutionState

variable (s : ExecutionState)

/-- There is a record of the task that tells the state. -/
def Tells (id : Bytes) (state : TaskState) : Prop := ∃ item ∈ s.lookup id, item.Tells state

instance (id : Bytes) (state : TaskState) : Decidable (s.Tells id state) :=
  inferInstanceAs (Decidable (∃ item ∈ s.lookup id, item.Tells state))

variable {s} {id : Bytes} {status : TaskState}

@[simp] theorem item_taskID : (s.item id status).taskID = id := by
  rw [item]
  split
  · rfl
  · rfl

@[simp] theorem item_status : (s.item id status).status = status := by
  rw [item]
  split
  · rfl
  · rfl

theorem lookup_write (item : TaskItem) (other : Bytes) :
    (s.write item none).1.lookup other =
      if other = item.taskID then some item else s.lookup other :=
  s.records.put_lookup item other

/-- A write changes no other record. -/
theorem write_other (item : TaskItem) (failure : Option String) {other : Bytes}
    (hne : other ≠ item.taskID) : (s.write item failure).1.lookup other = s.lookup other := by
  cases failure with
  | none => rw [lookup_write, if_neg hne]
  | some e => rfl

theorem lookup_mark (cause : String) (other : Bytes) :
    (s.markTaskStateUnsynced id status cause).lookup other =
      if other = id then
        some { s.item id status with stateSyncRequired := true, stateSyncError := some cause }
      else s.lookup other := by
  rw [markTaskStateUnsynced, lookup, put, TaskRecords.put_lookup, item_taskID]
  rfl

theorem lookup_update (other : Bytes) :
    (s.updatePersistedTask id status none).1.lookup other =
      if other = id then
        some { s.item id status with stateSyncRequired := false, stateSyncError := none }
      else s.lookup other := by
  rw [updatePersistedTask, lookup_write, item_taskID]

/-- A handle that reached the disk is told. -/
theorem tells_persist (h : TaskHandle) : (s.persistTaskHandle h none).1.Tells h.taskID h.state := by
  rw [Tells, persistTaskHandle, lookup_write, if_pos rfl]
  exact ⟨_, rfl, Or.inl rfl⟩

/-- A status that reached the disk is told. -/
theorem tells_update : (s.updatePersistedTask id status none).1.Tells id status := by
  rw [Tells, lookup_update, if_pos rfl]
  exact ⟨_, rfl, .inl item_status⟩

/-- A marked record tells every state. -/
theorem tells_mark (cause : String) (state : TaskState) :
    (s.markTaskStateUnsynced id status cause).Tells id state := by
  rw [Tells, lookup_mark, if_pos rfl]
  exact ⟨_, rfl, Or.inr rfl⟩

theorem tells_updateAfterSaveFailure (failure : Option String) :
    (s.updateTaskStateAfterSaveFailure id status failure).Tells id status := by
  cases failure with
  | none => exact tells_update
  | some e => exact tells_mark e status

theorem update_other (failure : Option String) {other : Bytes} (hne : other ≠ id) :
    (s.updatePersistedTask id status failure).1.lookup other = s.lookup other :=
  write_other _ failure (by rwa [item_taskID])

theorem mark_other (cause : String) {other : Bytes} (hne : other ≠ id) :
    (s.markTaskStateUnsynced id status cause).lookup other = s.lookup other := by
  rw [lookup_mark, if_neg hne]

theorem updateAfterSaveFailure_other (failure : Option String) {other : Bytes}
    (hne : other ≠ id) :
    (s.updateTaskStateAfterSaveFailure id status failure).lookup other = s.lookup other := by
  cases failure with
  | none => exact update_other none hne
  | some e => exact mark_other e hne

theorem tells_congr {t : ExecutionState} (h : t.lookup id = s.lookup id) (state : TaskState) :
    t.Tells id state ↔ s.Tells id state := by
  rw [Tells, Tells, h]

end ExecutionState

end WorkMesh.Sandbox
