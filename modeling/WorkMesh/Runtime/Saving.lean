import WorkMesh.Runtime.Store

/-!
# What a failed save leaves of the registry

After an attempt to save that fails, the registry should hold the records it
held before, and these should be the records of the tables. The operations
write an old record to its old index, put the old list back or rely on the
reload; each of these is right under a condition of its own.
-/

namespace WorkMesh.Runtime

open Encoding

/-- A list with another element at an index is the same list up to order only if the element
is the one that was there. -/
theorem set_perm_iff {α : Type*} {l : List α} {i : ℕ} (hi : i < l.length) (a : α) :
    (l.set i a).Perm l ↔ l[i]? = some a := by
  constructor
  · intro h
    have hcons : (a :: l.eraseIdx i).Perm (l[i] :: l.eraseIdx i) :=
      ((List.set_perm_cons_eraseIdx hi a).symm.trans h).trans
        (List.getElem_cons_eraseIdx_perm hi).symm
    have heq : a = l[i] := by
      have := Multiset.coe_eq_coe.mpr hcons
      rw [← Multiset.cons_coe, ← Multiset.cons_coe] at this
      exact (Multiset.cons_inj_left _).mp this
    rw [List.getElem?_eq_getElem hi, heq]
  · intro h
    obtain ⟨-, rfl⟩ := List.getElem?_eq_some_iff.mp h
    rw [List.set_getElem_self]

namespace Store

variable {s : Store} {o : Outcome}

/-- Memory and tables hold the same records. -/
def InSync (s : Store) : Prop := s.runtimes.Perm s.tables.records

theorem saves_put {i : ℕ} {previous item : RuntimeRecord} (hi : s.runtimes[i]? = some previous)
    (hid : item.id = previous.id) : (s.put i item).Saves o ↔ s.Saves o := by
  have hids : (s.put i item).runtimes.map (·.id) = s.runtimes.map (·.id) := by
    apply List.ext_getElem?
    intro j
    rw [put, List.getElem?_map, List.getElem?_set, List.getElem?_map]
    by_cases hij : i = j
    · subst hij
      obtain ⟨hlt, rfl⟩ := List.getElem?_eq_some_iff.mp hi
      simp [hlt, hid]
    · simp [hij]
  rw [Saves, Saves, hids]

end Store

/-! ## What is to be kept -/

/-- After the operation the registry holds the records it held before, and these are what a
restart loads. -/
def Restored (before : Store) (done : Done) : Prop :=
  done.crashed = false ∧ done.store.runtimes.Perm before.runtimes ∧
    done.store.runtimes.Perm done.store.tables.load

variable {host : Host} {o : Outcomes} {s : Store}

/-- The runtime is stored as it is to be written. -/
def StoredAs (s : Store) (item : RuntimeRecord) : Prop :=
  ∃ i, runtimeByIDLocked s.runtimes item.id = some i ∧ s.runtimes[i]? = some item

/-- The condition under which an old record may be written to its old index. -/
def KeepsPlace (o : Outcome) (s : Store) (i : ℕ) (previous : RuntimeRecord) : Prop :=
  s.InSync ∧ (o.load = true → s.tables.load[i]? = some previous)

/-- The record that an operation writes without keeping the old one. -/
def Operation.written (host : Host) (s : Store) : Operation → Option RuntimeRecord
  | .update updated now =>
      some { updated with
        status := bytes "Running", message := [], error := [], taskStatus := [], updatedAt := now }
  | .remark id text now =>
      (s.runtimeByID host id).map fun item => { item with remark := text, updatedAt := now }
  | .operate id operation none now =>
      (s.runtimeByID host id).map fun item =>
        { item with
          status := Store.runtimeStatusForOperation operation
          message := [], error := [], taskStatus := [], updatedAt := now }
  | .operate id _ (some message) now =>
      (s.runtimeByID host id).bind fun item =>
        ((runtimeByIDLocked s.runtimes item.id).bind fun i => s.runtimes[i]?).map fun stored =>
          { stored with
            status := bytes "Error", taskStatus := bytes "failed"
            message := message, error := message, updatedAt := now }
  | _ => none

/-- The condition under which an operation whose attempt to save fails leaves the registry as
it was. -/
def Operation.Survives (host : Host) (o : Outcomes) (s : Store) : Operation → Prop
  | .updateTask id status message now _ =>
      ∀ i previous, indexOfID s.runtimes id = some i → s.runtimes[i]? = some previous →
        if s.Saves o.first then Store.updatedTask host status message now previous = previous
        else KeepsPlace o.first s i previous
  | .writeTaskID id _ =>
      ∀ i previous, indexOfID s.runtimes id = some i → s.runtimes[i]? = some previous →
        KeepsPlace o.first s i previous
  | .installPath _ _ | .installFiles _ | .queueNodeTask _ _ | .updateNodeTask _ _ _ _ => s.InSync
  | .create item _ _ _ _ =>
      s.InSync ∧ o.first.load = true ∧
        ¬({ s with runtimes := s.runtimes ++ [item] } : Store).Saves o.first
  | .delete _ => s.InSync ∧ o.first.load = true
  | op => s.InSync ∧ (o.first.load = true ∨ ∀ item ∈ op.written host s, StoredAs s item)

/-! ## A failed attempt -/

/-- Memory and tables are both to hold the old records. -/
theorem restored_iff {t : Store} {failed : Bool} :
    Restored s { store := t, failed := failed } ↔
      t.runtimes.Perm s.runtimes ∧ t.tables.records.Perm s.runtimes := by
  constructor
  · rintro ⟨-, hkept, hloaded⟩
    exact ⟨hkept, ((Store.load_perm _).symm.trans hloaded.symm).trans hkept⟩
  · rintro ⟨hkept, hrecords⟩
    exact ⟨rfl, hkept, hkept.trans (hrecords.symm.trans (Store.load_perm _).symm)⟩

theorem restored_iff_of_tables {t : Store} {failed : Bool} (ht : t.tables = s.tables) :
    Restored s { store := t, failed := failed } ↔ t.runtimes.Perm s.runtimes ∧ s.InSync := by
  rw [restored_iff, ht]
  exact and_congr_right fun _ => List.perm_comm

theorem load_perm_iff : s.tables.load.Perm s.runtimes ↔ s.InSync := by
  constructor
  · intro h
    exact h.symm.trans (Store.load_perm _)
  · intro h
    exact (Store.load_perm _).trans h.symm

/-- An operation that does nothing after a failed attempt relies on the reload. -/
theorem reloaded_restored_iff {l : List RuntimeRecord} {load failed : Bool} :
    Restored s {
      store := if load then ({ s with runtimes := l } : Store).reload else { s with runtimes := l }
      failed := failed } ↔ s.InSync ∧ (load = true ∨ l.Perm s.runtimes) := by
  cases load with
  | false =>
      rw [restored_iff_of_tables (by rfl)]
      simp [and_comm]
  | true =>
      rw [restored_iff_of_tables (by rfl)]
      simpa [Store.reload] using fun _ => load_perm_iff.mpr ‹_›

/-! ## The ways to write a record -/

theorem index_lt {items : List RuntimeRecord} {id : Bytes} {i : ℕ}
    (h : runtimeByIDLocked items id = some i) : i < items.length := by
  unfold runtimeByIDLocked at h
  split at h
  · cases h
  · exact (List.findIdx?_eq_some_iff_getElem.mp h).1

theorem replaceOnly_restored_iff {id : Bytes} {item : RuntimeRecord}
    (h : (s.replaceOnly o id item).failed = true) (hid : item.id = id) :
    Restored s (s.replaceOnly o id item) ↔
      s.InSync ∧ (o.first.load = true ∨ StoredAs s item) := by
  subst hid
  unfold Store.replaceOnly at h ⊢
  cases hi : runtimeByIDLocked s.runtimes item.id with
  | none =>
      rw [hi] at h
      cases h
  | some i =>
      rw [hi] at h
      dsimp only at h ⊢
      by_cases hsaves : (s.put i item).Saves o.first
      · rw [Store.saveLocked_ok hsaves] at h
        cases h
      · have hstored : StoredAs s item ↔ s.runtimes[i]? = some item := by
          constructor
          · rintro ⟨j, hj, hitem⟩
            cases hi.symm.trans hj
            exact hitem
          · exact fun hitem => ⟨i, hi, hitem⟩
        rw [Store.saveLocked_failed hsaves, hstored, ← set_perm_iff (index_lt hi)]
        exact reloaded_restored_iff

theorem replaceAt_restored_iff {i : ℕ} {previous item : RuntimeRecord}
    (hi : s.runtimes[i]? = some previous) (h : (s.replaceAt o i previous item).failed = true) :
    Restored s (s.replaceAt o i previous item) ↔ KeepsPlace o.first s i previous := by
  obtain ⟨hlt, hget⟩ := List.getElem?_eq_some_iff.mp hi
  unfold Store.replaceAt at h ⊢
  by_cases hsaves : (s.put i item).Saves o.first
  · rw [Store.saveLocked_ok hsaves] at h
    cases h
  · rw [Store.saveLocked_failed hsaves]
    dsimp only
    cases hload : o.first.load with
    | false =>
        have hback : (s.put i item).put i previous = s := by
          simp [Store.put, ← hget]
        have hlength : decide ((s.put i item).runtimes.length ≤ i) = false := by
          simpa [Store.put] using hlt
        simp only [Bool.false_eq_true, if_false, hback, hlength, KeepsPlace, hload, false_implies,
          and_true]
        rw [restored_iff_of_tables rfl, and_iff_right (List.Perm.refl _)]
    | true =>
        simp only [if_true, KeepsPlace, hload, true_implies]
        constructor
        · rintro ⟨hcrash, hkept, hloaded⟩
          have hsync : s.InSync := hkept.symm.trans (hloaded.trans (Store.load_perm _))
          have hlt' : i < s.tables.load.length := Nat.lt_of_not_le (of_decide_eq_false hcrash)
          exact ⟨hsync, (set_perm_iff hlt' previous).mp hloaded⟩
        · rintro ⟨hsync, hplace⟩
          obtain ⟨hlt', -⟩ := List.getElem?_eq_some_iff.mp hplace
          have hperm := (set_perm_iff hlt' previous).mpr hplace
          exact ⟨decide_eq_false (Nat.not_le_of_lt hlt'), hperm.trans (load_perm_iff.mpr hsync),
            hperm⟩

theorem replaceOrRestore_restored_iff {i : ℕ} {item : RuntimeRecord}
    (h : (s.replaceOrRestore o i item).failed = true) :
    Restored s (s.replaceOrRestore o i item) ↔ s.InSync := by
  unfold Store.replaceOrRestore at h ⊢
  by_cases hsaves : (s.put i item).Saves o.first
  · rw [Store.saveLocked_ok hsaves] at h
    cases h
  · rw [Store.saveLocked_failed hsaves]
    dsimp only
    rw [restored_iff_of_tables (by split <;> rfl), and_iff_right (List.Perm.refl _)]

theorem replaceSetting_restored_iff {key : Bytes} {value : Value}
    (h : (s.replaceSetting o key value).failed = true) :
    Restored s (s.replaceSetting o key value) ↔ s.InSync := by
  unfold Store.replaceSetting at h ⊢
  by_cases hsaves : ({ s with settings := s.settings.put key value } : Store).Saves o.first
  · rw [Store.saveLocked_ok hsaves] at h
    cases h
  · rw [Store.saveLocked_failed hsaves]
    dsimp only
    rw [restored_iff_of_tables (by split <;> rfl)]
    constructor
    · exact And.right
    · intro hsync
      refine ⟨?_, hsync⟩
      split
      · exact load_perm_iff.mpr hsync
      · exact List.Perm.refl _

theorem delete_restored_iff {id : Bytes} (h : (s.delete o id).failed = true) :
    Restored s (s.delete o id) ↔ s.InSync ∧ o.first.load = true := by
  unfold Store.delete at h ⊢
  cases hi : runtimeByIDLocked s.runtimes id with
  | none =>
      rw [hi] at h
      cases h
  | some i =>
      rw [hi] at h
      dsimp only at h ⊢
      by_cases hsaves : ({ s with runtimes := s.runtimes.eraseIdx i } : Store).Saves o.first
      · rw [Store.saveLocked_ok hsaves] at h
        cases h
      · have hshort : ¬(s.runtimes.eraseIdx i).Perm s.runtimes := by
          intro hperm
          have hlength := hperm.length_eq
          rw [List.length_eraseIdx_of_lt (index_lt hi)] at hlength
          have := index_lt hi
          omega
        rw [Store.saveLocked_failed hsaves]
        exact reloaded_restored_iff.trans (and_congr_right fun _ => or_iff_left hshort)

/-- Where the runtime cannot be taken out again, the tables keep it. -/
theorem create_restored_iff {item : RuntimeRecord} {install persisted logged applied : Bool}
    (h : (s.create host o item install persisted logged applied).failed = true) :
    Restored s (s.create host o item install persisted logged applied) ↔
      s.InSync ∧ o.first.load = true ∧
        ¬({ s with runtimes := s.runtimes ++ [item] } : Store).Saves o.first := by
  unfold Store.create at h ⊢
  split at h
  · cases h
  · by_cases hsaves : ({ s with runtimes := s.runtimes ++ [item] } : Store).Saves o.first
    · rw [Store.saveLocked_ok hsaves] at h ⊢
      refine iff_of_false ?_ fun hcond => hcond.2.2 hsaves
      dsimp only at h ⊢
      split at h
      · rename_i hundo
        rw [if_pos hundo]
        by_cases hsecond : ({
            runtimes := removeRuntimeByID (s.runtimes ++ [item]) item.id
            settings := s.settings
            tables := ⟨s.runtimes ++ [item], s.settings, hsaves.2⟩ } : Store).Saves o.second
        · rw [Store.saveLocked_ok hsecond] at h
          cases h
        · rw [Store.saveLocked_failed hsecond]
          rw [restored_iff]
          rintro ⟨-, hrecords⟩
          have hlength := hrecords.length_eq
          split at hlength <;> simp [Store.reload] at hlength
      · cases h
    · rw [Store.saveLocked_failed hsaves]
      refine reloaded_restored_iff.trans (and_congr_right fun _ => ?_)
      have hlong : ¬(s.runtimes ++ [item]).Perm s.runtimes := fun hperm => by
        simpa using hperm.length_eq
      rw [or_iff_left hlong]
      exact (and_iff_left hsaves).symm

/-! ## The state of a task -/

theorem updatedTask_id (status message : Bytes) (now : ℤ) (current : RuntimeRecord) :
    (Store.updatedTask host status message now current).id = current.id := rfl

/-- The record that was written is found again where it was written. -/
theorem findIdx_written {i : ℕ} {id : Bytes} {item : RuntimeRecord} {l : List RuntimeRecord}
    {p : RuntimeRecord → Bool} (hfound : indexOfID l id = some i)
    (hp : p item = true) (hsame : ∀ r, p r = true → r.id = id) :
    (l.set i item).findIdx? p = some i := by
  obtain ⟨hlt, hget, hfirst⟩ := List.findIdx?_eq_some_iff_getElem.mp hfound
  refine List.findIdx?_eq_some_iff_getElem.mpr ⟨by simpa using hlt, ?_, fun j hj => ?_⟩
  · simpa using hp
  · rw [List.getElem_set_of_ne (Nat.ne_of_gt hj)]
    intro hpj
    exact hfirst j hj (by simpa using hsame _ hpj)

theorem updateTask_restored_iff {id status message : Bytes} {now : ℤ} {persisted : Bool}
    (h : (s.updateRuntimeTaskChecked host o id status message now persisted).failed = true) :
    Restored s (s.updateRuntimeTaskChecked host o id status message now persisted) ↔
      ∀ i previous, indexOfID s.runtimes id = some i → s.runtimes[i]? = some previous →
        if s.Saves o.first then Store.updatedTask host status message now previous = previous
        else KeepsPlace o.first s i previous := by
  unfold Store.updateRuntimeTaskChecked at h ⊢
  cases hi : indexOfID s.runtimes id with
  | none =>
      rw [hi] at h
      cases h
  | some i =>
      rw [hi] at h
      obtain ⟨hlt, hfound, -⟩ := List.findIdx?_eq_some_iff_getElem.mp hi
      have hget : s.runtimes[i]? = some s.runtimes[i] := List.getElem?_eq_getElem hlt
      generalize hprevious : s.runtimes[i] = previous at hget hfound
      have hid : previous.id = id := by simpa using hfound
      dsimp only at h ⊢
      rw [hget] at h ⊢
      dsimp only at h ⊢
      set item := Store.updatedTask host status message now previous with hitem
      have hitemID : item.id = previous.id := updatedTask_id status message now previous
      have hsavesPut := Store.saves_put (o := o.first) hget hitemID
      have hcond : (∀ j old, some i = some j → s.runtimes[j]? = some old →
          if s.Saves o.first then Store.updatedTask host status message now old = old
          else KeepsPlace o.first s j old) ↔
          if s.Saves o.first then item = previous else KeepsPlace o.first s i previous := by
        constructor
        · intro hall
          exact hall i previous rfl hget
        · rintro hone j old hj hold
          cases hj
          rw [hget] at hold
          cases hold
          exact hone
      rw [hcond]
      by_cases hsaves : s.Saves o.first
      · have hset := hsavesPut.mpr hsaves
        rw [if_pos hsaves]
        unfold Store.replaceAt at h ⊢
        rw [Store.saveLocked_ok hset] at h ⊢
        simp only [Bool.false_eq_true, false_or] at h ⊢
        split at h
        · cases h
        · rename_i hunwritten
          rw [if_neg hunwritten]
          have hagain : (s.runtimes.set i item).findIdx? (fun r => decide (r.id = id ∧
              r.taskStatus = item.taskStatus ∧ r.updatedAt = item.updatedAt)) = some i :=
            findIdx_written hi (by simp [hitemID, hid])
              fun r hr => (of_decide_eq_true hr).1
          simp only [Store.put, hagain] at h ⊢
          have hback : (s.runtimes.set i item).set i previous = s.runtimes := by
            simp [← hprevious]
          simp only [hback] at h ⊢
          have hkept : (s.runtimes.set i item).Perm s.runtimes ↔ item = previous := by
            rw [set_perm_iff hlt, hget, Option.some.injEq, eq_comm]
          by_cases hsecond : ({
              runtimes := s.runtimes, settings := s.settings
              tables := ⟨s.runtimes.set i item, s.settings, hset.2⟩ } : Store).Saves o.second
          · rw [Store.saveLocked_ok hsecond] at h
            cases h
          · rw [Store.saveLocked_failed hsecond, restored_iff, ← hkept]
            split
            · exact and_iff_right_of_imp fun hperm => (Store.load_perm _).trans hperm
            · exact and_iff_right (List.Perm.refl _)
      · rw [if_neg hsaves]
        have hfailed : (s.replaceAt o i previous item).failed = true := by
          unfold Store.replaceAt
          rw [Store.saveLocked_failed (mt hsavesPut.mp hsaves)]
        rw [if_pos (.inl hfailed)]
        exact replaceAt_restored_iff hget hfailed

theorem id_of_index {items : List RuntimeRecord} {id : Bytes} {stored : RuntimeRecord}
    (h : ((runtimeByIDLocked items id).bind fun i => items[i]?) = some stored) :
    stored.id = id := by
  obtain ⟨i, hi, hget⟩ := Option.bind_eq_some_iff.mp h
  unfold runtimeByIDLocked at hi
  split at hi
  · cases hi
  · obtain ⟨hlt, hid, -⟩ := List.findIdx?_eq_some_iff_getElem.mp hi
    rw [List.getElem?_eq_getElem hlt, Option.some.injEq] at hget
    rw [← hget]
    simpa using hid

theorem writeTaskID_restored_iff {id taskID : Bytes}
    (h : ((Operation.writeTaskID id taskID).perform host o s).failed = true) :
    Restored s ((Operation.writeTaskID id taskID).perform host o s) ↔
      (Operation.writeTaskID id taskID).Survives host o s := by
  simp only [Operation.perform, Store.writeTaskID, Operation.Survives] at h ⊢
  cases hi : indexOfID s.runtimes id with
  | none =>
      rw [hi] at h
      cases h
  | some i =>
      rw [hi] at h
      dsimp only at h ⊢
      cases hget : s.runtimes[i]? with
      | none =>
          rw [hget] at h
          cases h
      | some previous =>
          rw [hget] at h
          dsimp only at h ⊢
          rw [replaceAt_restored_iff hget h]
          constructor
          · rintro hplace j old hj hold
            cases hj
            rw [hget] at hold
            cases hold
            exact hplace
          · exact fun hall => hall i previous rfl hget

theorem installPath_restored_iff {id path : Bytes}
    (h : ((Operation.installPath id path).perform host o s).failed = true) :
    Restored s ((Operation.installPath id path).perform host o s) ↔
      (Operation.installPath id path).Survives host o s := by
  simp only [Operation.perform, Store.persistRuntimeInstallPath, Operation.Survives] at h ⊢
  split at h
  · cases h
  · rename_i hnamed
    rw [if_neg hnamed]
    split at h
    · cases h
    · split at h
      · cases h
      · exact replaceOrRestore_restored_iff h

/-- An operation that fails writes its error to the record that is stored. -/
theorem operate_restored_iff {id operation : Bytes} {error : Option Bytes} {now : ℤ}
    (h : ((Operation.operate id operation error now).perform host o s).failed = true) :
    Restored s ((Operation.operate id operation error now).perform host o s) ↔
      (Operation.operate id operation error now).Survives host o s := by
  simp only [Operation.perform, Store.operate] at h ⊢
  cases hitem : s.runtimeByID host id with
  | none =>
      rw [hitem] at h
      cases h
  | some item =>
      rw [hitem] at h
      cases error with
      | none =>
          dsimp only at h ⊢
          rw [replaceOnly_restored_iff h rfl]
          simp [Operation.Survives, Operation.written, hitem]
      | some message =>
          dsimp only at h ⊢
          cases hstored : (runtimeByIDLocked s.runtimes item.id).bind
              fun i => s.runtimes[i]? with
          | none =>
              rw [hstored] at h
              cases h
          | some stored =>
              rw [hstored] at h
              dsimp only at h ⊢
              have hid : stored.id = item.id := id_of_index hstored
              have hwritten : Operation.written host s (.operate id operation (some message) now) =
                  some { stored with
                    status := bytes "Error", taskStatus := bytes "failed"
                    message := message, error := message, updatedAt := now } := by
                rw [Operation.written, hitem, Option.bind_some, hstored]
                rfl
              rw [replaceOnly_restored_iff h hid]
              simp only [Operation.Survives, hwritten, Option.mem_some_iff, forall_eq']

/-- An operation whose attempt to save fails leaves the registry as it was, and as a restart
loads it, exactly under the condition of the operation. -/
theorem failed_save_restored_iff (op : Operation)
    (h : (op.perform host o s).failed = true) :
    Restored s (op.perform host o s) ↔ op.Survives host o s := by
  cases op with
  | updateTask id status message now persisted => exact updateTask_restored_iff h
  | writeTaskID id taskID => exact writeTaskID_restored_iff h
  | installPath id path => exact installPath_restored_iff h
  | installFiles item =>
      simp only [Operation.perform, Store.persistRuntimeInstallFiles, Operation.Survives] at h ⊢
      split at h
      · cases h
      · exact replaceOrRestore_restored_iff h
  | create item install persisted logged applied => exact create_restored_iff h
  | update updated now =>
      rw [Operation.perform, Store.update] at h ⊢
      rw [replaceOnly_restored_iff h rfl]
      simp [Operation.Survives, Operation.written]
  | remark id text now =>
      simp only [Operation.perform, Store.remark, Operation.Survives, Operation.written] at h ⊢
      cases hitem : s.runtimeByID host id with
      | none =>
          rw [hitem] at h
          cases h
      | some item =>
          rw [hitem] at h
          rw [replaceOnly_restored_iff h rfl]
          simp
  | operate id operation error now => exact operate_restored_iff h
  | delete id => exact delete_restored_iff h
  | queueNodeTask taskID task => exact replaceSetting_restored_iff h
  | updateNodeTask taskID status message now =>
      simp only [Operation.perform, Store.updateNodeTask, Operation.Survives] at h ⊢
      split at h
      · exact replaceSetting_restored_iff h
      · cases h

/-! ## Two runtimes out of order -/

/-- Two runtimes, in memory as they were created. -/
def createdOrder : List RuntimeRecord :=
  [{ id := bytes "web", name := bytes "web" }, { id := bytes "api", name := bytes "api" }]

def twoRuntimes : Store where
  runtimes := createdOrder
  tables := { records := createdOrder, distinct := by decide +kernel }

/-- The transaction fails and the tables are read again. -/
def refusedSave : Outcomes := { first := { save := false } }

theorem failed_save_restored_iff_delete :
    Restored twoRuntimes ((Operation.delete (bytes "web")).perform foldingHost refusedSave
      twoRuntimes) ↔ (Operation.delete (bytes "web")).Survives foldingHost refusedSave
      twoRuntimes :=
  failed_save_restored_iff (.delete (bytes "web")) (by decide +kernel)

/-- The old record of the first runtime is written over the other one. -/
theorem status_update_duplicates :
    let op := Operation.updateTask (bytes "web") (bytes "running") [] 1 true
    twoRuntimes.InSync ∧ (op.perform foldingHost refusedSave twoRuntimes).failed = true ∧
      ((op.perform foldingHost refusedSave twoRuntimes).store.runtimes.map (·.id)) =
        [bytes "web", bytes "web"] ∧
      ¬Restored twoRuntimes (op.perform foldingHost refusedSave twoRuntimes) := by
  intro op
  have hids : ((op.perform foldingHost refusedSave twoRuntimes).store.runtimes.map (·.id)) =
      [bytes "web", bytes "web"] := by decide +kernel
  refine ⟨List.Perm.refl _, by decide +kernel, hids, ?_⟩
  rintro ⟨-, hkept, -⟩
  have hperm := hkept.map (·.id)
  rw [hids] at hperm
  revert hperm
  decide +kernel

end WorkMesh.Runtime
