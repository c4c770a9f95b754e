import WorkMesh.Storage.Legacy

/-!
# Every file is imported once

A row with the status imported comes into the ledger only with the effect of
the handler, in one transaction, and such a row is never taken back. So over
any number of calls the imports of a file for a domain are at most one, and the
data is what these imports made. What is moved away belongs to a call in which
no source failed.
-/

namespace WorkMesh.Storage.Legacy

open Encoding StateMachine

variable {σ : Type*} (codec : Codec) {db db' start : Database σ} {items : List LegacyImportItem}

/-! ## One source -/

section Rows

theorem isImported_setRow (key key' : LedgerKey) (row : LedgerRow) :
    (db.setRow key row).isImported key' = if key' = key then row.imported else db.isImported key' := by
  simp only [Database.isImported, Database.setRow, Function.update_apply]
  split_ifs
  · rfl
  · rfl

/-- A failed import takes no import back, unless its own file was imported. -/
theorem isImported_recordFailed {item : LegacyImportItem} (h : db.isImported item.key = false)
    (recorded : Bool) (key : LedgerKey) :
    (db.recordFailedLegacyImport item recorded).isImported key = db.isImported key := by
  rw [Database.recordFailedLegacyImport]
  split_ifs
  · rw [isImported_setRow]
    split_ifs with hkey
    · rw [hkey, h]
    · rfl
  · rfl

theorem data_recordFailed (item : LegacyImportItem) (recorded : Bool) :
    (db.recordFailedLegacyImport item recorded).data = db.data := by
  rw [Database.recordFailedLegacyImport]
  split_ifs <;> rfl

/-- A transaction that is committed has the handler's effect and its row. -/
theorem importInTx_ok {course : ItemCourse} {handler : LegacyJSONHandler σ}
    {source : LegacyJSONSource} {count : ℤ}
    (h : importInTx course handler source db = .ok (db', count)) :
    handler.importTx db.data source = .ok (db'.data, count) ∧
      ∀ key, db'.isImported key = if key = source.key then true else db.isImported key := by
  rw [importInTx, importWithinTx] at h
  cases hhandler : course.handlerError with
  | some e => simp [hhandler] at h
  | none =>
      rw [hhandler] at h
      dsimp only at h
      cases hrun : handler.importTx db.data source with
      | error e => simp [hrun] at h
      | ok result =>
          obtain ⟨data, held⟩ := result
          rw [hrun] at h
          dsimp only at h
          cases hinsert : course.insertError with
          | some e => simp [hinsert] at h
          | none =>
              rw [hinsert] at h
              dsimp only at h
              cases hcommit : course.commitError with
              | some e => simp [hcommit] at h
              | none =>
                  rw [hcommit] at h
                  obtain ⟨rfl, rfl⟩ := Prod.mk.inj (Except.ok.inj h)
                  refine ⟨rfl, fun key => ?_⟩
                  rw [isImported_setRow]
                  rfl

end Rows

/-- The data changes only together with the ledger, and not at all. -/
structure Unmoved (db db' : Database σ) : Prop where
  data : db'.data = db.data
  rows : ∀ key, db'.isImported key = db.isImported key

theorem Unmoved.refl (db : Database σ) : Unmoved db db := ⟨rfl, fun _ => rfl⟩

/-- An import that went through: the effect of a handler, and its row. -/
structure Moved (handler : LegacyJSONHandler σ) (source : LegacyJSONSource)
    (db db' : Database σ) : Prop where
  fresh : db.isImported source.key = false
  effect : ∃ count, handler.importTx db.data source = .ok (db'.data, count)
  rows : ∀ key, db'.isImported key = if key = source.key then true else db.isImported key

/-- What one source can do. -/
inductive Effect (handler : Option (LegacyJSONHandler σ)) (item : LegacyImportItem)
    (db db' : Database σ) : Prop where
  | imported (one : LegacyJSONHandler σ) (source : LegacyJSONSource) (hone : handler = some one)
      (hkey : source.key = item.key) (hstatus : item.status = .imported)
      (hmoved : Moved one source db db')
  | skipped (hstatus : item.status = .skipped) (hrow : db.isImported item.key = true)
      (hsame : Unmoved db db')
  | other (hstatus : item.status ≠ .imported ∧ item.status ≠ .skipped) (hsame : Unmoved db db')

/-- What one source does, and that it has an error exactly if its item failed. -/
theorem importLegacyJSONFile_effect (sourceDir : Bytes) (spec : LegacyJSONSourceSpec)
    (handler : Option (LegacyJSONHandler σ)) (course : ItemCourse) (db : Database σ) :
    Effect handler (importLegacyJSONFile codec sourceDir spec handler course db).2.1 db
        (importLegacyJSONFile codec sourceDir spec handler course db).1 ∧
      ((importLegacyJSONFile codec sourceDir spec handler course db).2.2 = none ↔
        (importLegacyJSONFile codec sourceDir spec handler course db).2.1.status ≠ .failed) := by
  rw [importLegacyJSONFile]
  dsimp only
  split_ifs with hinvalid
  · exact ⟨.other ⟨by simp, by simp⟩ (.refl db), by simp⟩
  cases hread : readLegacyJSON codec course.file with
  | error e =>
      cases e with
      | notExist => exact ⟨.other ⟨by simp, by simp⟩ (.refl db), by simp⟩
      | other e => exact ⟨.other ⟨by simp, by simp⟩ (.refl db), by simp⟩
  | ok file =>
      obtain ⟨data, digest⟩ := file
      cases handler with
      | none => exact ⟨.other ⟨by simp, by simp⟩ (.refl db), by simp⟩
      | some one =>
          dsimp only
          cases hquery : course.queryError with
          | some e => exact ⟨.other ⟨by simp, by simp⟩ (.refl db), by simp⟩
          | none =>
              dsimp only
              split_ifs with hthere
              · exact ⟨.skipped rfl hthere (.refl db), by simp⟩
              have hfresh := Bool.eq_false_iff.mpr hthere
              cases hbegin : course.beginError with
              | some e => exact ⟨.other ⟨by simp, by simp⟩ (.refl db), by simp⟩
              | none =>
                  dsimp only
                  cases htx : importInTx course one
                      ⟨spec.domain, joinPath sourceDir (cleanPath spec.fileName), digest, data⟩ db with
                  | error e =>
                      obtain ⟨e, step, count⟩ := e
                      refine ⟨.other ⟨by simp, by simp⟩ ⟨data_recordFailed _ _, fun key => ?_⟩,
                        by simp⟩
                      apply isImported_recordFailed
                      exact hfresh
                  | ok done =>
                      obtain ⟨db', count⟩ := done
                      obtain ⟨hrun, hrows⟩ := importInTx_ok htx
                      refine ⟨.imported one _ rfl rfl rfl ⟨?_, ⟨count, hrun⟩, hrows⟩, by simp⟩
                      exact hfresh

/-! ## Many sources -/

/-- The imports among some items. -/
def importedKeys (items : List LegacyImportItem) : List LedgerKey :=
  (items.filter fun item => item.status = .imported).map LegacyImportItem.key

/-- What the handlers of some imports make of the data, one after the other. -/
def importAllOf (data : σ) (imports : List (LegacyJSONHandler σ × LegacyJSONSource)) :
    Except Bytes σ :=
  imports.foldlM (fun data one => (one.1.importTx data one.2).map Prod.fst) data

/-- Since the start, the imports among the items were made once each: they had no row before,
they have one now, and the data is what they made. -/
structure Once (start : Database σ) (items : List LegacyImportItem) (db : Database σ) : Prop where
  nodup : (importedKeys items).Nodup
  fresh : ∀ key ∈ importedKeys items, start.isImported key = false
  rows : ∀ key, db.isImported key = true ↔ start.isImported key = true ∨ key ∈ importedKeys items
  data : ∃ imports : List (LegacyJSONHandler σ × LegacyJSONSource),
    imports.map (fun one => one.2.key) = importedKeys items ∧
      importAllOf start.data imports = .ok db.data

theorem Once.refl (start : Database σ) : Once start [] start where
  nodup := List.nodup_nil
  fresh := fun _ h => absurd h List.not_mem_nil
  rows := fun _ => (or_iff_left List.not_mem_nil).symm
  data := ⟨[], rfl, rfl⟩

theorem importedKeys_append (items more : List LegacyImportItem) :
    importedKeys (items ++ more) = importedKeys items ++ importedKeys more := by
  rw [importedKeys, List.filter_append, List.map_append]
  rfl

theorem importedKeys_of_ne {item : LegacyImportItem} (h : item.status ≠ .imported) :
    importedKeys [item] = [] := by
  simp [importedKeys, h]

theorem importedKeys_of_eq {item : LegacyImportItem} (h : item.status = .imported) :
    importedKeys [item] = [item.key] := by
  simp [importedKeys, h]

/-- One more source keeps it so. -/
theorem Once.step (h : Once start items db) {handler : Option (LegacyJSONHandler σ)}
    {item : LegacyImportItem} (heffect : Effect handler item db db') :
    Once start (items ++ [item]) db' := by
  have hsame (hstatus : item.status ≠ .imported) (hunmoved : Unmoved db db') :
      Once start (items ++ [item]) db' := by
    have hkeys : importedKeys (items ++ [item]) = importedKeys items := by
      rw [importedKeys_append, importedKeys_of_ne hstatus, List.append_nil]
    refine ⟨hkeys ▸ h.nodup, hkeys ▸ h.fresh, fun key => ?_, ?_⟩
    · rw [hkeys, hunmoved.rows, h.rows]
    · rw [hkeys, hunmoved.data]
      exact h.data
  cases heffect with
  | skipped hstatus hrow hunmoved =>
      exact hsame (by rw [hstatus]; decide) hunmoved
  | other hstatus hunmoved => exact hsame hstatus.1 hunmoved
  | imported one source hone hkey hstatus hmoved =>
      have hkeys : importedKeys (items ++ [item]) = importedKeys items ++ [source.key] := by
        rw [importedKeys_append, importedKeys_of_eq hstatus, hkey]
      have hnew : ¬(start.isImported source.key = true ∨ source.key ∈ importedKeys items) := by
        rw [← h.rows, hmoved.fresh]
        decide
      obtain ⟨hstart, hitems⟩ := not_or.mp hnew
      refine ⟨?_, ?_, fun key => ?_, ?_⟩
      · rw [hkeys]
        exact List.nodup_append.mpr ⟨h.nodup, List.nodup_singleton _, fun key hmem other hother => by
          rw [List.mem_singleton.mp hother]
          rintro rfl
          exact hitems hmem⟩
      · rw [hkeys]
        intro key hmem
        rcases List.mem_append.mp hmem with hold | hone
        · exact h.fresh key hold
        · rw [List.mem_singleton.mp hone]
          exact Bool.eq_false_iff.mpr hstart
      · rw [hmoved.rows, hkeys, List.mem_append, List.mem_singleton, ← or_assoc, ← h.rows]
        split_ifs with heq
        · exact iff_of_true rfl (.inr heq)
        · exact (or_iff_left heq).symm
      · obtain ⟨imports, himports, hdata⟩ := h.data
        obtain ⟨count, hrun⟩ := hmoved.effect
        refine ⟨imports ++ [(one, source)], ?_, ?_⟩
        · rw [hkeys, List.map_append, himports]
          rfl
        · rw [importAllOf] at hdata ⊢
          rw [List.foldlM_append, hdata]
          change ((one.importTx db.data source).map Prod.fst >>= pure) = _
          rw [hrun]
          rfl

/-- What is known of the items of some sources: those that were imported or skipped have a row,
and there was no error exactly if none failed. -/
structure Processed (db : Database σ) (done : List (LegacyImportItem × Option Bytes)) : Prop where
  rows : ∀ one ∈ done, one.1.status = .imported ∨ one.1.status = .skipped →
    db.isImported one.1.key = true
  failed : ∀ one ∈ done, one.2 = none → one.1.status ≠ .failed

theorem importSources_once (sourceDir : Bytes) (handlers : List (LegacyJSONHandler σ))
    (course : ℕ → ItemCourse) (specs : List LegacyJSONSourceSpec) (i : ℕ)
    (h : Once start items db) :
    let done := importSources codec sourceDir handlers course specs i db
    Once start (items ++ done.2.map Prod.fst) done.1 ∧ Processed done.1 done.2 := by
  induction specs generalizing i db items with
  | nil =>
      refine ⟨?_, ⟨fun one hone => absurd hone List.not_mem_nil,
        fun one hone => absurd hone List.not_mem_nil⟩⟩
      rw [importSources, List.map_nil, List.append_nil]
      exact h
  | cons spec specs ih =>
      have hfirst := importLegacyJSONFile_effect codec sourceDir spec
        (handlers.find? fun one => one.domain = spec.domain) (course i) db
      rw [importSources]
      dsimp only
      generalize importLegacyJSONFile codec sourceDir spec
        (handlers.find? fun one => one.domain = spec.domain) (course i) db = first at hfirst ⊢
      obtain ⟨heffect, herror⟩ := hfirst
      have hstep := h.step heffect
      obtain ⟨honce, hrest⟩ := ih (i + 1) hstep
      refine ⟨?_, ⟨?_, ?_⟩⟩
      · rw [List.map_cons, ← List.singleton_append, ← List.append_assoc]
        exact honce
      · intro one hone hstatus
        obtain rfl | hone := List.mem_cons.mp hone
        · -- The row that is there behind the first source stays.
          have hrow : first.1.isImported first.2.1.key = true := by
            cases heffect with
            | imported handler source hhandler hkey hdone hmoved =>
                rw [hmoved.rows, hkey, if_pos rfl]
            | skipped hskipped hrow hsame =>
                rw [hsame.rows]
                exact hrow
            | other hneither hsame => exact absurd hstatus (not_or.mpr hneither)
          rcases (hstep.rows _).mp hrow with hstart | hmem
          · exact (honce.rows _).mpr (.inl hstart)
          · refine (honce.rows _).mpr (.inr ?_)
            rw [importedKeys_append]
            exact List.mem_append_left _ hmem
        · exact hrest.rows one hone hstatus
      · intro one hone hnone
        obtain rfl | hone := List.mem_cons.mp hone
        · exact herror.mp hnone
        · exact hrest.failed one hone hnone

/-! ## Calls -/

/-- A file that is moved is that of an item that was imported or skipped. -/
theorem mem_archived {course : ℕ → MoveCourse} {i : ℕ} {moved : List Bytes} {path : Bytes}
    (h : path ∈ (archiveImportedSources course items i moved).1) :
    path ∈ moved ∨ ∃ item ∈ items, item.path = path ∧
      (item.status = .imported ∨ item.status = .skipped) := by
  induction items generalizing i moved with
  | nil => exact .inl h
  | cons item items ih =>
      have hlater (hmem : path ∈ moved ∨ ∃ item ∈ items, item.path = path ∧
          (item.status = .imported ∨ item.status = .skipped)) :
          path ∈ moved ∨ ∃ one ∈ item :: items, one.path = path ∧
            (one.status = .imported ∨ one.status = .skipped) := by
        rcases hmem with hold | ⟨one, hone, hpath⟩
        · exact .inl hold
        · exact .inr ⟨one, List.mem_cons_of_mem _ hone, hpath⟩
      rw [archiveImportedSources] at h
      split_ifs at h with hstatus hthere
      · exact hlater (ih h)
      · exact hlater (ih h)
      · cases hmkdir : (course i).mkdirError with
        | some e =>
            rw [hmkdir] at h
            exact .inl h
        | none =>
            cases hrename : (course i).renameError with
            | some e =>
                rw [hmkdir, hrename] at h
                exact .inl h
            | none =>
                rw [hmkdir, hrename] at h
                rcases ih h with hmem | hitem
                · rcases List.mem_append.mp hmem with hold | hnew
                  · exact .inl hold
                  · refine .inr ⟨item, List.mem_cons_self, (List.mem_singleton.mp hnew).symm, ?_⟩
                    by_contra hneither
                    exact hstatus (not_or.mp hneither)
                · exact hlater (.inr hitem)

/-- What is moved away was imported, and no source of the call failed. -/
structure ArchivedRight (o : Outcome σ) : Prop where
  rows : ∀ path ∈ o.archived, ∃ item ∈ o.processed, item.path = path ∧
    (item.status = .imported ∨ item.status = .skipped) ∧ o.db.isImported item.key = true
  none_failed : ∀ path ∈ o.archived, ∀ item ∈ o.processed, item.path = path →
    item.status ≠ .failed

theorem ArchivedRight.of_nil {o : Outcome σ} (h : o.archived = []) : ArchivedRight o where
  rows := fun _ hpath => absurd (h ▸ hpath) List.not_mem_nil
  none_failed := fun _ hpath => absurd (h ▸ hpath) List.not_mem_nil

theorem finish_right (options : LegacyJSONImportOptions σ) (course : Course) (absDir : Bytes)
    {done : Database σ × List (LegacyImportItem × Option Bytes)} (hdone : Processed done.1 done.2) :
    (finish options course absDir done).db = done.1 ∧
      (finish options course absDir done).processed = done.2.map Prod.fst ∧
      ArchivedRight (finish options course absDir done) := by
  rw [finish]
  dsimp only
  by_cases hdies : course.dies.isSome
  · rw [if_pos hdies]
    exact ⟨rfl, rfl, .of_nil rfl⟩
  rw [if_neg hdies]
  cases hfirst : done.2.findSome? Prod.snd with
  | some e => exact ⟨rfl, rfl, .of_nil rfl⟩
  | none =>
      dsimp only
      by_cases harchive : options.archiveImported
      swap
      · rw [if_neg harchive]
        exact ⟨rfl, rfl, .of_nil rfl⟩
      rw [if_pos harchive]
      have hnone : ∀ one ∈ done.2, one.2 = none := List.findSome?_eq_none_iff.mp hfirst
      refine ⟨rfl, rfl, fun path hpath => ?_, fun path hpath item hitem _ => ?_⟩
      · rcases mem_archived hpath with hnil | ⟨item, hitem, hpath, hstatus⟩
        · exact absurd hnil List.not_mem_nil
        · obtain ⟨one, hone, rfl⟩ := List.mem_map.mp hitem
          exact ⟨one.1, hitem, hpath, hstatus, hdone.rows one hone hstatus⟩
      · obtain ⟨one, hone, rfl⟩ := List.mem_map.mp hitem
        exact hdone.failed one hone (hnone one hone)

theorem importAll_once (options : LegacyJSONImportOptions σ) (course : Course) (absDir : Bytes)
    (handlers : List (LegacyJSONHandler σ)) (h : Once start items db) :
    let o := importAll codec options course absDir handlers db
    Once start (items ++ o.processed) o.db ∧ ArchivedRight o := by
  rw [importAll]
  dsimp only
  obtain ⟨honce, hdone⟩ := importSources_once codec absDir handlers course.item
    (reached course.dies (ranked LegacyJSONSourceSpec.order
      (if options.sources = [] then defaultLegacyJSONSources else options.sources))) 0 h
  obtain ⟨hdb, hprocessed, hright⟩ := finish_right options course absDir hdone
  rw [hdb, hprocessed]
  exact ⟨honce, hright⟩

theorem importLegacyJSON_once (options : LegacyJSONImportOptions σ) (course : Course)
    (h : Once start items db) :
    let o := importLegacyJSON codec options course db
    Once start (items ++ o.processed) o.db ∧ ArchivedRight o := by
  have hsame : Once start (items ++ []) db := by rwa [List.append_nil]
  rw [importLegacyJSON]
  dsimp only
  split_ifs with hdir
  · exact ⟨hsame, .of_nil rfl⟩
  cases habs : absoluteDir course.cwd (trimSpace options.sourceDir) with
  | error e => exact ⟨hsame, .of_nil rfl⟩
  | ok absDir =>
      dsimp only
      cases hcheck : checkHandlers options.handlers [] with
      | error e => exact ⟨hsame, .of_nil rfl⟩
      | ok handlers => exact importAll_once codec options course absDir handlers h

/-- The options of a call, and what happens in it. -/
structure Call (σ : Type*) where
  options : LegacyJSONImportOptions σ
  course : Course

/-- The outcomes of calls one after the other. -/
def outcomes (codec : Codec) : List (Call σ) → Database σ → List (Outcome σ)
  | [], _ => []
  | call :: rest, db =>
      importLegacyJSON codec call.options call.course db ::
        outcomes codec rest (importLegacyJSON codec call.options call.course db).db

/-- The tables behind some calls. -/
def databaseAfter (codec : Codec) (start : Database σ) (calls : List (Call σ)) : Database σ :=
  calls.foldl (fun db call => (importLegacyJSON codec call.options call.course db).db) start

theorem outcomes_once (calls : List (Call σ)) (h : Once start items db) :
    Once start (items ++ (outcomes codec calls db).flatMap Outcome.processed)
        (databaseAfter codec db calls) ∧
      ∀ o ∈ outcomes codec calls db, ArchivedRight o := by
  induction calls generalizing db items with
  | nil =>
      rw [outcomes, List.flatMap_nil, List.append_nil]
      exact ⟨h, fun o ho => absurd ho List.not_mem_nil⟩
  | cons call calls ih =>
      obtain ⟨hfirst, hright⟩ := importLegacyJSON_once codec call.options call.course h
      obtain ⟨honce, hrest⟩ := ih hfirst
      rw [outcomes, List.flatMap_cons, ← List.append_assoc]
      refine ⟨honce, fun o ho => ?_⟩
      obtain rfl | ho := List.mem_cons.mp ho
      · exact hright
      · exact hrest o ho

/-! ## Orders -/

theorem order_injective : Function.Injective LegacyJSONSourceSpec.order := by
  intro a b h
  obtain ⟨hdomain, hname⟩ := Prod.mk.inj (toLex.injective h)
  cases a
  cases b
  rw [LegacyJSONSourceSpec.mk.injEq]
  exact ⟨byteOrder_injective hdomain, byteOrder_injective hname⟩

/-- A call does not depend on the order of its sources. -/
theorem importLegacyJSON_perm (options : LegacyJSONImportOptions σ) (course : Course)
    (db : Database σ) {sources : List LegacyJSONSourceSpec} (h : options.sources.Perm sources) :
    importLegacyJSON codec { options with sources := sources } course db =
      importLegacyJSON codec options course db := by
  have hsorted : ranked LegacyJSONSourceSpec.order
        (if sources = [] then defaultLegacyJSONSources else sources) =
      ranked LegacyJSONSourceSpec.order
        (if options.sources = [] then defaultLegacyJSONSources else options.sources) := by
    by_cases hempty : sources = []
    · rw [if_pos hempty, if_pos (List.perm_nil.mp (hempty ▸ h))]
    · have hfull : options.sources ≠ [] := by
        intro hnil
        rw [hnil] at h
        exact hempty (List.nil_perm.mp h)
      rw [if_neg hempty, if_neg hfull]
      exact ranked_eq_of_perm order_injective h.symm
  simp only [importLegacyJSON, importAll, hsorted]
  rfl

/-- What a report says in all: its status, how many items have each one, and what they count. -/
def summary (items : List LegacyImportItem) :
    LegacyImportStatus × (LegacyImportStatus → ℕ) × ℤ :=
  (reportStatus items, fun status => items.countP fun item => item.status = status,
    (items.map LegacyImportItem.importedCount).sum)

/-- The status of a report: pending if an item is, else imported, else skipped. -/
theorem addStatus_comm (status : LegacyImportStatus) (a b : LegacyImportItem) :
    addStatus (addStatus status a) b = addStatus (addStatus status b) a := by
  cases ha : a.status <;> cases hb : b.status <;> cases status <;> simp [addStatus, ha, hb]

theorem summary_perm {items items' : List LegacyImportItem} (h : items.Perm items') :
    summary items = summary items' := by
  have hstatus : reportStatus items = reportStatus items' :=
    h.foldl_eq' (fun a _ b _ status => addStatus_comm status a b) _
  have hsum := (h.map LegacyImportItem.importedCount).sum_eq
  rw [summary, summary, hstatus, hsum]
  simp only [h.countP_eq]

/-- Over any calls with any failures, each file is imported at most once for a domain, the data
being what these imports made; only files of calls in which none of their sources failed are moved
away, with a row for their import; and neither the order of the sources nor that of the items of a
report makes a difference. -/
theorem legacy_import_once (codec : Codec) (start : Database σ) (calls : List (Call σ)) :
    Once start ((outcomes codec calls start).flatMap Outcome.processed)
        (databaseAfter codec start calls) ∧
      (∀ o ∈ outcomes codec calls start, ArchivedRight o) ∧
      (∀ (call : Call σ) (db : Database σ) (sources : List LegacyJSONSourceSpec),
        call.options.sources.Perm sources →
          importLegacyJSON codec { call.options with sources := sources } call.course db =
            importLegacyJSON codec call.options call.course db) ∧
      ∀ items items' : List LegacyImportItem, items.Perm items' → summary items = summary items' := by
  obtain ⟨honce, hright⟩ := outcomes_once codec calls (Once.refl start)
  exact ⟨honce, hright, fun call db sources h => importLegacyJSON_perm codec _ _ db h,
    fun items items' => summary_perm⟩

/-- Two domains that share a file, the handler of each counting what it gets. -/
def sharedFile : Call ℕ where
  options :=
    { sourceDir := bytes "/data"
      sources := [⟨bytes "b", bytes "x.json"⟩, ⟨bytes "a", bytes "x.json"⟩]
      handlers := [some ⟨bytes "a", fun data _ => .ok (data + 1, 1)⟩,
        some ⟨bytes "b", fun data _ => .ok (data + 1, 1)⟩]
      archiveImported := true }
  course :=
    { cwd := .ok (bytes "/")
      item := fun _ => { file := .regular 2 (.ok (bytes "[]")) }
      move := fun _ => { exists_ := true } }

/-- The same with a commit that fails for the second of them. -/
def failedCommit : Call ℕ :=
  let failing : ItemCourse :=
    { file := .regular 2 (.ok (bytes "[]")), commitError := some (bytes "disk full") }
  { options := sharedFile.options
    course := { sharedFile.course with
      item := fun i => if i = 1 then failing else sharedFile.course.item i } }

def plainCodec : Codec where
  valid := fun _ => true
  sha256 := id

def emptyLedger : Database ℕ where
  data := 0
  legacyImports := fun _ => none

/-- The file stays until its second domain is imported as well, and both are imported once. -/
theorem legacy_import_once_sharedFile :
    Once emptyLedger ((outcomes plainCodec [failedCommit, sharedFile, sharedFile]
        emptyLedger).flatMap Outcome.processed)
      (databaseAfter plainCodec emptyLedger [failedCommit, sharedFile, sharedFile]) ∧
    (databaseAfter plainCodec emptyLedger [failedCommit, sharedFile, sharedFile]).data = 2 ∧
    (outcomes plainCodec [failedCommit, sharedFile] emptyLedger).map Outcome.archived =
      [[], [bytes "/data/x.json"]] ∧
    importLegacyJSON plainCodec { sharedFile.options with sources := sharedFile.options.sources.reverse }
        sharedFile.course emptyLedger =
      importLegacyJSON plainCodec sharedFile.options sharedFile.course emptyLedger ∧
    summary [{ domain := [], path := [] }, { domain := [1], path := [] }] =
      summary [{ domain := [1], path := [] }, { domain := [], path := [] }] := by
  obtain ⟨honce, -, hsources, hitems⟩ := legacy_import_once plainCodec emptyLedger
    [failedCommit, sharedFile, sharedFile]
  refine ⟨honce, by decide +kernel, by decide +kernel, ?_, ?_⟩
  · exact hsources sharedFile emptyLedger _ (List.reverse_perm _).symm
  · exact hitems _ _ (.swap ..)

end WorkMesh.Storage.Legacy
