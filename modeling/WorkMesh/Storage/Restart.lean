import WorkMesh.StateMachine.Run
import WorkMesh.Storage.DatabaseAdmin

/-!
# Starting on a database that is in use

A start executes every statement of the initialisers again. All of them have
taken effect before, except that the old index on the identity of grants was
dropped at the end of the start before: `ensureControlTables` creates it once
more before it drops it, although grants have had servers since.
-/

namespace WorkMesh.Storage

open Encoding Sqlite StateMachine

attribute [local irreducible] bytes

/-- Which of the two initialisers works on a file first. -/
inductive Order where
  | controlFirst
  | adminFirst

/-- Both initialisers, in a new process. -/
def start (c : Context) : Order → Sqlite.Database → Sqlite.Database × Except StartError Unit
  | .controlFirst, db =>
      match ensureControlTables db with
      | (db, .error e) => (db, .error e)
      | (db, .ok ()) => initializeDatabase c db
  | .adminFirst, db =>
      match initializeDatabase c db with
      | (db, .error e) => (db, .error e)
      | (db, .ok ()) => ensureControlTables db

/-- A table with the columns it has had since its first version. -/
structure OldTable where
  name : String
  columns : List String
  rowid : Option String
deriving DecidableEq

/-- The tables that statements create, without the column that grants got later. -/
def oldTables (sts : List Statement) : List OldTable :=
  sts.filterMap fun
    | .createTable name columns _ rowid =>
        some ⟨name, (columns.map (·.name)).filter (· ≠ "server_name"), rowid⟩
    | _ => none

/-- The tables of the administration that a file already has are those of this program,
with servers or without. -/
def Written (db : Sqlite.Database) : Prop :=
  ∀ t ∈ oldTables adminTables, t.name ∈ db.tables → HasColumns db t.name t.columns t.rowid

/-- The next start executes all of its statements and leaves every row as it is. -/
def StartsAgain (db : Sqlite.Database) : Prop :=
  ∀ c, (∀ context e, (start c .controlFirst db).2 ≠ .error (.statement context e)) ∧
    RowsKept db (start c .controlFirst db).1

/-- No two grants agree on database, user and host, whatever their servers are. -/
def GrantsDistinct (db : Sqlite.Database) : Prop :=
  ∀ t, db.tables.lookup "database_grants" = some t →
    Distinct ["database_name", "username", "host"] t.rows

instance (db : Sqlite.Database) : Decidable (GrantsDistinct db) :=
  match h : db.tables.lookup "database_grants" with
  | none => .isTrue fun t ht => by
      rw [h] at ht
      cases ht
  | some t => decidable_of_iff (Distinct ["database_name", "username", "host"] t.rows)
      ⟨fun hd s hs => Option.some.inj (h.symm.trans hs) ▸ hd, fun hg => hg t h⟩

/-! ## What a start leaves -/

/-- The two columns that were added to tables later. -/
def addedColumns : List Statement :=
  [.addColumn "databases" (emptyText "container_name"),
    .addColumn "database_grants" (emptyText "server_name")]

variable {db db' : Sqlite.Database}

theorem execStatements_ok {context : String} {sts : List Statement}
    (h : execStatements context sts db = (db', .ok ())) : execAll db sts = (db', .ok ()) := by
  rw [execStatements] at h
  split at h
  · cases h
  · rename_i hall
    rw [hall, (Prod.mk.inj h).1]

theorem addServerName_ok (h : addServerName db = .ok db') :
    ∃ added ⊆ addedColumns, execAll db added = (db', .ok ()) ∧
      hasColumn db' "database_grants" "server_name" := by
  rw [addServerName] at h
  split at h
  · rename_i hexec
    rw [← Except.ok.inj h]
    refine ⟨_, ?_, execAll_singleton hexec, hasColumn_of_added hexec⟩
    simp [addedColumns]
  · rename_i column hexec
    rw [← Except.ok.inj h]
    refine ⟨[], List.nil_subset _, rfl, ?_⟩
    rw [exec] at hexec
    split at hexec
    · cases hexec
    · rename_i t ht
      split_ifs at hexec with hcolumn
      rw [hasColumn, ht]
      exact decide_eq_true hcolumn
  · cases h

theorem ensureContainer_ok (h : ensureDatabaseContainerNameColumn db = .ok db') :
    ∃ added ⊆ addedColumns, execAll db added = (db', .ok ()) ∧
      hasColumn db' "databases" "container_name" := by
  rw [ensureDatabaseContainerNameColumn] at h
  split at h
  · rename_i hcolumn
    rw [← Except.ok.inj h]
    exact ⟨[], List.nil_subset _, rfl, hcolumn⟩
  · split at h
    · cases h
    · rename_i hexec
      rw [← Except.ok.inj h]
      refine ⟨_, ?_, execAll_singleton hexec, hasColumn_of_added hexec⟩
      simp [addedColumns]

/-- An initialiser has executed its statements, and perhaps it has inserted rows. -/
def Executed (tables : List Statement) (db db' : Sqlite.Database) : Prop :=
  ∃ added ⊆ addedColumns, ∃ d₁ d₂, execAll db (tables ++ added) = (d₁, .ok ()) ∧
    execAll d₁ grantIndexes = (d₂, .ok ()) ∧ SameSchema d₂ db' ∧
    hasColumn d₁ "database_grants" "server_name" = true

theorem ensureControlTables_ok (h : ensureControlTables db = (db', .ok ())) :
    Executed controlTables db db' ∧ hasColumn db' "databases" "container_name" = true := by
  rw [ensureControlTables] at h
  split at h
  · cases h
  · rename_i d₁ h₁
    split at h
    · cases h
    · rename_i d₂ h₂
      split at h
      · cases h
      · rename_i d₃ h₃
        obtain ⟨first, hfirst, hcontainer, hcolumn₂⟩ := ensureContainer_ok h₂
        obtain ⟨second, hsecond, hserver, hcolumn₃⟩ := addServerName_ok h₃
        have hindexes := execStatements_ok h
        constructor
        · refine ⟨first ++ second, List.append_subset.mpr ⟨hfirst, hsecond⟩, d₃, db', ?_,
            hindexes, SameSchema.refl db', hcolumn₃⟩
          rw [← List.append_assoc]
          exact execAll_append_ok (execAll_append_ok (execStatements_ok h₁) hcontainer) hserver
        · exact hasColumn_execAll hindexes (hasColumn_execAll hserver hcolumn₂)

theorem insertRows_ok {rows : List Insertion}
    (h : insertRows rows db = .ok db') : SameSchema db db' := by
  induction rows generalizing db with
  | nil =>
      rw [← Except.ok.inj h]
      exact SameSchema.refl db
  | cons row rest ih =>
      rw [insertRows] at h
      split at h
      · cases h
      · rename_i d hinsert
        refine SameSchema.trans ?_ (ih h)
        rw [insertOrIgnore] at hinsert
        split at hinsert
        · rename_i hok
          rw [← Except.ok.inj hinsert]
          exact insert_sameSchema hok
        · rw [← Except.ok.inj hinsert]
          exact SameSchema.refl db
        · cases hinsert

theorem importLegacy_sameSchema (c : Context) (db : Sqlite.Database) :
    SameSchema db (importLegacy c db).1 := by
  rw [importLegacy]
  split
  · exact SameSchema.refl db
  · split
    · exact SameSchema.refl db
    · split
      · exact SameSchema.refl db
      · split
        · exact SameSchema.refl db
        · rename_i hrows
          split
          · exact insertRows_ok hrows
          · exact insertRows_ok hrows

theorem initializeDatabase_ok {c : Context} (h : initializeDatabase c db = (db', .ok ())) :
    Executed adminTables db db' := by
  rw [initializeDatabase] at h
  split at h
  · cases h
  · rename_i d₁ h₁
    split at h
    · cases h
    · rename_i d₂ h₂
      split at h
      · cases h
      · rename_i d₃ h₃
        obtain ⟨added, hadded, hserver, hcolumn⟩ := addServerName_ok h₂
        refine ⟨added, hadded, d₂, d₃, execAll_append_ok (execStatements_ok h₁) hserver,
          execStatements_ok h₃, ?_, hcolumn⟩
        have hsame := importLegacy_sameSchema c d₃
        rwa [h] at hsame

/-- Every statement of the initialisers has taken effect, but for the index that they drop. -/
structure Started (db : Sqlite.Database) : Prop where
  settled : ∀ st ∈ controlTables ++ adminTables ++ grantIndexes,
    st ≠ createGrantsIdentity → Settled db st
  container : hasColumn db "databases" "container_name" = true
  server : hasColumn db "database_grants" "server_name" = true
  no_table : "idx_database_grants_identity" ∉ db.tables
  columns : ∀ t ∈ oldTables adminTables, HasColumns db t.name t.columns t.rowid

theorem hasColumn_sameSchema (hsame : SameSchema db db') {table column : String}
    (h : hasColumn db table column = true) : hasColumn db' table column = true := by
  obtain ⟨rowid, hc⟩ := hasColumn_iff.mp h
  exact hasColumn_iff.mpr ⟨rowid, hsame.hasColumns hc⟩

theorem Started.sameSchema (h : Started db) (hsame : SameSchema db db') : Started db' where
  settled st hst hne := hsame.settled (h.settled st hst hne)
  container := hasColumn_sameSchema hsame h.container
  server := hasColumn_sameSchema hsame h.server
  no_table := fun hmem => h.no_table ((hsame.mem_tables _).mp hmem)
  columns t ht := hsame.hasColumns (h.columns t ht)

/-- Nothing but the old index of grants is both created and dropped. -/
theorem initialisers_undo : ∀ st ∈ controlTables ++ adminTables ++ grantIndexes,
    st ≠ createGrantsIdentity → st ≠ .dropIndex "idx_database_grants_identity" →
    ∀ st' ∈ controlTables ++ adminTables ++ addedColumns ++ grantIndexes, ¬ Undoes st' st := by
  decide

theorem grantIndexes_undo : ∀ st ∈ grantIndexes, ∀ st' ∈ grantIndexes, ¬ Undoes st' st := by
  decide

theorem initialisers_repeat : ∀ st ∈ controlTables ++ adminTables ++ grantIndexes,
    st.addsColumn = false := by
  decide

theorem initialisers_provide : ∀ t ∈ oldTables adminTables,
    ∀ st ∈ controlTables ++ adminTables ++ addedColumns ++ grantIndexes,
      st.Provides t.name t.columns t.rowid := by
  decide

theorem initialisers_create : ∀ st ∈ controlTables ++ adminTables ++ addedColumns ++ grantIndexes,
    st.created ≠ some "idx_database_grants_identity" := by
  decide

theorem old_index_undone : ∀ st ∈ controlTables ++ addedColumns,
    ¬ Undoes st createGrantsIdentity := by
  decide

theorem tables_created : ∀ st ∈ controlTables ++ adminTables,
    st ≠ .dropIndex "idx_database_grants_identity" := by
  decide

theorem mem_oldTables {sts : List Statement} {t : OldTable} (h : t ∈ oldTables sts) :
    ∃ columns keys, .createTable t.name columns keys t.rowid ∈ sts := by
  obtain ⟨st, hst, heq⟩ := List.mem_filterMap.mp h
  split at heq
  · obtain rfl := Option.some.inj heq
    exact ⟨_, _, hst⟩
  · cases heq

variable {tables : List Statement}

/-- What every statement and every insertion keeps, an initialiser keeps. -/
theorem Executed.keeps {P : Sqlite.Database → Prop} (h : Executed tables db db')
    (hstep : ∀ st ∈ tables ++ addedColumns ++ grantIndexes,
      ∀ {d d'}, P d → exec d st = .ok d' → P d')
    (hsame : ∀ {d d'}, P d → SameSchema d d' → P d') (hdb : P db) : P db' := by
  obtain ⟨added, hadded, d₁, d₂, h₁, h₂, hsame₂, -⟩ := h
  have hp₁ : P d₁ := by
    refine execAll_keeps (fun st hst => hstep st ?_) hdb h₁
    rcases List.mem_append.mp hst with hst | hst
    · simp [hst]
    · simp [hadded hst]
  have hp₂ : P d₂ := execAll_keeps (fun st hst => hstep st (by simp [hst])) hp₁ h₂
  exact hsame hp₂ hsame₂

theorem Executed.server (h : Executed tables db db') :
    hasColumn db' "database_grants" "server_name" = true := by
  obtain ⟨added, hadded, d₁, d₂, h₁, h₂, hsame₂, hserver⟩ := h
  exact hasColumn_sameSchema hsame₂ (hasColumn_execAll h₂ hserver)

theorem Executed.container (h : Executed tables db db')
    (hcontainer : hasColumn db "databases" "container_name" = true) :
    hasColumn db' "databases" "container_name" = true :=
  h.keeps (P := fun d => hasColumn d "databases" "container_name" = true)
    (fun _ _ _ _ hd hexec => hasColumn_execAll (execAll_singleton hexec) hd)
    (fun hd hsame => hasColumn_sameSchema hsame hd) hcontainer

theorem Executed.settled (h : Executed tables db db') (ht : tables ⊆ controlTables ++ adminTables)
    {st : Statement} (hst : st ∈ controlTables ++ adminTables) (hne : st ≠ createGrantsIdentity)
    (hdb : Settled db st) : Settled db' st := by
  refine h.keeps (P := fun d => Settled d st) ?_ (fun hd hsame => hsame.settled hd) hdb
  intro st' hst' d d' hd hexec
  apply hd.exec hexec
  apply initialisers_undo st (List.mem_append_left _ hst) hne (tables_created st hst)
  simp only [List.mem_append] at hst' ⊢
  rcases hst' with (hst' | hst') | hst'
  · have hmem := ht hst'
    simp only [List.mem_append] at hmem
    tauto
  · tauto
  · tauto

/-- The statements of an initialiser have taken effect when it is done. -/
theorem Executed.settles (h : Executed tables db db')
    (ht : tables ⊆ controlTables ++ adminTables) {st : Statement}
    (hst : st ∈ tables ++ grantIndexes) (hne : st ≠ createGrantsIdentity) : Settled db' st := by
  obtain ⟨added, hadded, d₁, d₂, h₁, h₂, hsame₂, -⟩ := h
  apply hsame₂.settled
  rcases List.mem_append.mp hst with hst | hst
  · have hmem := ht hst
    have hundo := initialisers_undo st (List.mem_append_left _ hmem) hne (tables_created st hmem)
    have hd₁ : Settled d₁ st := by
      refine settled_of_execAll h₁ (List.mem_append_left _ hst)
        (initialisers_repeat st (List.mem_append_left _ hmem)) ?_
      intro st' hst'
      apply hundo
      simp only [List.mem_append] at hst' ⊢
      rcases hst' with hst' | hst'
      · have hmem := ht hst'
        simp only [List.mem_append] at hmem
        tauto
      · have hmem := hadded hst'
        tauto
    exact hd₁.execAll (fun st' hst' => hundo st' (by simp [hst'])) h₂
  · refine settled_of_execAll h₂ hst (initialisers_repeat st (by simp [hst])) ?_
    intro st' hst'
    exact grantIndexes_undo st hst st' hst'

theorem Executed.columns (h : Executed tables db db') (ht : tables ⊆ controlTables ++ adminTables)
    {t : OldTable} (hold : t ∈ oldTables adminTables)
    (hdb : t.name ∈ db.tables → HasColumns db t.name t.columns t.rowid) :
    t.name ∈ db'.tables → HasColumns db' t.name t.columns t.rowid := by
  refine h.keeps (P := fun d => t.name ∈ d.tables → HasColumns d t.name t.columns t.rowid)
    ?_ (fun hd hsame hmem => hsame.hasColumns (hd ((hsame.mem_tables _).mp hmem))) hdb
  intro st hst d d' hd hexec
  apply hasColumns_of_provides (initialisers_provide t hold st ?_) hexec hd
  simp only [List.mem_append] at hst ⊢
  rcases hst with (hst | hst) | hst
  · have hmem := ht hst
    simp only [List.mem_append] at hmem
    tauto
  · tauto
  · tauto

theorem Executed.no_table (h : Executed tables db db') (ht : tables ⊆ controlTables ++ adminTables)
    (hdb : "idx_database_grants_identity" ∉ db.tables) :
    "idx_database_grants_identity" ∉ db'.tables := by
  refine h.keeps (P := fun d => "idx_database_grants_identity" ∉ d.tables) ?_
    (fun hd hsame hmem => hd ((hsame.mem_tables _).mp hmem)) hdb
  intro st hst d d' hd hexec
  apply notMem_tables_of_exec hexec (initialisers_create st ?_) hd
  simp only [List.mem_append] at hst ⊢
  rcases hst with (hst | hst) | hst
  · have hmem := ht hst
    simp only [List.mem_append] at hmem
    tauto
  · tauto
  · tauto

/-- The old index has been there, so no table has its name. -/
theorem Executed.no_table_of_control (h : Executed controlTables db db') :
    "idx_database_grants_identity" ∉ db'.tables := by
  obtain ⟨added, hadded, d₁, d₂, h₁, h₂, hsame₂, -⟩ := h
  have hmem : createGrantsIdentity ∈ controlTables := by decide
  have hsettled : Settled d₁ createGrantsIdentity := by
    refine settled_of_execAll h₁ (List.mem_append_left _ hmem) rfl ?_
    intro st hst
    apply old_index_undone
    rcases List.mem_append.mp hst with hst | hst
    · exact List.mem_append_left _ hst
    · exact List.mem_append_right _ (hadded hst)
  have hd₂ : "idx_database_grants_identity" ∉ d₂.tables :=
    execAll_keeps (P := fun d => "idx_database_grants_identity" ∉ d.tables)
      (fun st hst _ _ hd hexec => notMem_tables_of_exec hexec
        (initialisers_create st (by simp [hst])) hd) hsettled.2.1 h₂
  exact fun hmem => hd₂ ((hsame₂.mem_tables _).mp hmem)

/-- Both initialisers have executed their statements, in one order or the other. -/
theorem started_of_executed {first second : List Statement} {file d : Sqlite.Database}
    (hfile : Written file) (h₁ : Executed first file d) (h₂ : Executed second d db)
    (hfirst : first ⊆ controlTables ++ adminTables)
    (hsecond : second ⊆ controlTables ++ adminTables)
    (hall : controlTables ++ adminTables ⊆ first ++ second)
    (hcontainer : hasColumn db "databases" "container_name" = true)
    (htable : "idx_database_grants_identity" ∉ db.tables) : Started db := by
  have hsettled : ∀ st ∈ controlTables ++ adminTables ++ grantIndexes,
      st ≠ createGrantsIdentity → Settled db st := by
    intro st hst hne
    rcases List.mem_append.mp hst with hst | hst
    · rcases List.mem_append.mp (hall hst) with hmem | hmem
      · have hd := h₁.settles hfirst (List.mem_append_left _ hmem) hne
        exact h₂.settled hsecond hst hne hd
      · exact h₂.settles hsecond (List.mem_append_left _ hmem) hne
    · exact h₂.settles hsecond (List.mem_append_right _ hst) hne
  refine ⟨hsettled, hcontainer, h₂.server, htable, fun t ht => ?_⟩
  obtain ⟨columns, keys, hmem⟩ := mem_oldTables ht
  have hcreated : Settled db (.createTable t.name columns keys t.rowid) :=
    hsettled _ (by simp [hmem]) (fun heq => by cases heq)
  exact h₂.columns hsecond ht (h₁.columns hfirst ht (hfile t ht)) hcreated

/-- A first start that succeeds, in either order. -/
theorem started_of_start {c : Context} {order : Order} {file : Sqlite.Database} (hfile : Written file)
    (h : (start c order file).2 = .ok ()) : Started (start c order file).1 := by
  cases order with
  | controlFirst =>
      rw [start] at h ⊢
      split at h
      · cases h
      · rename_i d hcontrol
        obtain ⟨hcontrol, hcontainer⟩ := ensureControlTables_ok hcontrol
        have hok : initializeDatabase c d = ((initializeDatabase c d).1, .ok ()) := Prod.ext rfl h
        have hadmin := initializeDatabase_ok hok
        exact started_of_executed hfile hcontrol hadmin (List.subset_append_left _ _)
          (List.subset_append_right _ _) (List.Subset.refl _) (hadmin.container hcontainer)
          (hadmin.no_table (List.subset_append_right _ _) hcontrol.no_table_of_control)
  | adminFirst =>
      rw [start] at h ⊢
      split at h
      · cases h
      · rename_i d hadmin
        have hadmin := initializeDatabase_ok hadmin
        have hok : ensureControlTables d = ((ensureControlTables d).1, .ok ()) := Prod.ext rfl h
        obtain ⟨hcontrol, hcontainer⟩ := ensureControlTables_ok hok
        refine started_of_executed hfile hadmin hcontrol (List.subset_append_right _ _)
          (List.subset_append_left _ _) ?_ hcontainer hcontrol.no_table_of_control
        intro st hst
        rcases List.mem_append.mp hst with hst | hst
        · exact List.mem_append_right _ hst
        · exact List.mem_append_left _ hst

/-! ## The next start -/

/-- The statements before and after the old index on the identity of grants. -/
theorem controlTables_eq : controlTables =
    controlTables.take 30 ++ createGrantsIdentity :: controlTables.drop 31 := by
  decide +kernel

theorem old_index_once : ∀ st ∈ controlTables.take 30 ++ controlTables.drop 31,
    st ≠ createGrantsIdentity := by
  decide

theorem addServerName_started (h : hasColumn db "database_grants" "server_name" = true) :
    addServerName db = .ok db := by
  obtain ⟨_, t, ht, hcolumn, -⟩ := hasColumn_iff.mp h
  have hexec : exec db (.addColumn "database_grants" (emptyText "server_name")) =
      .error (.duplicateColumn "server_name") := by
    rw [exec, ht]
    exact if_pos (hcolumn List.mem_cons_self)
  rw [addServerName, hexec]

theorem ensureContainer_started (h : hasColumn db "databases" "container_name" = true) :
    ensureDatabaseContainerNameColumn db = .ok db := by
  rw [ensureDatabaseContainerNameColumn, if_pos h]

theorem Started.grants (h : Started db) : ∃ t, db.tables.lookup "database_grants" = some t ∧
    ["database_name", "username", "host"] ⊆ t.names := by
  obtain ⟨t, ht, hnames, -⟩ := h.columns
    ⟨"database_grants", ["id", "database_name", "username", "host", "privileges"], some "id"⟩
    (by decide)
  refine ⟨t, ht, List.Subset.trans ?_ hnames⟩
  decide

/-- The database while the old index is there. -/
def withOldIndex (db : Sqlite.Database) : Sqlite.Database :=
  { db with
    indexes := db.indexes.insert "idx_database_grants_identity"
      ⟨"database_grants", ["database_name", "username", "host"], true⟩ }

theorem Started.no_old_index (h : Started db) : "idx_database_grants_identity" ∉ db.indexes :=
  h.settled (.dropIndex "idx_database_grants_identity") (by decide) (fun heq => by cases heq)

/-- The old index can be created once more exactly while its columns tell the grants apart. -/
theorem exec_old_index (h : Started db) :
    exec db createGrantsIdentity =
      if GrantsDistinct db then .ok (withOldIndex db)
      else .error (.uniqueFailed "database_grants" ["database_name", "username", "host"]) := by
  obtain ⟨t, ht, hnames⟩ := h.grants
  have htable := h.no_table
  have hindex := h.no_old_index
  have hfind : ["database_name", "username", "host"].find? (· ∉ t.names) = none :=
    List.find?_eq_none.mpr fun column hcolumn => by simpa using hnames hcolumn
  have hiff : GrantsDistinct db ↔ Distinct ["database_name", "username", "host"] t.rows :=
    ⟨fun hg => hg t ht, fun hd s hs => Option.some.inj (ht.symm.trans hs) ▸ hd⟩
  rw [createGrantsIdentity, exec, ht]
  simp only [if_neg htable, if_neg hindex, hfind, hiff, true_and]
  rw [ite_not]
  rfl

/-- On a database in use, `ensureControlTables` changes nothing. It fails at the old index
when that cannot be created once more. -/
theorem ensureControlTables_started (h : Started db) :
    ensureControlTables db =
      if GrantsDistinct db then (db, .ok ())
      else (db, .error (.statement "初始化公共控制面表失败"
        (.uniqueFailed "database_grants" ["database_name", "username", "host"]))) := by
  have hbefore : execAll db (controlTables.take 30) = (db, .ok ()) := by
    apply execAll_settled
    intro st hst
    exact h.settled st (by simp [List.mem_of_mem_take hst])
      (old_index_once st (List.mem_append_left _ hst))
  by_cases hdistinct : GrantsDistinct db
  · have hold : exec db createGrantsIdentity = .ok (withOldIndex db) := by
      rw [exec_old_index h, if_pos hdistinct]
    have hafter : execAll (withOldIndex db) (controlTables.drop 31) =
        (withOldIndex db, .ok ()) := by
      apply execAll_settled
      intro st hst
      have hmem : st ∈ controlTables := List.mem_of_mem_drop hst
      have hne := old_index_once st (List.mem_append_right _ hst)
      refine (h.settled st (by simp [hmem]) hne).exec hold ?_
      exact initialisers_undo st (by simp [hmem]) hne (tables_created st (by simp [hmem])) _
        (by decide)
    have hcontrol : execAll db controlTables = (withOldIndex db, .ok ()) := by
      rw [controlTables_eq]
      refine execAll_append_ok hbefore ?_
      rw [execAll, hold]
      exact hafter
    have hindexes : execAll (withOldIndex db) grantIndexes = (db, .ok ()) := by
      have hdrop : exec (withOldIndex db) (.dropIndex "idx_database_grants_identity") = .ok db := by
        rw [exec, withOldIndex]
        simp only
        rw [erase_insert_of_notMem h.no_old_index]
      rw [grantIndexes, execAll, hdrop]
      apply execAll_settled
      intro st hst
      refine h.settled st ?_ ?_
      · exact List.mem_append_right _ (List.mem_cons_of_mem _ hst)
      · rintro rfl
        revert hst
        decide
    rw [if_pos hdistinct, ensureControlTables]
    simp only [execStatements, hcontrol]
    have hcontainer : hasColumn (withOldIndex db) "databases" "container_name" = true := h.container
    have hserver : hasColumn (withOldIndex db) "database_grants" "server_name" = true := h.server
    rw [ensureContainer_started hcontainer]
    simp only
    rw [addServerName_started hserver]
    simp only [hindexes]
  · have hcontrol : execAll db controlTables =
        (db, .error (.uniqueFailed "database_grants" ["database_name", "username", "host"])) := by
      rw [controlTables_eq, execAll_append, hbefore]
      simp only
      rw [execAll, exec_old_index h, if_neg hdistinct]
    rw [if_neg hdistinct, ensureControlTables]
    simp only [execStatements, hcontrol]

/-- The rows of the old file have the columns of their tables. -/
theorem insertions_fit (h : Started db) (legacy : Legacy) (now : Bytes) :
    ∀ i ∈ legacy.insertions now, ∃ rowid, HasColumns db i.table (i.values.map Prod.fst) rowid ∧
      ∀ column, rowid = some column → ∃ n, i.values.lookup column = some (.integer n) := by
  intro i hi
  simp only [Legacy.insertions, List.mem_append, List.mem_map] at hi
  rcases hi with ((⟨user, -, rfl⟩ | ⟨grant, -, rfl⟩) | ⟨item, -, rfl⟩) | ⟨config, -, rfl⟩
  · have hc := h.columns ⟨"database_users", ["id", "database_id", "database_name", "type",
      "username", "host", "description", "password_set", "created_at"], some "id"⟩
      (by decide)
    refine ⟨some "id", hc, ?_⟩
    rintro column heq
    obtain rfl := Option.some.inj heq
    exact ⟨user.id, rfl⟩
  · have hc := h.columns
      ⟨"database_grants", ["id", "database_name", "username", "host", "privileges"], some "id"⟩
      (by decide)
    obtain ⟨_, hserver⟩ := hasColumn_iff.mp h.server
    refine ⟨some "id", (hc.append hserver).mono ?_, ?_⟩
    · have hnames : (importGrant grant).values.map Prod.fst =
          ["id", "server_name", "database_name", "username", "host", "privileges"] := rfl
      rw [hnames]
      decide
    · rintro column heq
      obtain rfl := Option.some.inj heq
      exact ⟨grant.id, rfl⟩
  · have hc := h.columns
      ⟨"database_variables", ["database_name", "name", "value", "updated_at"], none⟩
      (by decide)
    exact ⟨none, hc, fun column heq => by cases heq⟩
  · have hc := h.columns
      ⟨"database_configs", ["database_name", "content", "updated_at"], none⟩ (by decide)
    exact ⟨none, hc, fun column heq => by cases heq⟩

/-- Rows that fit are inserted or ignored. -/
theorem insertRows_started {rows : List Insertion}
    (h : ∀ i ∈ rows, ∃ rowid, HasColumns db i.table (i.values.map Prod.fst) rowid ∧
      ∀ column, rowid = some column → ∃ n, i.values.lookup column = some (.integer n)) :
    ∃ db', insertRows rows db = .ok db' ∧ RowsKept db db' := by
  induction rows generalizing db with
  | nil => exact ⟨db, rfl, RowsKept.refl db⟩
  | cons i rest ih =>
      obtain ⟨rowid, hc, hid⟩ := h i List.mem_cons_self
      obtain ⟨d, hd, hsame, hkept⟩ := insertOrIgnore_ok hc hid
      have hrest : ∀ j ∈ rest, ∃ rowid, HasColumns d j.table (j.values.map Prod.fst) rowid ∧
          ∀ column, rowid = some column → ∃ n, j.values.lookup column = some (.integer n) := by
        intro j hj
        obtain ⟨r, hcj, hidj⟩ := h j (List.mem_cons_of_mem _ hj)
        exact ⟨r, hsame.hasColumns hcj, hidj⟩
      obtain ⟨d', hd', hkept'⟩ := ih hrest
      refine ⟨d', ?_, hkept.trans hkept'⟩
      rw [insertRows, hd]
      exact hd'

theorem importLegacy_started (h : Started db) (c : Context) :
    (∀ context e, (importLegacy c db).2 ≠ .error (.statement context e)) ∧
      RowsKept db (importLegacy c db).1 := by
  have hc := h.columns ⟨"database_users", ["id", "database_id", "database_name", "type",
    "username", "host", "description", "password_set", "created_at"], some "id"⟩
    (by decide)
  obtain ⟨t, ht, -⟩ := table_of_hasColumns (hc.mono (List.nil_subset _))
  rw [importLegacy, ht]
  simp only
  split
  · exact ⟨fun context e => by simp, RowsKept.refl db⟩
  · split
    · exact ⟨fun context e => by simp, RowsKept.refl db⟩
    · rename_i legacy _
      obtain ⟨db', hrows, hkept⟩ := insertRows_started (insertions_fit h legacy c.now)
      rw [hrows]
      simp only
      split
      · exact ⟨fun context e => by simp, hkept⟩
      · exact ⟨fun context e => by simp, hkept⟩

/-- On a database in use, `initializeDatabase` comes down to the import. -/
theorem initializeDatabase_started (h : Started db) (c : Context) :
    initializeDatabase c db = importLegacy c db := by
  have htables : execAll db adminTables = (db, .ok ()) := by
    apply execAll_settled
    intro st hst
    refine h.settled st (by simp [hst]) ?_
    rintro rfl
    revert hst
    decide
  have hindexes : execAll db grantIndexes = (db, .ok ()) := by
    apply execAll_settled
    intro st hst
    refine h.settled st (by simp [hst]) ?_
    rintro rfl
    revert hst
    decide
  rw [initializeDatabase]
  simp only [execStatements, htables, hindexes, addServerName_started h.server]

theorem startsAgain_iff (h : Started db) : StartsAgain db ↔ GrantsDistinct db := by
  have hcontrol := ensureControlTables_started h
  constructor
  · intro hagain
    by_contra hdistinct
    rw [if_neg hdistinct] at hcontrol
    refine (hagain ⟨[], none, none⟩).1 "初始化公共控制面表失败"
      (.uniqueFailed "database_grants" ["database_name", "username", "host"]) ?_
    rw [start, hcontrol]
  · intro hdistinct c
    rw [if_pos hdistinct] at hcontrol
    have hstart : start c .controlFirst db = importLegacy c db := by
      rw [start, hcontrol]
      exact initializeDatabase_started h c
    rw [hstart]
    exact importLegacy_started h c

/-! ## The calls in between -/

namespace DatabaseAdminStore

variable {s : DatabaseAdminStore} {c : Context}

/-- The store has initialised a database in use. -/
def InUse (s : DatabaseAdminStore) : Prop := s.initialized = true ∧ Started s.db

theorem call_inUse {α : Type} {f : Sqlite.Database → Except AdminError (Sqlite.Database × α)}
    (h : s.InUse)
    (hf : ∀ {db db' result}, f db = .ok (db', result) → SameSchema db db') :
    (s.call c f).1.InUse := by
  have hexecutor : s.executor c = (s, .ok ()) := by rw [executor, if_pos h.1]
  rw [call, hexecutor]
  simp only
  split
  · exact h
  · rename_i hok
    exact ⟨h.1, h.2.sameSchema (hf hok)⟩

theorem affecting_sameSchema {missing : String} {result : Except SqlError (Sqlite.Database × ℕ)}
    {db db' : Sqlite.Database} {u : Unit} (h : affecting missing result = .ok (db', u))
    (hresult : ∀ {d n}, result = .ok (d, n) → SameSchema db d) : SameSchema db db' := by
  rw [affecting.eq_def] at h
  split at h
  · cases h
  · cases h
  · obtain rfl := (Prod.mk.inj (Except.ok.inj h)).1
    exact hresult rfl

theorem storeGrant_sameSchema {grant stored : DatabaseGrant} {db db' : Sqlite.Database}
    (h : storeGrant grant db = .ok (db', stored)) : SameSchema db db' := by
  rw [storeGrant] at h
  split_ifs at h
  · split at h
    · cases h
    · rename_i hupdate
      obtain rfl := (Prod.mk.inj (Except.ok.inj h)).1
      exact update_sameSchema hupdate
  · split at h
    · cases h
    · rename_i hinsert
      obtain rfl := (Prod.mk.inj (Except.ok.inj h)).1
      exact insert_sameSchema hinsert

/-- Every call keeps the schema. -/
theorem next_inUse (h : s.InUse) (op : Operation) : (s.next c op).InUse := by
  cases op with
  | createUser user =>
      rw [next, createUser]
      split
      · exact h
      · refine call_inUse h ?_
        intro db db' result hf
        split at hf
        · cases hf
        · rename_i hinsert
          obtain rfl := (Prod.mk.inj (Except.ok.inj hf)).1
          exact insert_sameSchema hinsert
  | updateUser user =>
      rw [next, updateUser]
      split
      · exact h
      · refine call_inUse h ?_
        intro db db' result hf
        split at hf
        · cases hf
        · cases hf
        · simp only at hf
          split at hf
          · cases hf
          · rename_i hupdate
            obtain rfl := (Prod.mk.inj (Except.ok.inj hf)).1
            exact update_sameSchema hupdate
  | deleteUser id =>
      exact call_inUse h fun hf => affecting_sameSchema hf delete_sameSchema
  | deleteUserByIdentity database username host =>
      exact call_inUse h fun hf => affecting_sameSchema hf delete_sameSchema
  | setPassword id =>
      exact call_inUse h fun hf => affecting_sameSchema hf update_sameSchema
  | setPasswordByIdentity database username host =>
      exact call_inUse h fun hf => affecting_sameSchema hf update_sameSchema
  | updateUserByIdentity user newHost =>
      refine call_inUse h ?_
      intro db db' result hf
      split at hf
      · cases hf
      · cases hf
      · simp only at hf
        split at hf
        · cases hf
        · rename_i hupdate
          obtain rfl := (Prod.mk.inj (Except.ok.inj hf)).1
          exact update_sameSchema hupdate
  | upsertGrant grant =>
      rw [next, upsertGrant]
      split
      · exact h
      · exact call_inUse h storeGrant_sameSchema
  | deleteGrant id =>
      exact call_inUse h fun hf => affecting_sameSchema hf delete_sameSchema
  | deleteGrantByIdentity server database username host =>
      exact call_inUse h fun hf => affecting_sameSchema hf delete_sameSchema
  | setVariable item =>
      rw [next, setVariable]
      split
      · exact h
      · split
        · exact h
        · refine call_inUse h ?_
          intro db db' result hf
          split at hf
          · cases hf
          · rename_i hupsert
            obtain rfl := (Prod.mk.inj (Except.ok.inj hf)).1
            exact upsert_sameSchema hupsert
  | setConfig database content =>
      rw [next, setConfig]
      split
      · exact h
      · refine call_inUse h ?_
        intro db db' result hf
        split at hf
        · cases hf
        · rename_i hupsert
          obtain rfl := (Prod.mk.inj (Except.ok.inj hf)).1
          exact upsert_sameSchema hupsert

/-- The store after calls, each with what it finds. -/
def run (s : DatabaseAdminStore) (calls : List (Context × Operation)) : DatabaseAdminStore :=
  StateMachine.run (fun s call => s.next call.1 call.2) s calls

theorem run_inUse (h : s.InUse) (calls : List (Context × Operation)) : (s.run calls).InUse := by
  rw [run]
  exact run_preserves (P := InUse) (fun _ call hs => next_inUse hs call.2) h calls

end DatabaseAdminStore

/-- After a first start in either order and any calls, the next start executes all of its
statements exactly when no two grants agree on database, user and host. -/
theorem starts_again_iff {file : Sqlite.Database} (hfile : Written file) (order : Order) (c : Context)
    (hstart : (start c order file).2 = .ok ())
    (calls : List (Context × DatabaseAdminStore.Operation)) :
    StartsAgain (DatabaseAdminStore.run ⟨(start c order file).1, true⟩ calls).db ↔
      GrantsDistinct (DatabaseAdminStore.run ⟨(start c order file).1, true⟩ calls).db := by
  have hfirst : DatabaseAdminStore.InUse ⟨(start c order file).1, true⟩ :=
    ⟨rfl, started_of_start hfile hstart⟩
  exact startsAgain_iff (DatabaseAdminStore.run_inUse hfirst calls).2

/-- A grant of all privileges on the database "app" of a server. -/
def appGrant (server : String) : DatabaseGrant where
  server := bytes server
  database := bytes "app"
  username := bytes "app"
  privileges := some [bytes "ALL"]

def firstContext : Context where
  now := bytes "2026-01-01T00:00:00Z"

theorem written_new : Written {} := fun _ _ hmem => absurd hmem (AList.notMem_empty _)

/-- One user with the same grant on two servers. -/
theorem start_fails_after_grants :
    (start firstContext .controlFirst {}).2 = .ok () ∧
      ¬ StartsAgain (DatabaseAdminStore.run ⟨(start firstContext .controlFirst {}).1, true⟩
        [(firstContext, .upsertGrant (appGrant "mysql-a")),
          (firstContext, .upsertGrant (appGrant "mysql-b"))]).db := by
  have hstart : (start firstContext .controlFirst {}).2 = .ok () := by decide +kernel
  refine ⟨hstart, fun hagain => ?_⟩
  refine (hagain firstContext).1 "初始化公共控制面表失败"
    (.uniqueFailed "database_grants" ["database_name", "username", "host"]) ?_
  decide +kernel

/-- Two users with a grant each. -/
theorem starts_again_one_server :
    StartsAgain (DatabaseAdminStore.run ⟨(start firstContext .adminFirst {}).1, true⟩
      [(firstContext, .upsertGrant (appGrant "mysql-a")),
        (firstContext, .upsertGrant { appGrant "mysql-b" with username := bytes "other" })]).db :=
  (starts_again_iff written_new .adminFirst firstContext (by decide +kernel) _).mpr
    (by decide +kernel)

end WorkMesh.Storage
