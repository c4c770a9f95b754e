import WorkMesh.Sqlite.Catalog

/-!
# Reading and writing rows

Every statement of this module names the columns it works on, and it fails when
the table or one of them is missing. Writes keep the tables, their columns and
the indexes; an insertion leaves the rows before it as they were.
-/

namespace Sqlite

/-- The condition of a statement, with the columns it reads. -/
structure Condition where
  columns : List String
  holds : Row → Bool

/-- The greatest row number. -/
def maxRowid : ℤ := 2 ^ 63 - 1

/-- The sets of columns on which no two rows of a table may agree. -/
def Database.uniques (db : Database) (name : String) (t : Table) : List (List String) :=
  t.keys ++ (db.indexes.values.filter fun i => i.table = name ∧ i.unique).map (·.columns)

/-- A table whose columns include some names. -/
def Database.table (db : Database) (name : String) (columns : List String) :
    Except SqlError Table :=
  match db.tables.lookup name with
  | none => .error (.noSuchTable name)
  | some t =>
  match columns.find? (· ∉ t.names) with
  | some column => .error (.noSuchColumn name column)
  | none => .ok t

/-- The database with another content of a table. -/
def Database.put (db : Database) (name : String) (t : Table) : Database :=
  { db with tables := db.tables.insert name t }

/-- Store a table whose rows have changed. -/
def Database.store (db : Database) (name : String) (t : Table) : Except SqlError Database :=
  match (db.uniques name t).find? fun columns => ¬ Distinct columns t.rows with
  | some columns => .error (.uniqueFailed name columns)
  | none => .ok (db.put name t)

def Table.default (t : Table) (column : String) : Value :=
  ((t.columns.find? (·.name = column)).map (·.default)).getD .null

/-- The row of some values, and the greatest row number with it. -/
def Table.fill (t : Table) (values : List (String × Value)) : Except SqlError (Row × ℤ) :=
  let row : Row := fun column => (values.lookup column).getD (t.default column)
  match t.rowid with
  | none => .ok (row, t.last)
  | some column =>
  match values.lookup column with
  | some (.integer n) => .ok (row, max t.last n)
  | _ =>
      if t.last = maxRowid then .error .full
      else .ok (Function.update row column (.integer (t.last + 1)), t.last + 1)

def insert (db : Database) (name : String) (values : List (String × Value)) :
    Except SqlError (Database × Row) :=
  match db.table name (values.map Prod.fst) with
  | .error e => .error e
  | .ok t =>
  match t.fill values with
  | .error e => .error e
  | .ok (row, last) =>
  match db.store name { t with last := last, rows := t.rows ++ [row] } with
  | .error e => .error e
  | .ok db => .ok (db, row)

/-- `INSERT OR IGNORE`. -/
def insertOrIgnore (db : Database) (name : String) (values : List (String × Value)) :
    Except SqlError Database :=
  match insert db name values with
  | .ok (db, _) => .ok db
  | .error (.uniqueFailed _ _) => .ok db
  | .error e => .error e

/-- The columns of a row that are set, the others as they were. -/
def Row.set (row : Row) (values : List (String × Value)) : Row :=
  fun column => (values.lookup column).getD (row column)

/-- `UPDATE`, with the number of rows it changes. -/
def update (db : Database) (name : String) (values : List (String × Value)) (c : Condition) :
    Except SqlError (Database × ℕ) :=
  match db.table name (values.map Prod.fst ++ c.columns) with
  | .error e => .error e
  | .ok t =>
  match db.store name
      { t with rows := t.rows.map fun row => if c.holds row then row.set values else row } with
  | .error e => .error e
  | .ok db => .ok (db, t.rows.countP c.holds)

/-- The row has the values, none of them NULL, in all columns of a key. -/
def conflictsWith (target : List String) (values : List (String × Value)) (row : Row) : Bool :=
  target.all fun column => some (row column) = values.lookup column ∧ row column ≠ .null

/-- `INSERT … ON CONFLICT (target) DO UPDATE SET`, the columns set to what was to be inserted. -/
def upsert (db : Database) (name : String) (values : List (String × Value))
    (target updated : List String) : Except SqlError Database :=
  match db.table name (values.map Prod.fst ++ target ++ updated) with
  | .error e => .error e
  | .ok t =>
  if target ∉ db.uniques name t then .error (.noSuchKey target)
  else
  if t.rows.any (conflictsWith target values) then
    match update db name (values.filter fun v => v.1 ∈ updated)
        ⟨target, conflictsWith target values⟩ with
    | .error e => .error e
    | .ok (db, _) => .ok db
  else
    match insert db name values with
    | .error e => .error e
    | .ok (db, _) => .ok db

/-- `DELETE`, with the number of rows it removes. -/
def delete (db : Database) (name : String) (c : Condition) : Except SqlError (Database × ℕ) :=
  match db.table name c.columns with
  | .error e => .error e
  | .ok t =>
      .ok (db.put name { t with rows := t.rows.filter fun row => ¬ c.holds row },
        t.rows.countP c.holds)

/-- `SELECT … WHERE`, in the order of the rows. -/
def select (db : Database) (name : String) (c : Condition) : Except SqlError (List Row) :=
  (db.table name c.columns).map fun t => t.rows.filter c.holds

/-! ## What writes keep -/

/-- The tables have the same columns and keys, and the indexes are the same. -/
structure SameSchema (db db' : Database) : Prop where
  tables : ∀ n, (db'.tables.lookup n).map (fun t => (t.columns, t.keys, t.rowid)) =
    (db.tables.lookup n).map (fun t => (t.columns, t.keys, t.rowid))
  indexes : db'.indexes = db.indexes

variable {db db' db'' : Database} {name : String} {values : List (String × Value)}
  {c : Condition}

theorem SameSchema.refl (db : Database) : SameSchema db db := ⟨fun _ => rfl, rfl⟩

theorem SameSchema.trans (h : SameSchema db db') (h' : SameSchema db' db'') :
    SameSchema db db'' :=
  ⟨fun n => (h'.tables n).trans (h.tables n), h'.indexes.trans h.indexes⟩

theorem SameSchema.mem_tables (h : SameSchema db db') (n : String) :
    n ∈ db'.tables ↔ n ∈ db.tables := by
  have hmap := congrArg Option.isSome (h.tables n)
  simp only [Option.isSome_map] at hmap
  rw [← AList.lookup_isSome, ← AList.lookup_isSome, hmap]

theorem SameSchema.settled (h : SameSchema db db') {st : Statement} (hst : Settled db st) :
    Settled db' st := by
  cases st with
  | createTable n columns keys rowid => exact (h.mem_tables n).mpr hst
  | createIndex n table columns unique =>
      rw [Settled, h.mem_tables, h.mem_tables, h.indexes]
      exact hst
  | dropIndex n =>
      rw [Settled, h.indexes]
      exact hst
  | addColumn table column => exact absurd hst id

theorem SameSchema.hasColumns (h : SameSchema db db') {table : String} {names : List String}
    {rowid : Option String} (hc : HasColumns db table names rowid) :
    HasColumns db' table names rowid := by
  obtain ⟨t, ht, hnames, hrowid⟩ := hc
  have hmap := h.tables table
  rw [ht, Option.map_some] at hmap
  obtain ⟨t', ht', heq⟩ := Option.map_eq_some_iff.mp hmap
  obtain ⟨hcolumns, hrest⟩ := Prod.mk.inj heq
  refine ⟨t', ht', ?_, (Prod.mk.inj hrest).2.trans hrowid⟩
  rwa [Table.names, hcolumns]

theorem SameSchema.put {t t' : Table} (ht : db.tables.lookup name = some t)
    (hsame : (t'.columns, t'.keys, t'.rowid) = (t.columns, t.keys, t.rowid)) :
    SameSchema db (db.put name t') where
  tables n := by
    by_cases hn : n = name
    · subst hn
      rw [Database.put, AList.lookup_insert, ht, Option.map_some, Option.map_some, hsame]
    · rw [Database.put, AList.lookup_insert_ne hn]
  indexes := rfl

theorem table_ok {columns : List String} {t : Table} (h : db.table name columns = .ok t) :
    db.tables.lookup name = some t ∧ columns ⊆ t.names := by
  rw [Database.table] at h
  split at h
  · cases h
  · rename_i s hs
    split at h
    · cases h
    · rename_i hnone
      obtain rfl := Except.ok.inj h
      refine ⟨hs, fun column hcolumn => ?_⟩
      simpa using List.find?_eq_none.mp hnone column hcolumn

theorem table_of_hasColumns {columns : List String} {rowid : Option String}
    (h : HasColumns db name columns rowid) :
    ∃ t, db.table name columns = .ok t ∧ t.rowid = rowid := by
  obtain ⟨t, ht, hnames, hrowid⟩ := h
  refine ⟨t, ?_, hrowid⟩
  have hnone : columns.find? (· ∉ t.names) = none :=
    List.find?_eq_none.mpr fun column hcolumn => by simpa using hnames hcolumn
  simp only [Database.table, ht, hnone]

theorem store_ok {t : Table} (h : db.store name t = .ok db') :
    db' = db.put name t := by
  rw [Database.store] at h
  split at h
  · cases h
  · exact (Except.ok.inj h).symm

theorem insert_ok {row : Row} (h : insert db name values = .ok (db', row)) :
    ∃ t last, db.tables.lookup name = some t ∧
      db' = db.put name { t with last := last, rows := t.rows ++ [row] } := by
  rw [Sqlite.insert] at h
  split at h
  · cases h
  · rename_i t ht
    split at h
    · cases h
    · rename_i new last hfill
      split at h
      · cases h
      · rename_i stored hstore
        obtain ⟨rfl, rfl⟩ := Prod.mk.inj (Except.ok.inj h)
        exact ⟨t, last, (table_ok ht).1, store_ok hstore⟩

theorem insert_sameSchema {row : Row} (h : insert db name values = .ok (db', row)) :
    SameSchema db db' := by
  obtain ⟨t, last, ht, rfl⟩ := insert_ok h
  exact SameSchema.put ht rfl

theorem update_sameSchema {n : ℕ} (h : update db name values c = .ok (db', n)) :
    SameSchema db db' := by
  rw [update] at h
  split at h
  · cases h
  · rename_i t ht
    split at h
    · cases h
    · rename_i stored hstore
      obtain ⟨rfl, rfl⟩ := Prod.mk.inj (Except.ok.inj h)
      obtain rfl := store_ok hstore
      exact SameSchema.put (table_ok ht).1 rfl

theorem upsert_sameSchema {target updated : List String}
    (h : upsert db name values target updated = .ok db') : SameSchema db db' := by
  rw [upsert] at h
  split at h
  · cases h
  · split at h
    · cases h
    · split at h
      · split at h
        · cases h
        · rename_i hupdate
          obtain rfl := Except.ok.inj h
          exact update_sameSchema hupdate
      · split at h
        · cases h
        · rename_i hinsert
          obtain rfl := Except.ok.inj h
          exact insert_sameSchema hinsert

theorem delete_sameSchema {n : ℕ} (h : delete db name c = .ok (db', n)) : SameSchema db db' := by
  rw [delete] at h
  split at h
  · cases h
  · rename_i t ht
    obtain ⟨rfl, rfl⟩ := Prod.mk.inj (Except.ok.inj h)
    exact SameSchema.put (table_ok ht).1 rfl

/-- The rows of every table are still there, as they were and in their order. -/
def RowsKept (db db' : Database) : Prop :=
  ∀ n t, db.tables.lookup n = some t → ∃ t', db'.tables.lookup n = some t' ∧ t.rows <+: t'.rows

theorem RowsKept.refl (db : Database) : RowsKept db db := fun _ t ht => ⟨t, ht, List.prefix_rfl⟩

theorem RowsKept.trans (h : RowsKept db db') (h' : RowsKept db' db'') : RowsKept db db'' := by
  intro n t ht
  obtain ⟨t', ht', hrows⟩ := h n t ht
  obtain ⟨t'', ht'', hrows'⟩ := h' n t' ht'
  exact ⟨t'', ht'', hrows.trans hrows'⟩

theorem insert_rowsKept {row : Row} (h : insert db name values = .ok (db', row)) :
    RowsKept db db' := by
  obtain ⟨t, last, ht, rfl⟩ := insert_ok h
  intro n s hs
  by_cases hn : n = name
  · subst hn
    obtain rfl : t = s := Option.some.inj (ht.symm.trans hs)
    exact ⟨_, AList.lookup_insert _, List.prefix_append _ _⟩
  · exact ⟨s, by rw [Database.put, AList.lookup_insert_ne hn, hs], List.prefix_rfl⟩

/-- An `INSERT OR IGNORE` that names the row's number, if the table has them, does not fail. -/
theorem insertOrIgnore_ok {rowid : Option String}
    (hc : HasColumns db name (values.map Prod.fst) rowid)
    (hid : ∀ column, rowid = some column → ∃ n, values.lookup column = some (.integer n)) :
    ∃ db', insertOrIgnore db name values = .ok db' ∧ SameSchema db db' ∧ RowsKept db db' := by
  rw [insertOrIgnore]
  cases hinsert : insert db name values with
  | ok result =>
      obtain ⟨stored, row⟩ := result
      exact ⟨stored, rfl, insert_sameSchema hinsert, insert_rowsKept hinsert⟩
  | error e =>
      obtain ⟨t, htable, hrowid⟩ := table_of_hasColumns hc
      have hfill : ∃ filled, t.fill values = .ok filled := by
        rw [Table.fill, hrowid]
        cases rowid with
        | none => exact ⟨_, rfl⟩
        | some column =>
            obtain ⟨n, hn⟩ := hid column rfl
            simp only [hn]
            exact ⟨_, rfl⟩
      obtain ⟨⟨row, last⟩, hrow⟩ := hfill
      rw [Sqlite.insert, htable] at hinsert
      simp only [hrow, Database.store] at hinsert
      split at hinsert
      · rename_i e' hstore
        split at hstore
        · obtain rfl := Except.error.inj hstore
          obtain rfl := Except.error.inj hinsert
          exact ⟨db, rfl, SameSchema.refl db, RowsKept.refl db⟩
        · cases hstore
      · cases hinsert

end Sqlite
