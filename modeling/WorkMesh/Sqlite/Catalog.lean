import WorkMesh.Encoding.Text
import WorkMesh.StateMachine.Table

/-!
# Tables, indexes and schema statements

The part of SQLite that schema statements and the writes of rows go through.
A unique index is checked against all rows when it is created and at every
write from then on. Schema statements that are run again find what they made
before, and then they change nothing.
-/

namespace Sqlite

open Encoding

inductive Value where
  | null
  | integer (n : ℤ)
  | text (content : Bytes)
  | blob (content : Bytes)
deriving DecidableEq

/-- A row gives every column a value. -/
abbrev Row := String → Value

/-- The values of some columns. A row with a NULL among them is equal to no other row. -/
def Row.key (columns : List String) (row : Row) : Option (List Value) :=
  if .null ∈ columns.map row then none else some (columns.map row)

/-- No two rows agree on the columns. -/
def Distinct (columns : List String) (rows : List Row) : Prop :=
  (rows.filterMap (Row.key columns)).Nodup

instance (columns : List String) (rows : List Row) : Decidable (Distinct columns rows) :=
  inferInstanceAs (Decidable (List.Nodup _))

structure Column where
  name : String
  default : Value := .null
deriving DecidableEq

/-- A table. The numbers in the column `rowid` are given out once, and `last` is the
greatest of them so far. -/
structure Table where
  columns : List Column
  keys : List (List String) := []
  rowid : Option String := none
  last : ℤ := 0
  rows : List Row := []

structure Index where
  table : String
  columns : List String
  unique : Bool
deriving DecidableEq

structure Database where
  tables : StateMachine.Table String Table := ∅
  indexes : StateMachine.Table String Index := ∅

inductive SqlError where
  | noSuchTable (table : String)
  | noSuchColumn (table column : String)
  | noSuchKey (columns : List String)
  | indexNamed (name : String)
  | tableNamed (name : String)
  | duplicateColumn (column : String)
  | uniqueFailed (table : String) (columns : List String)
  | full
deriving DecidableEq

/-- The statements `CREATE TABLE IF NOT EXISTS`, `CREATE [UNIQUE] INDEX IF NOT EXISTS`,
`DROP INDEX IF EXISTS` and `ALTER TABLE … ADD COLUMN`. -/
inductive Statement where
  | createTable (name : String) (columns : List Column) (keys : List (List String))
      (rowid : Option String)
  | createIndex (name table : String) (columns : List String) (unique : Bool)
  | dropIndex (name : String)
  | addColumn (table : String) (column : Column)
deriving DecidableEq

def Table.names (t : Table) : List String := t.columns.map (·.name)

def Table.addColumn (t : Table) (column : Column) : Table :=
  { t with
    columns := t.columns ++ [column]
    rows := t.rows.map fun row => Function.update row column.name column.default }

/-! ## Schema statements -/

def exec (db : Database) : Statement → Except SqlError Database
  | .createTable name columns keys rowid =>
      if name ∈ db.tables then .ok db
      else if name ∈ db.indexes then .error (.indexNamed name)
      else .ok { db with tables := db.tables.insert name { columns, keys, rowid } }
  | .createIndex name table columns unique =>
      match db.tables.lookup table with
      | none => .error (.noSuchTable table)
      | some t =>
      if name ∈ db.tables then .error (.tableNamed name)
      else if name ∈ db.indexes then .ok db
      else
      match columns.find? (· ∉ t.names) with
      | some column => .error (.noSuchColumn table column)
      | none =>
      if unique ∧ ¬ Distinct columns t.rows then .error (.uniqueFailed table columns)
      else .ok { db with indexes := db.indexes.insert name ⟨table, columns, unique⟩ }
  | .dropIndex name => .ok { db with indexes := db.indexes.erase name }
  | .addColumn table column =>
      match db.tables.lookup table with
      | none => .error (.noSuchTable table)
      | some t =>
      if column.name ∈ t.names then .error (.duplicateColumn column.name)
      else .ok { db with tables := db.tables.insert table (t.addColumn column) }

/-- `PRAGMA table_info` of a table lists the column. A table that is missing has none. -/
def hasColumn (db : Database) (table column : String) : Bool :=
  (db.tables.lookup table).any fun t => column ∈ t.names

/-- Statements one after the other, up to the first that fails. Each takes effect by itself. -/
def execAll : Database → List Statement → Database × Except SqlError Unit
  | db, [] => (db, .ok ())
  | db, st :: rest =>
      match exec db st with
      | .error e => (db, .error e)
      | .ok db => execAll db rest

variable {db db' : Database} {st : Statement}

/-- What a statement that succeeds can do. -/
theorem exec_cases (h : exec db st = .ok db') :
    db' = db ∨
    (∃ name columns keys rowid, st = .createTable name columns keys rowid ∧
      name ∉ db.indexes ∧
      db' = { db with tables := db.tables.insert name { columns, keys, rowid } }) ∨
    (∃ name table columns unique, st = .createIndex name table columns unique ∧
      name ∉ db.tables ∧
      db' = { db with indexes := db.indexes.insert name ⟨table, columns, unique⟩ }) ∨
    (∃ name, st = .dropIndex name ∧ db' = { db with indexes := db.indexes.erase name }) ∨
    ∃ table column t, st = .addColumn table column ∧ db.tables.lookup table = some t ∧
      db' = { db with tables := db.tables.insert table (t.addColumn column) } := by
  cases st with
  | createTable name columns keys rowid =>
      rw [exec] at h
      split_ifs at h with hmem hindex
      · exact .inl (Except.ok.inj h).symm
      · exact .inr (.inl ⟨name, columns, keys, rowid, rfl, hindex, (Except.ok.inj h).symm⟩)
  | createIndex name table columns unique =>
      rw [exec] at h
      split at h
      · cases h
      · split at h
        · cases h
        · rename_i htable
          split at h
          · exact .inl (Except.ok.inj h).symm
          · split at h
            · cases h
            · split at h
              · cases h
              · exact .inr (.inr (.inl ⟨name, table, columns, unique, rfl, htable,
                  (Except.ok.inj h).symm⟩))
  | dropIndex name => exact .inr (.inr (.inr (.inl ⟨name, rfl, (Except.ok.inj h).symm⟩)))
  | addColumn table column =>
      rw [exec] at h
      split at h
      · cases h
      · rename_i t ht
        split_ifs at h
        exact .inr (.inr (.inr (.inr ⟨table, column, t, rfl, ht, (Except.ok.inj h).symm⟩)))

/-- The tables are there to stay. -/
theorem mem_tables_of_exec (h : exec db st = .ok db') {n : String} (hn : n ∈ db.tables) :
    n ∈ db'.tables := by
  obtain rfl | ⟨_, _, _, _, _, _, rfl⟩ | ⟨_, _, _, _, _, _, rfl⟩ | ⟨_, _, rfl⟩ |
    ⟨_, _, _, _, _, rfl⟩ := exec_cases h
  · exact hn
  · exact (AList.mem_insert _).mpr (.inr hn)
  · exact hn
  · exact hn
  · exact (AList.mem_insert _).mpr (.inr hn)

/-- The table that a statement creates. -/
def Statement.created : Statement → Option String
  | .createTable name _ _ _ => some name
  | _ => none

theorem notMem_tables_of_exec (h : exec db st = .ok db') {n : String}
    (hst : st.created ≠ some n) (hn : n ∉ db.tables) : n ∉ db'.tables := by
  obtain rfl | ⟨name, _, _, _, rfl, _, rfl⟩ | ⟨_, _, _, _, _, _, rfl⟩ | ⟨_, _, rfl⟩ |
    ⟨name, _, t, _, ht, rfl⟩ := exec_cases h
  · exact hn
  · intro hmem
    rcases (AList.mem_insert _).mp hmem with rfl | hmem
    · exact hst rfl
    · exact hn hmem
  · exact hn
  · exact hn
  · intro hmem
    rcases (AList.mem_insert _).mp hmem with rfl | hmem
    · exact hn (AList.lookup_isSome.mp (by rw [ht]; rfl))
    · exact hn hmem

/-! ## Statements that have taken effect -/

/-- The statement has nothing left to do. -/
def Settled (db : Database) : Statement → Prop
  | .createTable name _ _ _ => name ∈ db.tables
  | .createIndex name table _ _ => table ∈ db.tables ∧ name ∉ db.tables ∧ name ∈ db.indexes
  | .dropIndex name => name ∉ db.indexes
  | .addColumn _ _ => False

/-- One statement takes back the other. -/
def Undoes : Statement → Statement → Prop
  | .dropIndex n, .createIndex name _ _ _ => n = name
  | .createIndex n _ _ _, .dropIndex name => n = name
  | _, _ => False

instance : DecidableRel Undoes := fun
  | .dropIndex n, .createIndex name _ _ _ => inferInstanceAs (Decidable (n = name))
  | .createIndex n _ _ _, .dropIndex name => inferInstanceAs (Decidable (n = name))
  | .createTable .., _ | .addColumn .., _ => .isFalse id
  | .dropIndex _, .createTable .. | .dropIndex _, .dropIndex _ | .dropIndex _, .addColumn .. =>
      .isFalse id
  | .createIndex .., .createTable .. | .createIndex .., .createIndex .. |
    .createIndex .., .addColumn .. => .isFalse id

theorem erase_of_notMem {κ α : Type*} [DecidableEq κ] {t : StateMachine.Table κ α} {k : κ}
    (h : k ∉ t) : t.erase k = t := by
  apply AList.ext
  exact List.kerase_of_notMem_keys h

theorem erase_insert_of_notMem {κ α : Type*} [DecidableEq κ] {t : StateMachine.Table κ α} {k : κ}
    (h : k ∉ t) (a : α) : (t.insert k a).erase k = t := by
  apply AList.ext
  change List.kerase k (t.insert k a).entries = t.entries
  rw [AList.entries_insert_of_notMem h]
  exact List.kerase_cons_eq rfl

theorem exec_settled (h : Settled db st) : exec db st = .ok db := by
  cases st with
  | createTable name columns keys rowid =>
      rw [Settled] at h
      rw [exec, if_pos h]
  | createIndex name table columns unique =>
      obtain ⟨htable, hname, hindex⟩ := h
      obtain ⟨t, ht⟩ := Option.isSome_iff_exists.mp (AList.lookup_isSome.mpr htable)
      rw [exec, ht]
      simp only [if_neg hname, if_pos hindex]
  | dropIndex name => rw [exec, erase_of_notMem h]
  | addColumn table column => exact absurd h id

/-- `ALTER TABLE … ADD COLUMN`, the one statement that cannot be repeated. -/
def Statement.addsColumn : Statement → Bool
  | .addColumn _ _ => true
  | _ => false

theorem settled_of_exec (h : exec db st = .ok db') (hst : st.addsColumn = false) :
    Settled db' st := by
  cases st with
  | createTable name columns keys rowid =>
      rw [exec] at h
      split_ifs at h with hmem
      · rwa [← Except.ok.inj h]
      · rw [← Except.ok.inj h]
        exact (AList.mem_insert _).mpr (.inl rfl)
  | createIndex name table columns unique =>
      rw [exec] at h
      split at h
      · cases h
      · rename_i t ht
        have htable : table ∈ db.tables := AList.lookup_isSome.mp (by rw [ht]; rfl)
        split at h
        · cases h
        · rename_i hname
          split at h
          · rename_i hindex
            rw [← Except.ok.inj h]
            exact ⟨htable, hname, hindex⟩
          · split at h
            · cases h
            · split at h
              · cases h
              · rw [← Except.ok.inj h]
                exact ⟨htable, hname, (AList.mem_insert _).mpr (.inl rfl)⟩
  | dropIndex name =>
      rw [← Except.ok.inj h]
      exact fun hmem => (AList.mem_erase.mp hmem).1 rfl
  | addColumn table column => cases hst

/-- A statement that has nothing left to do stays so until one takes it back. -/
theorem Settled.exec {st' : Statement} (h : Settled db st) (he : exec db st' = .ok db')
    (hundo : ¬ Undoes st' st) : Settled db' st := by
  have htables : ∀ n, n ∈ db.tables → n ∈ db'.tables := fun n => mem_tables_of_exec he
  cases st with
  | createTable name columns keys rowid => exact htables name h
  | createIndex name table columns unique =>
      obtain ⟨htable, hname, hindex⟩ := h
      refine ⟨htables table htable, ?_⟩
      obtain rfl | ⟨n, _, _, _, _, hn, rfl⟩ | ⟨n, _, _, _, _, _, rfl⟩ | ⟨n, rfl, rfl⟩ |
        ⟨n, _, t, _, hn, rfl⟩ := exec_cases he
      · exact ⟨hname, hindex⟩
      · refine ⟨?_, hindex⟩
        rintro hmem
        rcases (AList.mem_insert _).mp hmem with rfl | hmem
        · exact hn hindex
        · exact hname hmem
      · exact ⟨hname, (AList.mem_insert _).mpr (.inr hindex)⟩
      · exact ⟨hname, AList.mem_erase.mpr ⟨fun heq => hundo heq.symm, hindex⟩⟩
      · refine ⟨?_, hindex⟩
        rintro hmem
        rcases (AList.mem_insert _).mp hmem with rfl | hmem
        · exact hname (AList.lookup_isSome.mp (by rw [hn]; rfl))
        · exact hname hmem
  | dropIndex name =>
      obtain rfl | ⟨_, _, _, _, _, _, rfl⟩ | ⟨n, _, _, _, rfl, _, rfl⟩ | ⟨n, _, rfl⟩ |
        ⟨_, _, _, _, _, rfl⟩ := exec_cases he
      · exact h
      · exact h
      · rintro hmem
        rcases (AList.mem_insert _).mp hmem with heq | hmem
        · exact hundo heq.symm
        · exact h hmem
      · exact fun hmem => h (AList.mem_erase.mp hmem).2
      · exact h
  | addColumn table column => exact absurd h id

/-- The table is there and has the columns, one of them perhaps for row numbers. -/
def HasColumns (db : Database) (table : String) (names : List String) (rowid : Option String) :
    Prop :=
  ∃ t, db.tables.lookup table = some t ∧ names ⊆ t.names ∧ t.rowid = rowid

theorem HasColumns.exec {table : String} {names : List String} {rowid : Option String}
    (h : HasColumns db table names rowid) (he : exec db st = .ok db') :
    HasColumns db' table names rowid := by
  obtain ⟨t, ht, hnames, hrowid⟩ := h
  have hmem : table ∈ db.tables := AList.lookup_isSome.mp (by rw [ht]; rfl)
  cases st with
  | createTable name columns keys rowid =>
      rw [Sqlite.exec] at he
      split_ifs at he with hname hindex
      · rw [← Except.ok.inj he]
        exact ⟨t, ht, hnames, hrowid⟩
      · rw [← Except.ok.inj he]
        refine ⟨t, ?_, hnames, hrowid⟩
        have hne : table ≠ name := by
          rintro rfl
          exact hname hmem
        rw [AList.lookup_insert_ne hne, ht]
  | createIndex name table columns unique =>
      obtain rfl | ⟨_, _, _, _, hst, _⟩ | ⟨_, _, _, _, _, _, rfl⟩ | ⟨_, hst, _⟩ |
        ⟨_, _, _, hst, _⟩ := exec_cases he
      · exact ⟨t, ht, hnames, hrowid⟩
      · cases hst
      · exact ⟨t, ht, hnames, hrowid⟩
      · cases hst
      · cases hst
  | dropIndex name =>
      rw [← Except.ok.inj he]
      exact ⟨t, ht, hnames, hrowid⟩
  | addColumn other column =>
      rw [Sqlite.exec] at he
      split at he
      · cases he
      · rename_i s hs
        split_ifs at he
        rw [← Except.ok.inj he]
        by_cases heq : table = other
        · subst heq
          obtain rfl : s = t := Option.some.inj (hs.symm.trans ht)
          refine ⟨s.addColumn column, AList.lookup_insert _, ?_, hrowid⟩
          intro name hname
          rw [Table.names, Table.addColumn, List.map_append]
          exact List.mem_append_left _ (hnames hname)
        · exact ⟨t, by rw [AList.lookup_insert_ne heq, ht], hnames, hrowid⟩

theorem HasColumns.mono {table : String} {names names' : List String} {rowid : Option String}
    (h : HasColumns db table names' rowid) (hsub : names ⊆ names') :
    HasColumns db table names rowid := by
  obtain ⟨t, ht, hnames, hrowid⟩ := h
  exact ⟨t, ht, List.Subset.trans hsub hnames, hrowid⟩

theorem HasColumns.append {table : String} {first second : List String} {rowid r : Option String}
    (h : HasColumns db table first rowid) (h' : HasColumns db table second r) :
    HasColumns db table (first ++ second) rowid := by
  obtain ⟨t, ht, hfirst, hrowid⟩ := h
  obtain ⟨t', ht', hsecond, -⟩ := h'
  obtain rfl : t = t' := Option.some.inj (ht.symm.trans ht')
  exact ⟨t, ht, List.append_subset.mpr ⟨hfirst, hsecond⟩, hrowid⟩

/-- The statement does not create the table without the columns. -/
def Statement.Provides (table : String) (names : List String) (rowid : Option String) :
    Statement → Prop
  | .createTable name columns _ r => name = table → names ⊆ columns.map (·.name) ∧ r = rowid
  | _ => True

instance (table : String) (names : List String) (rowid : Option String) :
    DecidablePred (Statement.Provides table names rowid) := fun
  | .createTable name columns _ r => inferInstanceAs
      (Decidable (name = table → names ⊆ columns.map (·.name) ∧ r = rowid))
  | .createIndex .. | .dropIndex _ | .addColumn .. => .isTrue trivial

/-- Whichever statement creates a table, the table has the columns. -/
theorem hasColumns_of_provides {table : String} {names : List String} {rowid : Option String}
    (hst : st.Provides table names rowid) (he : exec db st = .ok db')
    (h : table ∈ db.tables → HasColumns db table names rowid) (hmem : table ∈ db'.tables) :
    HasColumns db' table names rowid := by
  by_cases htable : table ∈ db.tables
  · exact (h htable).exec he
  · obtain rfl | ⟨name, columns, keys, r, rfl, _, rfl⟩ | ⟨_, _, _, _, _, _, rfl⟩ |
      ⟨_, _, rfl⟩ | ⟨name, _, t, _, hn, rfl⟩ := exec_cases he
    · exact absurd hmem htable
    · rcases (AList.mem_insert _).mp hmem with rfl | hmem
      · obtain ⟨hnames, rfl⟩ := hst rfl
        exact ⟨_, AList.lookup_insert _, hnames, rfl⟩
      · exact absurd hmem htable
    · exact absurd hmem htable
    · exact absurd hmem htable
    · rcases (AList.mem_insert _).mp hmem with rfl | hmem
      · exact absurd (AList.lookup_isSome.mp (by rw [hn]; rfl)) htable
      · exact absurd hmem htable

/-! ## Lists of statements -/

variable {sts : List Statement}

theorem execAll_append (first second : List Statement) :
    execAll db (first ++ second) =
      match execAll db first with
      | (db, .error e) => (db, .error e)
      | (db, .ok ()) => execAll db second := by
  induction first generalizing db with
  | nil => rfl
  | cons st first ih =>
      rw [List.cons_append, execAll, execAll]
      cases exec db st with
      | error e => rfl
      | ok db => exact ih

theorem execAll_append_ok {first second : List Statement} {d : Database}
    (hfirst : execAll db first = (d, .ok ())) (hsecond : execAll d second = (db', .ok ())) :
    execAll db (first ++ second) = (db', .ok ()) := by
  rw [execAll_append, hfirst]
  exact hsecond

theorem execAll_cons_ok {rest : List Statement} (h : execAll db (st :: rest) = (db', .ok ())) :
    ∃ next, exec db st = .ok next ∧ execAll next rest = (db', .ok ()) := by
  rw [execAll] at h
  cases hst : exec db st with
  | error e =>
      rw [hst] at h
      cases h
  | ok next =>
      rw [hst] at h
      exact ⟨next, rfl, h⟩

theorem execAll_settled (h : ∀ st ∈ sts, Settled db st) : execAll db sts = (db, .ok ()) := by
  induction sts with
  | nil => rfl
  | cons st rest ih =>
      rw [execAll, exec_settled (h st List.mem_cons_self)]
      exact ih fun st hst => h st (List.mem_cons_of_mem _ hst)

/-- What every statement of a list keeps, the list keeps. -/
theorem execAll_keeps {P : Database → Prop}
    (hstep : ∀ st ∈ sts, ∀ {d d'}, P d → exec d st = .ok d' → P d')
    (hdb : P db) (h : execAll db sts = (db', .ok ())) : P db' := by
  induction sts generalizing db with
  | nil =>
      obtain rfl : db = db' := (Prod.mk.inj h).1
      exact hdb
  | cons st rest ih =>
      obtain ⟨next, hnext, hrest⟩ := execAll_cons_ok h
      exact ih (fun st hst => hstep st (List.mem_cons_of_mem _ hst))
        (hstep st List.mem_cons_self hdb hnext) hrest

theorem Settled.execAll (h : Settled db st) (hundo : ∀ st' ∈ sts, ¬ Undoes st' st)
    (he : execAll db sts = (db', .ok ())) : Settled db' st :=
  execAll_keeps (P := fun d => Settled d st) (fun st' hst' _ _ hd hexec =>
    hd.exec hexec (hundo st' hst')) h he

theorem HasColumns.execAll {table : String} {names : List String} {rowid : Option String}
    (h : HasColumns db table names rowid) (he : execAll db sts = (db', .ok ())) :
    HasColumns db' table names rowid :=
  execAll_keeps (P := fun d => HasColumns d table names rowid) (fun _ _ _ _ hd hexec =>
    hd.exec hexec) h he

/-- Every statement of a list that no statement of the list takes back has taken effect. -/
theorem settled_of_execAll (he : execAll db sts = (db', .ok ())) (hst : st ∈ sts)
    (hadd : st.addsColumn = false)
    (hundo : ∀ st' ∈ sts, ¬ Undoes st' st) : Settled db' st := by
  induction sts generalizing db with
  | nil => cases hst
  | cons first rest ih =>
      obtain ⟨next, hnext, hrest⟩ := execAll_cons_ok he
      have hundo' : ∀ st' ∈ rest, ¬ Undoes st' st := fun st' h =>
        hundo st' (List.mem_cons_of_mem _ h)
      rcases List.mem_cons.mp hst with rfl | hmem
      · exact (settled_of_exec hnext hadd).execAll hundo' hrest
      · exact ih hrest hmem hundo'

theorem hasColumn_iff {table column : String} :
    hasColumn db table column = true ↔ ∃ rowid, HasColumns db table [column] rowid := by
  rw [hasColumn, Option.any_eq_true]
  constructor
  · rintro ⟨t, ht, hcolumn⟩
    exact ⟨t.rowid, t, ht, by simpa using hcolumn, rfl⟩
  · rintro ⟨rowid, t, ht, hcolumn, -⟩
    exact ⟨t, ht, by simpa using hcolumn⟩

theorem hasColumn_execAll {table column : String}
    (he : execAll db sts = (db', .ok ())) (h : hasColumn db table column = true) :
    hasColumn db' table column = true := by
  obtain ⟨rowid, hc⟩ := hasColumn_iff.mp h
  exact hasColumn_iff.mpr ⟨rowid, hc.execAll he⟩

theorem hasColumn_of_added {table : String} {column : Column}
    (h : exec db (.addColumn table column) = .ok db') : hasColumn db' table column.name = true := by
  rw [exec] at h
  split at h
  · cases h
  · rename_i t ht
    split_ifs at h
    rw [← Except.ok.inj h, hasColumn, AList.lookup_insert, Option.any_some]
    simp [Table.names, Table.addColumn]

theorem execAll_singleton {st : Statement} (h : exec db st = .ok db') :
    execAll db [st] = (db', .ok ()) := by
  rw [execAll, h]
  rfl

end Sqlite
