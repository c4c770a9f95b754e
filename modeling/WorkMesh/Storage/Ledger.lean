import WorkMesh.Storage.Migrations
import WorkMesh.StateMachine.Run

/-!
# The applied versions are a prefix

Whatever statements fail, the data is what the migrations of the ledger made of
it, one after the other, and their versions are the first ones of the list.
-/

namespace WorkMesh.Storage

open StateMachine

variable {σ : Type*} {a : Statements} {m : Migration σ} {db after start : Database σ}

/-- The row that a migration leaves in the ledger. -/
def Migration.row (m : Migration σ) : LedgerRow := ⟨m.id, m.checksum⟩

/-- What a migration does to the data when it succeeds. -/
def Migration.effect (data : σ) (m : Migration σ) : Except String σ :=
  match m.up with
  | some up => up data
  | none => .error "nil"

/-- The versions in the ledger. -/
def Database.versions (db : Database σ) : List String := db.ledger.map (·.id)

/-- The ledger and the data agree, and the versions that were applied since the start are, in
their order and once each, the first ones of the list. -/
def Consistent (start : Database σ) (versions : List String) (db : Database σ) : Prop :=
  ∃ (applied : List (Migration σ)) (k : ℕ),
    db.ledger = start.ledger ++ applied.map Migration.row ∧
    applied.foldlM Migration.effect start.data = .ok db.data ∧
    (applied.map (·.id)).Nodup ∧ (applied.map (·.id)).Sublist (versions.take k) ∧
    ∀ version ∈ versions.take k, version ∈ applied.map (·.id)

/-- A database that only got rows for some versions, in the ledger and in the audit. -/
structure Extends (versions : List String) (db after : Database σ) : Prop where
  ledger : ∃ rows, after.ledger = db.ledger ++ rows ∧ ∀ row ∈ rows, row.id ∈ versions
  runs : ∃ runs, after.runs = db.runs ++ runs ∧ ∀ run ∈ runs, run.toVersion ∈ versions

/-- A call with its list of migrations and the statements that fail in it. -/
structure Attempt (σ : Type*) where
  migrations : List (Migration σ)
  fails : Statements.Call := {}

def Attempt.versions (a : Attempt σ) : List String := a.migrations.map (·.id)

def Database.next (db : Database σ) (a : Attempt σ) : Database σ :=
  (applyMigrations a.fails a.migrations db).1

/-- A migration of the list that was applied with another checksum ends the call with an error,
and neither it nor a later one is started. -/
def Refuses (db : Database σ) (a : Attempt σ) : Prop :=
  ∀ i m checksum, a.migrations[i]? = some m → db.checksum m.id = some checksum →
    checksum ≠ m.checksum → Extends (a.versions.take i) db (db.next a) ∧
      ∃ message, (applyMigrations a.fails a.migrations db).2 = .error message

/-- What a call is to keep. -/
structure Kept (start : Database σ) (db : Database σ) (a : Attempt σ) : Prop where
  consistent : Consistent start a.versions (db.next a)
  refuses : Refuses db a

/-! ## One migration -/

theorem Extends.refl (versions : List String) (db : Database σ) : Extends versions db db where
  ledger := ⟨[], (List.append_nil _).symm, by simp⟩
  runs := ⟨[], (List.append_nil _).symm, by simp⟩

theorem Extends.trans {versions : List String} {second : Database σ}
    (h : Extends versions db after) (h' : Extends versions after second) :
    Extends versions db second := by
  obtain ⟨rows, hrows, hrow⟩ := h.ledger
  obtain ⟨rows', hrows', hrow'⟩ := h'.ledger
  obtain ⟨runs, hruns, hrun⟩ := h.runs
  obtain ⟨runs', hruns', hrun'⟩ := h'.runs
  refine ⟨⟨rows ++ rows', by rw [hrows', hrows, List.append_assoc], fun row hmem => ?_⟩,
    ⟨runs ++ runs', by rw [hruns', hruns, List.append_assoc], fun run hmem => ?_⟩⟩
  · exact (List.mem_append.mp hmem).elim (hrow row) (hrow' row)
  · exact (List.mem_append.mp hmem).elim (hrun run) (hrun' run)

theorem Extends.mono {versions more : List String} (h : Extends versions db after)
    (hmore : ∀ version ∈ versions, version ∈ more) : Extends more db after := by
  obtain ⟨rows, hrows, hrow⟩ := h.ledger
  obtain ⟨runs, hruns, hrun⟩ := h.runs
  exact ⟨⟨rows, hrows, fun row hmem => hmore _ (hrow row hmem)⟩,
    ⟨runs, hruns, fun run hmem => hmore _ (hrun run hmem)⟩⟩

theorem checksum_eq_none {id : String} : db.checksum id = none ↔ id ∉ db.versions := by
  simp [Database.checksum, Database.versions]

/-- A version keeps its checksum when rows are added. -/
theorem Extends.checksum {versions : List String} (h : Extends versions db after)
    {id checksum : String} (hid : db.checksum id = some checksum) :
    after.checksum id = some checksum := by
  obtain ⟨rows, hrows, -⟩ := h.ledger
  simp only [Database.checksum, Option.map_eq_some_iff] at hid ⊢
  obtain ⟨row, hrow, hchecksum⟩ := hid
  exact ⟨row, by rw [hrows, List.find?_append, hrow]; rfl, hchecksum⟩

theorem mem_versions_of_checksum {id checksum : String} (hid : db.checksum id = some checksum) :
    id ∈ db.versions := by
  by_contra hmem
  rw [checksum_eq_none.mpr hmem] at hid
  cases hid

/-- The audit of a run that has been started and then perhaps finished. -/
structure Audited (version : String) (db after : Database σ) : Prop where
  data : after.data = db.data
  ledger : after.ledger = db.ledger
  runs : ∃ run : MigrationRun, after.runs = db.runs ++ [run] ∧ run.toVersion = version

theorem audited_start (previous version : String) (db : Database σ) :
    Audited version db (db.startRun previous version) :=
  ⟨rfl, rfl, _, rfl, rfl⟩

theorem Audited.finish {version : String} (h : Audited version db after) (status error : String) :
    Audited version db (after.finishRun status error) := by
  obtain ⟨run, hruns, hversion⟩ := h.runs
  rw [Database.finishRun, hruns, List.getLast?_concat, List.dropLast_concat]
  exact ⟨h.data, h.ledger, _, rfl, hversion⟩

theorem Audited.fail {version : String} (h : Audited version db after) (a : Statements)
    (error : String) : Audited version db (after.failRun a error) := by
  rw [Database.failRun]
  split
  · exact h.finish "failed" error
  · exact h

theorem Audited.extends {version : String} (h : Audited version db after) :
    Extends [version] db after := by
  obtain ⟨run, hruns, hversion⟩ := h.runs
  refine ⟨⟨[], by rw [h.ledger, List.append_nil], by simp⟩, [run], hruns, ?_⟩
  simpa using hversion

/-- The migration took effect together with its row. -/
structure Commits (m : Migration σ) (db after : Database σ) : Prop where
  unapplied : m.id ∉ db.versions
  data : Migration.effect db.data m = .ok after.data
  ledger : after.ledger = db.ledger ++ [m.row]

/-- What one pass of the loop can do. -/
inductive Passes (m : Migration σ) (db : Database σ) :
    Database σ → Except String Bool → Prop where
  | refused (message : String) : Passes m db db (.error message)
  | skipped (hchecksum : db.checksum m.id = some m.checksum) : Passes m db db (.ok false)
  | failed {after : Database σ} {message : String} (hunapplied : m.id ∉ db.versions)
      (haudited : Audited m.id db after) : Passes m db after (.error message)
  | committed {after : Database σ} {result : Except String Bool} (hcommits : Commits m db after)
      (hruns : ∃ run : MigrationRun, after.runs = db.runs ++ [run] ∧ run.toVersion = m.id)
      (hresult : result ≠ .ok false) : Passes m db after result

theorem work_ok {data data' : σ} (h : m.work a data = .ok data') :
    Migration.effect data m = .ok data' := by
  simp only [Migration.work] at h
  simp only [Migration.effect]
  split at h
  · cases h
  · rename_i hup
    rw [hup]
    exact h
  · cases h

theorem passes_runMigration (previous : String) (hunapplied : m.id ∉ db.versions) :
    Passes m db (runMigration a previous m db).1
      ((runMigration a previous m db).2.map fun _ => true) := by
  have hstarted := audited_start previous m.id db
  simp only [runMigration]
  split
  · exact .refused _
  · split
    · exact .failed hunapplied (hstarted.fail a _)
    · split
      · exact .failed hunapplied (hstarted.fail a _)
      · rename_i data hwork
        have heffect : Migration.effect db.data m = .ok data := work_ok hwork
        -- The audit row is written beside the transaction.
        have hcommitted : ∀ result, Audited m.id
            { db with data, ledger := db.ledger ++ [m.row] } result →
              Commits m db result ∧
                ∃ run : MigrationRun, result.runs = db.runs ++ [run] ∧ run.toVersion = m.id :=
          fun result h => ⟨⟨hunapplied, h.data ▸ heffect, h.ledger⟩, h.runs⟩
        have hfresh : Audited m.id { db with data, ledger := db.ledger ++ [m.row] }
            { db.startRun previous m.id with data, ledger := db.ledger ++ [m.row] } :=
          ⟨rfl, rfl, _, rfl, rfl⟩
        split
        · exact .failed hunapplied (hstarted.fail a _)
        · split
          · exact .failed hunapplied (hstarted.fail a _)
          · obtain ⟨hcommits, hruns⟩ := hcommitted _ (hfresh.fail a _)
            exact .committed hcommits hruns (by simp [Except.map])
          · split
            · obtain ⟨hcommits, hruns⟩ := hcommitted _ hfresh
              exact .committed hcommits hruns (by simp [Except.map])
            · obtain ⟨hcommits, hruns⟩ := hcommitted _ (hfresh.finish "applied" "")
              exact .committed hcommits hruns (by simp [Except.map])

theorem passes_applyMigration (previous : String) :
    Passes m db (applyMigration a previous m db).1 (applyMigration a previous m db).2 := by
  simp only [applyMigration]
  split
  · exact .refused _
  · split
    · exact .refused _
    · split
      · rename_i checksum hchecksum
        split
        · exact .refused _
        · rename_i hsame
          exact .skipped (by rw [hchecksum, not_not.mp hsame])
      · rename_i hnone
        exact passes_runMigration previous (checksum_eq_none.mp hnone)

theorem Passes.extends {result : Except String Bool} (h : Passes m db after result) :
    Extends [m.id] db after := by
  cases h with
  | refused message => exact .refl _ _
  | skipped hchecksum => exact .refl _ _
  | failed hunapplied haudited => exact haudited.extends
  | committed hcommits hruns hresult =>
      obtain ⟨run, hrun, hversion⟩ := hruns
      exact ⟨⟨[m.row], hcommits.ledger, by simp [Migration.row]⟩,
        [run], hrun, by simpa using hversion⟩

/-- A pass that lets the loop go on leaves the version in the ledger. -/
theorem Passes.applied {applied : Bool} (h : Passes m db after (.ok applied)) :
    m.id ∈ after.versions := by
  cases h with
  | skipped hchecksum => exact mem_versions_of_checksum hchecksum
  | committed hcommits hruns hresult =>
      simp [Database.versions, hcommits.ledger, Migration.row]

/-! ## The loop -/

section Loop
variable {versions before rest : List String}

theorem Consistent.versions_of_mem (h : Consistent start versions db)
    (hnew : ∀ version ∈ versions, version ∉ start.versions) :
    ∃ (applied : List (Migration σ)) (k : ℕ),
      db.ledger = start.ledger ++ applied.map Migration.row ∧
      applied.foldlM Migration.effect start.data = .ok db.data ∧
      (applied.map (·.id)).Nodup ∧ (applied.map (·.id)).Sublist (versions.take k) ∧
      (∀ version ∈ versions.take k, version ∈ applied.map (·.id)) ∧
      ∀ version ∈ versions, version ∈ db.versions ↔ version ∈ applied.map (·.id) := by
  obtain ⟨applied, k, hledger, hdata, hnodup, hsublist, hinitial⟩ := h
  refine ⟨applied, k, hledger, hdata, hnodup, hsublist, hinitial, fun version hmem => ?_⟩
  simp only [Database.versions, hledger, List.map_append, List.mem_append, List.map_map]
  constructor
  · exact fun hin => hin.resolve_left (hnew version hmem)
  · exact .inr

/-- A migration that takes effect is the next one of the list. -/
theorem Consistent.commit (h : Consistent start (before ++ m.id :: rest) db)
    (hnew : ∀ version ∈ before ++ m.id :: rest, version ∉ start.versions)
    (hbefore : ∀ version ∈ before, version ∈ db.versions) (hcommits : Commits m db after) :
    Consistent start (before ++ m.id :: rest) after := by
  obtain ⟨applied, k, hledger, hdata, hnodup, hsublist, hinitial, hmem⟩ := h.versions_of_mem hnew
  have hid : m.id ∈ before ++ m.id :: rest := List.mem_append_right _ List.mem_cons_self
  have hunapplied : m.id ∉ applied.map (·.id) := fun hin =>
    hcommits.unapplied ((hmem m.id hid).mpr hin)
  have hk : k ≤ before.length := by
    by_contra hlong
    refine hunapplied (hinitial m.id ?_)
    rw [List.mem_take_iff_getElem]
    exact ⟨before.length, by simp; omega, by simp⟩
  have htake : (before ++ m.id :: rest).take (before.length + 1) = before ++ [m.id] := by
    simp [List.take_append]
  refine ⟨applied ++ [m], before.length + 1, ?_, ?_, ?_, ?_, ?_⟩
  · rw [hcommits.ledger, hledger]
    simp
  · have hlast : [m].foldlM Migration.effect db.data = .ok after.data := by
      rw [List.foldlM_cons, hcommits.data]
      rfl
    rw [List.foldlM_append, hdata]
    exact hlast
  · rw [List.map_append, List.nodup_append]
    refine ⟨hnodup, List.nodup_singleton _, fun version hin other hother => ?_⟩
    rw [List.map_singleton, List.mem_singleton] at hother
    rintro rfl
    exact hunapplied (hother ▸ hin)
  · rw [htake, List.map_append]
    have hshort : (before ++ m.id :: rest).take k = before.take k := by
      rw [List.take_append_of_le_length hk]
    exact ((hshort ▸ hsublist).trans (List.take_sublist k before)).append (.refl _)
  · rw [htake]
    intro version hin
    rw [List.map_append, List.mem_append]
    cases List.mem_append.mp hin with
    | inl hold =>
        exact .inl ((hmem version (List.mem_append_left _ hold)).mp (hbefore version hold))
    | inr hlast => exact .inr hlast

theorem Consistent.congr (h : Consistent start versions db) (hdata : after.data = db.data)
    (hledger : after.ledger = db.ledger) : Consistent start versions after := by
  simpa only [Consistent, hdata, hledger] using h

theorem Consistent.passes (h : Consistent start (before ++ m.id :: rest) db)
    (hnew : ∀ version ∈ before ++ m.id :: rest, version ∉ start.versions)
    (hbefore : ∀ version ∈ before, version ∈ db.versions) {result : Except String Bool}
    (hpasses : Passes m db after result) : Consistent start (before ++ m.id :: rest) after := by
  cases hpasses with
  | refused message => exact h
  | skipped hchecksum => exact h
  | failed hunapplied haudited => exact h.congr haudited.data haudited.ledger
  | committed hcommits hruns hresult => exact h.commit hnew hbefore hcommits

theorem Extends.mem_versions (h : Extends versions db after) {version : String}
    (hmem : version ∈ db.versions) : version ∈ after.versions := by
  obtain ⟨rows, hrows, -⟩ := h.ledger
  rw [Database.versions, hrows, List.map_append]
  exact List.mem_append_left _ hmem

theorem consistent_applyFrom {migrations : List (Migration σ)} (each : ℕ → Statements) (i : ℕ)
    (previous : String) (changed : Bool)
    (h : Consistent start (before ++ migrations.map (·.id)) db)
    (hnew : ∀ version ∈ before ++ migrations.map (·.id), version ∉ start.versions)
    (hbefore : ∀ version ∈ before, version ∈ db.versions) :
    Consistent start (before ++ migrations.map (·.id))
      (applyFrom each i migrations previous changed db).1 := by
  induction migrations generalizing before i previous changed db with
  | nil => exact h
  | cons m rest ih =>
      have hpasses := @passes_applyMigration _ (each i) m db previous
      simp only [applyFrom, List.map_cons] at h hnew ⊢
      generalize applyMigration (each i) previous m db = outcome at hpasses ⊢
      obtain ⟨next, result⟩ := outcome
      have hnext := h.passes hnew hbefore hpasses
      cases result with
      | error message => exact hnext
      | ok applied =>
          have hsplit : before ++ m.id :: rest.map (·.id) =
              (before ++ [m.id]) ++ rest.map (·.id) := by simp
          rw [hsplit] at hnext hnew ⊢
          refine ih (i + 1) m.id (changed || applied) hnext hnew fun version hin => ?_
          cases List.mem_append.mp hin with
          | inl hold => exact hpasses.extends.mem_versions (hbefore version hold)
          | inr hlast => exact List.mem_singleton.mp hlast ▸ hpasses.applied

/-- The loop does not get past a version with another checksum. -/
theorem refuses_applyFrom {migrations : List (Migration σ)} (each : ℕ → Statements) (i : ℕ)
    (previous : String) (changed : Bool) {j : ℕ} {checksum : String}
    (hget : migrations[j]? = some m) (hchecksum : db.checksum m.id = some checksum)
    (hne : checksum ≠ m.checksum) :
    Extends ((migrations.map (·.id)).take j) db
        (applyFrom each i migrations previous changed db).1 ∧
      ∃ message, (applyFrom each i migrations previous changed db).2 = .error message := by
  induction migrations generalizing i previous changed db j with
  | nil => simp at hget
  | cons first rest ih =>
      have hpasses := @passes_applyMigration _ (each i) first db previous
      simp only [applyFrom]
      cases j with
      | zero =>
          obtain rfl : first = m := by simpa using hget
          have hrefused : ∃ message, applyMigration (each i) previous first db =
              (db, .error message) := by
            simp only [applyMigration, hchecksum]
            split
            · exact ⟨_, rfl⟩
            · split
              · exact ⟨_, rfl⟩
              · exact ⟨_, if_pos hne⟩
          obtain ⟨message, hrefused⟩ := hrefused
          rw [hrefused]
          exact ⟨.refl _ _, message, rfl⟩
      | succ j =>
          generalize applyMigration (each i) previous first db = outcome at hpasses ⊢
          obtain ⟨next, result⟩ := outcome
          have hfirst : Extends (((first :: rest).map (·.id)).take (j + 1)) db next :=
            hpasses.extends.mono (by simp)
          cases result with
          | error message => exact ⟨hfirst, message, rfl⟩
          | ok applied =>
              obtain ⟨hrest, herror⟩ := ih (i + 1) first.id (changed || applied)
                (by simpa using hget) (hpasses.extends.checksum hchecksum)
              refine ⟨hfirst.trans (hrest.mono fun version hin => ?_), herror⟩
              rw [List.map_cons, List.take_succ_cons]
              exact List.mem_cons_of_mem _ hin

end Loop

/-! ## Calls -/

/-- A call ends as its loop does, but for the audit of a call that had nothing to do. -/
theorem applyMigrations_cases (fails : Statements.Call) (migrations : List (Migration σ))
    (db : Database σ) :
    (∃ message, applyMigrations fails migrations db = (db, .error message)) ∨
    ∃ after, applyFrom fails.each 0 migrations "" false db =
        (after, (applyFrom fails.each 0 migrations "" false db).2) ∧
      (applyMigrations fails migrations db).1.data = after.data ∧
      (applyMigrations fails migrations db).1.ledger = after.ledger ∧
      ∀ message, (applyFrom fails.each 0 migrations "" false db).2 = .error message →
        applyMigrations fails migrations db = (after, .error message) := by
  simp only [applyMigrations]
  split
  · exact .inl ⟨_, rfl⟩
  · exact .inl ⟨_, rfl⟩
  · right
    generalize applyFrom fails.each 0 migrations "" false db = outcome
    obtain ⟨after, result⟩ := outcome
    refine ⟨after, rfl, ?_⟩
    cases result with
    | error message => exact ⟨rfl, rfl, fun _ h => by rw [Except.error.inj h]⟩
    | ok found =>
        obtain ⟨previous, changed⟩ := found
        have hnoop := audited_start previous previous after
        have hfinished := hnoop.finish "noop" ""
        dsimp only
        split
        · split
          · exact ⟨rfl, rfl, fun _ h => by cases h⟩
          · exact ⟨hnoop.data, hnoop.ledger, fun _ h => by cases h⟩
          · exact ⟨hfinished.data, hfinished.ledger, fun _ h => by cases h⟩
        · exact ⟨rfl, rfl, fun _ h => by cases h⟩

theorem Consistent.next {versions : List String} {a : Attempt σ}
    (h : Consistent start versions db) (hgrows : versions <+: a.versions)
    (hnew : ∀ version ∈ a.versions, version ∉ start.versions) :
    Consistent start a.versions (db.next a) := by
  have hlonger : Consistent start a.versions db := by
    obtain ⟨applied, k, hledger, hdata, hnodup, hsublist, hinitial⟩ := h
    obtain ⟨more, hmore⟩ := hgrows
    have htake : a.versions.take (min k versions.length) = versions.take k := by
      rw [← hmore, List.take_append_of_le_length (Nat.min_le_right _ _), ← List.take_take,
        List.take_length]
    exact ⟨applied, min k versions.length, hledger, hdata, hnodup, htake ▸ hsublist, htake ▸ hinitial⟩
  cases applyMigrations_cases a.fails a.migrations db with
  | inl hrefused =>
      obtain ⟨message, hrefused⟩ := hrefused
      rw [Database.next, hrefused]
      exact hlonger
  | inr hloop =>
      obtain ⟨after, hafter, hdata, hledger, -⟩ := hloop
      have happlied := @consistent_applyFrom _ _ _ [] _ a.fails.each 0 "" false hlonger hnew
        (by simp)
      rw [hafter] at happlied
      exact happlied.congr hdata hledger

theorem refuses_next (db : Database σ) (a : Attempt σ) : Refuses db a := by
  intro i m checksum hget hchecksum hne
  cases applyMigrations_cases a.fails a.migrations db with
  | inl hrefused =>
      obtain ⟨message, hrefused⟩ := hrefused
      rw [Database.next, hrefused]
      exact ⟨.refl _ _, message, rfl⟩
  | inr hloop =>
      obtain ⟨after, hafter, -, -, herror⟩ := hloop
      obtain ⟨hextends, message, hmessage⟩ :=
        refuses_applyFrom a.fails.each 0 "" false hget hchecksum hne
      rw [Database.next, herror message hmessage]
      rw [hafter] at hextends
      exact ⟨hextends, message, rfl⟩

/-- Over calls with lists that grow, whatever statements fail, every migration takes effect at
most once and with its row, in the order of the list and without gaps, and a version with another
checksum stops the call. -/
theorem migrations_applied_in_order (start : Database σ) (attempts : List (Attempt σ))
    (hgrow : (attempts.map Attempt.versions).IsChain (· <+: ·))
    (hnew : ∀ a ∈ attempts, ∀ version ∈ a.versions, version ∉ start.versions) :
    Meets Database.next (Kept start) start attempts := by
  have hrun : ∀ (versions : List String) (db : Database σ), Consistent start versions db →
      (versions :: attempts.map Attempt.versions).IsChain (· <+: ·) →
        Meets Database.next (Kept start) db attempts := by
    intro versions db hdb hchain
    clear hgrow
    induction attempts generalizing versions db with
    | nil => trivial
    | cons a attempts ih =>
        rw [List.map_cons, List.isChain_cons_cons] at hchain
        have hnext := hdb.next hchain.1 (hnew a List.mem_cons_self)
        exact ⟨⟨hnext, refuses_next db a⟩, ih (fun b hb => hnew b (List.mem_cons_of_mem _ hb))
          a.versions _ hnext hchain.2⟩
  refine hrun [] start ⟨[], 0, by simp, rfl, by simp, by simp, by simp⟩ ?_
  cases attempts with
  | nil => exact .singleton _
  | cons a attempts => exact .cons_cons (List.nil_prefix) hgrow

/-- A migration that notes its version in the data. -/
def noting (id : String) : Migration (List String) :=
  ⟨id, "checksum of " ++ id, some fun data => .ok (data ++ [id])⟩

/-- A call that loses the commit of its second migration, and the next call with one more. -/
def interruptedCalls : List (Attempt (List String)) :=
  [⟨[noting "0001", noting "0002"],
      { each := fun i => if i = 1 then { commit := .rolledBack "disk full" } else {} }⟩,
    ⟨[noting "0001", noting "0002", noting "0003"], {}⟩]

theorem migrations_applied_in_order_interrupted :
    Meets Database.next (Kept ⟨[], [], []⟩) ⟨[], [], []⟩ interruptedCalls := by
  refine migrations_applied_in_order _ _ ?_ ?_
  · simp [interruptedCalls, Attempt.versions, noting]
  · simp [Database.versions]

example : (run Database.next ⟨[], [], []⟩ interruptedCalls).data = ["0001", "0002", "0003"] := by
  decide +kernel

end WorkMesh.Storage
