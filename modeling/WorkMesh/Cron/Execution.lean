import WorkMesh.Cron.Schedule
import WorkMesh.StateMachine.Table

/-!
# One run of a cron job

`HandleOnce` executes a job, again as long as it fails and may be retried, and
stores the last result. The context of the run is looked at before the first
attempt and by the database; the wait between two attempts ends early for it,
and the next attempt starts all the same.
-/

namespace WorkMesh.Cron.HandleOnce

open Encoding StateMachine

structure CommandResult where
  exitCode : ℤ := 0
  stdout : Bytes := []
  stderr : Bytes := []
  duration : ℤ := 0
deriving DecidableEq

/-- The fields of a job that a run reads and writes. Instants are in nanoseconds. -/
structure Job where
  spec : Bytes
  retryTimes : ℕ
  ignoreErr : Bool := false
  lastRunAt : Option ℤ := none
  nextRunAt : Option ℤ := none
deriving DecidableEq

/-- The maps of the service and the rows of the table `cronjobs`. -/
structure Jobs where
  items : Table Bytes Job := ∅
  records : Table Bytes (List CommandResult) := ∅
  rows : Table Bytes (Job × List CommandResult) := ∅

/-- What `executeJob` comes to. -/
structure Attempt where
  result : CommandResult := {}
  err : Option String := none
deriving DecidableEq

/-- What a run meets. The context is cancelled at a moment: 0 is before it is looked at, 1 is after
that, and `k + 2` is after the start of attempt `k` and before what follows it. The service may
have changed by the time the result is stored, and the database may fail. -/
structure Course where
  cancelAt : ℕ
  outcome : ℕ → Attempt
  later : Jobs
  now : ℤ := 0
  written : Bool := true

/-- A run: the attempts that were started, each with whether the context was cancelled before, the
rows that were written, the service after it, and what it returns. -/
structure Outcome where
  started : List (ℕ × Bool)
  written : List (Job × List CommandResult)
  jobs : Jobs
  result : CommandResult
  err : Option String

/-- The attempt that ends the loop. -/
def lastAttempt (outcome : ℕ → Attempt) : ℕ → ℕ → ℕ
  | 0, k => k
  | retries + 1, k => if (outcome k).err = none then k else lastAttempt outcome retries (k + 1)

/-- The records of a job with one more. -/
def addRecord (records : List CommandResult) (result : CommandResult) : List CommandResult :=
  (records ++ [result]).drop (records.length + 1 - 1000)

namespace Jobs

variable (s : Jobs) (id : Bytes)

def recordsOf : List CommandResult := (s.records.lookup id).getD []

/-- The result of a run in memory. -/
def record (parseDuration : Bytes → Option ℤ) (result : CommandResult) (now : ℤ) : Jobs where
  records := s.records.insert id (addRecord (s.recordsOf id) result)
  items :=
    match s.items.lookup id with
    | some job => s.items.insert id { job with
        lastRunAt := some now
        nextRunAt := (nextCronRun parseDuration job.spec now).or job.nextRunAt }
    | none => s.items
  rows := s.rows

/-- `persistLocked`, with the row that is written. A context that is over stops the statement. -/
def persistLocked (cancelled written : Bool) : Except String (Jobs × List (Job × List CommandResult)) :=
  if cancelled then .error "context canceled"
  else if !written then .error "database error"
  else
  match s.items.lookup id with
  | none => .ok ({ s with rows := s.rows.erase id }, [])
  | some job =>
      let row := (job, s.recordsOf id)
      .ok ({ s with rows := s.rows.insert id row }, [row])

/-- The service after a result that could not be stored. -/
def restored : Jobs := { s with records := s.records.insert id (s.recordsOf id) }

end Jobs

section Run
variable (parseDuration : Bytes → Option ℤ) (s : Jobs) (id : Bytes) (c : Course)

/-- `HandleOnce`. -/
def handleOnce : Outcome :=
  match s.items.lookup id with
  | none => ⟨[], [], s, {}, some "计划任务不存在"⟩
  | some job =>
      if c.cancelAt = 0 then ⟨[], [], s, {}, some "context canceled"⟩
      else
      let last := lastAttempt c.outcome job.retryTimes 0
      let final := c.outcome last
      let started := (List.range (last + 1)).map fun k => (k, decide (c.cancelAt ≤ k + 1))
      let recorded := c.later.record id parseDuration final.result c.now
      match recorded.persistLocked id (c.cancelAt ≤ last + 2) c.written with
      | .error e => ⟨started, [], c.later.restored id, final.result,
          some s!"保存计划任务执行结果失败: {e}"⟩
      | .ok (jobs, rows) =>
          ⟨started, rows, jobs, final.result, if job.ignoreErr then none else final.err⟩

/-- No attempt starts once the context is cancelled, and a run that has started stores one record
behind those of the job: the result of its last attempt. -/
def StopsAndRecords (o : Outcome) : Prop :=
  (∀ attempt ∈ o.started, attempt.2 = false) ∧
    ∀ last ∈ o.started.getLast?, ∃ job,
      o.written = [(job, addRecord (c.later.recordsOf id) (c.outcome last.1).result)]

/-- The context is cancelled before the first attempt, or not before the result is stored; then
the job is still there and the database does its work. -/
def Undisturbed (job : Job) : Prop :=
  c.cancelAt = 0 ∨
    lastAttempt c.outcome job.retryTimes 0 + 2 < c.cancelAt ∧ c.written = true ∧
      (c.later.items.lookup id).isSome = true

end Run

section Proofs
variable {parseDuration : Bytes → Option ℤ} {s : Jobs} {id : Bytes} {c : Course}

/-- What a run writes to the database. -/
theorem persistLocked_record (result : CommandResult) (now : ℤ) (cancelled written : Bool) :
    (∃ jobs job, (s.record id parseDuration result now).persistLocked id cancelled written =
      .ok (jobs, [(job, addRecord (s.recordsOf id) result)])) ↔
        cancelled = false ∧ written = true ∧ (s.items.lookup id).isSome = true := by
  have hrecords : (s.record id parseDuration result now).recordsOf id =
      addRecord (s.recordsOf id) result := by
    simp [Jobs.recordsOf, Jobs.record]
  rw [Jobs.persistLocked]
  cases cancelled with
  | true => simp
  | false =>
      cases written with
      | false => simp
      | true =>
          cases hjob : s.items.lookup id with
          | none =>
              have hnone : (s.record id parseDuration result now).items.lookup id = none := by
                simp only [Jobs.record, hjob]
              simp [hnone]
          | some job =>
              have hsome : ((s.record id parseDuration result now).items.lookup id).isSome = true := by
                simp only [Jobs.record, hjob, AList.lookup_insert, Option.isSome_some]
              obtain ⟨stored, hstored⟩ := Option.isSome_iff_exists.mp hsome
              simp [hstored, hrecords]

/-- The attempts of a run, up to the last one. -/
theorem getLast?_started (last : ℕ) (f : ℕ → Bool) :
    ((List.range (last + 1)).map fun k => (k, f k)).getLast? = some (last, f last) := by
  rw [List.range_succ, List.map_append, List.map_singleton, List.getLast?_concat]

/-- A run of a job stops when it is cancelled and stores its result exactly when it is not
disturbed. -/
theorem handleOnce_stops_and_records_iff (parseDuration : Bytes → Option ℤ) (s : Jobs) (id : Bytes)
    (job : Job) (c : Course) (hjob : s.items.lookup id = some job) :
    StopsAndRecords id c (handleOnce parseDuration s id c) ↔ Undisturbed id c job := by
  rw [handleOnce, hjob]
  dsimp only
  by_cases hearly : c.cancelAt = 0
  · rw [if_pos hearly]
    simp [StopsAndRecords, Undisturbed, hearly]
  rw [if_neg hearly]
  generalize hlast : lastAttempt c.outcome job.retryTimes 0 = last
  have hstored := @persistLocked_record parseDuration c.later id
    (c.outcome last).result c.now (decide (c.cancelAt ≤ last + 2)) c.written
  rw [Undisturbed, hlast, or_iff_right hearly]
  constructor
  · intro h
    cases hpersist : (c.later.record id parseDuration (c.outcome last).result c.now).persistLocked id
        (decide (c.cancelAt ≤ last + 2)) c.written with
    | error e =>
        rw [hpersist] at h
        obtain ⟨stored, hrow⟩ := h.2 _ (getLast?_started ..)
        cases hrow
    | ok pair =>
        rw [hpersist] at h
        obtain ⟨stored, hrow⟩ := h.2 _ (getLast?_started ..)
        have hconds := hstored.mp ⟨pair.1, stored, by rw [hpersist, ← hrow]⟩
        exact ⟨by simpa using hconds.1, hconds.2⟩
  · rintro ⟨hlate, hwritten, hpresent⟩
    obtain ⟨jobs, stored, hpersist⟩ :=
      hstored.mpr ⟨by simpa using hlate, hwritten, hpresent⟩
    rw [hpersist]
    refine ⟨?_, fun attempt hattempt => ?_⟩
    · intro attempt hattempt
      obtain ⟨k, hk, rfl⟩ := List.mem_map.mp hattempt
      have hle := List.mem_range.mp hk
      simp only [decide_eq_false_iff_not, not_le]
      omega
    · rw [getLast?_started] at hattempt
      obtain rfl := Option.some.inj hattempt
      exact ⟨stored, rfl⟩

/-! ## A cancelled run -/

/-- A job that may be tried a second time. -/
def retriedJob : Job := { spec := bytes "* * * * *", retryTimes := 1 }

def oneJob : Jobs where
  items := AList.singleton (bytes "job") retriedJob

/-- Two attempts that fail; the context is cancelled at a given moment. -/
def failingCourse (cancelAt : ℕ) : Course where
  cancelAt := cancelAt
  outcome := fun k => { result := { exitCode := 1, duration := k }, err := some "failed" }
  later := oneJob

theorem handleOnce_records_failure :
    StopsAndRecords (bytes "job") (failingCourse 4)
      (handleOnce (fun _ => none) oneJob (bytes "job") (failingCourse 4)) :=
  (handleOnce_stops_and_records_iff (fun _ => none) oneJob (bytes "job") retriedJob (failingCourse 4)
    (by decide)).mpr (.inr (by decide))

/-- The context is cancelled during the first attempt. A second one is started, and nothing is
stored. -/
theorem handleOnce_not_stopped :
    let o := handleOnce (fun _ => none) oneJob (bytes "job") (failingCourse 2)
    o.started = [(0, false), (1, true)] ∧ o.written = [] ∧
      ¬StopsAndRecords (bytes "job") (failingCourse 2) o := by
  refine ⟨by decide +kernel, by decide +kernel, fun h => ?_⟩
  have hstarted := h.1 (1, true) (by decide +kernel)
  cases hstarted

end Proofs

end WorkMesh.Cron.HandleOnce
