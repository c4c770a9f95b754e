import WorkMesh.StateMachine.Handlers
import WorkMesh.StateMachine.Table

/-!
# Running cron jobs and stopping them

Each run of a job gets a context of its own. One table entry for each job holds
the cancel function of a run; the run that ends deletes the entry. Stopping a
job reads the entry in a critical section and calls the function after it.
-/

namespace WorkMesh.Cron

open StateMachine

structure Cronjob where
  id : String
  status : String
  spec : String
deriving DecidableEq

/-- A run that `runScheduled` started: whether `HandleOnce` has returned, whether its goroutine
has ended, and whether its context was cancelled. -/
structure Instance where
  job : String
  returned : Bool := false
  left : Bool := false
  cancelled : Bool := false
deriving DecidableEq

/-- The part of `CronjobService` that runs use, with the runs by number. Under `owed` stand
the runs that a call of `Stop` that has ended found unfinished. -/
structure CronjobService where
  items : Table String Cronjob := ∅
  lastTick : Table String String := ∅
  running : Table String ℕ := ∅
  instances : List Instance := []
  owed : List ℕ := []

/-- A call of `Stop` that holds a cancel function, and the runs it found unfinished. -/
structure StopCall where
  target : ℕ
  unfinished : List ℕ

inductive Request where
  | configure (items : Table String Cronjob)
  | start (id tick : String)
  | returned (i : ℕ)
  | leaves (i : ℕ)
  | stop (id : String)

namespace CronjobService

variable (s : CronjobService)

/-- The pass of `runScheduled` starts a run. -/
def starts (id tick : String) : Bool :=
  match s.items.lookup id with
  | some job => job.status == "enabled" && s.lastTick.lookup id != some tick
  | none => false

/-- One pass of the loop of `runScheduled`. -/
def schedule (id tick : String) : CronjobService :=
  if s.starts id tick then
    { s with lastTick := s.lastTick.insert id tick,
             running := s.running.insert id s.instances.length,
             instances := s.instances ++ [{ job := id }] }
  else s

/-- The deferred function of a run. -/
def leave (i : ℕ) : CronjobService :=
  match s.instances[i]? with
  | some run =>
      if run.returned && !run.left then
        { s with running := s.running.erase run.job,
                 instances := s.instances.set i { run with left := true } }
      else s
  | none => s

/-- `HandleOnce` of a run returns. -/
def finish (i : ℕ) : CronjobService :=
  match s.instances[i]? with
  | some run => { s with instances := s.instances.set i { run with returned := true } }
  | none => s

def cancel (i : ℕ) : CronjobService :=
  match s.instances[i]? with
  | some run => { s with instances := s.instances.set i { run with cancelled := true } }
  | none => s

/-- The runs of a job that have not finished. -/
def unfinished (id : String) : List ℕ :=
  (List.range s.instances.length).filter fun i =>
    match s.instances[i]? with
    | some run => run.job == id && !run.returned
    | none => false

/-- The critical section of `Stop`. Without an entry it ends with an error. -/
def stop (id : String) : CronjobService × Option StopCall :=
  match s.running.lookup id with
  | some target => (s, some ⟨target, s.unfinished id⟩)
  | none => ({ s with owed := s.unfinished id ++ s.owed }, none)

def arrive : Request → CronjobService × Option StopCall
  | .configure items => ({ s with items }, none)
  | .start id tick => (s.schedule id tick, none)
  | .returned i => (s.finish i, none)
  | .leaves i => (s.leave i, none)
  | .stop id => s.stop id

/-- `Stop` calls the cancel function that it read. -/
def resume (call : StopCall) : CronjobService :=
  let s := s.cancel call.target
  { s with owed := call.unfinished ++ s.owed }

end CronjobService

abbrev System := Concurrent CronjobService StopCall

abbrev Step := Turn Request Unit

def sections : Sections CronjobService StopCall Request Unit :=
  ⟨CronjobService.arrive, fun s call _ => (s.resume call, none)⟩

def System.step : System → Step → System := sections.step

/-- Every run that a call of `Stop` found unfinished is cancelled when the call ends. -/
def StopReaches (c : System) : Prop :=
  ∀ i ∈ c.shared.owed, ∃ run, c.shared.instances[i]? = some run ∧ run.cancelled = true

/-- A run starts only when those of its job have ended. -/
def Alone (c : System) : Step → Prop
  | .arrive (.start id tick) => c.shared.starts id tick = true →
      ∀ run ∈ c.shared.instances, run.job = id → run.left = true
  | _ => True

/-! ## The invariant -/

/-- The entry of a job is that of its run, and what ended calls owe is done. -/
structure Tracked (s : CronjobService) : Prop where
  entry : ∀ (i : ℕ) (run : Instance), s.instances[i]? = some run → run.left = false →
    s.running.lookup run.job = some i
  valid : ∀ id i, s.running.lookup id = some i → i < s.instances.length
  ordered : ∀ (i : ℕ) (run : Instance), s.instances[i]? = some run → run.left = true →
    run.returned = true
  cancelled : ∀ i ∈ s.owed, ∃ run, s.instances[i]? = some run ∧ run.cancelled = true

/-- A call will cancel all the runs that it found. -/
def Reaches (s : CronjobService) (call : StopCall) : Prop :=
  call.target < s.instances.length ∧ ∀ i ∈ call.unfinished, i = call.target

section Updates
variable {s : CronjobService} {i : ℕ} {run run' : Instance}

theorem cancelled_set (h : ∀ i ∈ s.owed, ∃ run, s.instances[i]? = some run ∧ run.cancelled = true)
    (hrun : s.instances[i]? = some run) (hcancelled : run.cancelled = true → run'.cancelled = true) :
    ∀ j ∈ s.owed, ∃ other, (s.instances.set i run')[j]? = some other ∧ other.cancelled = true := by
  intro j hj
  obtain ⟨other, hother, hdone⟩ := h j hj
  by_cases hij : i = j
  · subst hij
    obtain rfl := Option.some.inj (hrun.symm.trans hother)
    exact ⟨run', by simp [(List.getElem?_eq_some_iff.mp hrun).1], hcancelled hdone⟩
  · exact ⟨other, by rwa [List.getElem?_set_ne hij], hdone⟩

/-- A run of the list after one of them changed. -/
theorem getElem?_set_some {l : List Instance} {j : ℕ} {other : Instance}
    (h : (l.set i run')[j]? = some other) : j = i ∧ other = run' ∨ j ≠ i ∧ l[j]? = some other := by
  rw [List.getElem?_set] at h
  split at h
  · rename_i hij
    split at h
    · exact .inl ⟨hij.symm, (Option.some.inj h).symm⟩
    · cases h
  · rename_i hij
    exact .inr ⟨fun heq => hij heq.symm, h⟩

/-- A change of one run that keeps its job and what was cancelled. -/
theorem Tracked.set (h : Tracked s) (hrun : s.instances[i]? = some run)
    (hjob : run'.job = run.job) (hleft : run'.left = run.left)
    (hordered : run.returned = true → run'.returned = true)
    (hcancelled : run.cancelled = true → run'.cancelled = true) :
    Tracked { s with instances := s.instances.set i run' } where
  entry := by
    intro j other hother hopen
    obtain ⟨rfl, rfl⟩ | ⟨-, hother⟩ := getElem?_set_some hother
    · rw [hjob]
      exact h.entry j run hrun (hleft ▸ hopen)
    · exact h.entry j other hother hopen
  valid := by simpa using h.valid
  ordered := by
    intro j other hother hgone
    obtain ⟨rfl, rfl⟩ | ⟨-, hother⟩ := getElem?_set_some hother
    · exact hordered (h.ordered j run hrun (hleft ▸ hgone))
    · exact h.ordered j other hother hgone
  cancelled := cancelled_set h.cancelled hrun hcancelled

theorem Tracked.finish (h : Tracked s) (i : ℕ) : Tracked (s.finish i) := by
  rw [CronjobService.finish]
  split
  · rename_i run hrun
    exact h.set hrun rfl rfl (fun _ => rfl) id
  · exact h

theorem Tracked.cancel (h : Tracked s) (i : ℕ) : Tracked (s.cancel i) := by
  rw [CronjobService.cancel]
  split
  · rename_i run hrun
    exact h.set hrun rfl rfl id (fun _ => rfl)
  · exact h

/-- Runs of one job that have not left are the same. -/
theorem Tracked.unique (h : Tracked s) {j : ℕ} {other : Instance}
    (hrun : s.instances[i]? = some run) (hopen : run.left = false)
    (hother : s.instances[j]? = some other) (hopen' : other.left = false)
    (hjob : other.job = run.job) : j = i := by
  have hentry := h.entry j other hother hopen'
  rw [hjob, h.entry i run hrun hopen] at hentry
  exact (Option.some.inj hentry).symm

theorem Tracked.leave (h : Tracked s) (i : ℕ) : Tracked (s.leave i) := by
  rw [CronjobService.leave]
  split
  · rename_i run hrun
    split
    · rename_i hleaves
      simp only [Bool.and_eq_true, Bool.not_eq_true'] at hleaves
      constructor
      · intro j other hother hopen
        obtain ⟨-, rfl⟩ | ⟨hne, hother⟩ := getElem?_set_some hother
        · cases hopen
        · have hjob : other.job ≠ run.job := fun hjob =>
            hne (h.unique hrun hleaves.2 hother hopen hjob)
          rw [Table.lookup_erase, if_neg hjob]
          exact h.entry j other hother hopen
      · intro id j hj
        rw [Table.lookup_erase] at hj
        split at hj
        · cases hj
        · simpa using h.valid id j hj
      · intro j other hother hgone
        obtain ⟨rfl, rfl⟩ | ⟨-, hother⟩ := getElem?_set_some hother
        · exact hleaves.1
        · exact h.ordered j other hother hgone
      · exact cancelled_set h.cancelled hrun id
    · exact h
  · exact h

theorem Tracked.schedule (h : Tracked s) {id tick : String}
    (halone : s.starts id tick = true → ∀ run ∈ s.instances, run.job = id → run.left = true) :
    Tracked (s.schedule id tick) := by
  rw [CronjobService.schedule]
  split
  · rename_i hstarts
    have hsplit : ∀ {j : ℕ} {other : Instance},
        (s.instances ++ [{ job := id }])[j]? = some other →
          s.instances[j]? = some other ∨ j = s.instances.length ∧ other = { job := id } := by
      intro j other hother
      rw [List.getElem?_append] at hother
      split at hother
      · exact .inl hother
      · have hlast := List.getElem?_eq_some_iff.mp hother
        simp only [List.length_singleton] at hlast
        obtain ⟨hlt, hvalue⟩ := hlast
        exact .inr ⟨by omega, by simpa using hvalue.symm⟩
    constructor
    · intro j other hother hopen
      rw [Table.lookup_insert]
      cases hsplit hother with
      | inl hold =>
          have hjob : other.job ≠ id := fun hjob => by
            rw [halone hstarts other (List.mem_of_getElem? hold) hjob] at hopen
            cases hopen
          rw [if_neg hjob]
          exact h.entry j other hold hopen
      | inr hnew =>
          obtain ⟨rfl, rfl⟩ := hnew
          rw [if_pos rfl]
    · intro other j hj
      rw [Table.lookup_insert] at hj
      rw [List.length_append, List.length_singleton]
      split at hj
      · rw [← Option.some.inj hj]
        omega
      · exact (h.valid other j hj).trans (Nat.lt_succ_self _)
    · intro j other hother hgone
      cases hsplit hother with
      | inl hold => exact h.ordered j other hold hgone
      | inr hnew =>
          obtain ⟨-, rfl⟩ := hnew
          cases hgone
    · intro j hj
      obtain ⟨other, hother, hdone⟩ := h.cancelled j hj
      exact ⟨other, by rw [List.getElem?_append_left (List.getElem?_eq_some_iff.mp hother).1, hother],
        hdone⟩
  · exact h

theorem mem_unfinished {id : String} (h : i ∈ s.unfinished id) :
    ∃ run, s.instances[i]? = some run ∧ run.job = id ∧ run.returned = false := by
  obtain ⟨-, hrun⟩ := List.mem_filter.mp h
  split at hrun
  · rename_i run hget
    simp only [Bool.and_eq_true, beq_iff_eq, Bool.not_eq_true'] at hrun
    exact ⟨run, hget, hrun.1, hrun.2⟩
  · cases hrun

/-- The entry of a job is its unfinished run. -/
theorem Tracked.unfinished (h : Tracked s) {id : String} (hmem : i ∈ s.unfinished id) :
    s.running.lookup id = some i := by
  obtain ⟨run, hrun, rfl, hworks⟩ := mem_unfinished hmem
  refine h.entry i run hrun ?_
  by_contra hleft
  rw [h.ordered i run hrun (by simpa using hleft)] at hworks
  cases hworks

theorem Tracked.stop (h : Tracked s) (id : String) :
    Tracked (s.stop id).1 ∧ ∀ call, (s.stop id).2 = some call → Reaches s call := by
  rw [CronjobService.stop]
  cases hentry : s.running.lookup id with
  | some target =>
      refine ⟨h, fun call hcall => ?_⟩
      obtain rfl := Option.some.inj hcall
      refine ⟨h.valid id target hentry, fun i hi => ?_⟩
      exact Option.some.inj ((h.unfinished hi).symm.trans hentry)
  | none =>
      have hnone : s.unfinished id = [] := by
        rw [List.eq_nil_iff_forall_not_mem]
        intro i hi
        rw [h.unfinished hi] at hentry
        cases hentry
      refine ⟨?_, fun call hcall => by cases hcall⟩
      rw [hnone]
      exact h

theorem Tracked.resume (h : Tracked s) {call : StopCall} (hreaches : Reaches s call) :
    Tracked (s.resume call) := by
  have hcancel := h.cancel call.target
  refine ⟨hcancel.entry, hcancel.valid, hcancel.ordered, fun i hi => ?_⟩
  cases List.mem_append.mp hi with
  | inl hfound =>
      obtain rfl := hreaches.2 i hfound
      have hget := List.getElem?_eq_getElem hreaches.1
      refine ⟨{ s.instances.get ⟨call.target, hreaches.1⟩ with cancelled := true }, ?_, rfl⟩
      simp only [CronjobService.resume, CronjobService.cancel, hget]
      simp [hreaches.1]
  | inr hold =>
      have howed : (s.cancel call.target).owed = s.owed := by
        rw [CronjobService.cancel]
        split <;> rfl
      exact hcancel.cancelled i (howed ▸ hold)

end Updates

/-! ## Runs -/

theorem length_arrive (s : CronjobService) (request : Request) :
    s.instances.length ≤ (s.arrive request).1.instances.length := by
  cases request with
  | configure items => exact le_rfl
  | start id tick =>
      simp only [CronjobService.arrive, CronjobService.schedule]
      split <;> simp
  | returned i =>
      simp only [CronjobService.arrive, CronjobService.finish]
      split <;> simp
  | leaves i =>
      simp only [CronjobService.arrive, CronjobService.leave]
      split
      · split <;> simp
      · exact le_rfl
  | stop id =>
      simp only [CronjobService.arrive, CronjobService.stop]
      split <;> exact le_rfl

theorem length_resume (s : CronjobService) (call : StopCall) :
    s.instances.length ≤ (s.resume call).instances.length := by
  simp only [CronjobService.resume, CronjobService.cancel]
  split <;> simp

theorem Reaches.mono {s s' : CronjobService} {call : StopCall} (h : Reaches s call)
    (hlength : s.instances.length ≤ s'.instances.length) : Reaches s' call :=
  ⟨h.1.trans_le hlength, h.2⟩

theorem tracked_arrive {c : System} (h : Holds Tracked Reaches c) {request : Request}
    (halone : Alone c (.arrive request)) :
    Tracked (c.shared.arrive request).1 ∧
      ∀ call, (c.shared.arrive request).2 = some call →
        Reaches (c.shared.arrive request).1 call := by
  cases request with
  | configure items =>
      have hs := h.shared
      exact ⟨⟨hs.entry, hs.valid, hs.ordered, hs.cancelled⟩, fun call hcall => by cases hcall⟩
  | start id tick => exact ⟨h.shared.schedule halone, fun call hcall => by cases hcall⟩
  | returned i => exact ⟨h.shared.finish i, fun call hcall => by cases hcall⟩
  | leaves i => exact ⟨h.shared.leave i, fun call hcall => by cases hcall⟩
  | stop id =>
      obtain ⟨htracked, hreaches⟩ := h.shared.stop id
      exact ⟨htracked, fun call hcall => (hreaches call hcall).mono (length_arrive _ (.stop id))⟩

theorem holds_step {c : System} {turn : Step} (h : Holds Tracked Reaches c) (halone : Alone c turn) :
    Holds Tracked Reaches (c.step turn) := by
  refine h.step (fun request hturn => ?_) (fun i outcome call hturn hmem hget => ?_)
  · subst hturn
    obtain ⟨htracked, hnext⟩ := tracked_arrive h halone
    exact ⟨htracked, hnext, fun other _ hother => hother.mono (length_arrive _ request)⟩
  · refine ⟨h.shared.resume (h.waiting call hmem), fun next hnext => ?_, fun other _ hother => ?_⟩
    · cases hnext
    · exact hother.mono (length_resume _ call)

theorem holds_start (items : Table String Cronjob) :
    Holds Tracked Reaches ⟨{ items }, []⟩ where
  shared := by
    refine ⟨?_, ?_, ?_, ?_⟩ <;> simp
  waiting := by simp

/-- In every run in which no job starts while a run of it goes on, each call of `Stop` cancels
all the unfinished runs of its job. -/
theorem stop_reaches (items : Table String Cronjob) (turns : List Step)
    (halone : Meets System.step Alone ⟨{ items }, []⟩ turns) :
    StopReaches (run System.step ⟨{ items }, []⟩ turns) :=
  (run_invariant (P := Holds Tracked Reaches) (fun _ _ h halone => holds_step h halone)
    (holds_start items) halone).shared.cancelled

/-- A job that is due every minute. -/
def everyMinute : Table String Cronjob := AList.singleton "job" ⟨"job", "enabled", "* * * * *"⟩

/-- The first run of the job, which is stopped. -/
def stoppedRun : List Step :=
  [.arrive (.start "job" "2026-01-01T00:01:00Z"), .arrive (.stop "job"), .resume 0 ()]

theorem stop_reaches_first :
    StopReaches (run System.step ⟨{ items := everyMinute }, []⟩ stoppedRun) :=
  stop_reaches everyMinute stoppedRun (by
    refine ⟨fun _ run hrun => ?_, trivial, trivial, trivial⟩
    cases hrun)

/-- The first run is still going on when the second one starts, and the second ends first. -/
def overlappingRuns : List Step :=
  [.arrive (.start "job" "2026-01-01T00:01:00Z"), .arrive (.start "job" "2026-01-01T00:02:00Z"),
    .arrive (.returned 1), .arrive (.leaves 1), .arrive (.stop "job")]

theorem stop_misses_overlap :
    ¬StopReaches (run System.step ⟨{ items := everyMinute }, []⟩ overlappingRuns) := by
  intro h
  obtain ⟨run, hrun, hcancelled⟩ := h 0 (by decide +kernel)
  have hfirst : (StateMachine.run System.step ⟨{ items := everyMinute }, []⟩
      overlappingRuns).shared.instances[0]? = some { job := "job" } := by decide +kernel
  rw [hfirst] at hrun
  rw [← Option.some.inj hrun] at hcancelled
  cases hcancelled

end WorkMesh.Cron
