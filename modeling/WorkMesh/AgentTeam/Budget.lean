import WorkMesh.AgentTeam.Identity

/-!
# The resource budget

The server admits a task only while its units fit beside those of the tasks
that are accepted, running or waiting for input. An agent event is not
admission: it may move any open task into one of these statuses.
-/

namespace WorkMesh.AgentTeam

open StateMachine

/-- The units that the tasks of a project occupy. -/
def usedUnits (projectID : String) (tasks : List TeamTask) : Nat :=
  (tasks.map (heldUnits projectID)).sum

/-- An event of the current attempt moves its task into an occupying status. -/
def raisesUnits (projectID : String) (s : TeamState) (event : Fields) : Bool :=
  !eventStale s event && (openTask s projectID (eventTaskID event)).any fun task =>
    (reportedStatus (eventType event) (eventPayload event) task).holdsResources &&
      !task.status.holdsResources

/-- No event of a batch that passes its checks raises the units. -/
def KeepsReservations (env : Env) (now : Instant) (s : TeamState) : Request → Prop
  | .events body =>
      let c := runtimeCredentials body
      match leasedRuntime s now c with
      | some item =>
          (checkTeamEvents s c.projectID (lastAccepted item) (lastAccepted item)
            (bodyList body "events")).isOk = true →
          Meets (ingestTeamEvent env now c.projectID c.runtimeID)
            (fun s event => raisesUnits c.projectID s event = false) s
            (freshEvents (lastAccepted item) (eventObjects (bodyList body "events")))
      | none => True
  | _ => True

instance (env : Env) (now : Instant) (s : TeamState) :
    ∀ request, Decidable (KeepsReservations env now s request)
  | .events body => by
      simp only [KeepsReservations]
      cases leasedRuntime s now (runtimeCredentials body) with
      | some item => exact inferInstanceAs (Decidable (_ → _))
      | none => exact .isTrue trivial
  | .register _ | .heartbeat _ | .unregister _ | .commands .. | .commandAck _ | .runtimeStatus _
  | .taskCreate .. | .taskAction .. | .artifactUpload .. => .isTrue trivial

theorem heldUnits_of_not_holds {task : TeamTask} (h : task.status.holdsResources = false)
    (projectID : String) : heldUnits projectID task = 0 := by
  simp [heldUnits, h]

theorem heldUnits_le (projectID : String) (task : TeamTask) :
    heldUnits projectID task ≤ teamResourceProfileUnits task.resourceProfile := by
  simp only [heldUnits]
  split <;> omega

theorem not_holds_of_waits {status : TaskStatus} (h : status.waits = true) :
    status.holdsResources = false := by
  cases status <;> simp_all [TaskStatus.waits, TaskStatus.holdsResources]

/-- The units of a task do not grow unless it moves into an occupying status. -/
theorem heldUnits_mono {task new : TeamTask} (hassignment : new.assignment = task.assignment)
    (hholds : new.status.holdsResources = true → task.status.holdsResources = true)
    (projectID : String) : heldUnits projectID new ≤ heldUnits projectID task := by
  have hproject : new.projectId = task.projectId := congrArg Assignment.projectId hassignment
  have hprofile : new.resourceProfile = task.resourceProfile :=
    congrArg Assignment.resourceProfile hassignment
  simp only [heldUnits, hproject, hprofile]
  split_ifs with hnew hold
  · exact Nat.le_refl _
  · exact absurd ⟨hnew.1, hholds hnew.2⟩ hold
  · exact Nat.zero_le _
  · exact Nat.le_refl _

section Replace
variable {tasks : List TeamTask} {task new : TeamTask} {projectID : String} {n : Nat}

/-- Rewriting a task without raising its units. -/
theorem usedUnits_replace_le
    (hfind : lookupKey TeamTask.taskId new.taskId tasks = some task)
    (hassignment : new.assignment = task.assignment)
    (hholds : new.status.holdsResources = true → task.status.holdsResources = true)
    (hused : usedUnits projectID tasks ≤ n) :
    usedUnits projectID (replaceKey TeamTask.taskId new tasks) ≤ n := by
  have hsum := sum_replaceKey (heldUnits projectID) hfind
  have hle := heldUnits_mono hassignment hholds projectID
  simp only [usedUnits] at hused ⊢
  omega

/-- Rewriting a task whose units fit beside the others. -/
theorem usedUnits_replace_fits {env : Env} {s : TeamState}
    (hnd : (s.teamTasks.map TeamTask.taskId).Nodup)
    (hfind : lookupKey TeamTask.taskId new.taskId s.teamTasks = some task)
    (hassignment : new.assignment = task.assignment)
    (hfits : teamResourceAvailableLocked env s task.projectId task.resourceProfile task.taskId =
      true)
    (hn : teamResourceBudget env ≤ n) (hused : usedUnits projectID s.teamTasks ≤ n) :
    usedUnits projectID (replaceKey TeamTask.taskId new s.teamTasks) ≤ n := by
  have hsum := sum_replaceKey (heldUnits projectID) hfind
  have hid : new.taskId = task.taskId := congrArg Assignment.taskId hassignment
  have hproject : new.projectId = task.projectId := congrArg Assignment.projectId hassignment
  have hprofile : new.resourceProfile = task.resourceProfile :=
    congrArg Assignment.resourceProfile hassignment
  simp only [usedUnits] at hused ⊢
  by_cases hp : task.projectId = projectID
  · have hothers := sum_filter_key_ne (heldUnits projectID) hnd hfind
    have hheld := heldUnits_le projectID new
    simp only [teamResourceAvailableLocked, decide_eq_true_eq, hp, ← hprofile, ← hid] at hfits
    omega
  · have hheld : heldUnits projectID new = 0 := by simp [heldUnits, hproject, hp]
    omega

end Replace

theorem ne_empty_of_issued {n : Nat} {id : String} (h : Issued n id) : id ≠ "" := by
  obtain ⟨word, now, k, -, rfl⟩ := h
  intro hempty
  have hlength := congrArg String.toList hempty
  simp [teamNewID] at hlength

/-- A new task, which has no identifier yet, fits beside all that are stored. -/
theorem available_of_new (env : Env) {s : TeamState} (hs : WellFormed s) {projectID : String}
    {profile : ResourceProfile} :
    teamResourceAvailableLocked env s projectID profile "" = true ↔
      usedUnits projectID s.teamTasks + teamResourceProfileUnits profile ≤
        teamResourceBudget env := by
  have hall : (s.teamTasks.filter fun task => task.taskId ≠ "") = s.teamTasks := by
    rw [List.filter_eq_self]
    intro task hmem
    simpa using ne_empty_of_issued (hs.issued hmem)
  simp only [teamResourceAvailableLocked, decide_eq_true_eq, hall, usedUnits]

section Step
variable {env : Env} {now : Instant} {projectID : String} {n : Nat}

/-- The distinct tasks of a list use at most `n` units. -/
def WithinUnits (projectID : String) (n : Nat) (tasks : List TeamTask) : Prop :=
  (tasks.map TeamTask.taskId).Nodup ∧ usedUnits projectID tasks ≤ n

theorem WithinUnits.schedule (hn : teamResourceBudget env ≤ n) {s t : TeamState} {p : String}
    {i : Nat} {task : TeamTask} (hs : WithinUnits projectID n s.teamTasks)
    (hget : s.teamTasks[i]? = some task) (hp : task.projectId = p)
    (hmove : Scheduled env now p s i task t) :
    WithinUnits projectID n t.teamTasks := by
  obtain ⟨hnd, hused⟩ := hs
  have hfind := lookupKey_of_mem hnd (List.mem_of_getElem? hget)
  have hset : ∀ status, s.teamTasks.set i (scheduledTask now task status) =
      replaceKey TeamTask.taskId (scheduledTask now task status) s.teamTasks :=
    fun status => set_eq_replaceKey hnd hget rfl
  cases hmove with
  | waitsForUnits =>
      simp only [storeScheduled, appendTeamEventLocked_teamTasks, hset]
      exact ⟨by simpa using hnd, usedUnits_replace_le hfind rfl (by simp [scheduledTask,
        TaskStatus.holdsResources]) hused⟩
  | accepted typ payload hdeps hfits =>
      simp only [storeScheduled, enqueueTeamCommandLocked_teamTasks,
        appendTeamEventLocked_teamTasks, hset]
      exact ⟨by simpa using hnd, usedUnits_replace_fits hnd hfind rfl (hp ▸ hfits) hn hused⟩
  | blocked =>
      simp only [storeScheduled, appendTeamEventLocked_teamTasks, hset]
      exact ⟨by simpa using hnd, usedUnits_replace_le hfind rfl (by simp [scheduledTask,
        TaskStatus.holdsResources]) hused⟩

theorem WithinUnits.activate (hn : teamResourceBudget env ≤ n) {s : TeamState} {p : String}
    (hs : WithinUnits projectID n s.teamTasks) :
    WithinUnits projectID n (activateReadyTeamTasksLocked env s now p).teamTasks :=
  activateReady_preserves (P := fun t : TeamState => WithinUnits projectID n t.teamTasks)
    (fun _ _ _ _ hs hget hp _ hmove => hs.schedule hn hget hp hmove) hs

/-- An event that raises no units keeps the bound. -/
theorem WithinUnits.ingest (hn : teamResourceBudget env ≤ n) {s : TeamState} {p r : String}
    {event : Fields} (hs : WithinUnits projectID n s.teamTasks)
    (hkeep : raisesUnits p s event = false) :
    WithinUnits projectID n (ingestTeamEvent env now p r s event).teamTasks := by
  have hwrite : ∀ task new, eventStale s event = false →
      openTask s p (eventTaskID event) = some task →
      AgentWrite (eventType event) (eventPayload event) task new →
      WithinUnits projectID n (replaceKey TeamTask.taskId new s.teamTasks) := by
    intro task new hfresh hopen hw
    have hfind := lookupKey_of_find (openTask_some hopen).1
      (congrArg Assignment.taskId hw.assignment)
    refine ⟨by simpa using hs.1, usedUnits_replace_le hfind hw.assignment ?_ hs.2⟩
    simpa [raisesUnits, hfresh, hopen, ← hw.status] using hkeep
  have hcases := ingestTeamEvent_ingested env now p r s event
  generalize ingestTeamEvent env now p r s event = t at hcases ⊢
  cases hcases with
  | logged => exact hs
  | woken => exact WithinUnits.activate hn hs
  | written task new hfresh hopen hw => exact hwrite task new hfresh hopen hw
  | ended task new hfresh hopen hw => exact WithinUnits.activate hn (hwrite task new hfresh hopen hw)

/-- A user action raises the units of its task only by a retry that fits. -/
theorem usedUnits_acted {s : TeamState} {id : String} {task : TeamTask} {action : TaskAction}
    {body : Fields} (hnd : (s.teamTasks.map TeamTask.taskId).Nodup)
    (hn : teamResourceBudget env ≤ n) (hfind : findTeamTaskLocked s id = some task)
    (hused : usedUnits projectID s.teamTasks ≤ n) :
    usedUnits projectID (replaceKey TeamTask.taskId
      (actedTask env (prepareTaskAction s now task action) now task body action)
      s.teamTasks) ≤ n := by
  have hassignment := actedTask_assignment env (prepareTaskAction s now task action) now task body
    action
  have hfind := lookupKey_of_find hfind (congrArg Assignment.taskId hassignment)
  cases action with
  | retry =>
      by_cases haccepted :
          retryStatus env (prepareTaskAction s now task .retry) task = .accepted
      · have hfits := (retryStatus_accepted haccepted).2
        simp only [teamResourceAvailableLocked, prepareTaskAction_teamTasks] at hfits
        exact usedUnits_replace_fits hnd hfind hassignment hfits hn hused
      · refine usedUnits_replace_le hfind hassignment ?_ hused
        intro hholds
        exact absurd (retryStatus_of_holds hholds) haccepted
  | input => exact usedUnits_replace_le hfind hassignment (fun h => h) hused
  | approve => exact usedUnits_replace_le hfind hassignment (fun h => h) hused
  | cancel => exact usedUnits_replace_le hfind hassignment (fun h => by cases h) hused
  | complete => exact usedUnits_replace_le hfind hassignment (fun h => by cases h) hused
  | reject => exact usedUnits_replace_le hfind hassignment (fun h => by cases h) hused

/-- A new task is admitted only while its units fit beside all others. -/
theorem withinUnits_concat {s : TeamState} (hs : WellFormed s) (hn : teamResourceBudget env ≤ n)
    (hused : usedUnits projectID s.teamTasks ≤ n) {project : String} {spec : TaskSpec} :
    WithinUnits projectID n (s.teamTasks ++ [newTeamTask env s now project spec]) := by
  refine ⟨?_, ?_⟩
  · rw [List.map_append, List.map_singleton]
    refine List.Nodup.append hs.taskIds (List.nodup_singleton _) ?_
    intro id hmem hid
    obtain ⟨task, htask, rfl⟩ := List.mem_map.mp hmem
    exact (hs.issued htask).ne_teamNewID (Nat.lt_succ_self _) (List.mem_singleton.mp hid)
  · simp only [usedUnits, List.map_append, List.map_singleton, List.sum_append,
      List.sum_singleton] at hused ⊢
    by_cases hholds : (newTeamTask env s now project spec).status.holdsResources = true
    · have hfits := (initialTaskStatus_accepted (initialTaskStatus_of_holds hholds)).2
      simp only [available_of_new env hs, usedUnits] at hfits
      by_cases hp : project = projectID
      · have hheld := heldUnits_le projectID (newTeamTask env s now project spec)
        simp only [newTeamTask, ← hp] at hheld hfits ⊢
        omega
      · have hheld : heldUnits projectID (newTeamTask env s now project spec) = 0 := by
          simp [heldUnits, newTeamTask, hp]
        omega
    · rw [heldUnits_of_not_holds (by simpa using hholds)]
      simpa using hused

/-- A request raises the units in use at most to the budget. -/
theorem Effect.withinUnits {s t : TeamState} {request : Request} {response : Response}
    (h : Effect env now s request t response) (hs : WellFormed s)
    (hkeep : response.isOk = true → KeepsReservations env now s request)
    (hn : teamResourceBudget env ≤ n)
    (hused : usedUnits projectID s.teamTasks ≤ n) : usedUnits projectID t.teamTasks ≤ n := by
  have hnd := hs.taskIds
  refine (h.tasks_of_batch (P := WithinUnits projectID n) ⟨hnd, hused⟩ ?_ ?_ ?_ ?_ ?_).2
  · intro s p i task t hs hget hp _ hmove
    exact hs.schedule hn hget hp hmove
  · rintro body item expected rfl hok hleased hchecked
    have hkeep := hkeep hok
    simp only [KeepsReservations, hleased] at hkeep
    exact run_invariant (P := fun s : TeamState => WithinUnits projectID n s.teamTasks)
      (fun s event hs hkeep => hs.ingest hn hkeep) ⟨hnd, hused⟩ (hkeep (by rw [hchecked]; rfl))
  · intro task new hfind hassignment hprogress
    have hstatus : new.status = task.status := congrArg Progress.status hprogress
    exact ⟨by simpa using hnd, usedUnits_replace_le hfind hassignment (by simp [hstatus]) hused⟩
  · intro task path action body _ hfind _ _
    exact ⟨by simpa using hnd, usedUnits_acted hnd hn hfind hused⟩
  · intro project spec _ _ _
    exact withinUnits_concat hs hn hused

/-- A task that is accepted would fit an idle project. -/
def AcceptedFit (env : Env) (tasks : List TeamTask) : Prop :=
  ∀ task ∈ tasks, task.status = .accepted →
    teamResourceProfileUnits task.resourceProfile ≤ teamResourceBudget env

theorem le_of_available {s : TeamState} {p : String} {profile : ResourceProfile} {id : String}
    (h : teamResourceAvailableLocked env s p profile id = true) :
    teamResourceProfileUnits profile ≤ teamResourceBudget env := by
  simp only [teamResourceAvailableLocked, decide_eq_true_eq] at h
  omega

theorem AcceptedFit.replace {tasks : List TeamTask} {new : TeamTask}
    (h : AcceptedFit env tasks) (hnew : new.status = .accepted →
      teamResourceProfileUnits new.resourceProfile ≤ teamResourceBudget env) :
    AcceptedFit env (replaceKey TeamTask.taskId new tasks) := by
  intro task hmem haccepted
  rcases mem_replaceKey hmem with rfl | hmem
  · exact hnew haccepted
  · exact h task hmem haccepted

theorem Effect.acceptedFit {s t : TeamState} {request : Request} {response : Response}
    (h : Effect env now s request t response) (hs : AcceptedFit env s.teamTasks) :
    AcceptedFit env t.teamTasks := by
  apply h.tasks hs
  · intro s p i task t hs _ _ _ hmove new hmem haccepted
    obtain ⟨status, -, hadmitted, htasks⟩ := hmove.teamTasks
    rw [htasks] at hmem
    rcases List.mem_or_eq_of_mem_set hmem with hmem | rfl
    · exact hs new hmem haccepted
    · exact le_of_available (hadmitted haccepted).2
  · intro s p id typ payload task new hs hopen hwrite
    refine hs.replace fun haccepted => ?_
    rw [hwrite.status] at haccepted
    have hstatus := reportedStatus_of_unstarted (by rw [haccepted]; rfl)
    have hprofile : new.resourceProfile = task.resourceProfile :=
      congrArg Assignment.resourceProfile hwrite.assignment
    rw [hprofile]
    exact hs task (findTeamTaskLocked_some (openTask_some hopen).1).1 (hstatus ▸ haccepted)
  · intro task new hfind hassignment hprogress
    refine hs.replace fun haccepted => ?_
    have hprofile : new.resourceProfile = task.resourceProfile :=
      congrArg Assignment.resourceProfile hassignment
    have hstatus : new.status = task.status := congrArg Progress.status hprogress
    rw [hprofile]
    exact hs task (lookupKey_some hfind).1 (hstatus ▸ haccepted)
  · intro task path action body _ hfind _ _
    have hmem := (findTeamTaskLocked_some hfind).1
    refine hs.replace fun haccepted => ?_
    cases action with
    | retry => exact le_of_available (retryStatus_accepted haccepted).2
    | input => exact hs task hmem haccepted
    | approve => exact hs task hmem haccepted
    | _ => cases haccepted
  · intro project spec _ _ _ task hmem haccepted
    rcases List.mem_append.mp hmem with hmem | hmem
    · exact hs task hmem haccepted
    · obtain rfl := List.mem_singleton.mp hmem
      exact le_of_available (initialTaskStatus_accepted haccepted).2

end Step

/-- No stored event raises the units. -/
def KeepsUnits (env : Env) (w : World) (i : Input) : Prop :=
  i.failure = none → KeepsReservations env (next env w i).now w.team i.request

instance (env : Env) (w : World) (i : Input) : Decidable (KeepsUnits env w i) :=
  inferInstanceAs (Decidable (_ → _))

theorem next_withinUnits {env : Env} {w : World} {i : Input} {projectID : String} {n : Nat}
    (hw : WellFormed w.team) (hkeep : KeepsUnits env w i) (hn : teamResourceBudget env ≤ n)
    (hused : usedUnits projectID w.team.teamTasks ≤ n) :
    usedUnits projectID (next env w i).team.teamTasks ≤ n :=
  (next_keeps (P := fun s : TeamState => WellFormed s ∧ usedUnits projectID s.teamTasks ≤ n)
    (C := fun now s request _ => KeepsReservations env now s request)
    (fun heffect hs hkeep =>
      ⟨heffect.wellFormed hs.1, heffect.withinUnits hs.1 hkeep hn hs.2⟩) ⟨hw, hused⟩ hkeep).2

/-- The server's own decisions keep a project within its budget. Only an agent
event that moves a task into an occupying status can take it beyond, and every
accepted task fits the budget by itself. -/
theorem reserved_units_bounded (env : Env) (now : Instant) (inputs : List Input)
    (h : Meets (next env) (KeepsUnits env) (.start now) inputs) :
    (∀ projectID, usedUnits projectID (reached env now inputs).team.teamTasks ≤
        teamResourceBudget env) ∧
      (∀ earlier i, KeepsUnits env (reached env now earlier) i → ∀ projectID,
        usedUnits projectID (next env (reached env now earlier) i).team.teamTasks ≤
          max (usedUnits projectID (reached env now earlier).team.teamTasks)
            (teamResourceBudget env)) ∧
      ∀ earlier, ∀ task ∈ (reached env now earlier).team.teamTasks, task.status = .accepted →
        teamResourceProfileUnits task.resourceProfile ≤ teamResourceBudget env := by
  refine ⟨fun projectID => ?_, fun earlier i hkeep projectID => ?_, fun earlier => ?_⟩
  · refine (run_invariant (P := fun w : World => WellFormed w.team ∧
      usedUnits projectID w.team.teamTasks ≤ teamResourceBudget env) ?_
      ⟨wellFormed_empty, Nat.zero_le _⟩ h).2
    intro w i hw hkeep
    exact ⟨next_wellFormed hw.1, next_withinUnits hw.1 hkeep (Nat.le_refl _) hw.2⟩
  · exact next_withinUnits (reached_wellFormed env now earlier) hkeep
      (Nat.le_max_right _ _) (Nat.le_max_left _ _)
  · exact run_preserves (P := fun w : World => AcceptedFit env w.team.teamTasks)
      (fun w i hw => (next_effect env w i).acceptedFit hw)
      (by intro task hmem; cases hmem) earlier

/-- Two large tasks, the second of which the agent starts while it waits for units. -/
def startedWhileWaiting : List Input :=
  [.after 0 (createRequest "p" "large" []), .after 1 (createRequest "p" "large" []),
    .after 1 (registerRequest "p" "a"),
    .after 1 (eventRequest "p" "a" (teamNewID "fence" (2 * 10 ^ 9) 5) 1 "task.started"
      (teamNewID "task" (10 ^ 9) 3) 1)]

theorem reserved_units_exceeded :
    ¬usedUnits "p" (reached .default 0 startedWhileWaiting).team.teamTasks ≤
      teamResourceBudget .default := by
  decide +kernel

/-- The same run with the event on the accepted task. -/
theorem reserved_units_bounded_started :
    usedUnits "p" (reached .default 0 (startedWhileWaiting.take 3 ++
      [.after 1 (eventRequest "p" "a" (teamNewID "fence" (2 * 10 ^ 9) 5) 1 "task.started"
        (teamNewID "task" 0 1) 1)])).team.teamTasks ≤ teamResourceBudget .default :=
  (reserved_units_bounded .default 0 _ (by decide +kernel)).1 "p"

end WorkMesh.AgentTeam
