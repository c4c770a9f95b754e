import WorkMesh.AgentTeam.Readiness

/-!
# The scheduler is at rest between requests

Every request but a retry either runs the activation loop after it has freed
units or ended a task, or frees no units and ends no task. A retry may do both
without running the loop; `RetryKeepsSchedule` says when it does no harm.
-/

namespace WorkMesh.AgentTeam

open StateMachine

/-- No task is movable. -/
def Settled (env : Env) (tasks : List TeamTask) : Prop := ∀ task ∈ tasks, ¬Movable env tasks task

/-- No task of another project is movable. -/
def SettledOutside (env : Env) (projectID : String) (tasks : List TeamTask) : Prop :=
  ∀ task ∈ tasks, task.projectId ≠ projectID → ¬Movable env tasks task

theorem Settled.outside {env : Env} {tasks : List TeamTask} (h : Settled env tasks)
    (projectID : String) : SettledOutside env projectID tasks := fun task hmem _ => h task hmem

/-- A task stays unmovable while its dependency status stays or waits and the
units left do not grow enough for it. -/
theorem not_movable_of_later {env : Env} {tasks tasks' : List TeamTask} {task : TeamTask}
    (h : ¬Movable env tasks task)
    (hdeps : dependencyStatus tasks' task.dependencyTaskIds =
        dependencyStatus tasks task.dependencyTaskIds ∨
      dependencyStatus tasks' task.dependencyTaskIds = .waitingDependency)
    (hunits : task.status = .waitingResource →
      dependencyStatus tasks task.dependencyTaskIds = .accepted →
      usedUnits task.projectId tasks ≤ usedUnits task.projectId tasks' ∨
        teamResourceBudget env <
          usedUnits task.projectId tasks' + teamResourceProfileUnits task.resourceProfile) :
    ¬Movable env tasks' task := by
  rintro ⟨hwaits, hmove⟩
  apply h
  refine ⟨hwaits, ?_⟩
  rcases hdeps with hdeps | hdeps
  · rw [hdeps] at hmove
    rcases hmove with hblocked | ⟨haccepted, hmove⟩
    · exact .inl hblocked
    · refine .inr ⟨haccepted, ?_⟩
      rcases hmove with hstatus | hfits
      · exact .inl hstatus
      · by_cases hstatus : task.status = .waitingDependency
        · exact .inl hstatus
        · have hresource : task.status = .waitingResource := by
            cases hs : task.status <;> simp_all [TaskStatus.waits]
          have := hunits hresource haccepted
          exact .inr (by omega)
  · rcases hmove with hblocked | ⟨haccepted, _⟩ <;> simp_all

section Graph
variable {n : Nat} {tasks : List TeamTask}

theorem AssignmentsWellFormed.taskIds
    (h : AssignmentsWellFormed n (tasks.map TeamTask.assignment)) :
    (tasks.map TeamTask.taskId).Nodup := by
  have hnd := h.nodup
  rw [List.map_map] at hnd
  exact hnd

/-- A dependency is another task of the same project. -/
theorem AssignmentsWellFormed.dependency
    (h : AssignmentsWellFormed n (tasks.map TeamTask.assignment)) {task : TeamTask}
    (hmem : task ∈ tasks) {id : String} (hid : id ∈ task.dependencyTaskIds) :
    id ≠ task.taskId ∧
      ∃ dependency ∈ tasks, dependency.taskId = id ∧ dependency.projectId = task.projectId := by
  obtain ⟨hne, a, ha, haid, hap⟩ :=
    h.dependencies task.assignment (List.mem_map_of_mem hmem) id hid
  obtain ⟨dependency, hdep, rfl⟩ := List.mem_map.mp ha
  exact ⟨hne, dependency, hdep, haid, hap⟩

/-- A task of one project is no dependency of another project's. -/
theorem AssignmentsWellFormed.not_dependency
    (h : AssignmentsWellFormed n (tasks.map TeamTask.assignment)) {task other : TeamTask}
    (hmem : task ∈ tasks) (hother : other ∈ tasks) (hp : task.projectId ≠ other.projectId) :
    other.taskId ∉ task.dependencyTaskIds := by
  intro hid
  obtain ⟨-, dependency, hdep, hdepid, hdepp⟩ := h.dependency hmem hid
  have heq := eq_of_mem_of_key h.taskIds hdep hother hdepid
  rw [heq] at hdepp
  exact hp hdepp.symm

end Graph

section Replace
variable {env : Env} {n : Nat} {tasks : List TeamTask} {task new : TeamTask}

/-- Rewriting a task that another one does not depend on. -/
theorem dependencyStatus_replace_of_not_mem
    (hfind : lookupKey TeamTask.taskId new.taskId tasks = some task) {ids : List String}
    (hid : new.taskId ∉ ids) :
    dependencyStatus (replaceKey TeamTask.taskId new tasks) ids = dependencyStatus tasks ids := by
  apply dependencyStatus_congr
  intro id hmem
  rw [verdict_replace hfind, if_neg]
  rintro rfl
  exact hid hmem

/-- Rewriting a task so that it is as before or unfinished for the others. -/
theorem dependencyStatus_replace_unfinished
    (hfind : lookupKey TeamTask.taskId new.taskId tasks = some task)
    (hverdict : new.status.asDependency = task.status.asDependency ∨
      new.status.asDependency = .waitingDependency) (ids : List String) :
    dependencyStatus (replaceKey TeamTask.taskId new tasks) ids = dependencyStatus tasks ids ∨
      dependencyStatus (replaceKey TeamTask.taskId new tasks) ids = .waitingDependency := by
  apply dependencyStatus_unfinished
  intro id _
  rw [verdict_replace hfind]
  split
  · rename_i hid
    have hold : verdict tasks id = task.status.asDependency := by
      rw [← hid]
      simp only [verdict, hfind]
    rw [hold]
    exact hverdict
  · exact .inl rfl

theorem usedUnits_replace
    (hfind : lookupKey TeamTask.taskId new.taskId tasks = some task) (projectID : String) :
    usedUnits projectID (replaceKey TeamTask.taskId new tasks) + heldUnits projectID task =
      usedUnits projectID tasks + heldUnits projectID new :=
  sum_replaceKey (heldUnits projectID) hfind

/-- Rewriting a task of one project leaves the others at rest. -/
theorem SettledOutside.replace (hwf : AssignmentsWellFormed n (tasks.map TeamTask.assignment))
    (hfind : lookupKey TeamTask.taskId new.taskId tasks = some task)
    (hassignment : new.assignment = task.assignment)
    (h : SettledOutside env task.projectId tasks) :
    SettledOutside env task.projectId (replaceKey TeamTask.taskId new tasks) := by
  have hproject : new.projectId = task.projectId := congrArg Assignment.projectId hassignment
  have hid : new.taskId = task.taskId := congrArg Assignment.taskId hassignment
  intro other hmem hother
  have hmem : other ∈ tasks := by
    rcases mem_replaceKey hmem with rfl | hmem
    · exact absurd hproject hother
    · exact hmem
  apply not_movable_of_later (h other hmem hother)
  · refine .inl (dependencyStatus_replace_of_not_mem hfind ?_)
    rw [hid]
    exact hwf.not_dependency hmem (lookupKey_some hfind).1 hother
  · intro _ _
    have hsum := usedUnits_replace hfind other.projectId
    have hold : heldUnits other.projectId task = 0 := by simp [heldUnits, Ne.symm hother]
    exact .inl (by omega)

/-- Rewriting a task that stays at least as unfinished and holds at least the same units. -/
theorem Settled.replace (hfind : lookupKey TeamTask.taskId new.taskId tasks = some task)
    (hassignment : new.assignment = task.assignment)
    (hverdict : new.status.asDependency = task.status.asDependency ∨
      new.status.asDependency = .waitingDependency)
    (hholds : task.status.holdsResources = true → new.status.holdsResources = true)
    (hnew : new.status = task.status ∨ ¬Movable env (replaceKey TeamTask.taskId new tasks) new)
    (h : Settled env tasks) : Settled env (replaceKey TeamTask.taskId new tasks) := by
  have hlater : ∀ other, ¬Movable env tasks other →
      ¬Movable env (replaceKey TeamTask.taskId new tasks) other := by
    intro other hother
    apply not_movable_of_later hother (dependencyStatus_replace_unfinished hfind hverdict _)
    intro _ _
    have hsum := usedUnits_replace hfind other.projectId
    have hle := heldUnits_mono hassignment.symm hholds other.projectId
    exact .inl (by omega)
  intro other hmem
  rcases mem_replaceKey hmem with rfl | hmem
  · rcases hnew with hstatus | hnew
    · have hold := hlater task (h task (lookupKey_some hfind).1)
      have hproject : other.projectId = task.projectId :=
        congrArg Assignment.projectId hassignment
      have hprofile : other.resourceProfile = task.resourceProfile :=
        congrArg Assignment.resourceProfile hassignment
      have hdeps : other.dependencyTaskIds = task.dependencyTaskIds :=
        congrArg Assignment.dependencyTaskIds hassignment
      simpa only [Movable, hstatus, hproject, hprofile, hdeps] using hold
    · exact hnew
  · exact hlater other (h other hmem)

end Replace

section Activate
variable {env : Env} {now : Instant} {n : Nat} {projectID : String}

/-- The loop brings its project to rest and leaves the others at rest. -/
theorem settled_activate {s : TeamState}
    (hwf : AssignmentsWellFormed n (s.teamTasks.map TeamTask.assignment))
    (h : SettledOutside env projectID s.teamTasks) :
    AssignmentsWellFormed n
        ((activateReadyTeamTasksLocked env s now projectID).teamTasks.map TeamTask.assignment) ∧
      Settled env (activateReadyTeamTasksLocked env s now projectID).teamTasks := by
  have hkept : AssignmentsWellFormed n
        ((activateReadyTeamTasksLocked env s now projectID).teamTasks.map TeamTask.assignment) ∧
      SettledOutside env projectID
        (activateReadyTeamTasksLocked env s now projectID).teamTasks := by
    refine activateReady_preserves (P := fun t : TeamState =>
      AssignmentsWellFormed n (t.teamTasks.map TeamTask.assignment) ∧
        SettledOutside env projectID t.teamTasks) ?_ ⟨hwf, h⟩
    rintro s i task t ⟨hwf, h⟩ hget rfl hwaits hmove
    obtain ⟨status, -, -, htasks⟩ := hmove.teamTasks
    have hfind := lookupKey_of_mem hwf.taskIds (List.mem_of_getElem? hget)
    have hset : s.teamTasks.set i (scheduledTask now task status) =
        replaceKey TeamTask.taskId (scheduledTask now task status) s.teamTasks :=
      set_eq_replaceKey hwf.taskIds hget rfl
    rw [htasks, hset]
    refine ⟨?_, h.replace hwf hfind rfl⟩
    rw [map_replaceKey_of_eq (a := scheduledTask now task status) hfind rfl]
    exact hwf
  refine ⟨hkept.1, fun task hmem => ?_⟩
  by_cases hp : task.projectId = projectID
  · exact (activatePass_unmoved_iff hkept.1.taskIds).mp
      (activateReady_settles env s now projectID) task hmem hp
  · exact hkept.2 task hmem hp

end Activate

/-! ## Events and actions -/

section Step
variable {env : Env} {now : Instant} {n : Nat}

theorem settled_ingest {s : TeamState} {p r : String} {event : Fields}
    (hwf : AssignmentsWellFormed n (s.teamTasks.map TeamTask.assignment))
    (h : Settled env s.teamTasks) :
    AssignmentsWellFormed n
        ((ingestTeamEvent env now p r s event).teamTasks.map TeamTask.assignment) ∧
      Settled env (ingestTeamEvent env now p r s event).teamTasks := by
  have hkept : ∀ {task new : TeamTask}, openTask s p (eventTaskID event) = some task →
      AgentWrite (eventType event) (eventPayload event) task new →
      lookupKey TeamTask.taskId new.taskId s.teamTasks = some task ∧
        AssignmentsWellFormed n
          ((replaceKey TeamTask.taskId new s.teamTasks).map TeamTask.assignment) := by
    intro task new hopen hwrite
    have hfind := lookupKey_of_find (openTask_some hopen).1
      (congrArg Assignment.taskId hwrite.assignment)
    refine ⟨hfind, ?_⟩
    rw [map_replaceKey_of_eq hfind hwrite.assignment]
    exact hwf
  have hcases := ingestTeamEvent_ingested env now p r s event
  generalize ingestTeamEvent env now p r s event = t at hcases ⊢
  cases hcases with
  | logged => exact ⟨hwf, h⟩
  | woken => exact settled_activate hwf (h.outside p)
  | written task new _ hopen hwrite hquiet =>
      obtain ⟨hfind, hwf'⟩ := hkept hopen hwrite
      refine ⟨hwf', h.replace hfind hwrite.assignment ?_ ?_ ?_⟩
      · rcases hquiet with hq | hq | hq
        · exact .inl (by rw [hq])
        · exact .inr (by rw [hq]; rfl)
        · exact .inr (by rw [hq]; rfl)
      · rcases hquiet with hq | hq | hq
        · rw [hq]; exact fun hholds => hholds
        · rw [hq]; exact fun _ => rfl
        · rw [hq]; exact fun _ => rfl
      · rcases hquiet with hq | hq | hq
        · exact .inl hq
        · exact .inr (by simp [Movable, hq, TaskStatus.waits])
        · exact .inr (by simp [Movable, hq, TaskStatus.waits])
  | ended task new _ hopen hwrite =>
      obtain ⟨hfind, hwf'⟩ := hkept hopen hwrite
      have hp : task.projectId = p := (openTask_some hopen).2.1
      subst hp
      exact settled_activate hwf' ((h.outside _).replace hwf hfind hwrite.assignment)

/-- A retry of the task frees no units that another waiting task could use,
and blocks no task that is not already held up before it. -/
def RetryHarmless (env : Env) (s : TeamState) (task : TeamTask) : Prop :=
  ∀ other ∈ s.teamTasks, other.projectId = task.projectId → other.taskId ≠ task.taskId →
    other.status.waits = true →
    (retryStatus env s task = .blocked → task.taskId ∈ other.dependencyTaskIds →
      teamDependencyStatusLocked s
        (other.dependencyTaskIds.takeWhile fun id => id ≠ task.taskId) = .waitingDependency) ∧
    (retryStatus env s task ≠ .accepted → task.status.holdsResources = true →
      other.status = .waitingResource →
      teamDependencyStatusLocked s other.dependencyTaskIds = .accepted →
      teamResourceBudget env + teamResourceProfileUnits task.resourceProfile <
        usedUnits task.projectId s.teamTasks + teamResourceProfileUnits other.resourceProfile)

instance (env : Env) (s : TeamState) (task : TeamTask) : Decidable (RetryHarmless env s task) :=
  inferInstanceAs (Decidable (∀ other ∈ s.teamTasks, _))

theorem retryStatus_prepared (s : TeamState) (task : TeamTask) (action : TaskAction) :
    retryStatus env (prepareTaskAction s now task action) task = retryStatus env s task := by
  simp only [retryStatus, teamResourceAvailableLocked, prepareTaskAction_teamTasks,
    teamDependencyStatusLocked_eq]

/-- A retried task waits only for what it lacks. -/
theorem retried_not_movable {s : TeamState} {task new : TeamTask}
    (hwf : AssignmentsWellFormed n (s.teamTasks.map TeamTask.assignment))
    (hfind : lookupKey TeamTask.taskId new.taskId s.teamTasks = some task)
    (hassignment : new.assignment = task.assignment)
    (hstatus : new.status = retryStatus env s task) :
    ¬Movable env (replaceKey TeamTask.taskId new s.teamTasks) new := by
  have hid : new.taskId = task.taskId := congrArg Assignment.taskId hassignment
  have hproject : new.projectId = task.projectId := congrArg Assignment.projectId hassignment
  have hprofile : new.resourceProfile = task.resourceProfile :=
    congrArg Assignment.resourceProfile hassignment
  have hdepIds : new.dependencyTaskIds = task.dependencyTaskIds :=
    congrArg Assignment.dependencyTaskIds hassignment
  have hself : new.taskId ∉ task.dependencyTaskIds := by
    intro hmem
    exact (hwf.dependency (lookupKey_some hfind).1 hmem).1 hid
  have hdeps := dependencyStatus_replace_of_not_mem hfind hself
  rintro ⟨hwaits, hmove⟩
  rw [hdepIds, hdeps, hproject, hprofile, ← teamDependencyStatusLocked_eq] at hmove
  simp only [retryStatus] at hstatus
  rcases teamDependencyStatusLocked_cases s task.dependencyTaskIds with hdep | hdep | hdep
  · have hfull : teamResourceAvailableLocked env s task.projectId task.resourceProfile
        task.taskId = false := by
      by_contra hfits
      simp_all [TaskStatus.waits]
    have hresource : new.status = .waitingResource := by simp_all
    have hothers := sum_filter_key_ne (heldUnits task.projectId) hwf.taskIds hfind
    have hsum := usedUnits_replace hfind task.projectId
    have hheld : heldUnits task.projectId new = 0 :=
      heldUnits_of_not_holds (by rw [hresource]; rfl) _
    simp only [teamResourceAvailableLocked, decide_eq_false_iff_not, ← hid] at hfull
    simp only [usedUnits] at hsum hmove
    simp only [hdep, hresource, reduceCtorEq, false_or, true_and] at hmove
    omega
  · simp_all
  · simp_all [TaskStatus.waits]

/-- A harmless retry leaves the other tasks at rest. -/
theorem settled_retry {s : TeamState} {task new : TeamTask}
    (hwf : AssignmentsWellFormed n (s.teamTasks.map TeamTask.assignment))
    (hfind : lookupKey TeamTask.taskId new.taskId s.teamTasks = some task)
    (hassignment : new.assignment = task.assignment)
    (hstatus : new.status = retryStatus env s task) (hharmless : RetryHarmless env s task)
    (h : Settled env s.teamTasks) :
    Settled env (replaceKey TeamTask.taskId new s.teamTasks) := by
  have hid : new.taskId = task.taskId := congrArg Assignment.taskId hassignment
  have hproject : new.projectId = task.projectId := congrArg Assignment.projectId hassignment
  have hprofile : new.resourceProfile = task.resourceProfile :=
    congrArg Assignment.resourceProfile hassignment
  intro other hkept
  rcases mem_replaceKey_of_nodup hwf.taskIds hkept with rfl | ⟨hmem, hother⟩
  · exact retried_not_movable hwf hfind hassignment hstatus
  by_cases hp : other.projectId = task.projectId
  · by_cases hwaits : other.status.waits = true
    · obtain ⟨hblocks, hfrees⟩ := hharmless other hmem hp (hid ▸ hother) hwaits
      apply not_movable_of_later (h other hmem)
      · -- only a blocked task can turn a waiting list into a blocked one
        by_cases hblocked : retryStatus env s task = .blocked
        · by_cases hdep : task.taskId ∈ other.dependencyTaskIds
          · right
            have hwaiting := hblocks hblocked hdep
            have hsplit := (List.takeWhile_append_dropWhile
              (p := fun id => decide (id ≠ task.taskId)) (l := other.dependencyTaskIds)).symm
            rw [teamDependencyStatusLocked_eq] at hwaiting
            rw [hsplit, dependencyStatus_append, dependencyStatus_replace_of_not_mem hfind, hwaiting]
            · simp
            · intro hmem
              have := List.mem_takeWhile_imp hmem
              simp [hid] at this
          · exact .inl (dependencyStatus_replace_of_not_mem hfind (hid ▸ hdep))
        · apply dependencyStatus_replace_unfinished hfind
          right
          rw [hstatus]
          simp only [retryStatus] at hblocked ⊢
          rcases teamDependencyStatusLocked_cases s task.dependencyTaskIds with hd | hd | hd <;>
            (simp only [hd] at hblocked ⊢; split <;> simp_all [TaskStatus.asDependency])
      · intro hresource haccepted
        have hsum := usedUnits_replace hfind task.projectId
        rw [hp]
        by_cases hholds : task.status.holdsResources = true
        · by_cases hretry : retryStatus env s task = .accepted
          · have hle := heldUnits_mono hassignment.symm (fun _ => by
              rw [hstatus, hretry]; rfl) task.projectId
            exact .inl (by omega)
          · have hmore := hfrees hretry hholds hresource
              ((teamDependencyStatusLocked_eq s _).trans haccepted)
            have hheld : heldUnits task.projectId task =
                teamResourceProfileUnits task.resourceProfile := by
              simp [heldUnits, hholds]
            exact .inr (by omega)
        · have hheld := heldUnits_of_not_holds (by simpa using hholds) task.projectId
          exact .inl (by omega)
    · exact fun hmovable => hwaits hmovable.1
  · exact (h.outside task.projectId).replace hwf hfind hassignment other hkept hp

theorem initialTaskStatus_waits {s : TeamState} {p : String} {spec : TaskSpec}
    (h : (initialTaskStatus env s p spec).waits = true) :
    dependencyStatus s.teamTasks spec.dependencies = .waitingDependency ∨
      initialTaskStatus env s p spec = .waitingResource ∧
        teamResourceAvailableLocked env s p spec.resourceProfile "" = false := by
  rw [← teamDependencyStatusLocked_eq]
  simp only [initialTaskStatus] at h ⊢
  rcases teamDependencyStatusLocked_cases s spec.dependencies with hdeps | hdeps | hdeps
  · split_ifs at h ⊢ <;> simp_all [TaskStatus.waits]
  · exact .inl hdeps
  · simp [hdeps, TaskStatus.waits] at h

/-- A new task moves no other task and waits only for what it lacks. -/
theorem settled_concat {s : TeamState} (hs : WellFormed s) {p : String} {spec : TaskSpec}
    (hdeps : validateTeamDependenciesLocked s p (newTeamTask env s now p spec).taskId
      spec.dependencies = none)
    (h : Settled env s.teamTasks) :
    Settled env (s.teamTasks ++ [newTeamTask env s now p spec]) := by
  generalize hnew : newTeamTask env s now p spec = new at hdeps ⊢
  have hstored : ∀ ids, (∀ id ∈ ids, ∃ task ∈ s.teamTasks, task.taskId = id) →
      dependencyStatus (s.teamTasks ++ [new]) ids = dependencyStatus s.teamTasks ids :=
    fun ids hids => dependencyStatus_congr fun id hid => verdict_concat (hids id hid)
  have hmore : ∀ projectID, usedUnits projectID s.teamTasks ≤
      usedUnits projectID (s.teamTasks ++ [new]) := by
    intro projectID
    simp [usedUnits]
  intro task hmem
  rcases List.mem_append.mp hmem with hmem | hmem
  · apply not_movable_of_later (h task hmem)
    · refine .inl (hstored _ fun id hid => ?_)
      obtain ⟨-, dependency, hdependency, hid, -⟩ := hs.assignments.dependency hmem hid
      exact ⟨dependency, hdependency, hid⟩
    · exact fun _ _ => .inl (hmore _)
  · rw [List.mem_singleton.mp hmem]
    rintro ⟨hwaits, hmove⟩
    have hnewDeps : new.dependencyTaskIds = spec.dependencies := by rw [← hnew]; rfl
    have hnewStatus : new.status = initialTaskStatus env s p spec := by rw [← hnew]; rfl
    have hnewProject : new.projectId = p := by rw [← hnew]; rfl
    have hnewProfile : new.resourceProfile = spec.resourceProfile := by rw [← hnew]; rfl
    rw [hnewDeps, hstored _ fun id hid => ?_] at hmove
    · rcases initialTaskStatus_waits (hnewStatus ▸ hwaits) with hwaiting | ⟨hresource, hfull⟩
      · simp [hwaiting] at hmove
      · have haccepted : dependencyStatus s.teamTasks spec.dependencies = .accepted := by
          rw [← teamDependencyStatusLocked_eq]
          simp only [initialTaskStatus] at hresource
          rcases teamDependencyStatusLocked_cases s spec.dependencies with hd | hd | hd <;>
            simp_all
        have hmore := hmore p
        rw [← Bool.not_eq_true, available_of_new env hs] at hfull
        simp only [haccepted, hnewStatus, hresource, hnewProject, hnewProfile, reduceCtorEq,
          false_or, true_and] at hmove
        omega
    · obtain ⟨-, a, ha, hid, -⟩ := validateTeamDependenciesLocked_none hdeps id hid
      obtain ⟨dependency, hdependency, rfl⟩ := List.mem_map.mp ha
      exact ⟨dependency, hdependency, hid⟩

end Step

/-! ## Requests -/

/-- A retry that is let through does no harm to the schedule. -/
def RetryKeepsSchedule (env : Env) (s : TeamState) : Request → Prop
  | .taskAction path .retry body =>
      match findTeamTaskLocked s (validTeamID path) with
      | some task => taskActionRefusal s task .retry body = none → RetryHarmless env s task
      | none => True
  | _ => True

instance (env : Env) (s : TeamState) :
    ∀ request, Decidable (RetryKeepsSchedule env s request)
  | .taskAction path .retry body => by
      simp only [RetryKeepsSchedule]
      cases findTeamTaskLocked s (validTeamID path) with
      | some task => exact inferInstanceAs (Decidable (_ → _))
      | none => exact .isTrue trivial
  | .taskAction _ .input _ | .taskAction _ .cancel _ | .taskAction _ .complete _
  | .taskAction _ .approve _ | .taskAction _ .reject _ | .register _ | .heartbeat _
  | .unregister _ | .events _ | .commands .. | .commandAck _ | .runtimeStatus _ | .taskCreate ..
  | .artifactUpload .. => .isTrue trivial

section Run
variable {env : Env} {now : Instant} {s t : TeamState}

/-- Rewriting a task without touching its assignment or progress moves no task. -/
theorem Settled.annotate {task new : TeamTask} (h : Settled env s.teamTasks)
    (hfind : lookupKey TeamTask.taskId new.taskId s.teamTasks = some task)
    (hassignment : new.assignment = task.assignment) (hstatus : new.status = task.status) :
    Settled env (replaceKey TeamTask.taskId new s.teamTasks) :=
  h.replace hfind hassignment (.inl (by rw [hstatus])) (fun hholds => hstatus ▸ hholds)
    (.inl hstatus)

/-- A user action leaves every task at rest, a retry if it does no harm. -/
theorem settled_act {id : String} {task : TeamTask} {action : TaskAction} {body : Fields}
    (hwf : WellFormed s) (hfind : findTeamTaskLocked s id = some task)
    (hkeep : action = .retry → RetryHarmless env s task) (h : Settled env s.teamTasks) :
    Settled env (performTaskAction env s now task action body).teamTasks := by
  have hassignment := actedTask_assignment env (prepareTaskAction s now task action) now task body
    action
  have hfind := lookupKey_of_find hfind (congrArg Assignment.taskId hassignment)
  obtain ⟨x, hx, htasks⟩ := performTaskAction_teamTasks env s now task body action
  rw [htasks]
  cases hwakes : action.wakes with
  | true =>
      refine (settled_activate (n := s.idCounter) ?_ ?_).2
      · rw [hx, map_replaceKey_of_eq hfind hassignment]
        exact hwf.assignments
      · rw [hx]
        exact (h.outside _).replace hwf.assignments hfind hassignment
  | false =>
      simp only [Bool.false_eq_true, if_false, hx]
      cases action with
      | input => exact h.annotate hfind hassignment rfl
      | approve => exact h.annotate hfind hassignment rfl
      | retry =>
          exact settled_retry hwf.assignments hfind hassignment
            (retryStatus_prepared s task .retry) (hkeep rfl) h
      | _ => cases hwakes

theorem Effect.settled {request : Request} {response : Response}
    (h : Effect env now s request t response) (hwf : WellFormed s) (hs : Settled env s.teamTasks)
    (hkeep : response.isOk = true → RetryKeepsSchedule env s request) :
    Settled env t.teamTasks := by
  cases h with
  | refused => exact hs
  | answered => exact hs
  | recreated => exact hs
  | repeated => exact hs
  | inputUnsaved task n message hn hfind =>
      exact hs.annotate (lookupKey_of_find hfind rfl) rfl rfl
  | registered => simpa using hs
  | renewed => exact hs
  | unregistered => exact hs
  | ingested item expected =>
      exact (storeEventBatch_preserves (P := fun t : TeamState =>
        AssignmentsWellFormed s.idCounter (t.teamTasks.map TeamTask.assignment) ∧
          Settled env t.teamTasks) (fun _ _ h => h) (fun _ _ h => settled_ingest h.1 h.2)
        ⟨hwf.assignments, hs⟩).2
  | polled => exact hs
  | acked => simpa using hs
  | expired => simpa using hs
  | created spec reply hspec hdeps =>
      have hnew := settled_concat hwf hdeps hs
      simp only [storeNewTask]
      split
      · simpa using hnew
      · exact hnew
  | @acted path action body task hfind hrefusal =>
      refine settled_act hwf hfind ?_ hs
      rintro rfl
      have hkeep := hkeep rfl
      simp only [RetryKeepsSchedule, hfind] at hkeep
      exact hkeep hrefusal
  | @uploaded c taskID artifactID fields item task hleased hfind =>
      have hfind : lookupKey TeamTask.taskId
          (updateTeamArtifactLocked task artifactID fields).taskId s.teamTasks = some task :=
        lookupKey_of_find hfind rfl
      exact hs.annotate hfind rfl rfl

/-- A retry does no harm to the schedule, unless its save fails. -/
def RetriesKeepSchedule (env : Env) (w : World) (i : Input) : Prop :=
  i.failure = none → RetryKeepsSchedule env w.team i.request

instance (env : Env) (w : World) (i : Input) : Decidable (RetriesKeepSchedule env w i) :=
  inferInstanceAs (Decidable (_ → _))

theorem run_settled {w : World} {inputs : List Input} (hwf : WellFormed w.team)
    (hw : Settled env w.team.teamTasks)
    (h : Meets (next env) (RetriesKeepSchedule env) w inputs) :
    WellFormed (run (next env) w inputs).team ∧
      Settled env (run (next env) w inputs).team.teamTasks :=
  run_invariant (P := fun w : World => WellFormed w.team ∧ Settled env w.team.teamTasks)
    (fun _ _ hw hkeep => next_keeps
      (P := fun s : TeamState => WellFormed s ∧ Settled env s.teamTasks)
      (C := fun _ s request _ => RetryKeepsSchedule env s request)
      (fun heffect hs hkeep =>
        ⟨heffect.wellFormed hs.1, heffect.settled hs.1 hs.2 hkeep⟩) hw hkeep) ⟨hwf, hw⟩ h

end Run

/-! ## No task waits in vain -/

/-- The dependency is stored and completed. -/
def completedIn (tasks : List TeamTask) (id : String) : Bool :=
  (lookupKey TeamTask.taskId id tasks).any fun dependency => dependency.status = .completed

/-- The dependency is missing, failed, cancelled or blocked. -/
def failedIn (tasks : List TeamTask) (id : String) : Bool :=
  (lookupKey TeamTask.taskId id tasks).all fun dependency =>
    dependency.status = .failed ∨ dependency.status = .cancelled ∨ dependency.status = .blocked

/-- No task waits for dependencies that are all completed or one of which has
failed, and none with completed dependencies waits for units that are left. -/
def ScheduleComplete (env : Env) (tasks : List TeamTask) : Prop :=
  ∀ task ∈ tasks,
    (task.status = .waitingDependency →
      ¬(∀ id ∈ task.dependencyTaskIds, completedIn tasks id = true) ∧
      ¬∃ id ∈ task.dependencyTaskIds, failedIn tasks id = true) ∧
    (task.status = .waitingResource →
      (∀ id ∈ task.dependencyTaskIds, completedIn tasks id = true) →
      ¬usedUnits task.projectId tasks + teamResourceProfileUnits task.resourceProfile ≤
        teamResourceBudget env)

instance (env : Env) (tasks : List TeamTask) : Decidable (ScheduleComplete env tasks) :=
  inferInstanceAs (Decidable (∀ task ∈ tasks, _))

/-- A task waits for an unfinished dependency listed before a failed one. -/
def HidesFailure (tasks : List TeamTask) (task : TeamTask) : Prop :=
  task.status = .waitingDependency ∧
    dependencyStatus tasks task.dependencyTaskIds = .waitingDependency ∧
    ∃ id ∈ task.dependencyTaskIds, failedIn tasks id = true

instance (tasks : List TeamTask) (task : TeamTask) : Decidable (HidesFailure tasks task) :=
  inferInstanceAs (Decidable (_ ∧ _))

theorem verdict_accepted_iff {tasks : List TeamTask} {id : String} :
    verdict tasks id = .accepted ↔ completedIn tasks id = true := by
  simp only [verdict, completedIn]
  cases lookupKey TeamTask.taskId id tasks with
  | none => simp
  | some dependency => cases hs : dependency.status <;> simp [TaskStatus.asDependency, hs]

theorem verdict_blocked_iff {tasks : List TeamTask} {id : String} :
    verdict tasks id = .blocked ↔ failedIn tasks id = true := by
  simp only [verdict, failedIn]
  cases lookupKey TeamTask.taskId id tasks with
  | none => simp
  | some dependency => cases hs : dependency.status <;> simp [TaskStatus.asDependency, hs]

theorem dependencyStatus_accepted_iff {tasks : List TeamTask} {ids : List String} :
    dependencyStatus tasks ids = .accepted ↔ ∀ id ∈ ids, completedIn tasks id = true := by
  induction ids with
  | nil => simp [dependencyStatus]
  | cons id ids ih =>
      simp only [dependencyStatus, List.forall_mem_cons, ← verdict_accepted_iff]
      split
      · rename_i h
        simp only [h, true_and, ih, verdict_accepted_iff]
      · rename_i h
        simp [h]

theorem exists_failed_of_blocked {tasks : List TeamTask} {ids : List String}
    (h : dependencyStatus tasks ids = .blocked) : ∃ id ∈ ids, failedIn tasks id = true := by
  induction ids with
  | nil => cases h
  | cons id ids ih =>
      simp only [dependencyStatus] at h
      split at h
      · obtain ⟨other, hmem, hfailed⟩ := ih h
        exact ⟨other, List.mem_cons_of_mem _ hmem, hfailed⟩
      · exact ⟨id, List.mem_cons_self, verdict_blocked_iff.mp h⟩

/-- At rest, only a failed dependency behind an unfinished one is overlooked. -/
theorem Settled.scheduleComplete_iff {env : Env} {tasks : List TeamTask}
    (h : Settled env tasks) :
    ScheduleComplete env tasks ↔ ∀ task ∈ tasks, ¬HidesFailure tasks task := by
  constructor
  · rintro hcomplete task hmem ⟨hstatus, -, hfailed⟩
    exact ((hcomplete task hmem).1 hstatus).2 hfailed
  · intro hopen task hmem
    have hrest := h task hmem
    refine ⟨fun hstatus => ?_, fun hstatus hcompleted hfits => ?_⟩
    · have hwaits : task.status.waits = true := by rw [hstatus]; rfl
      have hnotAccepted : dependencyStatus tasks task.dependencyTaskIds ≠ .accepted := fun hd =>
        hrest ⟨hwaits, .inr ⟨hd, .inl hstatus⟩⟩
      refine ⟨fun hcompleted => hnotAccepted (dependencyStatus_accepted_iff.mpr hcompleted), ?_⟩
      intro hfailed
      refine hopen task hmem ⟨hstatus, ?_, hfailed⟩
      have hcases := teamDependencyStatusLocked_cases { TeamState.empty with teamTasks := tasks }
        task.dependencyTaskIds
      rw [teamDependencyStatusLocked_eq] at hcases
      rcases hcases with hd | hd | hd
      · exact absurd hd hnotAccepted
      · exact hd
      · exact absurd ⟨hwaits, .inl hd⟩ hrest
    · exact hrest ⟨by rw [hstatus]; rfl,
        .inr ⟨dependencyStatus_accepted_iff.mpr hcompleted, .inr hfits⟩⟩

/-- A single dependency hides nothing. -/
theorem not_hidesFailure {tasks : List TeamTask} {task : TeamTask}
    (h : task.dependencyTaskIds.length ≤ 1) : ¬HidesFailure tasks task := by
  rintro ⟨-, hwaits, id, hmem, hfailed⟩
  obtain ⟨first, hone⟩ := List.length_eq_one_iff.mp
    (Nat.le_antisymm h (List.length_pos_of_mem hmem))
  rw [hone, List.mem_singleton] at hmem
  rw [hone, dependencyStatus, ← hmem, verdict_blocked_iff.mpr hfailed] at hwaits
  cases hwaits

/-- A creation names one dependency at most. -/
def NamesOne : Request → Prop
  | .taskCreate _ body => ∀ spec, taskSpec body = .ok spec → spec.dependencies.length ≤ 1
  | _ => True

theorem Effect.namesOne {env : Env} {now : Instant} {s t : TeamState} {request : Request}
    {response : Response} (h : Effect env now s request t response) (hrequest : NamesOne request)
    (hs : ∀ a ∈ s.assignments, a.dependencyTaskIds.length ≤ 1) :
    ∀ a ∈ t.assignments, a.dependencyTaskIds.length ≤ 1 := by
  by_cases hcreate : ∃ project body, request = .taskCreate project body
  · obtain ⟨project, body, rfl⟩ := hcreate
    rcases h.assignments_created with hsame | ⟨spec, hspec, -, -, hnew⟩
    · rwa [hsame]
    · rw [hnew, List.forall_mem_append, List.forall_mem_singleton]
      exact ⟨hs, hrequest spec hspec⟩
  · rwa [h.assignments_kept fun project body heq => hcreate ⟨project, body, heq⟩]

theorem run_namesOne {env : Env} {w : World} {inputs : List Input}
    (hw : ∀ a ∈ w.team.assignments, a.dependencyTaskIds.length ≤ 1)
    (h : Meets (next env) (fun _ i => NamesOne i.request) w inputs) :
    ∀ a ∈ (run (next env) w inputs).team.assignments, a.dependencyTaskIds.length ≤ 1 :=
  run_invariant (P := fun w : World => ∀ a ∈ w.team.assignments, a.dependencyTaskIds.length ≤ 1)
    (fun w i hw hone => (next_effect env w i).namesOne hone hw) hw h

theorem Settled.activate_eq {env : Env} {s : TeamState} (hwf : WellFormed s)
    (h : Settled env s.teamTasks) (now : Instant) (projectID : String) :
    activateReadyTeamTasksLocked env s now projectID = s :=
  repeatPass_of_settled ((activatePass_unmoved_iff hwf.taskIds).mpr fun task hmem _ => h task hmem)
    _

/-- While every retry is harmless, the activation loop has nothing to do after
any request; then every waiting task waits for a reason, unless an unfinished
dependency is listed before a failed one, which takes a task with two of them. -/
theorem schedule_at_rest (env : Env) (now : Instant) (inputs : List Input)
    (h : Meets (next env) (RetriesKeepSchedule env) (.start now) inputs) :
    (∀ later projectID,
      activateReadyTeamTasksLocked env (reached env now inputs).team later projectID =
        (reached env now inputs).team) ∧
      (ScheduleComplete env (reached env now inputs).team.teamTasks ↔
        ∀ task ∈ (reached env now inputs).team.teamTasks,
          ¬HidesFailure (reached env now inputs).team.teamTasks task) ∧
      (Meets (next env) (fun _ i => NamesOne i.request) (.start now) inputs →
        ScheduleComplete env (reached env now inputs).team.teamTasks) := by
  have hsettled := (run_settled (w := .start now) wellFormed_empty (by intro task hmem; cases hmem)
    h).2
  refine ⟨hsettled.activate_eq (reached_wellFormed env now inputs),
    hsettled.scheduleComplete_iff, fun hone => ?_⟩
  have hnames := run_namesOne (by intro a hmem; cases hmem) hone
  exact hsettled.scheduleComplete_iff.mpr fun task hmem =>
    not_hidesFailure (hnames task.assignment (List.mem_map_of_mem hmem))

/-- A large task is running when its small dependency is retried, and then
retried itself: it frees the units that the dependency is waiting for. -/
def strandedDependency : List Input :=
  let dependency := teamNewID "task" 0 1
  let large := teamNewID "task" (10 ^ 9) 3
  let token := teamNewID "fence" (2 * 10 ^ 9) 5
  [.after 0 (createRequest "p" "small" []), .after 1 (createRequest "p" "large" [dependency]),
    .after 1 (registerRequest "p" "a"),
    .after 1 (eventRequest "p" "a" token 1 "task.completed" dependency 1),
    .after 1 (eventRequest "p" "a" token 2 "task.started" large 1),
    .after 1 (.taskAction dependency .retry []), .after 1 (.taskAction large .retry [])]

theorem retry_strands_dependency :
    ¬ScheduleComplete .default (reached .default 0 strandedDependency).team.teamTasks := by
  decide +kernel

/-- Before the last retry the schedule is complete. -/
theorem schedule_at_rest_retried :
    ScheduleComplete .default (reached .default 0 (strandedDependency.take 6)).team.teamTasks := by
  refine (schedule_at_rest .default 0 _ (by decide +kernel)).2.1.mpr ?_
  decide +kernel

end WorkMesh.AgentTeam
