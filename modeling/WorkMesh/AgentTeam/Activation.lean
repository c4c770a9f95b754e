import WorkMesh.AgentTeam.Fixpoint

/-!
# What the activation loop does to a task

The loop moves tasks while it walks over them, so a task that was looked at may be moved in
a later walk. Nothing that it does completes or fails a task except that it blocks one: the
set of completed tasks stands still, and the set of failed ones grows by blocked tasks only.
So every outcome can be read off the list at the start.

The dependencies of a task are looked at in their order, up to the first that is not
completed. `Doomed` is what is sure to be blocked, and `Ruined` is all that may be.
-/

namespace WorkMesh.AgentTeam

open StateMachine

section Ruin
variable (tasks : List TeamTask) (projectID : String)

/-- The task depends on a missing, failed, cancelled or blocked one through waiting tasks. -/
inductive Ruined : TeamTask → Prop
  | failed {task : TeamTask} {id : String} (hid : id ∈ task.dependencyTaskIds)
      (hfailed : failedIn tasks id = true) : Ruined task
  | waits {task dependency : TeamTask} {id : String} (hid : id ∈ task.dependencyTaskIds)
      (hfind : lookupKey TeamTask.taskId id tasks = some dependency)
      (hproject : dependency.projectId = projectID) (hwaits : dependency.status.waits = true)
      (hruined : Ruined dependency) : Ruined task

/-- The same through the first dependencies that are not completed. -/
inductive Doomed : TeamTask → Prop
  | failed {task : TeamTask} {before rest : List String} {id : String}
      (hlist : task.dependencyTaskIds = before ++ id :: rest)
      (hcompleted : ∀ other ∈ before, completedIn tasks other = true)
      (hfailed : failedIn tasks id = true) : Doomed task
  | waits {task dependency : TeamTask} {before rest : List String} {id : String}
      (hlist : task.dependencyTaskIds = before ++ id :: rest)
      (hcompleted : ∀ other ∈ before, completedIn tasks other = true)
      (hfind : lookupKey TeamTask.taskId id tasks = some dependency)
      (hproject : dependency.projectId = projectID) (hwaits : dependency.status.waits = true)
      (hdoomed : Doomed dependency) : Doomed task

theorem Doomed.ruined {task : TeamTask} (h : Doomed tasks projectID task) :
    Ruined tasks projectID task := by
  induction h with
  | failed hlist hcompleted hfailed => exact .failed (hlist ▸ List.mem_append_cons_self) hfailed
  | waits hlist hcompleted hfind hproject hwaits hdoomed ih =>
      exact .waits (hlist ▸ List.mem_append_cons_self) hfind hproject hwaits ih

end Ruin

/-- What became of a task, between the list at the start and a later one. -/
inductive Moved (env : Env) (now : Instant) (projectID : String) (tasks later : List TeamTask)
    (task : TeamTask) : TeamTask → Prop
  | kept : Moved env now projectID tasks later task task
  | waitsForUnits (hproject : task.projectId = projectID)
      (hstatus : task.status = .waitingDependency)
      (hdeps : ∀ id ∈ task.dependencyTaskIds, completedIn tasks id = true) :
      Moved env now projectID tasks later task (scheduledTask now task .waitingResource)
  | accepted (hproject : task.projectId = projectID) (hwaits : task.status.waits = true)
      (hdeps : ∀ id ∈ task.dependencyTaskIds, completedIn tasks id = true)
      (hfits : usedUnits projectID later ≤ teamResourceBudget env) :
      Moved env now projectID tasks later task (scheduledTask now task .accepted)
  | blocked (hproject : task.projectId = projectID) (hwaits : task.status.waits = true)
      (hruined : Ruined tasks projectID task) :
      Moved env now projectID tasks later task (scheduledTask now task .blocked)

/-- Every task stands at its place, and each was kept or moved. -/
structure Walked (env : Env) (now : Instant) (projectID : String)
    (tasks later : List TeamTask) : Prop where
  taskIds : later.map TeamTask.taskId = tasks.map TeamTask.taskId
  moved : ∀ (i : Nat) (task' : TeamTask), later[i]? = some task' →
    ∃ task, tasks[i]? = some task ∧ Moved env now projectID tasks later task task'

section Moved
variable {env : Env} {now : Instant} {projectID : String} {tasks later : List TeamTask}
variable {task task' : TeamTask}

theorem Moved.dependencyTaskIds (h : Moved env now projectID tasks later task task') :
    task'.dependencyTaskIds = task.dependencyTaskIds := by
  cases h <;> rfl

theorem Moved.projectId (h : Moved env now projectID tasks later task task') :
    task'.projectId = task.projectId := by
  cases h <;> rfl

theorem Moved.taskId (h : Moved env now projectID tasks later task task') :
    task'.taskId = task.taskId := by
  cases h <;> rfl

/-- The loop looks at waiting tasks only. -/
theorem Moved.eq_of_not_waits (h : Moved env now projectID tasks later task task')
    (hstands : task.status.waits = false) : task' = task := by
  cases h with
  | kept => rfl
  | waitsForUnits hproject hstatus => rw [hstatus] at hstands; cases hstands
  | accepted hproject hwaits => rw [hwaits] at hstands; cases hstands
  | blocked hproject hwaits => rw [hwaits] at hstands; cases hstands

theorem Moved.completed_iff (h : Moved env now projectID tasks later task task') :
    task'.status = .completed ↔ task.status = .completed := by
  by_cases hwaits : task.status.waits = true
  · have hleft : task.status ≠ .completed := by
      intro heq
      rw [heq] at hwaits
      cases hwaits
    cases h <;> simp [scheduledTask, hleft]
  · rw [h.eq_of_not_waits (by simpa using hwaits)]

/-- A move is a move of the task that stood there at the start. -/
theorem Moved.scheduled (h : Moved env now projectID tasks later task task')
    (hwaits : task'.status.waits = true) (status : TaskStatus) :
    scheduledTask now task' status = scheduledTask now task status ∧
      (task' = task ∨ task.status = .waitingDependency) := by
  cases h with
  | kept => exact ⟨rfl, .inl rfl⟩
  | waitsForUnits hproject hstatus => exact ⟨rfl, .inr hstatus⟩
  | accepted => cases hwaits
  | blocked => cases hwaits

theorem Moved.mono {later' : List TeamTask} (h : Moved env now projectID tasks later task task')
    (hunits : usedUnits projectID later ≤ teamResourceBudget env →
      usedUnits projectID later' ≤ teamResourceBudget env) :
    Moved env now projectID tasks later' task task' := by
  cases h with
  | kept => exact .kept
  | waitsForUnits hproject hstatus hdeps => exact .waitsForUnits hproject hstatus hdeps
  | accepted hproject hwaits hdeps hfits => exact .accepted hproject hwaits hdeps (hunits hfits)
  | blocked hproject hwaits hruined => exact .blocked hproject hwaits hruined

end Moved

section Progress
variable {env : Env} {now : Instant} {projectID : String} {tasks later : List TeamTask}

/-- An identifier stands for one task, before and after. -/
theorem Walked.lookup (hnd : (tasks.map TeamTask.taskId).Nodup)
    (h : Walked env now projectID tasks later) (id : String) :
    (lookupKey TeamTask.taskId id tasks = none ∧ lookupKey TeamTask.taskId id later = none) ∨
      ∃ task task', lookupKey TeamTask.taskId id tasks = some task ∧
        lookupKey TeamTask.taskId id later = some task' ∧
        Moved env now projectID tasks later task task' := by
  cases hfind : lookupKey TeamTask.taskId id later with
  | none =>
      refine .inl ⟨?_, rfl⟩
      rw [lookupKey_eq_none] at hfind ⊢
      intro task hmem heq
      have hid : id ∈ later.map TeamTask.taskId := by
        rw [h.taskIds]
        exact List.mem_map.mpr ⟨task, hmem, heq⟩
      obtain ⟨task', hmem', heq'⟩ := List.mem_map.mp hid
      exact hfind task' hmem' heq'
  | some task' =>
      obtain ⟨hmem', hid⟩ := lookupKey_some hfind
      obtain ⟨i, hi⟩ := List.mem_iff_getElem?.mp hmem'
      obtain ⟨task, hget, hmoved⟩ := h.moved i task' hi
      refine .inr ⟨task, task', ?_, rfl, hmoved⟩
      rw [← hid, hmoved.taskId]
      exact lookupKey_of_mem hnd (List.mem_of_getElem? hget)

theorem Walked.completedIn_eq (hnd : (tasks.map TeamTask.taskId).Nodup)
    (h : Walked env now projectID tasks later) (id : String) :
    completedIn later id = completedIn tasks id := by
  obtain ⟨hnone, hnone'⟩ | ⟨task, task', hfind, hfind', hmoved⟩ := h.lookup hnd id
  · simp only [completedIn, hnone, hnone']
  · simp only [completedIn, hfind, hfind', Option.any_some, hmoved.completed_iff]

/-- What has failed by now had failed, or was blocked by the loop. -/
theorem Walked.failedIn_cases (hnd : (tasks.map TeamTask.taskId).Nodup)
    (h : Walked env now projectID tasks later) {id : String} (hfailed : failedIn later id = true) :
    failedIn tasks id = true ∨ ∃ dependency, lookupKey TeamTask.taskId id tasks = some dependency ∧
      dependency.projectId = projectID ∧ dependency.status.waits = true ∧
      Ruined tasks projectID dependency := by
  obtain ⟨hnone, hnone'⟩ | ⟨task, task', hfind, hfind', hmoved⟩ := h.lookup hnd id
  · exact .inl (by simp only [failedIn, hnone, Option.all_none])
  · simp only [failedIn, hfind', Option.all_some] at hfailed
    cases hmoved with
    | kept => exact .inl (by simpa only [failedIn, hfind, Option.all_some] using hfailed)
    | waitsForUnits => simp [scheduledTask] at hfailed
    | accepted => simp [scheduledTask] at hfailed
    | blocked hproject hwaits hruined => exact .inr ⟨task, hfind, hproject, hwaits, hruined⟩

/-- What had failed stays failed. -/
theorem Walked.failedIn_of_failedIn (hnd : (tasks.map TeamTask.taskId).Nodup)
    (h : Walked env now projectID tasks later) {id : String} (hfailed : failedIn tasks id = true) :
    failedIn later id = true := by
  obtain ⟨hnone, hnone'⟩ | ⟨task, task', hfind, hfind', hmoved⟩ := h.lookup hnd id
  · simp only [failedIn, hnone', Option.all_none]
  · simp only [failedIn, hfind, Option.all_some, decide_eq_true_eq] at hfailed
    have hstands : task.status.waits = false := by
      rcases hfailed with hstatus | hstatus | hstatus <;> rw [hstatus] <;> rfl
    rw [hmoved.eq_of_not_waits hstands] at hfind'
    simpa only [failedIn, hfind', Option.all_some, decide_eq_true_eq] using hfailed

theorem Walked.ruined_of_blocked (hnd : (tasks.map TeamTask.taskId).Nodup)
    (h : Walked env now projectID tasks later) {task : TeamTask}
    (hblocked : dependencyStatus later task.dependencyTaskIds = .blocked) :
    Ruined tasks projectID task := by
  obtain ⟨id, hid, hfailed⟩ := exists_failed_of_blocked hblocked
  obtain hfailed | ⟨dependency, hfind, hproject, hwaits, hruined⟩ := h.failedIn_cases hnd hfailed
  · exact .failed hid hfailed
  · exact .waits hid hfind hproject hwaits hruined

theorem Walked.completed_of_accepted (hnd : (tasks.map TeamTask.taskId).Nodup)
    (h : Walked env now projectID tasks later) {ids : List String}
    (haccepted : dependencyStatus later ids = .accepted) :
    ∀ id ∈ ids, completedIn tasks id = true := by
  intro id hid
  rw [← h.completedIn_eq hnd]
  exact dependencyStatus_accepted_iff.mp haccepted id hid

end Progress

section Loop
variable {env : Env} {now : Instant} {projectID : String} {s t : TeamState} {i : Nat}
  {task : TeamTask}

theorem walked_refl (env : Env) (now : Instant) (projectID : String) (tasks : List TeamTask) :
    Walked env now projectID tasks tasks :=
  ⟨rfl, fun _ task hget => ⟨task, hget, .kept⟩⟩

/-- A task that becomes accepted brings the units to at most the budget. -/
theorem usedUnits_accepted (hnd : (s.teamTasks.map TeamTask.taskId).Nodup)
    (hget : s.teamTasks[i]? = some task) (hproject : task.projectId = projectID)
    (hwaits : task.status.waits = true)
    (hfits : teamResourceAvailableLocked env s projectID task.resourceProfile task.taskId = true) :
    usedUnits projectID (s.teamTasks.set i (scheduledTask now task .accepted)) ≤
      teamResourceBudget env := by
  subst hproject
  have hroom := (available_of_waits env hnd (List.mem_of_getElem? hget) hwaits).mp hfits
  have hsum := sum_set (a := scheduledTask now task .accepted) (heldUnits task.projectId) hget
  have hle := heldUnits_le task.projectId (scheduledTask now task .accepted)
  simp only [usedUnits, scheduledTask] at hroom hsum hle ⊢
  omega

/-- What a move makes of the task at its place, given how it got there. -/
theorem Walked.moved_task {tasks : List TeamTask} {first : TeamTask}
    (hnd : (tasks.map TeamTask.taskId).Nodup) (h : Walked env now projectID tasks s.teamTasks)
    (hget : s.teamTasks[i]? = some task) (hproject : task.projectId = projectID)
    (hwaits : task.status.waits = true)
    (hfirst : Moved env now projectID tasks s.teamTasks first task)
    (hmove : Scheduled env now projectID s i task t) :
    ∃ status, t.teamTasks = s.teamTasks.set i (scheduledTask now first status) ∧
      Moved env now projectID tasks t.teamTasks first (scheduledTask now first status) := by
  have hnd' : (s.teamTasks.map TeamTask.taskId).Nodup := h.taskIds ▸ hnd
  have hids := hfirst.dependencyTaskIds
  have hplace := hfirst.projectId
  have hwaits' : first.status.waits = true := by
    by_contra hstands
    rw [hfirst.eq_of_not_waits (by simpa using hstands)] at hwaits
    exact hstands hwaits
  cases hmove with
  | waitsForUnits typ payload hstatus hdeps hfull =>
      have hsame := (hfirst.scheduled hwaits .waitingResource).1
      refine ⟨.waitingResource, by rw [← hsame]; rfl, .waitsForUnits (hplace ▸ hproject) ?_ ?_⟩
      · obtain heq | hstatus := (hfirst.scheduled hwaits .waitingResource).2
        · rw [← heq, hstatus]
        · exact hstatus
      · rw [teamDependencyStatusLocked_eq] at hdeps
        rw [← hids]
        exact h.completed_of_accepted hnd hdeps
  | accepted typ payload hdeps hfits =>
      have hsame := (hfirst.scheduled hwaits .accepted).1
      have htasks : (enqueueTeamCommandLocked (storeScheduled now s i task .accepted typ payload) now
          (scheduledTask now task .accepted)).1.teamTasks =
          s.teamTasks.set i (scheduledTask now first .accepted) := by
        rw [← hsame]
        simp [storeScheduled]
      refine ⟨.accepted, htasks, .accepted (hplace ▸ hproject) hwaits' ?_ ?_⟩
      · rw [teamDependencyStatusLocked_eq] at hdeps
        rw [← hids]
        exact h.completed_of_accepted hnd hdeps
      · rw [htasks, ← hsame]
        exact usedUnits_accepted hnd' hget hproject hwaits hfits
  | blocked typ payload hdeps =>
      have hsame := (hfirst.scheduled hwaits .blocked).1
      refine ⟨.blocked, by rw [← hsame]; rfl, .blocked (hplace ▸ hproject) hwaits' ?_⟩
      rw [teamDependencyStatusLocked_eq, hids] at hdeps
      exact h.ruined_of_blocked hnd hdeps

theorem Walked.step {tasks : List TeamTask} (hnd : (tasks.map TeamTask.taskId).Nodup)
    (h : Walked env now projectID tasks s.teamTasks) (hget : s.teamTasks[i]? = some task)
    (hproject : task.projectId = projectID) (hwaits : task.status.waits = true)
    (hmove : Scheduled env now projectID s i task t) :
    Walked env now projectID tasks t.teamTasks := by
  have hnd' : (s.teamTasks.map TeamTask.taskId).Nodup := h.taskIds ▸ hnd
  have hunits : usedUnits projectID s.teamTasks ≤ teamResourceBudget env →
      usedUnits projectID t.teamTasks ≤ teamResourceBudget env := fun hused =>
    (WithinUnits.schedule (Nat.le_refl _) ⟨hnd', hused⟩ hget hproject hmove).2
  obtain ⟨first, hfirst, hmoved⟩ := h.moved i task hget
  obtain ⟨status, htasks, hnew⟩ := h.moved_task hnd hget hproject hwaits hmoved hmove
  constructor
  · rw [htasks, ← h.taskIds]
    exact map_set_of_eq hget hmoved.taskId.symm
  · intro j task' hget'
    rw [htasks, List.getElem?_set] at hget'
    split_ifs at hget' with hij hj
    · obtain rfl := Option.some.inj hget'
      exact ⟨first, hij ▸ hfirst, hnew⟩
    · obtain ⟨start, hstart, hkept⟩ := h.moved j task' hget'
      exact ⟨start, hstart, hkept.mono hunits⟩

theorem walked_activateReady (env : Env) (now : Instant) (projectID : String) (s : TeamState)
    (hnd : (s.teamTasks.map TeamTask.taskId).Nodup) :
    Walked env now projectID s.teamTasks
      (activateReadyTeamTasksLocked env s now projectID).teamTasks :=
  activateReady_preserves (P := fun t => Walked env now projectID s.teamTasks t.teamTasks)
    (fun _ _ _ _ hs hget hproject hwaits hmove => hs.step hnd hget hproject hwaits hmove)
    (walked_refl env now projectID s.teamTasks)

end Loop

section Rest
variable {env : Env} {now : Instant} {projectID : String} {tasks later : List TeamTask}

theorem dependencyStatus_stops {before rest : List String} {id : String}
    (hbefore : ∀ other ∈ before, completedIn later other = true) (hfailed : failedIn later id = true) :
    dependencyStatus later (before ++ id :: rest) = .blocked := by
  rw [dependencyStatus_append, if_pos (dependencyStatus_accepted_iff.mpr hbefore),
    dependencyStatus, verdict_blocked_iff.mpr hfailed]
  rfl

/-- At rest a task whose first open dependency has failed is blocked. -/
theorem Moved.blocked_of_rest {task task' : TeamTask}
    (h : Moved env now projectID tasks later task task') (hmem : task' ∈ later)
    (hproject : task.projectId = projectID) (hwaits : task.status.waits = true)
    (hrest : ∀ task ∈ later, task.projectId = projectID → ¬Movable env later task)
    (hdeps : dependencyStatus later task.dependencyTaskIds = .blocked)
    (hopen : ¬∀ id ∈ task.dependencyTaskIds, completedIn tasks id = true) :
    task'.status = .blocked := by
  have hplace := h.projectId
  have hids := h.dependencyTaskIds
  cases h with
  | kept => exact absurd ⟨hwaits, .inl hdeps⟩ (hrest task hmem hproject)
  | waitsForUnits _ _ hcompleted => exact absurd hcompleted hopen
  | accepted _ _ hcompleted => exact absurd hcompleted hopen
  | blocked => rfl

theorem not_completed_of_failed {id : String} (hfailed : failedIn tasks id = true) :
    completedIn tasks id ≠ true := by
  intro hcompleted
  have haccepted := verdict_accepted_iff.mpr hcompleted
  rw [verdict_blocked_iff.mpr hfailed] at haccepted
  cases haccepted

theorem not_completed_of_waits {id : String} {dependency : TeamTask}
    (hfind : lookupKey TeamTask.taskId id tasks = some dependency)
    (hwaits : dependency.status.waits = true) : completedIn tasks id ≠ true := by
  intro hcompleted
  simp only [completedIn, hfind, Option.any_some, decide_eq_true_eq] at hcompleted
  rw [hcompleted] at hwaits
  cases hwaits

/-- At rest the doomed tasks are blocked, those they wait for first. -/
theorem Walked.blocked_of_doomed (hnd : (tasks.map TeamTask.taskId).Nodup)
    (h : Walked env now projectID tasks later)
    (hrest : ∀ task ∈ later, task.projectId = projectID → ¬Movable env later task)
    {task : TeamTask} (hdoomed : Doomed tasks projectID task) :
    ∀ task', task' ∈ later → Moved env now projectID tasks later task task' →
      task.projectId = projectID → task.status.waits = true → task'.status = .blocked := by
  induction hdoomed with
  | @failed task before rest id hlist hcompleted hfailed =>
      intro task' hmem hmoved hproject hwaits
      refine hmoved.blocked_of_rest hmem hproject hwaits hrest ?_ ?_
      · rw [hlist]
        refine dependencyStatus_stops ?_ (h.failedIn_of_failedIn hnd hfailed)
        intro other hother
        rw [h.completedIn_eq hnd]
        exact hcompleted other hother
      · intro hall
        exact not_completed_of_failed hfailed (hall id (hlist ▸ List.mem_append_cons_self))
  | @waits task dependency before rest id hlist hcompleted hfind hproject' hwaits' hdoomed ih =>
      intro task' hmem hmoved hproject hwaits
      refine hmoved.blocked_of_rest hmem hproject hwaits hrest ?_ ?_
      · rw [hlist]
        refine dependencyStatus_stops ?_ ?_
        · intro other hother
          rw [h.completedIn_eq hnd]
          exact hcompleted other hother
        · obtain ⟨hnone, -⟩ | ⟨start, dependency', hstart, hlater, hkept⟩ := h.lookup hnd id
          · rw [hnone] at hfind
            cases hfind
          · obtain rfl := Option.some.inj (hfind.symm.trans hstart)
            have hblocked := ih dependency' (lookupKey_some hlater).1 hkept hproject' hwaits'
            simp only [failedIn, hlater, Option.all_some, hblocked, or_true, decide_true]
      · intro hall
        exact not_completed_of_waits hfind hwaits' (hall id (hlist ▸ List.mem_append_cons_self))

end Rest

/-- The loop ends. A task is left alone, begins to wait for units, becomes accepted only with
completed dependencies and within the budget, or is blocked only if it is ruined; and every
waiting task of the project that is doomed is blocked. -/
theorem activateReady_outcome (env : Env) (s : TeamState) (now : Instant) (projectID : String)
    (hnd : (s.teamTasks.map TeamTask.taskId).Nodup) :
    let final := activateReadyTeamTasksLocked env s now projectID
    (activatePass env now projectID final = (final, false) ∧
      ∀ k, repeatPass (activatePass env now projectID) (2 * s.teamTasks.length + 1 + k) s = final) ∧
    Walked env now projectID s.teamTasks final.teamTasks ∧
    ∀ (i : Nat) (task task' : TeamTask), s.teamTasks[i]? = some task → final.teamTasks[i]? = some task' →
      task.projectId = projectID → task.status.waits = true →
      Doomed s.teamTasks projectID task → task'.status = .blocked := by
  have hsettles := activateReady_settles env s now projectID
  have hwalked := walked_activateReady env now projectID s hnd
  have hrest := (activatePass_unmoved_iff (hwalked.taskIds ▸ hnd)).mp hsettles
  refine ⟨⟨hsettles, fun k => repeatPass_add hsettles k⟩, hwalked, ?_⟩
  intro i task task' hget hget' hproject hwaits hdoomed
  obtain ⟨start, hstart, hmoved⟩ := hwalked.moved i task' hget'
  obtain rfl := Option.some.inj (hget.symm.trans hstart)
  exact hwalked.blocked_of_doomed hnd hrest hdoomed task' (List.mem_of_getElem? hget') hmoved
    hproject hwaits

/-- A task of the project `p` in a given status. -/
def sampleTask (id : String) (status : TaskStatus) (profile : ResourceProfile)
    (dependencies : List String) : TeamTask :=
  { taskId := id, projectId := "p", title := "t", instruction := "i", status := status,
    attempt := 1, dependencyTaskIds := dependencies, idempotencyKey := "", createdAt := 0,
    updatedAt := 0, ownerMemberId := "", resourceProfile := profile }

/-- A waits for B, which has a failed dependency. -/
def failedChain : TeamState :=
  { TeamState.empty with teamTasks := [sampleTask "a" .waitingDependency .small ["b"],
      sampleTask "b" .waitingResource .small ["c"], sampleTask "c" .failed .small []] }

theorem activateReady_outcome_chain :
    (activateReadyTeamTasksLocked .default failedChain 5 "p").teamTasks[0]?.map TeamTask.status =
      some .blocked := by
  have hb : Doomed failedChain.teamTasks "p" (sampleTask "b" .waitingResource .small ["c"]) :=
    @Doomed.failed _ _ _ [] [] "c" rfl (by simp) (by decide)
  have ha : Doomed failedChain.teamTasks "p" (sampleTask "a" .waitingDependency .small ["b"]) :=
    @Doomed.waits _ _ _ _ [] [] "b" rfl (by simp) rfl rfl rfl hb
  obtain ⟨task', hget⟩ := Option.isSome_iff_exists.mp (show (activateReadyTeamTasksLocked .default
    failedChain 5 "p").teamTasks[0]?.isSome = true by decide +kernel)
  have houtcome := (activateReady_outcome .default failedChain 5 "p" (by decide)).2.2 0 _ task' rfl
    hget rfl rfl ha
  rw [hget, Option.map_some, houtcome]

/-- An unfinished dependency hides a failed one, and a task without open dependencies waits for
units when there are none. -/
theorem activateReady_hides_failure :
    let s : TeamState := { TeamState.empty with teamTasks := [sampleTask "a" .running .large [],
      sampleTask "b" .failed .small [], sampleTask "c" .waitingDependency .small ["a", "b"],
      sampleTask "d" .waitingDependency .small []] }
    let final := activateReadyTeamTasksLocked .default s 5 "p"
    Ruined s.teamTasks "p" (sampleTask "c" .waitingDependency .small ["a", "b"]) ∧
      final.teamTasks.map TeamTask.status =
        [.running, .failed, .waitingDependency, .waitingResource] := by
  refine ⟨@Ruined.failed _ _ _ "b" (by decide) (by decide), ?_⟩
  decide +kernel

end WorkMesh.AgentTeam
