import WorkMesh.AgentTeam.Budget

/-!
# Which waiting tasks can be moved

The scheduler's decision about a task, as a property of the task list alone:
the first dependency that is not completed decides its dependency status, and
its units must fit beside those in use. A walk over the tasks moves exactly the
tasks with this property, so the loop ends where no task of the project has it.
-/

namespace WorkMesh.AgentTeam

open StateMachine

/-! ## Dependencies -/

/-- What a task means to those that depend on it. -/
def TaskStatus.asDependency : TaskStatus → TaskStatus
  | .failed | .cancelled | .blocked => .blocked
  | .completed => .accepted
  | _ => .waitingDependency

/-- What stands at an identifier of a dependency list. -/
def verdict (tasks : List TeamTask) (id : String) : TaskStatus :=
  match lookupKey TeamTask.taskId id tasks with
  | none => .blocked
  | some dependency => dependency.status.asDependency

/-- The first verdict that is not `accepted`. -/
def dependencyStatus (tasks : List TeamTask) : List String → TaskStatus
  | [] => .accepted
  | id :: ids => if verdict tasks id = .accepted then dependencyStatus tasks ids
      else verdict tasks id

theorem teamDependencyStatusLocked_eq (s : TeamState) (ids : List String) :
    teamDependencyStatusLocked s ids = dependencyStatus s.teamTasks ids := by
  induction ids with
  | nil => rfl
  | cons id ids ih =>
      cases hfind : lookupKey TeamTask.taskId id s.teamTasks with
      | none => simp [teamDependencyStatusLocked, dependencyStatus, verdict, findTeamTaskLocked,
          hfind]
      | some dependency =>
          simp only [teamDependencyStatusLocked, dependencyStatus, verdict, findTeamTaskLocked,
            hfind, ih]
          cases dependency.status <;> rfl

section Dependencies
variable {tasks tasks' : List TeamTask} {ids : List String}

theorem dependencyStatus_congr (h : ∀ id ∈ ids, verdict tasks' id = verdict tasks id) :
    dependencyStatus tasks' ids = dependencyStatus tasks ids := by
  induction ids with
  | nil => rfl
  | cons id ids ih =>
      simp only [dependencyStatus, h id List.mem_cons_self,
        ih fun other hmem => h other (List.mem_cons_of_mem _ hmem)]

/-- Verdicts that only turn unfinished leave a status or make it wait. -/
theorem dependencyStatus_unfinished
    (h : ∀ id ∈ ids, verdict tasks' id = verdict tasks id ∨
      verdict tasks' id = .waitingDependency) :
    dependencyStatus tasks' ids = dependencyStatus tasks ids ∨
      dependencyStatus tasks' ids = .waitingDependency := by
  induction ids with
  | nil => exact .inl rfl
  | cons id ids ih =>
      have ih := ih fun other hmem => h other (List.mem_cons_of_mem _ hmem)
      simp only [dependencyStatus]
      rcases h id List.mem_cons_self with hid | hid
      · rw [hid]
        split
        · exact ih
        · exact .inl rfl
      · exact .inr (by simp [hid])

theorem dependencyStatus_append (first rest : List String) :
    dependencyStatus tasks (first ++ rest) =
      if dependencyStatus tasks first = .accepted then dependencyStatus tasks rest
      else dependencyStatus tasks first := by
  induction first with
  | nil => simp [dependencyStatus]
  | cons id first ih =>
      simp only [List.cons_append, dependencyStatus, ih]
      split_ifs <;> rfl

theorem verdict_replace {task new : TeamTask}
    (hfind : lookupKey TeamTask.taskId new.taskId tasks = some task) (id : String) :
    verdict (replaceKey TeamTask.taskId new tasks) id =
      if new.taskId = id then new.status.asDependency else verdict tasks id := by
  simp only [verdict, lookupKey_replaceKey]
  by_cases hid : new.taskId = id
  · subst hid
    simp [hfind]
  · simp [hid]

/-- A task added at the end changes no verdict about the others. -/
theorem verdict_concat {new : TeamTask} {id : String}
    (hfind : ∃ task ∈ tasks, task.taskId = id) :
    verdict (tasks ++ [new]) id = verdict tasks id := by
  obtain ⟨task, hmem, hid⟩ := hfind
  have hsome : (tasks.find? fun other => decide (other.taskId = id)).isSome :=
    List.find?_isSome.mpr ⟨task, hmem, by simpa using hid⟩
  simp only [verdict, lookupKey, List.find?_append]
  cases h : tasks.find? fun other => decide (other.taskId = id) with
  | none => simp [h] at hsome
  | some found => simp

end Dependencies

/-! ## Movable tasks -/

/-- The scheduler would move this task. -/
def Movable (env : Env) (tasks : List TeamTask) (task : TeamTask) : Prop :=
  task.status.waits = true ∧
    (dependencyStatus tasks task.dependencyTaskIds = .blocked ∨
      dependencyStatus tasks task.dependencyTaskIds = .accepted ∧
        (task.status = .waitingDependency ∨
          usedUnits task.projectId tasks + teamResourceProfileUnits task.resourceProfile ≤
            teamResourceBudget env))

instance (env : Env) (tasks : List TeamTask) (task : TeamTask) :
    Decidable (Movable env tasks task) :=
  inferInstanceAs (Decidable (_ ∧ _))

/-- For a waiting task, the others use all the units that are in use. -/
theorem available_of_waits (env : Env) {s : TeamState} {task : TeamTask}
    (hnd : (s.teamTasks.map TeamTask.taskId).Nodup) (hmem : task ∈ s.teamTasks)
    (hwaits : task.status.waits = true) :
    teamResourceAvailableLocked env s task.projectId task.resourceProfile task.taskId = true ↔
      usedUnits task.projectId s.teamTasks + teamResourceProfileUnits task.resourceProfile ≤
        teamResourceBudget env := by
  have hothers := sum_filter_key_ne (heldUnits task.projectId) hnd (lookupKey_of_mem hnd hmem)
  rw [heldUnits_of_not_holds (not_holds_of_waits hwaits)] at hothers
  simp only [teamResourceAvailableLocked, decide_eq_true_eq, usedUnits]
  omega

/-- One iteration moves the task at its index exactly when it is movable. -/
theorem activateTeamTask_moves {env : Env} {now : Instant} {projectID : String} {s : TeamState}
    {i : Nat} {task : TeamTask} (hnd : (s.teamTasks.map TeamTask.taskId).Nodup)
    (hget : s.teamTasks[i]? = some task) :
    (activateTeamTask env now projectID s i).2 = true ↔
      task.projectId = projectID ∧ Movable env s.teamTasks task := by
  have hmem := List.mem_of_getElem? hget
  by_cases hp : task.projectId = projectID
  · by_cases hwaits : task.status.waits = true
    · have hfits := available_of_waits env hnd hmem hwaits
      have hor : task.status = .waitingDependency ∨ task.status = .waitingResource := by
        cases h : task.status <;> simp_all [TaskStatus.waits]
      subst hp
      simp only [Movable, hwaits, true_and, ← teamDependencyStatusLocked_eq, ← hfits]
      rcases teamDependencyStatusLocked_cases s task.dependencyTaskIds with hdep | hdep | hdep
      · cases hfree : teamResourceAvailableLocked env s task.projectId task.resourceProfile
            task.taskId <;>
          rcases hor with hstatus | hstatus <;>
          simp [activateTeamTask, hget, hdep, hfree, hstatus]
      · rcases hor with hstatus | hstatus <;> simp [activateTeamTask, hget, hdep, hstatus]
      · rcases hor with hstatus | hstatus <;> simp [activateTeamTask, hget, hdep, hstatus]
    · have hidle : activateTeamTask env now projectID s i = (s, false) := by
        have hskip : task.status ≠ .waitingDependency ∧ task.status ≠ .waitingResource := by
          cases h : task.status <;> simp_all [TaskStatus.waits]
        simp [activateTeamTask, hget, hskip]
      simp [hidle, Movable, hwaits]
  · simp [activateTeamTask, hget, hp]

/-! ## The loop comes to rest -/

/-- How often the scheduler can still move a task in this status. -/
def TaskStatus.remainingMoves : TaskStatus → Nat
  | .waitingDependency => 2
  | .waitingResource => 1
  | _ => 0

def remainingMoves (s : TeamState) : Nat :=
  (s.teamTasks.map fun task => task.status.remainingMoves).sum

theorem remainingMoves_le (s : TeamState) : remainingMoves s ≤ 2 * s.teamTasks.length := by
  simp only [remainingMoves]
  induction s.teamTasks with
  | nil => exact Nat.le_refl _
  | cons task tasks ih =>
      have hle : task.status.remainingMoves ≤ 2 := by cases task.status <;> decide
      simp only [List.map_cons, List.sum_cons, List.length_cons]
      omega

section Rest
variable {env : Env} {now : Instant} {projectID : String} {s : TeamState}

theorem Scheduled.remainingMoves_lt {t : TeamState} {i : Nat} {task : TeamTask}
    (hget : s.teamTasks[i]? = some task) (hwaits : task.status.waits = true)
    (h : Scheduled env now projectID s i task t) : remainingMoves t < remainingMoves s := by
  have hlt : ∃ status, t.teamTasks = s.teamTasks.set i (scheduledTask now task status) ∧
      status.remainingMoves < task.status.remainingMoves := by
    cases h with
    | waitsForUnits _ _ hstatus =>
        exact ⟨.waitingResource, rfl, by rw [hstatus]; decide⟩
    | accepted =>
        exact ⟨.accepted, by simp [storeScheduled], by cases hs : task.status <;>
          simp_all [TaskStatus.waits, TaskStatus.remainingMoves]⟩
    | blocked =>
        exact ⟨.blocked, rfl, by cases hs : task.status <;>
          simp_all [TaskStatus.waits, TaskStatus.remainingMoves]⟩
  obtain ⟨status, htasks, hlt⟩ := hlt
  have hsum := sum_set (a := scheduledTask now task status)
    (fun task => task.status.remainingMoves) hget
  simp only [remainingMoves, htasks]
  simp only [scheduledTask] at hsum ⊢
  omega

theorem activateTeamTask_unmoved {i : Nat}
    (h : (activateTeamTask env now projectID s i).2 = false) :
    (activateTeamTask env now projectID s i).1 = s := by
  rcases activateTeamTask_cases env now projectID s i with heq | ⟨task, t, _, _, _, _, heq⟩
  · rw [heq]
  · simp [heq] at h

theorem activateTeamTask_decreases {i : Nat}
    (h : (activateTeamTask env now projectID s i).2 = true) :
    remainingMoves (activateTeamTask env now projectID s i).1 < remainingMoves s := by
  rcases activateTeamTask_cases env now projectID s i with
    heq | ⟨task, t, hget, _, hwaits, hmove, heq⟩
  · simp [heq] at h
  · rw [heq]
    exact hmove.remainingMoves_lt hget hwaits

/-- The loop ends in a state that one more walk leaves alone. -/
theorem activateReady_settles (env : Env) (s : TeamState) (now : Instant) (projectID : String) :
    activatePass env now projectID (activateReadyTeamTasksLocked env s now projectID) =
      (activateReadyTeamTasksLocked env s now projectID, false) := by
  refine repeatPass_settles (P := fun _ => True) (m := remainingMoves) (fun _ _ => trivial)
    ?_ ?_ trivial (Nat.lt_succ_of_le (remainingMoves_le s))
  · intro s h
    exact (visitAll_unchanged (fun s i h => activateTeamTask_unmoved h) h).1
  · intro s _ h
    exact (visitAll_decreases (P := fun _ => True) (fun s i h => activateTeamTask_unmoved h)
      (fun _ _ _ => trivial) (fun s i _ h => activateTeamTask_decreases h) _ trivial).2 h

/-- A walk leaves a state alone exactly when no task of the project is movable. -/
theorem activatePass_unmoved_iff (hnd : (s.teamTasks.map TeamTask.taskId).Nodup) :
    activatePass env now projectID s = (s, false) ↔
      ∀ task ∈ s.teamTasks, task.projectId = projectID → ¬Movable env s.teamTasks task := by
  constructor
  · intro h task hmem hp hmovable
    obtain ⟨i, hi, rfl⟩ := List.getElem_of_mem hmem
    have hall := (visitAll_unchanged (fun s i h => activateTeamTask_unmoved h)
      (congrArg Prod.snd h)).2 i (List.mem_range.mpr hi)
    have hmoves : (activateTeamTask env now projectID s i).2 = true :=
      (activateTeamTask_moves hnd (List.getElem?_eq_getElem hi)).mpr ⟨hp, hmovable⟩
    simp [hmoves] at hall
  · intro h
    have hvisit : ∀ i, activateTeamTask env now projectID s i = (s, false) := by
      intro i
      have hflag : (activateTeamTask env now projectID s i).2 = false := by
        by_contra hmoves
        have hmoves : (activateTeamTask env now projectID s i).2 = true := by simpa using hmoves
        rcases activateTeamTask_cases env now projectID s i with
          heq | ⟨task, t, hget, _, _, _, _⟩
        · simp [heq] at hmoves
        · have hmovable := (activateTeamTask_moves hnd hget).mp hmoves
          exact h task (List.mem_of_getElem? hget) hmovable.1 hmovable.2
      exact Prod.ext (activateTeamTask_unmoved hflag) hflag
    have hall : ∀ items, visitAll (activateTeamTask env now projectID) items s = (s, false) := by
      intro items
      induction items with
      | nil => rfl
      | cons i items ih => simp [visitAll, hvisit i, ih]
    exact hall _

end Rest

end WorkMesh.AgentTeam
