import WorkMesh.AgentTeam.Commands
import WorkMesh.StateMachine.Iterate

/-!
# Activation of waiting tasks

`activateReadyTeamTasksLocked` walks over the tasks of a project until a whole
walk changes nothing. A waiting task becomes accepted, blocked, or waits for
resources instead of dependencies.

## Implementation notes

The loop of the source has no bound. Each change moves a task forward in the
order dependency, resource, done, so twice the number of tasks bounds the
walks with a change; `activateReadyTeamTasksLocked` runs one more, and
`activateReady_settles` in `Readiness` shows that the last one
changes nothing.
-/

namespace WorkMesh.AgentTeam

open StateMachine

/-- A JSON list of identifiers. -/
def idList (ids : List String) : Json := .arr (ids.map .str)

/-- The task as the scheduler moves it. -/
def scheduledTask (now : Instant) (task : TeamTask) (status : TaskStatus) : TeamTask :=
  { task with status := status, updatedAt := now }

/-- Store the moved task at its index and log the move. -/
def storeScheduled (now : Instant) (s : TeamState) (i : Nat) (task : TeamTask)
    (status : TaskStatus) (typ : String) (payload : Fields) : TeamState :=
  appendTeamEventLocked
    { s with teamTasks := s.teamTasks.set i (scheduledTask now task status) } now task.projectId
    typ task.taskId "" payload

/-- One iteration of the inner loop: the task at index `i`, and whether it changed. -/
def activateTeamTask (env : Env) (now : Instant) (projectID : String) (s : TeamState) (i : Nat) :
    TeamState × Bool :=
  match s.teamTasks[i]? with
  | none => (s, false)
  | some task =>
      if task.projectId ≠ projectID ∨
          (task.status ≠ .waitingDependency ∧ task.status ≠ .waitingResource) then (s, false)
      else
        let dependencies := task.dependencyTaskIds
        let status := teamDependencyStatusLocked s dependencies
        if status = .waitingDependency then (s, false)
        else if status = .accepted ∧
            ¬teamResourceAvailableLocked env s projectID task.resourceProfile task.taskId then
          if task.status ≠ .waitingResource then
            (storeScheduled now s i task .waitingResource "task.waiting_resource"
              [("resourceProfile", .str task.resourceProfile.text),
                ("reason", .str "项目资源预算已用尽")], true)
          else (s, false)
        else if status = .accepted then
          ((enqueueTeamCommandLocked
            (storeScheduled now s i task status "task.ready"
              [("dependencyTaskIds", idList dependencies)]) now
            (scheduledTask now task status)).1, true)
        else
          (storeScheduled now s i task status "task.blocked"
            [("reason", .str "依赖任务未成功完成"), ("dependencyTaskIds", idList dependencies)],
            true)

/-- A task that the scheduler may still move. -/
def TaskStatus.waits : TaskStatus → Bool
  | .waitingDependency | .waitingResource => true
  | _ => false

section Cases
variable (env : Env) (now : Instant) (projectID : String) (s : TeamState) (i : Nat)

/-- The three moves of the scheduler. A task becomes accepted only when its
dependencies are completed and its units fit, and only then a start is queued. -/
inductive Scheduled (task : TeamTask) : TeamState → Prop
  | waitsForUnits (typ payload) (hstatus : task.status = .waitingDependency)
      (hdeps : teamDependencyStatusLocked s task.dependencyTaskIds = .accepted)
      (hfull : teamResourceAvailableLocked env s projectID task.resourceProfile task.taskId =
        false) :
      Scheduled task (storeScheduled now s i task .waitingResource typ payload)
  | accepted (typ payload)
      (hdeps : teamDependencyStatusLocked s task.dependencyTaskIds = .accepted)
      (hfits : teamResourceAvailableLocked env s projectID task.resourceProfile task.taskId =
        true) :
      Scheduled task (enqueueTeamCommandLocked
        (storeScheduled now s i task .accepted typ payload) now
        (scheduledTask now task .accepted)).1
  | blocked (typ payload)
      (hdeps : teamDependencyStatusLocked s task.dependencyTaskIds = .blocked) :
      Scheduled task (storeScheduled now s i task .blocked typ payload)

/-- An iteration changes nothing or makes one move of a waiting task. -/
theorem activateTeamTask_cases :
    activateTeamTask env now projectID s i = (s, false) ∨
      ∃ task t, s.teamTasks[i]? = some task ∧ task.projectId = projectID ∧ task.status.waits ∧
        Scheduled env now projectID s i task t ∧
        activateTeamTask env now projectID s i = (t, true) := by
  cases hget : s.teamTasks[i]? with
  | none => exact .inl (by simp only [activateTeamTask, hget])
  | some task =>
      by_cases hskip : task.projectId ≠ projectID ∨
          (task.status ≠ .waitingDependency ∧ task.status ≠ .waitingResource)
      · exact .inl (by simp only [activateTeamTask, hget, if_pos hskip])
      · have hwaits : task.status.waits = true := by
          cases hs : task.status <;> simp_all [TaskStatus.waits]
        have hproject : task.projectId = projectID := by_contra fun h => hskip (.inl h)
        rcases teamDependencyStatusLocked_cases s task.dependencyTaskIds with hdep | hdep | hdep
        · cases hfits : teamResourceAvailableLocked env s projectID task.resourceProfile
              task.taskId with
          | true =>
              refine .inr ⟨task, _, rfl, hproject, hwaits, .accepted "task.ready"
                [("dependencyTaskIds", idList task.dependencyTaskIds)] hdep hfits, ?_⟩
              simp only [activateTeamTask, hget, if_neg hskip, hdep, hfits]
              rfl
          | false =>
              by_cases hstatus : task.status = .waitingResource
              · exact .inl (by simp [activateTeamTask, hget, hproject, hdep, hfits, hstatus])
              · have hdependency : task.status = .waitingDependency := by
                  cases hs : task.status <;> simp_all
                refine .inr ⟨task, _, rfl, hproject, hwaits,
                  .waitsForUnits "task.waiting_resource"
                    [("resourceProfile", .str task.resourceProfile.text),
                      ("reason", .str "项目资源预算已用尽")] hdependency hdep hfits, ?_⟩
                simp [activateTeamTask, hget, hproject, hdep, hfits, hdependency]
        · exact .inl (by simp only [activateTeamTask, hget, if_neg hskip, hdep, if_true])
        · refine .inr ⟨task, _, rfl, hproject, hwaits, .blocked "task.blocked"
            [("reason", .str "依赖任务未成功完成"),
              ("dependencyTaskIds", idList task.dependencyTaskIds)] hdep, ?_⟩
          simp only [activateTeamTask, hget, if_neg hskip, hdep]
          rfl

end Cases

/-- One walk over all tasks. -/
def activatePass (env : Env) (now : Instant) (projectID : String) (s : TeamState) :
    TeamState × Bool :=
  visitAll (activateTeamTask env now projectID) (List.range s.teamTasks.length) s

def activateReadyTeamTasksLocked (env : Env) (s : TeamState) (now : Instant)
    (projectID : String) : TeamState :=
  repeatPass (activatePass env now projectID) (2 * s.teamTasks.length + 1) s

section Rules
variable {env : Env} {now : Instant} {projectID : String}

/-- What every move of the scheduler keeps, the scheduler keeps. -/
theorem activateReady_preserves {P : TeamState → Prop}
    (hmove : ∀ s i task t, P s → s.teamTasks[i]? = some task → task.projectId = projectID →
      task.status.waits → Scheduled env now projectID s i task t → P t)
    {s : TeamState} (hs : P s) : P (activateReadyTeamTasksLocked env s now projectID) := by
  apply repeatPass_preserves _ _ hs
  intro s hs
  apply visitAll_preserves _ _ hs
  intro s i hs
  rcases activateTeamTask_cases env now projectID s i with h | ⟨task, t, hget, hp, hw, hsched, h⟩
  · rw [h]; exact hs
  · rw [h]; exact hmove s i task t hs hget hp hw hsched

variable {s t : TeamState} {i : Nat} {task : TeamTask}

theorem Scheduled.agentRuntimes (h : Scheduled env now projectID s i task t) :
    t.agentRuntimes = s.agentRuntimes := by
  cases h <;> simp [storeScheduled]

theorem Scheduled.idCounter_le (h : Scheduled env now projectID s i task t) :
    s.idCounter ≤ t.idCounter := by
  cases h with
  | waitsForUnits => simp [storeScheduled]
  | accepted =>
      exact Nat.le_trans (by simp [storeScheduled]) (le_enqueueTeamCommandLocked_idCounter ..)
  | blocked => simp [storeScheduled]

/-- The moved task stands where it stood, with one of three statuses. -/
theorem Scheduled.teamTasks (h : Scheduled env now projectID s i task t) :
    ∃ status ∈ [TaskStatus.accepted, .waitingResource, .blocked],
      (status = .accepted → teamDependencyStatusLocked s task.dependencyTaskIds = .accepted ∧
        teamResourceAvailableLocked env s projectID task.resourceProfile task.taskId = true) ∧
      t.teamTasks = s.teamTasks.set i (scheduledTask now task status) := by
  cases h with
  | waitsForUnits => exact ⟨.waitingResource, by simp, by simp, rfl⟩
  | accepted typ payload hdeps hfits =>
      exact ⟨.accepted, by simp, fun _ => ⟨hdeps, hfits⟩, by simp [storeScheduled]⟩
  | blocked => exact ⟨.blocked, by simp, by simp, rfl⟩

@[simp] theorem activateReady_agentRuntimes (s : TeamState) :
    (activateReadyTeamTasksLocked env s now projectID).agentRuntimes = s.agentRuntimes :=
  activateReady_preserves (P := fun t => t.agentRuntimes = s.agentRuntimes)
    (fun _ _ _ _ hs _ _ _ hmove => hmove.agentRuntimes.trans hs) rfl

theorem le_activateReady_idCounter (s : TeamState) :
    s.idCounter ≤ (activateReadyTeamTasksLocked env s now projectID).idCounter :=
  activateReady_preserves (P := fun t => s.idCounter ≤ t.idCounter)
    (fun _ _ _ _ hs _ _ _ hmove => Nat.le_trans hs hmove.idCounter_le) (Nat.le_refl _)

end Rules

end WorkMesh.AgentTeam
