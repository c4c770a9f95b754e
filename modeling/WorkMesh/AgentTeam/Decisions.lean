import WorkMesh.AgentTeam.Backlog
import WorkMesh.AgentTeam.Identity

/-!
# Attempts and decisions of users

The unfinished starts of a task name the attempt that the task is in. Attempts only grow, and an
event that names another attempt leaves its task alone. What a user has completed stays
completed, and what a user has cancelled stays cancelled until a user starts it again, completes
it or rejects it.
-/

namespace WorkMesh.AgentTeam

open StateMachine

/-! ## A task through the requests -/

/-- The identifiers are distinct, and the task of one of them has the property. -/
def TaskHas (id : String) (R : TeamTask → Prop) (tasks : List TeamTask) : Prop :=
  (tasks.map TeamTask.taskId).Nodup ∧
    ∃ task, lookupKey TeamTask.taskId id tasks = some task ∧ R task

section TaskHas
variable {id : String} {R : TeamTask → Prop} {tasks : List TeamTask} {old new : TeamTask}

theorem TaskHas.replace (h : TaskHas id R tasks)
    (hfind : lookupKey TeamTask.taskId new.taskId tasks = some old)
    (hR : old.taskId = id → R old → R new) :
    TaskHas id R (replaceKey TeamTask.taskId new tasks) := by
  obtain ⟨hnd, task, htask, hold⟩ := h
  refine ⟨by rwa [map_key_replaceKey], ?_⟩
  rw [lookupKey_replaceKey]
  by_cases hid : new.taskId = id
  · rw [hid, htask] at hfind
    obtain rfl := Option.some.inj hfind
    rw [if_pos hid, htask]
    exact ⟨new, rfl, hR (lookupKey_some htask).2 hold⟩
  · rw [if_neg hid]
    exact ⟨task, htask, hold⟩

theorem TaskHas.set (h : TaskHas id R tasks) {i : ℕ} (hget : tasks[i]? = some old)
    (hkey : new.taskId = old.taskId) (hR : old.taskId = id → R old → R new) :
    TaskHas id R (tasks.set i new) := by
  rw [set_eq_replaceKey h.1 hget hkey]
  refine h.replace ?_ hR
  rw [hkey]
  exact lookupKey_of_mem h.1 (List.mem_of_getElem? hget)

theorem TaskHas.append (h : TaskHas id R tasks)
    (hnd : ((tasks ++ [new]).map TeamTask.taskId).Nodup) :
    TaskHas id R (tasks ++ [new]) := by
  obtain ⟨-, task, htask, hold⟩ := h
  refine ⟨hnd, task, ?_, hold⟩
  rw [lookupKey, List.find?_append, show tasks.find? _ = some task from htask, Option.some_or]

theorem taskHas_of_mem (hnd : (tasks.map TeamTask.taskId).Nodup) (hmem : old ∈ tasks)
    (hR : R old) : TaskHas old.taskId R tasks :=
  ⟨hnd, old, lookupKey_of_mem hnd hmem, hR⟩

/-- The scheduler keeps a property of a task that its moves of this task keep. -/
theorem TaskHas.activate {env : Env} {now : Instant} {projectID : String} {s : TeamState}
    (h : TaskHas id R s.teamTasks)
    (hmove : ∀ task status, task.taskId = id → task.status.waits = true → R task →
      R (scheduledTask now task status)) :
    TaskHas id R (activateReadyTeamTasksLocked env s now projectID).teamTasks := by
  refine activateReady_preserves (P := fun t : TeamState => TaskHas id R t.teamTasks) ?_ h
  intro s i task t hs hget _ hwaits hscheduled
  obtain ⟨status, -, -, htasks⟩ := hscheduled.teamTasks
  rw [htasks]
  exact hs.set hget rfl fun hid hR => hmove task status hid hwaits hR

end TaskHas

section Request
variable {env : Env} {now : Instant} {s t : TeamState} {request : Request} {response : Response}
variable {id : String} {R : TeamTask → Prop}

/-- A property of one task is kept by a request if the scheduler, the agents, the annotations and
the actions on this task keep it. -/
theorem Effect.taskHas (h : Effect env now s request t response) (hwf : WellFormed s)
    (hs : TaskHas id R s.teamTasks)
    (hmove : ∀ task status, task.taskId = id → task.status.waits = true → R task →
      R (scheduledTask now task status))
    (hagent : ∀ typ payload task new, task.taskId = id → teamTaskHumanTerminal task = false →
      AgentWrite typ payload task new → R task → R new)
    (hannotate : ∀ task new : TeamTask, new.assignment = task.assignment →
      new.progress = task.progress → R task → R new)
    (hact : ∀ path action body task u, request = .taskAction path action body →
      validTeamID path = id → task ∈ s.teamTasks → taskActionRefusal s task action body = none →
      R task → R (actedTask env u now task body action)) : TaskHas id R t.teamTasks := by
  apply h.tasks hs
  · intro u projectID i task v hu hget _ hwaits hscheduled
    obtain ⟨status, -, -, htasks⟩ := hscheduled.teamTasks
    rw [htasks]
    exact hu.set hget rfl fun hid hR => hmove task status hid hwaits hR
  · intro u projectID taskID typ payload task new hu hopen hwrite
    obtain ⟨hfind, -, hterminal⟩ := openTask_some hopen
    exact hu.replace (lookupKey_of_find hfind (congrArg Assignment.taskId hwrite.assignment))
      fun hid hR => hagent typ payload task new hid hterminal hwrite hR
  · intro task new hfind hassignment hprogress
    exact hs.replace hfind fun _ hR => hannotate task new hassignment hprogress hR
  · intro task path action body hrequest hfind hrefusal _
    obtain ⟨hmem, hpath⟩ := findTeamTaskLocked_some hfind
    have hassignment := actedTask_assignment env (prepareTaskAction s now task action) now task
      body action
    refine hs.replace (lookupKey_of_find hfind (congrArg Assignment.taskId hassignment)) ?_
    intro hid hR
    exact hact path action body task _ hrequest (hpath.symm.trans hid) hmem hrefusal hR
  · intro project spec _ _ hdeps
    have hnew := AssignmentsWellFormed.concat hwf.assignments (Nat.lt_succ_self _)
      (a := (newTeamTask env s now project spec).assignment) rfl
      (validateTeamDependenciesLocked_none hdeps)
    refine hs.append ?_
    have hnd := hnew.nodup
    rwa [TeamState.assignments, ← List.map_singleton, ← List.map_append, List.map_map] at hnd

end Request

/-! ## Attempts -/

/-- The unfinished starts are those of tasks in the attempt that they are in, with the bounded
payload. -/
def StartsCurrent (s : TeamState) : Prop :=
  ∀ command ∈ s.agentCommands, command.kind = .taskStart → teamCommandTerminal command = false →
    ∃ task ∈ s.teamTasks, task.taskId = command.taskId ∧ task.projectId = command.projectId ∧
      command.payload = boundedPayload (some (.obj (startPayload task)))

/-- What a start is about. -/
def TeamTask.job (task : TeamTask) : Assignment × ℕ := (task.assignment, task.attempt)

section Starts
variable {s t : TeamState} {task new : TeamTask}

theorem startPayload_congr (h : new.job = task.job) : startPayload new = startPayload task := by
  have hassignment : new.assignment = task.assignment := congrArg Prod.fst h
  have hattempt : new.attempt = task.attempt := congrArg Prod.snd h
  have htitle : new.title = task.title := congrArg Assignment.title hassignment
  have hinstruction : new.instruction = task.instruction :=
    congrArg Assignment.instruction hassignment
  have hprofile : new.resourceProfile = task.resourceProfile :=
    congrArg Assignment.resourceProfile hassignment
  have htimeout : new.timeoutSeconds = task.timeoutSeconds :=
    congrArg Assignment.timeoutSeconds hassignment
  have hworkstream : new.workstreamId = task.workstreamId :=
    congrArg Assignment.workstreamId hassignment
  have hrevision : new.baseRevision = task.baseRevision :=
    congrArg Assignment.baseRevision hassignment
  have hworktree : new.worktreeId = task.worktreeId := congrArg Assignment.worktreeId hassignment
  have henvironment : new.environmentId = task.environmentId :=
    congrArg Assignment.environmentId hassignment
  have howner : new.verificationOwner = task.verificationOwner :=
    congrArg Assignment.verificationOwner hassignment
  simp only [startPayload, teamTaskAttempt, hattempt, htitle, hinstruction, hprofile, htimeout,
    hworkstream, hrevision, hworktree, henvironment, howner]

/-- Writes that leave the jobs of the tasks alone and add no unfinished start. -/
theorem StartsCurrent.transfer (hs : StartsCurrent s)
    (htasks : t.teamTasks.map TeamTask.job = s.teamTasks.map TeamTask.job)
    (hcommands : ∀ new ∈ t.agentCommands, new.kind = .taskStart →
      teamCommandTerminal new = false → ∃ old ∈ s.agentCommands, old.kind = .taskStart ∧
        teamCommandTerminal old = false ∧ new.taskId = old.taskId ∧
        new.projectId = old.projectId ∧ new.payload = old.payload) : StartsCurrent t := by
  intro new hnew hkind hterminal
  obtain ⟨old, hold, hstart, hpending, htaskId, hproject, hpayload⟩ :=
    hcommands new hnew hkind hterminal
  obtain ⟨task, hmem, hid, hp, hpay⟩ := hs old hold hstart hpending
  have hjob : task.job ∈ t.teamTasks.map TeamTask.job := by
    rw [htasks]
    exact List.mem_map_of_mem hmem
  obtain ⟨later, hlater, hsame⟩ := List.mem_map.mp hjob
  have hassignment : later.assignment = task.assignment := congrArg Prod.fst hsame
  refine ⟨later, hlater, ?_, ?_, ?_⟩
  · rw [htaskId, ← hid]
    exact congrArg Assignment.taskId hassignment
  · rw [hproject, ← hp]
    exact congrArg Assignment.projectId hassignment
  · rw [hpayload, hpay, startPayload_congr hsame]

theorem StartsCurrent.tasks (hs : StartsCurrent s)
    (htasks : t.teamTasks.map TeamTask.job = s.teamTasks.map TeamTask.job)
    (hcommands : t.agentCommands ⊆ s.agentCommands) : StartsCurrent t :=
  hs.transfer htasks fun command hmem hkind hterminal =>
    ⟨command, hcommands hmem, hkind, hterminal, rfl, rfl, rfl⟩

/-- The rewrites of commands that finish them or leave what they are for. -/
theorem StartsCurrent.rewrite (hs : StartsCurrent s) {commands : List AgentCommand}
    (h : ∀ new ∈ commands, ∃ old ∈ s.agentCommands, new.kind = old.kind ∧
      new.taskId = old.taskId ∧ new.projectId = old.projectId ∧ new.payload = old.payload ∧
      (teamCommandTerminal old = true → teamCommandTerminal new = true)) :
    StartsCurrent { s with agentCommands := commands } := by
  refine hs.transfer rfl ?_
  intro new hnew hkind hterminal
  obtain ⟨old, hold, hsame, htask, hproject, hpayload, hfinal⟩ := h new hnew
  refine ⟨old, hold, hsame ▸ hkind, ?_, htask, hproject, hpayload⟩
  by_contra hcon
  rw [hfinal (by simpa using hcon)] at hterminal
  cases hterminal

theorem StartsCurrent.append (hs : StartsCurrent s) {command : AgentCommand}
    (h : command.kind = .taskStart → ∃ task ∈ s.teamTasks, task.taskId = command.taskId ∧
      task.projectId = command.projectId ∧
        command.payload = boundedPayload (some (.obj (startPayload task)))) :
    StartsCurrent (appendCommand s command) := by
  intro new hnew hkind hterminal
  rcases List.mem_append.mp hnew with hnew | hnew
  · exact hs new hnew hkind hterminal
  · obtain rfl := List.mem_singleton.mp hnew
    exact h hkind

/-- A task with another identifier stays when one is replaced. -/
theorem mem_replaceKey_of_ne {tasks : List TeamTask} (hmem : task ∈ tasks)
    (hne : task.taskId ≠ new.taskId) : task ∈ replaceKey TeamTask.taskId new tasks := by
  induction tasks with
  | nil => cases hmem
  | cons first tasks ih =>
      rw [replaceKey]
      rcases List.mem_cons.mp hmem with rfl | hmem
      · rw [if_neg hne]
        exact List.mem_cons_self
      · split
        · exact List.mem_cons_of_mem _ hmem
        · exact List.mem_cons_of_mem _ (ih hmem)

theorem not_pending_supersede {now : Instant} {taskID : String} {command : AgentCommand}
    (h : teamCommandTerminal (supersedeTeamCommand now taskID command) = false) :
    command.taskId ≠ taskID ∧ supersedeTeamCommand now taskID command = command := by
  unfold supersedeTeamCommand at h ⊢
  by_cases hid : command.taskId = taskID
  · by_cases hterminal : teamCommandTerminal command = true
    · rw [if_neg (by simp [hterminal]), hterminal] at h
      cases h
    · rw [if_pos ⟨hid, hterminal⟩] at h
      cases h
  · rw [if_neg fun hboth => hid hboth.1] at h ⊢
    exact ⟨hid, rfl⟩

/-- A new attempt takes back the starts of the old one. -/
theorem StartsCurrent.retry (hs : StartsCurrent s) {now : Instant}
    (hid : new.taskId = task.taskId) :
    StartsCurrent (replaceTeamTaskLocked (prepareTaskAction s now task .retry) new) := by
  intro command hmem hkind hterminal
  have hmem : command ∈ (prepareTaskAction s now task .retry).agentCommands := hmem
  have hold : command ∈ s.agentCommands.map (supersedeTeamCommand now task.taskId) := by
    rcases mem_enqueueTaskCommandLocked hmem with hmem | ⟨runtime, rfl⟩
    · exact hmem
    · cases hkind
  obtain ⟨old, hbefore, rfl⟩ := List.mem_map.mp hold
  obtain ⟨hne, hsame⟩ := not_pending_supersede hterminal
  rw [hsame] at hkind hterminal ⊢
  obtain ⟨other, hother, htask, hproject, hpayload⟩ := hs old hbefore hkind hterminal
  refine ⟨other, ?_, htask, hproject, hpayload⟩
  have hdifferent : other.taskId ≠ new.taskId := by
    rw [htask, hid]
    exact hne
  have htasks : (replaceTeamTaskLocked (prepareTaskAction s now task .retry) new).teamTasks =
      replaceKey TeamTask.taskId new s.teamTasks := by
    rw [replaceTeamTaskLocked_teamTasks, prepareTaskAction_teamTasks]
  rw [htasks]
  exact mem_replaceKey_of_ne hother hdifferent

end Starts

section Request
variable {env : Env} {now : Instant} {s t : TeamState} {request : Request} {response : Response}

theorem StartsCurrent.map (hs : StartsCurrent s) {f : AgentCommand → AgentCommand}
    (hf : ∀ command, (f command).kind = command.kind ∧ (f command).taskId = command.taskId ∧
      (f command).projectId = command.projectId ∧ (f command).payload = command.payload ∧
      (teamCommandTerminal command = true → teamCommandTerminal (f command) = true)) :
    StartsCurrent { s with agentCommands := s.agentCommands.map f } := by
  apply hs.rewrite
  intro new hnew
  obtain ⟨old, hold, rfl⟩ := List.mem_map.mp hnew
  exact ⟨old, hold, hf old⟩

end Request

section Run
variable {env : Env} {now : Instant} {id : String} {R : TeamTask → Prop}

/-- A property of a task that every request of a kind keeps is kept by a run of such requests. -/
theorem reached_taskHas {C : Request → Prop}
    (hstep : ∀ w i, C i.request → WellFormed w.team → TaskHas id R w.team.teamTasks →
      TaskHas id R (next env w i).team.teamTasks) {first rest : List Input}
    (hrest : ∀ i ∈ rest, C i.request) (h : TaskHas id R (reached env now first).team.teamTasks) :
    TaskHas id R (reached env now (first ++ rest)).team.teamTasks := by
  induction rest using List.reverseRecOn with
  | nil => rwa [List.append_nil]
  | append_singleton rest i ih =>
      rw [← List.append_assoc, reached_concat]
      apply hstep
      · exact hrest i (List.mem_append_right _ List.mem_cons_self)
      · exact reached_wellFormed env now (first ++ rest)
      · exact ih fun j hj => hrest j (List.mem_append_left _ hj)

theorem taskHas_reached {inputs : List Input} {task : TeamTask}
    (hmem : task ∈ (reached env now inputs).team.teamTasks) (hR : R task) :
    TaskHas task.taskId R (reached env now inputs).team.teamTasks :=
  taskHas_of_mem (reached_wellFormed env now inputs).taskIds hmem hR

end Run

/-- The user starts the task again, completes it or rejects it. -/
def Request.reopens (id : String) : Request → Prop
  | .taskAction path action _ =>
      validTeamID path = id ∧ (action = .retry ∨ action = .complete ∨ action = .reject)
  | _ => False

/-- The task as it was created and as far as it has come. -/
def SameProgress (task new : TeamTask) : Prop :=
  new.assignment = task.assignment ∧ new.progress = task.progress

section Ended
variable {env : Env} {task new : TeamTask}

theorem humanTerminal_congr (h : new.progress = task.progress) :
    teamTaskHumanTerminal new = teamTaskHumanTerminal task := by
  have hstatus : new.status = task.status := congrArg Progress.status h
  have hcompletion : new.completionSource = task.completionSource :=
    congrArg Progress.completionSource h
  have hcancellation : new.cancellationSource = task.cancellationSource :=
    congrArg Progress.cancellationSource h
  rw [teamTaskHumanTerminal, teamTaskHumanTerminal, hstatus, hcompletion, hcancellation]

theorem humanTerminal_cases (h : teamTaskHumanTerminal task = true) :
    task.status = .completed ∧ task.completionSource = some .manual ∨
      task.status = .cancelled ∧ task.cancellationSource = some .manual := by
  simpa [teamTaskHumanTerminal] using h

/-- No action on a task that a user has completed is let through. -/
theorem taskActionRefusal_completed {s : TeamState} {action : TaskAction} {body : Fields}
    (hstatus : task.status = .completed) (hsource : task.completionSource = some .manual) :
    taskActionRefusal s task action body ≠ none := by
  by_cases haction : action = .complete
  · simp [taskActionRefusal, hstatus, hsource, haction]
  · simp [taskActionRefusal, hstatus, hsource, haction]

theorem taskActionRefusal_cancelled {s : TeamState} {body : Fields}
    (hstatus : task.status = .cancelled) : taskActionRefusal s task .cancel body ≠ none := by
  simp [taskActionRefusal, hstatus]

/-- A task that a user has ended is not changed by a request that does not reopen it. -/
theorem next_ended (hended : teamTaskHumanTerminal task = true) {w : World} {i : Input}
    (hkept : task.status = .completed ∨ ¬i.request.reopens task.taskId)
    (hwf : WellFormed w.team) (h : TaskHas task.taskId (SameProgress task) w.team.teamTasks) :
    TaskHas task.taskId (SameProgress task) (next env w i).team.teamTasks := by
  apply (next_effect env w i).taskHas hwf h
  · intro old status _ hwaits hold
    have hstatus : old.status = task.status := congrArg Progress.status hold.2
    rw [hstatus] at hwaits
    rcases humanTerminal_cases hended with ⟨hended, -⟩ | ⟨hended, -⟩
    · rw [hended] at hwaits
      cases hwaits
    · rw [hended] at hwaits
      cases hwaits
  · intro typ payload old new _ hopen _ hold
    rw [humanTerminal_congr hold.2, hended] at hopen
    cases hopen
  · intro old new hassignment hprogress hold
    exact ⟨hassignment.trans hold.1, hprogress.trans hold.2⟩
  · intro path action body old u hrequest hpath _ hrefusal hold
    have hstatus : old.status = task.status := congrArg Progress.status hold.2
    rcases humanTerminal_cases hended with ⟨hcompleted, hsource⟩ | ⟨hcancelled, -⟩
    · have hold : old.completionSource = task.completionSource :=
        congrArg Progress.completionSource hold.2
      exact absurd hrefusal
        (taskActionRefusal_completed (hstatus.trans hcompleted) (hold.trans hsource))
    · have hkept : ¬i.request.reopens task.taskId := by
        rcases hkept with hcompleted | hkept
        · rw [hcancelled] at hcompleted
          cases hcompleted
        · exact hkept
      rw [hrequest] at hkept
      cases action with
      | input => exact hold
      | approve => exact hold
      | cancel => exact absurd hrefusal (taskActionRefusal_cancelled (hstatus.trans hcancelled))
      | retry => exact absurd ⟨hpath, .inl rfl⟩ hkept
      | complete => exact absurd ⟨hpath, .inr (.inl rfl)⟩ hkept
      | reject => exact absurd ⟨hpath, .inr (.inr rfl)⟩ hkept

end Ended

/-- A task that a user has completed is never changed again, whatever users and agents do, and one
that a user has cancelled not until a user starts it again, completes it or rejects it. -/
theorem decisions_kept (env : Env) (now : Instant) (first rest : List Input) :
    (∀ task ∈ (reached env now first).team.teamTasks, task.status = .completed →
      task.completionSource = some .manual →
        ∃ new ∈ (reached env now (first ++ rest)).team.teamTasks, SameProgress task new) ∧
    (∀ task ∈ (reached env now first).team.teamTasks, task.status = .cancelled →
      task.cancellationSource = some .manual → (∀ i ∈ rest, ¬i.request.reopens task.taskId) →
        ∃ new ∈ (reached env now (first ++ rest)).team.teamTasks, SameProgress task new) := by
  constructor
  · intro task hmem hstatus hsource
    have hended : teamTaskHumanTerminal task = true := by
      simp [teamTaskHumanTerminal, hstatus, hsource]
    obtain ⟨-, new, hnew, hsame⟩ := reached_taskHas (C := fun _ => True)
      (fun w i _ hwf hw => next_ended hended (.inl hstatus) hwf hw) (fun _ _ => trivial)
      (taskHas_reached hmem ⟨rfl, rfl⟩)
    exact ⟨new, (lookupKey_some hnew).1, hsame⟩
  · intro task hmem hstatus hsource hrest
    have hended : teamTaskHumanTerminal task = true := by
      simp [teamTaskHumanTerminal, hstatus, hsource]
    obtain ⟨-, new, hnew, hsame⟩ := reached_taskHas (C := fun r => ¬r.reopens task.taskId)
      (fun w i hkept hwf hw => next_ended hended (.inr hkept) hwf hw) hrest
      (taskHas_reached hmem ⟨rfl, rfl⟩)
    exact ⟨new, (lookupKey_some hnew).1, hsame⟩

end WorkMesh.AgentTeam
