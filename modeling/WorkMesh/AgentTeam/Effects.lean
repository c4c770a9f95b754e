import WorkMesh.AgentTeam.Service

/-!
# What one request can do

`Effect` lists the outcomes of a request: refused or failed, answered without a
change, or one of the changes of its handler together with the guards that let
it through. Every invariant of the service is proved case by case over it.
-/

namespace WorkMesh.AgentTeam

open StateMachine

/-- Answers that go with an unchanged state. -/
def Reply.reads : Reply → Bool
  | .runtimes _ | .commands [] => true
  | _ => false

/-- The requests that may find nothing to change. -/
def Request.reads : Request → Bool
  | .commands .. | .runtimeStatus _ => true
  | _ => false

/-- The outcomes of a request, as the state it leaves and the answer. -/
inductive Effect (env : Env) (now : Instant) (s : TeamState) :
    Request → TeamState → Response → Prop
  | refused {request} (n status code message) (hn : s.idCounter ≤ n) :
      Effect env now s request { s with idCounter := n } (.error status code message)
  | answered {request} (reply) (hreads : reply.reads) (hrequest : request.reads) :
      Effect env now s request s (.ok reply)
  | recreated {project body} (task) : Effect env now s (.taskCreate project body) s
      (.ok (.replayed task))
  | repeated {path action body} (task)
      (hfind : findTeamTaskLocked s (validTeamID path) = some task)
      (hrefusal : taskActionRefusal s task action body = some (.ok (.replayed task))) :
      Effect env now s (.taskAction path action body) s (.ok (.replayed task))
  | inputUnsaved {path body} (task n message) (hn : s.idCounter ≤ n)
      (hfind : findTeamTaskLocked s (validTeamID path) = some task) :
      Effect env now s (.taskAction path .input body)
        { replaceTeamTaskLocked s { task with updatedAt := now } with idCounter := n }
        (.error 500 "TASK_SAVE_FAILED" message)
  | registered {body} (hcomplete : (newRuntime s now body).incomplete = false)
      (hfree : registrationBlocked s now (newRuntime s now body) = false) :
      Effect env now s (.register body) (storeRegistration s now (newRuntime s now body))
        (.ok (.runtime (newRuntime s now body)))
  | renewed {body} (item)
      (hfind : findRuntimeLocked s (runtimeCredentials body).projectID
        (runtimeCredentials body).runtimeID = some item)
      (htoken : item.fencingToken = (runtimeCredentials body).fencing)
      (hfenced : item.status ≠ .fenced) :
      Effect env now s (.heartbeat body) (replaceRuntimeLocked s (renewedRuntime now item body))
        (.ok (.runtime (renewedRuntime now item body)))
  | unregistered {body} (item)
      (hfind : findRuntimeLocked s (runtimeCredentials body).projectID
        (runtimeCredentials body).runtimeID = some item)
      (htoken : item.fencingToken = (runtimeCredentials body).fencing) :
      Effect env now s (.unregister body)
        (appendTeamEventLocked (replaceRuntimeLocked s (offlineRuntime now item)) now
          (runtimeCredentials body).projectID "runtime.offline" ""
          (runtimeCredentials body).runtimeID [])
        (.ok .unregistered)
  | ingested {body} (item expected) (hcomplete : (runtimeCredentials body).complete)
      (hleased : leasedRuntime s now (runtimeCredentials body) = some item)
      (hchecked : checkTeamEvents s (runtimeCredentials body).projectID (lastAccepted item)
        (lastAccepted item) (bodyList body "events") = .ok expected) :
      Effect env now s (.events body)
        (storeEventBatch env now s (runtimeCredentials body) item
          (eventObjects (bodyList body "events")))
        (.ok (.events
          (freshEvents (lastAccepted item) (eventObjects (bodyList body "events"))).length
          (lastFresh (lastAccepted item) (eventObjects (bodyList body "events")))))
  | polled {project runtime token limit} (c item n delivered)
      (hleased : leasedRuntime s now c = some item)
      (hdelivered :
        deliverCommands now c.projectID c.runtimeID n 0 s.agentCommands = delivered)
      (hc : c = ⟨validTeamID project, validTeamID runtime, trimSpace token⟩) :
      Effect env now s (.commands project runtime token limit)
        { s with agentCommands := delivered.1 } (.ok (.commands delivered.2))
  | acked {body} (item ids count)
      (hleased : leasedRuntime s now (runtimeCredentials body) = some item)
      (hids : ids = ((bodyList body "commandIds").map fun value =>
        validTeamID (sprint value)).filter fun id => id ≠ "") :
      Effect env now s (.commandAck body)
        (compactTeamCommandsLocked
          { s with
            agentCommands :=
              s.agentCommands.map (ackTeamCommand now (runtimeCredentials body) ids) }
          (runtimeCredentials body).projectID)
        (.ok (.acked count))
  | expired {project} (items) :
      Effect env now s (.runtimeStatus project) (expireRuntimeLeasesLocked s now)
        (.ok (.runtimes items))
  | created {project body} (spec reply)
      (hspec : taskSpec body = .ok spec)
      (hdeps : validateTeamDependenciesLocked s (validTeamID project)
        (newTeamTask env s now (validTeamID project) spec).taskId spec.dependencies = none)
      (hcapacity : pendingTeamCommandsLocked s (validTeamID project) < teamPendingCommandLimit) :
      Effect env now s (.taskCreate project body)
        (storeNewTask s now (validTeamID project)
          (newTeamTask env s now (validTeamID project) spec)).1
        (.ok (.created (newTeamTask env s now (validTeamID project) spec) reply))
  | acted {path action body} (task)
      (hfind : findTeamTaskLocked s (validTeamID path) = some task)
      (hrefusal : taskActionRefusal s task action body = none) :
      Effect env now s (.taskAction path action body) (performTaskAction env s now task action body)
        (.ok (.task
          (actedTask env (prepareTaskAction s now task action) now task body action)))
  | uploaded {c taskID artifactID fields} (item task)
      (hleased : leasedRuntime s now c = some item)
      (hfind : findTeamTaskLocked s taskID = some task) :
      Effect env now s (.artifactUpload c taskID artifactID fields)
        (replaceTeamTaskLocked s (updateTeamArtifactLocked task artifactID fields))
        (.ok (.artifact artifactID))

section Commit
variable {env : Env} {now : Instant} {s t : TeamState} {request : Request}

theorem Effect.unchanged (status : Nat) (code message : String) :
    Effect env now s request s (.error status code message) :=
  .refused s.idCounter status code message (Nat.le_refl _)

theorem Effect.of_isError {response : Response} (h : response.isError) :
    Effect env now s request s response := by
  cases response with
  | ok reply => simp [Response.isError] at h
  | error status code message => exact .unchanged status code message

theorem commitTeamState_cases (before s : TeamState) (failure : Option String) (code : String)
    (reply : Reply) :
    commitTeamState before s failure code reply = (s, .ok reply) ∨
      ∃ message, commitTeamState before s failure code reply =
        ({ before with idCounter := s.idCounter }, .error 500 code message) := by
  cases failure with
  | none => exact .inl rfl
  | some message => exact .inr ⟨message, rfl⟩

/-- A change is either saved, or taken back up to the identifiers it used. -/
theorem Effect.commit {failure : Option String} {code : String} {reply : Reply}
    (hcounter : s.idCounter ≤ t.idCounter) (hsaved : Effect env now s request t (.ok reply)) :
    Effect env now s request (commitTeamState s t failure code reply).1
      (commitTeamState s t failure code reply).2 := by
  rcases commitTeamState_cases s t failure code reply with h | ⟨message, h⟩
  · rw [h]; exact hsaved
  · rw [h]; exact .refused _ 500 code message hcounter

end Commit

section Handlers
variable (env : Env) (now : Instant) (failure : Option String) (s : TeamState) (body : Fields)

theorem handleAgentRuntimeRegister_effect :
    Effect env now s (.register body) (handleAgentRuntimeRegister now failure s body).1
      (handleAgentRuntimeRegister now failure s body).2 := by
  simp only [handleAgentRuntimeRegister]
  split_ifs with hcomplete hfree
  · exact .unchanged ..
  · exact .unchanged ..
  · exact .commit (by have := lt_storeRegistration_idCounter s now (newRuntime s now body); omega)
      (.registered (by simpa using hcomplete) (by simpa using hfree))

theorem handleAgentRuntimeHeartbeat_effect :
    Effect env now s (.heartbeat body) (handleAgentRuntimeHeartbeat now failure s body).1
      (handleAgentRuntimeHeartbeat now failure s body).2 := by
  simp only [handleAgentRuntimeHeartbeat]
  split
  · exact .unchanged ..
  · split
    · exact .unchanged ..
    · rename_i item hfind
      split
      · exact .unchanged ..
      · rename_i hguard
        simp only [not_or, not_not] at hguard
        exact .commit (Nat.le_refl _) (.renewed item hfind hguard.1 hguard.2)

theorem handleAgentRuntimeUnregister_effect :
    Effect env now s (.unregister body) (handleAgentRuntimeUnregister now failure s body).1
      (handleAgentRuntimeUnregister now failure s body).2 := by
  simp only [handleAgentRuntimeUnregister]
  split
  · exact .unchanged ..
  · rename_i item hfind
    split
    · exact .unchanged ..
    · rename_i htoken
      exact .commit (by simp) (.unregistered item hfind (by simpa using htoken))

theorem checkTeamEvent_error {projectID : String} {last expected : Nat} {value : Json}
    {response : Response} (h : checkTeamEvent s projectID last expected value = .error response) :
    response.isError := by
  cases value with
  | obj event =>
      simp only [checkTeamEvent] at h
      generalize eventSequence event = sequence at h
      split at h
      · cases h; rfl
      split at h
      · cases h
      split at h
      · cases h; rfl
      split at h
      · cases h; rfl
      split at h
      · cases h; rfl
      split at h
      · cases h; rfl
      · cases h
  | _ => cases h; rfl

theorem checkTeamEvents_error {projectID : String} {last expected : Nat} {raw : List Json}
    {response : Response}
    (h : checkTeamEvents s projectID last expected raw = .error response) : response.isError := by
  induction raw generalizing expected with
  | nil => simp [checkTeamEvents] at h
  | cons value raw ih =>
      simp only [checkTeamEvents] at h
      split at h
      · rename_i hvalue
        exact Except.error.inj h ▸ checkTeamEvent_error s hvalue
      · exact ih h

theorem handleAgentRuntimeEvents_effect :
    Effect env now s (.events body) (handleAgentRuntimeEvents env now failure s body).1
      (handleAgentRuntimeEvents env now failure s body).2 := by
  simp only [handleAgentRuntimeEvents]
  split
  · exact .unchanged ..
  · rename_i hguard
    simp only [not_or, not_not] at hguard
    split
    · exact .unchanged ..
    · rename_i item hleased
      split
      · rename_i response hchecked
        exact .of_isError (checkTeamEvents_error s hchecked)
      · rename_i expected hchecked
        exact .commit (le_storeEventBatch_idCounter ..)
          (.ingested item expected hguard.1 hleased hchecked)

theorem handleAgentRuntimeCommands_effect (project runtime token limit : String) :
    Effect env now s (.commands project runtime token limit)
      (handleAgentRuntimeCommands now failure s project runtime token limit).1
      (handleAgentRuntimeCommands now failure s project runtime token limit).2 := by
  simp only [handleAgentRuntimeCommands]
  split
  · exact .unchanged ..
  · split
    · exact .unchanged ..
    · rename_i item hleased
      generalize hdelivered :
        deliverCommands now _ _ (boundedQueryInt limit 20 50) 0 s.agentCommands = delivered
      split
      · exact .answered (.commands []) rfl rfl
      · refine .commit (Nat.le_refl s.idCounter)
          (.polled ⟨validTeamID project, validTeamID runtime, trimSpace token⟩ item
            (boundedQueryInt limit 20 50) delivered hleased ?_ rfl)
        simpa only using hdelivered

theorem handleAgentRuntimeCommandAck_effect :
    Effect env now s (.commandAck body) (handleAgentRuntimeCommandAck now failure s body).1
      (handleAgentRuntimeCommandAck now failure s body).2 := by
  simp only [handleAgentRuntimeCommandAck]
  split
  · exact .unchanged ..
  · split
    · exact .unchanged ..
    · rename_i item hleased
      exact .commit (by simp) (.acked item _ _ hleased rfl)

theorem handleProjectRuntimeStatus_effect (project : String) :
    Effect env now s (.runtimeStatus project) (handleProjectRuntimeStatus now failure s project).1
      (handleProjectRuntimeStatus now failure s project).2 := by
  simp only [handleProjectRuntimeStatus]
  split
  · exact .unchanged ..
  · split
    · exact .commit (le_expireRuntimeLeasesLocked_idCounter s now) (.expired _)
    · exact .answered (.runtimes _) rfl rfl

theorem taskSpec_error {response : Response} (h : taskSpec body = .error response) :
    response.isError := by
  simp only [taskSpec] at h
  split at h
  · cases h; rfl
  split at h
  · cases h; rfl
  split at h
  · cases h; rfl
  split at h
  · cases h; rfl
  · cases h

theorem lt_storeNewTask_idCounter (projectID : String) (task : TeamTask) :
    s.idCounter < (storeNewTask s now projectID task).1.idCounter := by
  simp only [storeNewTask]
  split
  · refine Nat.lt_of_lt_of_le ?_ (le_enqueueTeamCommandLocked_idCounter ..)
    simp only [appendTeamEventLocked_idCounter, TeamState.tick]
    omega
  · simp only [appendTeamEventLocked_idCounter, TeamState.tick]
    omega

theorem handleProjectTaskCreate_effect (project : String) :
    Effect env now s (.taskCreate project body)
      (handleProjectTaskCreate env now failure s project body).1
      (handleProjectTaskCreate env now failure s project body).2 := by
  simp only [handleProjectTaskCreate]
  split
  · exact .unchanged ..
  · split
    · rename_i response hspec
      exact .of_isError (taskSpec_error body hspec)
    · rename_i spec hspec
      split
      · exact .recreated _
      · split
        · exact .unchanged ..
        · rename_i hcapacity
          have hpending := (not_or.mp hcapacity).2
          split
          · exact .refused (s.idCounter + 1) 400 "TASK_DEPENDENCIES_INVALID" _ (Nat.le_succ _)
          · rename_i hdeps
            exact .commit (Nat.le_of_lt (lt_storeNewTask_idCounter ..))
              (.created spec _ hspec hdeps (Nat.lt_of_not_le hpending))

theorem taskActionRefusal_cases {task : TeamTask} {action : TaskAction} {response : Response}
    (h : taskActionRefusal s task action body = some response) :
    response = .ok (.replayed task) ∨ response.isError := by
  simp only [taskActionRefusal] at h
  split_ifs at h <;> cases h <;> simp [Response.isError, commandCapacityReached]

theorem handleDevTaskAction_effect (path : String) (action : TaskAction) :
    Effect env now s (.taskAction path action body)
      (handleDevTaskAction env now failure s path action body).1
      (handleDevTaskAction env now failure s path action body).2 := by
  simp only [handleDevTaskAction]
  split
  · exact .unchanged ..
  · rename_i task hfind
    split
    · rename_i response hrefusal
      rcases taskActionRefusal_cases s body hrefusal with rfl | herror
      · exact .repeated task hfind hrefusal
      · exact .of_isError herror
    · rename_i hrefusal
      have hcounter := le_performTaskAction_idCounter env s now task body action
      have hsaved : Effect env now s (.taskAction path action body) _ _ :=
        .acted task hfind hrefusal
      cases action with
      | input =>
          rcases commitTeamState_cases (actionSnapshot s now task .input)
              (performTaskAction env s now task .input body) failure "TASK_SAVE_FAILED" _ with
            h | ⟨message, h⟩
          · rw [h]; exact hsaved
          · rw [h]; exact .inputUnsaved task _ message hcounter hfind
      | _ => exact .commit hcounter hsaved

theorem storeArtifactUpload_effect (c : RuntimeCredentials) (taskID artifactID : String)
    (fields : Fields) :
    Effect env now s (.artifactUpload c taskID artifactID fields)
      (storeArtifactUpload now failure s c taskID artifactID fields).1
      (storeArtifactUpload now failure s c taskID artifactID fields).2 := by
  simp only [storeArtifactUpload]
  split
  · exact .unchanged ..
  · exact .unchanged ..
  · rename_i item task hleased hfind
    split
    · exact .unchanged ..
    · exact .commit (Nat.le_refl _) (.uploaded item task hleased hfind)

end Handlers

/-- Every request has one of the listed outcomes. -/
theorem handle_effect (env : Env) (now : Instant) (failure : Option String) (s : TeamState)
    (request : Request) :
    Effect env now s request (handle env now failure s request).1
      (handle env now failure s request).2 := by
  cases request with
  | register body => exact handleAgentRuntimeRegister_effect env now failure s body
  | heartbeat body => exact handleAgentRuntimeHeartbeat_effect env now failure s body
  | unregister body => exact handleAgentRuntimeUnregister_effect env now failure s body
  | events body => exact handleAgentRuntimeEvents_effect env now failure s body
  | commands project runtime token limit =>
      exact handleAgentRuntimeCommands_effect env now failure s project runtime token limit
  | commandAck body => exact handleAgentRuntimeCommandAck_effect env now failure s body
  | runtimeStatus project => exact handleProjectRuntimeStatus_effect env now failure s project
  | taskCreate project body => exact handleProjectTaskCreate_effect env now failure s body project
  | taskAction path action body =>
      exact handleDevTaskAction_effect env now failure s body path action
  | artifactUpload c taskID artifactID fields =>
      exact storeArtifactUpload_effect env now failure s c taskID artifactID fields

/-- Identifiers are never taken back. -/
theorem Effect.idCounter_le {env : Env} {now : Instant} {s t : TeamState} {request : Request}
    {response : Response} (h : Effect env now s request t response) :
    s.idCounter ≤ t.idCounter := by
  cases h with
  | refused n status code message hn => exact hn
  | answered => exact Nat.le_refl _
  | recreated => exact Nat.le_refl _
  | repeated => exact Nat.le_refl _
  | inputUnsaved task n message hn => exact hn
  | @registered body =>
      have := lt_storeRegistration_idCounter s now (newRuntime s now body)
      omega
  | renewed => exact Nat.le_refl _
  | unregistered => exact Nat.le_succ _
  | ingested => exact le_storeEventBatch_idCounter ..
  | polled => exact Nat.le_refl _
  | acked => simp
  | expired => exact le_expireRuntimeLeasesLocked_idCounter s now
  | created => exact Nat.le_of_lt (lt_storeNewTask_idCounter ..)
  | acted => exact le_performTaskAction_idCounter ..
  | uploaded => exact Nat.le_refl _

/-! ## What becomes of the tasks -/

theorem openTask_some {s : TeamState} {projectID taskID : String} {task : TeamTask}
    (h : openTask s projectID taskID = some task) :
    findTeamTaskLocked s taskID = some task ∧ task.projectId = projectID ∧
      teamTaskHumanTerminal task = false := by
  simpa [openTask, Option.filter_eq_some_iff] using h

theorem findTeamTaskLocked_some {s : TeamState} {taskID : String} {task : TeamTask}
    (h : findTeamTaskLocked s taskID = some task) :
    task ∈ s.teamTasks ∧ task.taskId = taskID := lookupKey_some h

/-- A found task is found under its own identifier. -/
theorem lookupKey_of_find {s : TeamState} {taskID : String} {task new : TeamTask}
    (h : findTeamTaskLocked s taskID = some task) (hid : new.taskId = task.taskId) :
    lookupKey TeamTask.taskId new.taskId s.teamTasks = some task := by
  rw [hid, (findTeamTaskLocked_some h).2]
  exact h

section Tasks
variable {env : Env} {now : Instant} {s t : TeamState} {request : Request} {response : Response}
variable {P : List TeamTask → Prop}

/-- Every rewrite of the tasks is a move of the scheduler, an event batch, an
annotation, a user action or a new task. A property that all five keep is kept
by every request. -/
theorem Effect.tasks_of_batch (h : Effect env now s request t response) (hs : P s.teamTasks)
    (hschedule : ∀ (s : TeamState) projectID i task t, P s.teamTasks →
      s.teamTasks[i]? = some task → task.projectId = projectID → task.status.waits →
      Scheduled env now projectID s i task t → P t.teamTasks)
    (hbatch : ∀ body item expected, request = .events body → response.isOk = true →
      leasedRuntime s now (runtimeCredentials body) = some item →
      checkTeamEvents s (runtimeCredentials body).projectID (lastAccepted item)
        (lastAccepted item) (bodyList body "events") = .ok expected →
      P (storeEventBatch env now s (runtimeCredentials body) item
        (eventObjects (bodyList body "events"))).teamTasks)
    (hannotate : ∀ (task new : TeamTask),
      lookupKey TeamTask.taskId new.taskId s.teamTasks = some task →
      new.assignment = task.assignment → new.progress = task.progress →
      P (replaceKey TeamTask.taskId new s.teamTasks))
    (hact : ∀ task path action body, request = .taskAction path action body →
      findTeamTaskLocked s (validTeamID path) = some task →
      taskActionRefusal s task action body = none →
      response = .ok (.task
        (actedTask env (prepareTaskAction s now task action) now task body action)) →
      P (replaceKey TeamTask.taskId
        (actedTask env (prepareTaskAction s now task action) now task body action) s.teamTasks))
    (hcreate : ∀ project spec, (∃ path body, request = .taskCreate path body) →
      s.idCounter < t.idCounter →
      validateTeamDependenciesLocked s project (newTeamTask env s now project spec).taskId
        spec.dependencies = none →
      P (s.teamTasks ++ [newTeamTask env s now project spec])) :
    P t.teamTasks := by
  have hactivate : ∀ (s : TeamState) projectID, P s.teamTasks →
      P (activateReadyTeamTasksLocked env s now projectID).teamTasks := by
    intro s projectID hs
    exact activateReady_preserves (P := fun t : TeamState => P t.teamTasks)
      (fun s i task t hs hget hp hw hmove => hschedule s projectID i task t hs hget hp hw hmove) hs
  cases h with
  | refused => exact hs
  | answered => exact hs
  | recreated => exact hs
  | repeated => exact hs
  | inputUnsaved task n message hn hfind =>
      exact hannotate task _ (lookupKey_of_find hfind rfl) rfl rfl
  | registered => simpa using hs
  | renewed => exact hs
  | unregistered => exact hs
  | ingested item expected _ hleased hchecked =>
      exact hbatch _ item expected rfl rfl hleased hchecked
  | polled => exact hs
  | acked => simpa using hs
  | expired => simpa using hs
  | created spec reply hspec hdeps =>
      have hnew := hcreate _ spec ⟨_, _, rfl⟩ (lt_storeNewTask_idCounter ..) hdeps
      simp only [storeNewTask]
      split
      · simpa using hnew
      · exact hnew
  | @acted path action body task hfind hrefusal =>
      exact performTaskAction_tasks hactivate
        (hact task path action body rfl hfind hrefusal rfl)
  | @uploaded c taskID artifactID fields item task hleased hfind =>
      exact hannotate task (updateTeamArtifactLocked task artifactID fields)
        (lookupKey_of_find hfind rfl) rfl rfl

/-- The same with one case for the write of an agent event. -/
theorem Effect.tasks (h : Effect env now s request t response) (hs : P s.teamTasks)
    (hschedule : ∀ (s : TeamState) projectID i task t, P s.teamTasks →
      s.teamTasks[i]? = some task → task.projectId = projectID → task.status.waits →
      Scheduled env now projectID s i task t → P t.teamTasks)
    (hagent : ∀ (s : TeamState) projectID taskID typ payload task new, P s.teamTasks →
      openTask s projectID taskID = some task → AgentWrite typ payload task new →
      P (replaceKey TeamTask.taskId new s.teamTasks))
    (hannotate : ∀ (task new : TeamTask),
      lookupKey TeamTask.taskId new.taskId s.teamTasks = some task →
      new.assignment = task.assignment → new.progress = task.progress →
      P (replaceKey TeamTask.taskId new s.teamTasks))
    (hact : ∀ task path action body, request = .taskAction path action body →
      findTeamTaskLocked s (validTeamID path) = some task →
      taskActionRefusal s task action body = none →
      response = .ok (.task
        (actedTask env (prepareTaskAction s now task action) now task body action)) →
      P (replaceKey TeamTask.taskId
        (actedTask env (prepareTaskAction s now task action) now task body action) s.teamTasks))
    (hcreate : ∀ project spec, (∃ path body, request = .taskCreate path body) →
      s.idCounter < t.idCounter →
      validateTeamDependenciesLocked s project (newTeamTask env s now project spec).taskId
        spec.dependencies = none →
      P (s.teamTasks ++ [newTeamTask env s now project spec])) :
    P t.teamTasks := by
  refine h.tasks_of_batch hs hschedule ?_ hannotate hact hcreate
  intro body item expected _ _ _ _
  refine storeEventBatch_preserves (P := fun t : TeamState => P t.teamTasks)
    (fun s item hs => hs) ?_ hs
  intro s event hs
  apply ingestTeamEvent_preserves (P := fun t : TeamState => P t.teamTasks) _ _ _ hs
  · intro s hs
    simpa only [storeTeamEvent_teamTasks] using hs
  · intro s task new hs hopen hw
    exact hagent s _ _ _ _ task new hs hopen hw
  · intro s hs
    exact activateReady_preserves (P := fun t : TeamState => P t.teamTasks)
      (fun s i task t hs hget hp hw hmove => hschedule s _ i task t hs hget hp hw hmove) hs

end Tasks

/-- A found entry is found under its own key. -/
theorem lookupKey_of_findRuntime {s : TeamState} {projectID runtimeID : String}
    {item new : AgentRuntime} (h : findRuntimeLocked s projectID runtimeID = some item)
    (hkey : new.key = item.key) :
    lookupKey AgentRuntime.key new.key s.agentRuntimes = some item := by
  have hitem : item.key = (projectID, runtimeID) := (lookupKey_some h).2
  rw [hkey, hitem]
  exact h

/-- The entries are rewritten by a registration, a heartbeat, an unregistration,
an event batch and the expiry of leases. A property that these keep is kept by
every request. -/
theorem Effect.runtimes {env : Env} {now : Instant} {s t : TeamState} {request : Request}
    {response : Response} {P : List AgentRuntime → Prop}
    (h : Effect env now s request t response) (hs : P s.agentRuntimes)
    (hregister : ∀ body, request = .register body →
      response = .ok (.runtime (newRuntime s now body)) → s.idCounter + 2 < t.idCounter →
      P (registeredRuntimes s.agentRuntimes (newRuntime s now body)))
    (hrenew : ∀ item body, request = .heartbeat body →
      findRuntimeLocked s (runtimeCredentials body).projectID
        (runtimeCredentials body).runtimeID = some item →
      item.status ≠ .fenced →
      P (replaceKey AgentRuntime.key (renewedRuntime now item body) s.agentRuntimes))
    (hunregister : ∀ item body, request = .unregister body → response.isOk = true →
      findRuntimeLocked s (runtimeCredentials body).projectID
        (runtimeCredentials body).runtimeID = some item →
      item.fencingToken = (runtimeCredentials body).fencing →
      P (replaceKey AgentRuntime.key (offlineRuntime now item) s.agentRuntimes))
    (hsequence : ∀ item body expected, request = .events body → response.isOk = true →
      leasedRuntime s now (runtimeCredentials body) = some item →
      checkTeamEvents s (runtimeCredentials body).projectID (lastAccepted item)
        (lastAccepted item) (bodyList body "events") = .ok expected →
      P (replaceKey AgentRuntime.key
        (sequencedRuntime now item
          (lastFresh (lastAccepted item) (eventObjects (bodyList body "events"))))
        s.agentRuntimes))
    (hexpire : P (s.agentRuntimes.map (afterExpiry now))) : P t.agentRuntimes := by
  cases h with
  | refused => exact hs
  | answered => exact hs
  | recreated => exact hs
  | repeated => exact hs
  | inputUnsaved => exact hs
  | registered => simpa using hregister _ rfl rfl (lt_storeRegistration_idCounter ..)
  | @renewed body item hfind htoken hfenced =>
      have hkey : lookupKey AgentRuntime.key (renewedRuntime now item body).key s.agentRuntimes =
          some item := lookupKey_of_findRuntime hfind rfl
      rw [replaceRuntimeLocked_agentRuntimes hkey]
      exact hrenew item body rfl hfind hfenced
  | @unregistered body item hfind htoken =>
      have hkey : lookupKey AgentRuntime.key (offlineRuntime now item).key s.agentRuntimes =
          some item := lookupKey_of_findRuntime hfind rfl
      rw [appendTeamEventLocked_agentRuntimes, replaceRuntimeLocked_agentRuntimes hkey]
      exact hunregister item body rfl rfl hfind htoken
  | @ingested body item expected hcomplete hleased hchecked =>
      rw [storeEventBatch_agentRuntimes hleased]
      exact hsequence item body expected rfl rfl hleased hchecked
  | polled => exact hs
  | acked => simpa using hs
  | expired => rw [expireRuntimeLeasesLocked_agentRuntimes]; exact hexpire
  | created spec reply hspec hdeps =>
      simp only [storeNewTask]
      split
      · simpa using hs
      · exact hs
  | acted => simpa using hs
  | uploaded => exact hs

/-! ## Steps of the machine -/

theorem next_effect (env : Env) (w : World) (i : Input) :
    Effect env (next env w i).now w.team i.request (next env w i).team (respond env w i) :=
  handle_effect env (w.now + i.advance) i.failure w.team i.request

/-- When the save fails, the answer is an error or nothing was to be saved. -/
theorem handle_failed (env : Env) (now : Instant) (message : String) (s : TeamState)
    (request : Request) :
    (handle env now (some message) s request).2.isOk = false ∨
      (handle env now (some message) s request).1 = s := by
  cases request with
  | register body =>
      simp only [handle, handleAgentRuntimeRegister]
      split_ifs <;> exact .inl rfl
  | heartbeat body =>
      simp only [handle, handleAgentRuntimeHeartbeat]
      split
      · exact .inl rfl
      · split
        · exact .inl rfl
        · split <;> exact .inl rfl
  | unregister body =>
      simp only [handle, handleAgentRuntimeUnregister]
      split
      · exact .inl rfl
      · split <;> exact .inl rfl
  | events body =>
      simp only [handle, handleAgentRuntimeEvents]
      split
      · exact .inl rfl
      · split
        · exact .inl rfl
        · split
          · exact .inr rfl
          · exact .inl rfl
  | commands project runtime token limit =>
      simp only [handle, handleAgentRuntimeCommands]
      split
      · exact .inl rfl
      · split
        · exact .inl rfl
        · split
          · exact .inr rfl
          · exact .inl rfl
  | commandAck body =>
      simp only [handle, handleAgentRuntimeCommandAck]
      split
      · exact .inl rfl
      · split <;> exact .inl rfl
  | runtimeStatus project =>
      simp only [handle, handleProjectRuntimeStatus]
      split
      · exact .inl rfl
      · split
        · exact .inl rfl
        · exact .inr rfl
  | taskCreate project body =>
      simp only [handle, handleProjectTaskCreate]
      split
      · exact .inl rfl
      · split
        · exact .inr rfl
        · split
          · exact .inr rfl
          · split
            · exact .inl rfl
            · split <;> exact .inl rfl
  | taskAction path action body =>
      simp only [handle, handleDevTaskAction]
      split
      · exact .inl rfl
      · split
        · exact .inr rfl
        · exact .inl rfl
  | artifactUpload c taskID artifactID fields =>
      simp only [handle, storeArtifactUpload]
      split
      · exact .inl rfl
      · exact .inl rfl
      · split <;> exact .inl rfl

/-- What every request keeps under a condition that is needed when it is
answered with `200`, a step keeps if the condition holds whenever its save succeeds. -/
theorem next_keeps {env : Env} {P : TeamState → Prop}
    {C : Instant → TeamState → Request → Response → Prop} {w : World} {i : Input}
    (hrequest : ∀ {now s t request response}, Effect env now s request t response → P s →
      (response.isOk = true → C now s request response) → P t)
    (hw : P w.team)
    (hC : i.failure = none → C (next env w i).now w.team i.request (respond env w i)) :
    P (next env w i).team := by
  cases hfailure : i.failure with
  | none => exact hrequest (next_effect env w i) hw fun _ => hC hfailure
  | some message =>
      have hfailed := handle_failed env (next env w i).now message w.team i.request
      rw [← hfailure] at hfailed
      rcases hfailed with herror | hsame
      · exact hrequest (next_effect env w i) hw fun hok => absurd (herror.symm.trans hok) (by simp)
      · exact (show (next env w i).team = w.team from hsame) ▸ hw

end WorkMesh.AgentTeam
