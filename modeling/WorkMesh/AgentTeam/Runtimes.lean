import WorkMesh.AgentTeam.Events

/-!
# Registration, heartbeat and the end of a lease

A registration replaces the entry of its runtime and fences every other entry
of the project. A heartbeat renews a lease, `unregister` and the expiry of a
lease end it.
-/

namespace WorkMesh.AgentTeam

open StateMachine

/-! ## Registration -/

/-- The entry that decides whether a registration is refused. -/
def currentRuntime (s : TeamState) (projectID : String) : Option AgentRuntime :=
  s.agentRuntimes.find? fun item => item.projectId = projectID ∧ item.status ≠ .offline

/-- The entry of a new registration. Its `lastSequence` is not written. -/
def newRuntime (s : TeamState) (now : Instant) (body : Fields) : AgentRuntime where
  projectId := validTeamID (aiString body ["projectId"])
  runtimeId := validTeamID (aiString body ["runtimeId"])
  instanceId := validTeamID (aiString body ["instanceId"])
  memberId := validTeamID (aiString body ["memberId"])
  deviceId := validTeamID (aiString body ["deviceId"])
  status := .online
  fencingToken := teamNewID "fence" now (s.idCounter + 1)
  leaseId := teamNewID "lease" now (s.idCounter + 2)
  activeSessions := boundedInt (body.lookup "activeSessions") 0 10000
  activeTasks := boundedInt (body.lookup "activeTasks") 0 10000
  registeredAt := now
  lastSeenAt := now
  leaseExpiresAt := some (now + teamLeaseDuration)

/-- Fence an entry of the project. -/
def fenceRuntime (projectID : String) (old : AgentRuntime) : AgentRuntime :=
  if old.projectId = projectID then { old with status := .fenced } else old

/-- The runtime list after a registration. -/
def registeredRuntimes (runtimes : List AgentRuntime) (item : AgentRuntime) :
    List AgentRuntime :=
  (runtimes.filter fun old => old.key ≠ item.key).map (fenceRuntime item.projectId) ++ [item]

/-- Hand an unfinished command of the project to a runtime. -/
def requeueTeamCommand (projectID runtimeID : String) (command : AgentCommand) : AgentCommand :=
  if command.projectId = projectID ∧ ¬teamCommandTerminal command then
    { command with runtimeId := runtimeID, status := .queued }
  else command

/-- Queue the start of an accepted task that has no unfinished one. -/
def redispatchTeamTask (now : Instant) (projectID : String) (s : TeamState) (task : TeamTask) :
    TeamState :=
  if task.projectId ≠ projectID ∨ task.status ≠ .accepted then s
  else if s.agentCommands.any fun command =>
      command.taskId = task.taskId ∧ command.kind = .taskStart ∧ ¬teamCommandTerminal command
  then s
  else (enqueueTeamCommandLocked s now task).1

/-- Everything that an accepted registration changes. -/
def storeRegistration (s : TeamState) (now : Instant) (item : AgentRuntime) : TeamState :=
  let registered :=
    { s.tick.tick with
      agentRuntimes := registeredRuntimes s.agentRuntimes item
      agentCommands := s.agentCommands.map (requeueTeamCommand item.projectId item.runtimeId) }
  appendTeamEventLocked (s.teamTasks.foldl (redispatchTeamTask now item.projectId) registered) now
    item.projectId "runtime.online" "" item.runtimeId [("memberId", .str item.memberId)]

section Frame
variable (s : TeamState) (now : Instant) (projectID : String) (task : TeamTask)

/-- A task is skipped, or its start is queued anew. -/
theorem redispatchTeamTask_cases :
    redispatchTeamTask now projectID s task = s ∨
      task.projectId = projectID ∧ task.status = .accepted ∧
        (∀ command ∈ s.agentCommands, command.taskId = task.taskId → command.kind = .taskStart →
          teamCommandTerminal command = true) ∧
        redispatchTeamTask now projectID s task = (enqueueTeamCommandLocked s now task).1 := by
  by_cases hskip : task.projectId ≠ projectID ∨ task.status ≠ .accepted
  · exact .inl (by simp only [redispatchTeamTask, if_pos hskip])
  · by_cases hfound : (s.agentCommands.any fun command =>
        command.taskId = task.taskId ∧ command.kind = .taskStart ∧
          ¬teamCommandTerminal command) = true
    · exact .inl (by simp only [redispatchTeamTask, if_neg hskip, if_pos hfound])
    · refine .inr ⟨?_, ?_, ?_, by simp only [redispatchTeamTask, if_neg hskip, if_neg hfound]⟩
      · exact by_contra fun h => hskip (.inl h)
      · exact by_contra fun h => hskip (.inr h)
      · simpa using hfound

@[simp] theorem redispatchTeamTask_agentRuntimes :
    (redispatchTeamTask now projectID s task).agentRuntimes = s.agentRuntimes := by
  rcases redispatchTeamTask_cases s now projectID task with h | ⟨-, -, -, h⟩ <;> simp [h]
@[simp] theorem redispatchTeamTask_teamTasks :
    (redispatchTeamTask now projectID s task).teamTasks = s.teamTasks := by
  rcases redispatchTeamTask_cases s now projectID task with h | ⟨-, -, -, h⟩ <;> simp [h]
theorem le_redispatchTeamTask_idCounter :
    s.idCounter ≤ (redispatchTeamTask now projectID s task).idCounter := by
  rcases redispatchTeamTask_cases s now projectID task with h | ⟨-, -, -, h⟩
  · simp [h]
  · rw [h]; exact le_enqueueTeamCommandLocked_idCounter ..

end Frame

/-- What queueing keeps, the loop over the tasks keeps. -/
theorem redispatch_preserves {now : Instant} {projectID : String} {P : TeamState → Prop}
    (tasks : List TeamTask)
    (htask : ∀ s, ∀ task ∈ tasks, P s → P (redispatchTeamTask now projectID s task))
    {s : TeamState} (hs : P s) : P (tasks.foldl (redispatchTeamTask now projectID) s) :=
  List.foldlRecOn _ _ hs fun s h task hmem => htask s task hmem h

section Frame
variable (s : TeamState) (now : Instant) (item : AgentRuntime)

@[simp] theorem storeRegistration_agentRuntimes :
    (storeRegistration s now item).agentRuntimes = registeredRuntimes s.agentRuntimes item := by
  simp only [storeRegistration, appendTeamEventLocked_agentRuntimes]
  exact redispatch_preserves
    (P := fun t : TeamState => t.agentRuntimes = registeredRuntimes s.agentRuntimes item) _
    (fun t task _ h => by rw [redispatchTeamTask_agentRuntimes, h]) rfl
@[simp] theorem storeRegistration_teamTasks :
    (storeRegistration s now item).teamTasks = s.teamTasks := by
  simp only [storeRegistration, appendTeamEventLocked_teamTasks]
  exact redispatch_preserves (P := fun t : TeamState => t.teamTasks = s.teamTasks) _
    (fun t task _ h => by rw [redispatchTeamTask_teamTasks, h]) rfl
theorem lt_storeRegistration_idCounter :
    s.idCounter + 2 < (storeRegistration s now item).idCounter := by
  simp only [storeRegistration, appendTeamEventLocked_idCounter, Nat.lt_succ_iff]
  exact redispatch_preserves (P := fun t : TeamState => s.idCounter + 2 ≤ t.idCounter) _
    (fun t task _ h => Nat.le_trans h (le_redispatchTeamTask_idCounter t now _ task))
    (Nat.le_refl _)

end Frame

/-- A field that a registration must give is missing. -/
def AgentRuntime.incomplete (item : AgentRuntime) : Bool :=
  item.projectId = "" ∨ item.runtimeId = "" ∨ item.instanceId = "" ∨ item.memberId = ""

/-- Another runtime holds the lease, as far as the deciding entry tells. -/
def registrationBlocked (s : TeamState) (now : Instant) (item : AgentRuntime) : Bool :=
  (currentRuntime s item.projectId).any fun current =>
    current.runtimeId ≠ item.runtimeId && current.leaseAfter now

def handleAgentRuntimeRegister (now : Instant) (failure : Option String) (s : TeamState)
    (body : Fields) : TeamState × Response :=
  let item := newRuntime s now body
  if item.incomplete then
    (s, .error 400 "AGENT_RUNTIME_FIELDS_REQUIRED"
      "projectId、runtimeId、instanceId 和 memberId 不能为空且只能包含安全标识字符")
  else if registrationBlocked s now item then
    (s, .error 409 "AGENT_RUNTIME_ALREADY_ACTIVE" "同一项目已有活动 Agent runtime")
  else
    commitTeamState s (storeRegistration s now item) failure "AGENT_RUNTIME_SAVE_FAILED"
      (.runtime item)

/-! ## Heartbeat and unregistration -/

/-- The entry after a heartbeat. -/
def renewedRuntime (now : Instant) (item : AgentRuntime) (body : Fields) : AgentRuntime :=
  let activeSessions := boundedInt (body.lookup "activeSessions") 0 10000
  let activeTasks := boundedInt (body.lookup "activeTasks") 0 10000
  { item with
    status := if activeTasks = 0 ∧ activeSessions = 0 then .online else .busy
    activeSessions := activeSessions
    activeTasks := activeTasks
    lastSeenAt := now
    leaseExpiresAt := some (now + teamLeaseDuration) }

def handleAgentRuntimeHeartbeat (now : Instant) (failure : Option String) (s : TeamState)
    (body : Fields) : TeamState × Response :=
  let c := runtimeCredentials body
  if ¬c.complete then
    (s, .error 400 "AGENT_HEARTBEAT_FIELDS_REQUIRED" "projectId、runtimeId 和 fencingToken 不能为空")
  else
    match findRuntimeLocked s c.projectID c.runtimeID with
    | none => (s, teamFenced)
    | some item =>
        if item.fencingToken ≠ c.fencing ∨ item.status = .fenced then (s, teamFenced)
        else
          commitTeamState s (replaceRuntimeLocked s (renewedRuntime now item body)) failure
            "AGENT_RUNTIME_SAVE_FAILED" (.runtime (renewedRuntime now item body))

/-- The entry after its lease was given up or has run out. -/
def offlineRuntime (now : Instant) (item : AgentRuntime) : AgentRuntime :=
  { item with status := .offline, lastSeenAt := now, leaseExpiresAt := none }

/-- The guard is the fencing token alone. -/
def handleAgentRuntimeUnregister (now : Instant) (failure : Option String) (s : TeamState)
    (body : Fields) : TeamState × Response :=
  let c := runtimeCredentials body
  match findRuntimeLocked s c.projectID c.runtimeID with
  | none => (s, teamFenced)
  | some item =>
      if item.fencingToken ≠ c.fencing then (s, teamFenced)
      else
        let logged := appendTeamEventLocked (replaceRuntimeLocked s (offlineRuntime now item)) now
          c.projectID "runtime.offline" "" c.runtimeID []
        commitTeamState s logged failure "AGENT_RUNTIME_SAVE_FAILED" .unregistered

/-! ## Expiry -/

/-- The entry is in use and its lease is over. -/
def leaseExpired (now : Instant) (item : AgentRuntime) : Bool :=
  item.status ≠ .fenced ∧ item.status ≠ .offline ∧
    item.leaseExpiresAt.any fun expiresAt => expiresAt ≤ now

/-- One iteration of the expiry loop. -/
def expireRuntimeLease (now : Instant) (s : TeamState) (i : Nat) : TeamState :=
  match s.agentRuntimes[i]? with
  | none => s
  | some item =>
      if leaseExpired now item then
        appendTeamEventLocked
          { s with agentRuntimes := s.agentRuntimes.set i (offlineRuntime now item) } now
          item.projectId "runtime.offline" "" item.runtimeId [("reason", .str "lease_expired")]
      else s

def expireRuntimeLeasesLocked (s : TeamState) (now : Instant) : TeamState :=
  (List.range s.agentRuntimes.length).foldl (expireRuntimeLease now) s

/-- What rewriting entries and logging keep, the expiry of leases keeps. -/
theorem expireRuntimeLeases_preserves {now : Instant} {P : TeamState → Prop}
    (hruntimes : ∀ s runtimes, P s → P { s with agentRuntimes := runtimes })
    (hlog : ∀ s projectID typ runtimeID payload, P s →
      P (appendTeamEventLocked s now projectID typ "" runtimeID payload))
    {s : TeamState} (hs : P s) : P (expireRuntimeLeasesLocked s now) := by
  apply List.foldlRecOn _ _ hs
  intro s hs i _
  simp only [expireRuntimeLease]
  split
  · exact hs
  · split
    · exact hlog _ _ _ _ _ (hruntimes _ _ hs)
    · exact hs

/-- What becomes of an entry when expired leases end. -/
def afterExpiry (now : Instant) (item : AgentRuntime) : AgentRuntime :=
  if leaseExpired now item then offlineRuntime now item else item

theorem expireRuntimeLeasesLocked_agentRuntimes (s : TeamState) (now : Instant) :
    (expireRuntimeLeasesLocked s now).agentRuntimes = s.agentRuntimes.map (afterExpiry now) := by
  apply foldl_range_map (r := TeamState.agentRuntimes)
  intro s i item hget
  simp only [expireRuntimeLease, hget, afterExpiry]
  split
  · rfl
  · obtain ⟨hi, rfl⟩ := List.getElem?_eq_some_iff.mp hget
    exact (List.set_getElem_self hi).symm

@[simp] theorem expireRuntimeLeasesLocked_teamTasks (s : TeamState) (now : Instant) :
    (expireRuntimeLeasesLocked s now).teamTasks = s.teamTasks :=
  expireRuntimeLeases_preserves (P := fun t => t.teamTasks = s.teamTasks)
    (fun _ _ h => h) (fun _ _ _ _ _ h => h) rfl

@[simp] theorem expireRuntimeLeasesLocked_agentCommands (s : TeamState) (now : Instant) :
    (expireRuntimeLeasesLocked s now).agentCommands = s.agentCommands :=
  expireRuntimeLeases_preserves (P := fun t => t.agentCommands = s.agentCommands)
    (fun _ _ h => h) (fun _ _ _ _ _ h => h) rfl

theorem le_expireRuntimeLeasesLocked_idCounter (s : TeamState) (now : Instant) :
    s.idCounter ≤ (expireRuntimeLeasesLocked s now).idCounter :=
  expireRuntimeLeases_preserves (P := fun t => s.idCounter ≤ t.idCounter)
    (fun _ _ h => h) (fun _ _ _ _ _ h => Nat.le_succ_of_le h) (Nat.le_refl _)

def hasExpiredRuntimeLeaseLocked (s : TeamState) (now : Instant) : Bool :=
  s.agentRuntimes.any (leaseExpired now)

/-- The status query of a project. The event streams expire leases in the same
way before they read the log. -/
def handleProjectRuntimeStatus (now : Instant) (failure : Option String) (s : TeamState)
    (project : String) : TeamState × Response :=
  let projectID := validTeamID project
  if projectID = "" then (s, .error 400 "PROJECT_ID_INVALID" "projectId 无效")
  else
    let expired :=
      if hasExpiredRuntimeLeaseLocked s now then expireRuntimeLeasesLocked s now else s
    let items := expired.agentRuntimes.filter fun item => item.projectId = projectID
    if hasExpiredRuntimeLeaseLocked s now then
      commitTeamState s expired failure "AGENT_RUNTIME_SAVE_FAILED" (.runtimes items)
    else (s, .ok (.runtimes items))

end WorkMesh.AgentTeam
