import WorkMesh.AgentTeam.Scheduling

/-!
# What an agent event does to its task

Status events, handoffs, completion reports and artifact records. A task that
a user has completed or cancelled is left alone.
-/

namespace WorkMesh.AgentTeam

open StateMachine

/-! ## Normalising the payload -/

/-- Set one entry of a map. -/
def putField (fields : Fields) (key : String) (value : Json) : Fields :=
  (key, value) :: fields.filter fun entry => entry.1 ≠ key

/-- Bounded texts of the given keys, without the empty ones. -/
def boundedFields (payload : Fields) (max : Nat) (keys : List String) : Fields :=
  keys.flatMap fun key => textField key (boundedText (aiString payload [key]) max)

def normalizeTeamHandoff (payload : Fields) : Except String Fields :=
  let toMemberID := validTeamID (aiString payload ["toMemberId"])
  let toSessionID := validTeamID (aiString payload ["toSessionId"])
  let fromMemberID := aiString payload ["fromMemberId"]
  let fromSessionID := aiString payload ["fromSessionId"]
  if toMemberID = "" ∧ toSessionID = "" then
    .error "task.handoff 必须提供 toMemberId 或 toSessionId"
  else if fromMemberID ≠ "" ∧ validTeamID fromMemberID = "" then
    .error "task.handoff 的 fromMemberId 无效"
  else if fromSessionID ≠ "" ∧ validTeamID fromSessionID = "" then
    .error "task.handoff 的 fromSessionId 无效"
  else
    let normalized := boundedFields payload 2000
      ["fromMemberId", "fromSessionId", "toMemberId", "toSessionId", "reason", "summary"]
    let normalized :=
      if toMemberID ≠ "" then putField normalized "toMemberId" (.str toMemberID) else normalized
    .ok (if toSessionID ≠ "" then putField normalized "toSessionId" (.str toSessionID)
      else normalized)

def boundedArtifactSize (value : Option Json) : Option Nat :=
  let bounded (size : Int) : Option Nat :=
    if size < 0 ∨ 1 <<< 30 < size then none else some size.toNat
  match value with
  | some (.num v _) => if v.den = 1 then bounded v.num else none
  | some (.str text) => (atoi (trimSpace text)).bind bounded
  | _ => none

def isHexDigit (c : Char) : Bool := c.isDigit || ('a' ≤ c && c ≤ 'f')

def normalizeTeamArtifact (payload : Fields) : Except String Fields :=
  let artifactID := validTeamID (aiString payload ["artifactId"])
  let kind := aiString payload ["kind"]
  let hash := toLower (trimSpace (aiString payload ["sha256"]))
  let optional := boundedFields payload 512 ["storageRef", "mediaType", "evidenceType", "label"]
  let storageRef := boundedText (aiString payload ["storageRef"]) 512
  if artifactID = "" then .error "artifact.created 必须提供有效 artifactId"
  else if kind ∉ ["diff", "test", "log", "screenshot", "video", "trace", "visual", "other"] then
    .error "artifact.created 的 kind 无效"
  else if hash.utf8ByteSize ≠ 64 then .error "artifact.created 必须提供 64 位 sha256"
  else if ¬hash.toList.all isHexDigit then .error "artifact.created 的 sha256 无效"
  else
    match boundedArtifactSize (payload.lookup "size") with
    | none => .error "artifact.created 的 size 必须是 0 到 1GiB 的整数"
    | some size =>
        if storageRef ≠ "" ∧ validTeamID storageRef = "" then
          .error "artifact.created 的 storageRef 只能使用安全标识"
        else
          .ok ([("artifactId", .str artifactID), ("kind", .str kind), ("sha256", .str hash),
            ("size", .int size)] ++ optional)

/-- The artifact identifiers of a completion report. -/
def reportArtifactIDs (value : Option Json) : Except String (List String) :=
  match value with
  | none | some .null => .ok []
  | some (.arr raw) =>
      if 64 < raw.length then .error "task.completion_report 的 artifactIds 最多 64 个"
      else
        let artifacts := raw.map fun item => validTeamID (sprint item)
        if "" ∈ artifacts then .error "task.completion_report 的 artifactIds 包含无效标识"
        else .ok artifacts
  | some _ => .error "task.completion_report 的 artifactIds 必须是数组"

def normalizeTeamReport (payload : Fields) : Except String Fields :=
  let status := aiString payload ["status"]
  let sessionID := validTeamID (aiString payload ["sessionId"])
  if status ∉ ["in_progress", "completed", "failed", "blocked", "needs_input"] then
    .error "task.completion_report 的 status 无效"
  else if sessionID = "" ∧ aiString payload ["sessionId"] ≠ "" then
    .error "task.completion_report 的 sessionId 无效"
  else
    match reportArtifactIDs (payload.lookup "artifactIds") with
    | .error message => .error message
    | .ok artifacts =>
        .ok ([("status", .str status)] ++
          boundedFields payload 64000 ["summary", "nextAction", "verification"] ++
          textField "sessionId" sessionID ++
          (if artifacts.isEmpty then [] else [("artifactIds", idList artifacts)]))

def normalizeTeamCollaborationEvent (typ : String) (value : Option Json) : Except String Fields :=
  let payload := boundedPayload value
  if typ = "task.handoff" then normalizeTeamHandoff payload
  else if typ = "artifact.created" then normalizeTeamArtifact payload
  else if typ = "task.completion_report" then normalizeTeamReport payload
  else .ok payload

/-! ## Changing the task -/

/-- The task was ended by a user, so late agent events must not overwrite it. -/
def teamTaskHumanTerminal (task : TeamTask) : Bool :=
  (task.status = .completed ∧ task.completionSource = some .manual) ∨
    (task.status = .cancelled ∧ task.cancellationSource = some .manual)

/-- The status that an event type reports. -/
def teamEventStatus (typ : String) : Option TaskStatus :=
  if typ = "task.started" then some .running
  else if typ = "task.blocked" then some .blocked
  else if typ = "task.completed" then some .completed
  else if typ = "task.failed" then some .failed
  else if typ = "task.cancelled" then some .cancelled
  else none

/-- The task of an event, unless it belongs elsewhere or a user has ended it. -/
def openTask (s : TeamState) (projectID taskID : String) : Option TeamTask :=
  (findTeamTaskLocked s taskID).filter fun task =>
    task.projectId = projectID && !teamTaskHumanTerminal task

/-- The task with a reported status. -/
def applyTeamStatus (task : TeamTask) (now : Instant) (status : TaskStatus)
    (payload : Fields) : TeamTask :=
  let summary := boundedText (aiString payload ["summary", "message"]) 64000
  { task with
    status := status
    updatedAt := now
    summary := if summary ≠ "" then summary else task.summary }

def updateTeamTaskFromEventLocked (s : TeamState) (now : Instant)
    (projectID taskID typ : String) (payload : Fields) : TeamState :=
  if taskID = "" then s
  else
    match openTask s projectID taskID, teamEventStatus typ with
    | some task, some status => replaceTeamTaskLocked s (applyTeamStatus task now status payload)
    | _, _ => s

/-- The newest `limit` entries after adding one. -/
def appendTeamHistory (existing : List Fields) (value : Fields) (limit : Nat) : List Fields :=
  let items := existing ++ [value]
  items.drop (items.length - limit)

def artifactKey (artifact : Fields) : String := aiString artifact ["artifactId"]

def applyTeamHandoff (task : TeamTask) (now : Instant) (payload : Fields) : TeamTask :=
  let memberID := validTeamID (aiString payload ["toMemberId"])
  let sessionID := validTeamID (aiString payload ["toSessionId"])
  { task with
    handoffHistory := appendTeamHistory task.handoffHistory payload 20
    lastHandoff := some payload
    ownerMemberId := if memberID ≠ "" then memberID else task.ownerMemberId
    ownerSessionId := if sessionID ≠ "" then sessionID else task.ownerSessionId
    updatedAt := now }

def applyTeamArtifact (task : TeamTask) (now : Instant) (payload : Fields) : TeamTask :=
  let artifacts :=
    if task.artifacts.any fun item => artifactKey item = artifactKey payload then
      replaceKey artifactKey payload task.artifacts
    else task.artifacts ++ [payload]
  let artifacts := artifacts.drop (artifacts.length - 64)
  { task with artifacts := artifacts, artifactCount := artifacts.length, updatedAt := now }

def applyTeamReport (task : TeamTask) (now : Instant) (payload : Fields) : TeamTask :=
  let updated :=
    { task with
      completionReports := appendTeamHistory task.completionReports payload 20
      completionReport := some payload
      updatedAt := now }
  let status := aiString payload ["status"]
  if status = "completed" then
    { updated with
      status := .completed, completionSource := some .agentReport, completedAt := some now }
  else if status = "failed" then { updated with status := .failed }
  else if status = "blocked" then { updated with status := .blocked }
  else if status = "needs_input" then { updated with status := .waitingInput }
  else if status = "in_progress" then { updated with status := .running }
  else updated

def applyTeamCollaborationEventLocked (env : Env) (s : TeamState) (now : Instant)
    (projectID taskID typ : String) (payload : Fields) : TeamState :=
  match openTask s projectID taskID with
  | none => s
  | some task =>
      if typ = "task.handoff" then replaceTeamTaskLocked s (applyTeamHandoff task now payload)
      else if typ = "artifact.created" then
        replaceTeamTaskLocked s (applyTeamArtifact task now payload)
      else if typ = "task.completion_report" then
        let updated := applyTeamReport task now payload
        let stored := replaceTeamTaskLocked s updated
        if updated.status = .completed ∨ updated.status = .failed ∨ updated.status = .blocked then
          activateReadyTeamTasksLocked env stored now projectID
        else stored
      else s

/-! ## The write of one event -/

/-- The status that a completion report asks for. -/
def teamReportStatus (status : String) : Option TaskStatus :=
  if status = "completed" then some .completed
  else if status = "failed" then some .failed
  else if status = "blocked" then some .blocked
  else if status = "needs_input" then some .waitingInput
  else if status = "in_progress" then some .running
  else none

/-- The status of an open task after an event of its current attempt. -/
def reportedStatus (typ : String) (payload : Fields) (task : TeamTask) : TaskStatus :=
  match teamEventStatus typ with
  | some status => status
  | none =>
      if typ = "task.completion_report" then
        (teamReportStatus (aiString payload ["status"])).getD task.status
      else task.status

/-- The statuses that only the control plane gives to a task. -/
def TaskStatus.unstarted : TaskStatus → Bool
  | .accepted | .waitingDependency | .waitingResource => true
  | _ => false

/-- An agent event never puts a task back before its start. -/
theorem reportedStatus_of_unstarted {typ : String} {payload : Fields} {task : TeamTask}
    (h : (reportedStatus typ payload task).unstarted = true) :
    reportedStatus typ payload task = task.status := by
  have hevent : ∀ status, teamEventStatus typ = some status → status.unstarted = false := by
    intro status hstatus
    simp only [teamEventStatus] at hstatus
    split_ifs at hstatus <;> cases hstatus <;> rfl
  have hreport : ∀ text status, teamReportStatus text = some status →
      status.unstarted = false := by
    intro text status hstatus
    simp only [teamReportStatus] at hstatus
    split_ifs at hstatus <;> cases hstatus <;> rfl
  simp only [reportedStatus] at h ⊢
  split at h
  · rename_i status hstatus
    exact absurd h (by simp [hevent status hstatus])
  · split at h
    · rename_i hnone htyp
      simp only [if_pos htyp]
      cases hstatus : teamReportStatus (aiString payload ["status"]) with
      | none => rfl
      | some status =>
          rw [hstatus] at h
          exact absurd h (by simp [hreport _ status hstatus])
    · rename_i hnone htyp
      simp only [if_neg htyp]

/-- What an event may do to a task: its status changes as reported, a report
may record that the agent has completed it, and the rest is annotation. -/
structure AgentWrite (typ : String) (payload : Fields) (task new : TeamTask) : Prop where
  assignment : new.assignment = task.assignment
  attempt : new.attempt = task.attempt
  status : new.status = reportedStatus typ payload task
  cancellationSource : new.cancellationSource = task.cancellationSource

theorem applyTeamReport_status (task : TeamTask) (now : Instant) (payload : Fields) :
    (applyTeamReport task now payload).status =
      (teamReportStatus (aiString payload ["status"])).getD task.status := by
  simp only [applyTeamReport, teamReportStatus]
  split_ifs <;> rfl

/-- The report changes nothing else that the control plane decides by. -/
theorem applyTeamReport_write (task : TeamTask) (now : Instant) (payload : Fields) :
    AgentWrite "task.completion_report" payload task (applyTeamReport task now payload) := by
  refine ⟨?_, ?_, ?_, ?_⟩
  · simp only [applyTeamReport]; split_ifs <;> rfl
  · simp only [applyTeamReport]; split_ifs <;> rfl
  · rw [applyTeamReport_status]; rfl
  · simp only [applyTeamReport]; split_ifs <;> rfl

section Write
variable (env : Env) (s : TeamState) (now : Instant) (projectID taskID : String) {typ : String}
variable (payload : Fields)

/-- The two writers of an event have no type in common. -/
theorem teamEventStatus_collaboration
    (h : typ = "task.handoff" ∨ typ = "artifact.created" ∨ typ = "task.completion_report") :
    teamEventStatus typ = none := by
  rcases h with rfl | rfl | rfl <;> rfl

theorem applyTeamCollaborationEventLocked_of_status {status : TaskStatus}
    (h : teamEventStatus typ = some status) :
    applyTeamCollaborationEventLocked env s now projectID taskID typ payload = s := by
  have hnone := mt teamEventStatus_collaboration (by simp [h] : ¬teamEventStatus typ = none)
  simp only [not_or] at hnone
  simp only [applyTeamCollaborationEventLocked, if_neg hnone.1, if_neg hnone.2.1,
    if_neg hnone.2.2]
  split <;> rfl

/-- A status event writes its task if that is open. -/
theorem updateTeamTaskFromEventLocked_cases (typ : String) :
    updateTeamTaskFromEventLocked s now projectID taskID typ payload = s ∨
      ∃ task status, openTask s projectID taskID = some task ∧
        teamEventStatus typ = some status ∧
        AgentWrite typ payload task (applyTeamStatus task now status payload) ∧
        updateTeamTaskFromEventLocked s now projectID taskID typ payload =
          replaceTeamTaskLocked s (applyTeamStatus task now status payload) := by
  by_cases hid : taskID = ""
  · exact .inl (by simp only [updateTeamTaskFromEventLocked, if_pos hid])
  · cases hopen : openTask s projectID taskID with
    | none => exact .inl (by simp only [updateTeamTaskFromEventLocked, if_neg hid, hopen])
    | some task =>
        cases hstatus : teamEventStatus typ with
        | none => exact .inl (by simp only [updateTeamTaskFromEventLocked, if_neg hid, hopen, hstatus])
        | some status =>
            refine .inr ⟨task, status, rfl, rfl, ?_,
              by simp only [updateTeamTaskFromEventLocked, if_neg hid, hopen, hstatus]⟩
            exact ⟨rfl, rfl, by simp only [reportedStatus, hstatus, applyTeamStatus], rfl⟩

/-- A collaboration event writes its task if that is open; only a report that
ends the task wakes the waiting ones. -/
theorem applyTeamCollaborationEventLocked_cases (typ : String) :
    applyTeamCollaborationEventLocked env s now projectID taskID typ payload = s ∨
      ∃ task new, openTask s projectID taskID = some task ∧ teamEventStatus typ = none ∧
        AgentWrite typ payload task new ∧
        (applyTeamCollaborationEventLocked env s now projectID taskID typ payload =
            replaceTeamTaskLocked s new ∧
            (new.status = task.status ∨ new.status = .running ∨ new.status = .waitingInput) ∨
          applyTeamCollaborationEventLocked env s now projectID taskID typ payload =
            activateReadyTeamTasksLocked env (replaceTeamTaskLocked s new) now projectID) := by
  cases hopen : openTask s projectID taskID with
  | none => exact .inl (by simp only [applyTeamCollaborationEventLocked, hopen])
  | some task =>
      by_cases hhandoff : typ = "task.handoff"
      · subst hhandoff
        exact .inr ⟨task, applyTeamHandoff task now payload, rfl, rfl, ⟨rfl, rfl, rfl, rfl⟩,
          .inl ⟨by simp only [applyTeamCollaborationEventLocked, hopen, if_true], .inl rfl⟩⟩
      by_cases hartifact : typ = "artifact.created"
      · subst hartifact
        exact .inr ⟨task, applyTeamArtifact task now payload, rfl, rfl, ⟨rfl, rfl, rfl, rfl⟩,
          .inl ⟨by simp only [applyTeamCollaborationEventLocked, hopen, if_neg hhandoff, if_true],
            .inl rfl⟩⟩
      by_cases hreport : typ = "task.completion_report"
      · subst hreport
        refine .inr ⟨task, applyTeamReport task now payload, rfl, rfl,
          applyTeamReport_write task now payload, ?_⟩
        by_cases hends : (applyTeamReport task now payload).status = .completed ∨
            (applyTeamReport task now payload).status = .failed ∨
            (applyTeamReport task now payload).status = .blocked
        · exact .inr (by simp only [applyTeamCollaborationEventLocked, hopen, if_neg hhandoff,
            if_neg hartifact, if_true, if_pos hends])
        · refine .inl ⟨by simp only [applyTeamCollaborationEventLocked, hopen, if_neg hhandoff,
            if_neg hartifact, if_true, if_neg hends], ?_⟩
          rw [applyTeamReport_status] at hends ⊢
          simp only [teamReportStatus] at hends ⊢
          split_ifs at hends ⊢ <;> simp_all
      · exact .inl (by simp only [applyTeamCollaborationEventLocked, hopen, if_neg hhandoff,
          if_neg hartifact, if_neg hreport])

end Write

end WorkMesh.AgentTeam
