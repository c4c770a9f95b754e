import WorkMesh.AgentTeam.Events

/-!
# Delivery of commands and upload fields of artifacts

A leased runtime polls the commands addressed to it and acknowledges the ones
it has taken. A poll that waits is a sequence of such polls, one each time it
holds the lock.
-/

namespace WorkMesh.AgentTeam

open StateMachine

/-- A command as it is handed out. -/
def deliverCommand (now : Instant) (command : AgentCommand) : AgentCommand :=
  { command with
    status := .delivered
    deliveryAttempt := min command.deliveryAttempt 1000000 + 1
    deliveredAt := some now
    deliveryExpiresAt := some (now + teamCommandVisibility) }

/-- Hand out commands from the front of the queue until the limit is reached,
which is checked after each one. -/
def deliverCommands (now : Instant) (projectID runtimeID : String) (limit : Nat) :
    Nat → List AgentCommand → List AgentCommand × List AgentCommand
  | _, [] => ([], [])
  | count, command :: commands =>
      if command.projectId ≠ projectID ∨ command.runtimeId ≠ runtimeID ∨
          ¬teamCommandAvailable command now then
        let rest := deliverCommands now projectID runtimeID limit count commands
        (command :: rest.1, rest.2)
      else
        let delivered := deliverCommand now command
        if limit ≤ count + 1 then (delivered :: commands, [delivered])
        else
          let rest := deliverCommands now projectID runtimeID limit (count + 1) commands
          (delivered :: rest.1, delivered :: rest.2)

/-- A query parameter; an empty one is the fallback. -/
def boundedQueryInt (value : String) (fallback max : Nat) : Nat :=
  if trimSpace value = "" then fallback else boundedInt (some (.str value)) fallback max

/-- One locked round of `GET /agent-runtime/commands`. -/
def handleAgentRuntimeCommands (now : Instant) (failure : Option String) (s : TeamState)
    (project runtime token limit : String) : TeamState × Response :=
  let c : RuntimeCredentials := ⟨validTeamID project, validTeamID runtime, trimSpace token⟩
  if ¬c.complete then
    (s, .error 400 "AGENT_COMMAND_FIELDS_REQUIRED" "projectId、runtimeId 和 fencingToken 不能为空")
  else
    match leasedRuntime s now c with
    | none => (s, teamFenced)
    | some _ =>
        let delivered := deliverCommands now c.projectID c.runtimeID
          (boundedQueryInt limit 20 50) 0 s.agentCommands
        if delivered.2.isEmpty then (s, .ok (.commands []))
        else
          commitTeamState s { s with agentCommands := delivered.1 } failure
            "AGENT_COMMAND_SAVE_FAILED" (.commands delivered.2)

/-- The command is one that an acknowledgement names. -/
def ackedBy (c : RuntimeCredentials) (ids : List String) (command : AgentCommand) : Bool :=
  command.projectId = c.projectID ∧ command.runtimeId = c.runtimeID ∧
    command.status = .delivered ∧ command.commandId ∈ ids

def ackTeamCommand (now : Instant) (c : RuntimeCredentials) (ids : List String)
    (command : AgentCommand) : AgentCommand :=
  if ackedBy c ids command then { command with status := .acked, ackedAt := some now }
  else command

def handleAgentRuntimeCommandAck (now : Instant) (failure : Option String) (s : TeamState)
    (body : Fields) : TeamState × Response :=
  let c := runtimeCredentials body
  let values := bodyList body "commandIds"
  let ids := (values.map fun value => validTeamID (sprint value)).filter fun id => id ≠ ""
  if ¬c.complete ∨ values.isEmpty ∨ 100 < values.length then
    (s, .error 400 "AGENT_COMMAND_ACK_INVALID"
      "必须提供 projectId、runtimeId、fencingToken 和 1-100 个 commandIds")
  else
    match leasedRuntime s now c with
    | none => (s, teamFenced)
    | some _ =>
        let acked :=
          { s with agentCommands := s.agentCommands.map (ackTeamCommand now c ids) }
        commitTeamState s (compactTeamCommandsLocked acked c.projectID) failure
          "AGENT_COMMAND_SAVE_FAILED" (.acked (s.agentCommands.countP (ackedBy c ids)))

/-! ## Upload fields of artifacts -/

def findTeamArtifactLocked (task : TeamTask) (artifactID : String) : Option Fields :=
  lookupKey artifactKey artifactID task.artifacts

/-- Write upload fields into the record of an artifact. -/
def updateTeamArtifactLocked (task : TeamTask) (artifactID : String) (fields : Fields) : TeamTask :=
  { task with
    artifacts :=
      match findTeamArtifactLocked task artifactID with
      | none => task.artifacts
      | some item =>
          replaceKey artifactKey
            (fields.foldl (fun copy entry => putField copy entry.1 entry.2) item)
            task.artifacts }

/-- What `artifacts/init` and `artifacts/{artifactId}/chunks` do to the team
state, the files left out: under a valid lease, upload fields of a registered
artifact are replaced. -/
def storeArtifactUpload (now : Instant) (failure : Option String) (s : TeamState)
    (c : RuntimeCredentials) (taskID artifactID : String) (fields : Fields) :
    TeamState × Response :=
  match leasedRuntime s now c, findTeamTaskLocked s taskID with
  | none, _ => (s, teamFenced)
  | some _, none => (s, .error 404 "ARTIFACT_NOT_FOUND" "任务 Artifact 不存在")
  | some _, some task =>
      if task.projectId ≠ c.projectID ∨ (findTeamArtifactLocked task artifactID).isNone then
        (s, .error 404 "ARTIFACT_NOT_FOUND" "任务 Artifact 不存在")
      else
        commitTeamState s
          (replaceTeamTaskLocked s (updateTeamArtifactLocked task artifactID fields)) failure
          "ARTIFACT_STATE_SAVE_FAILED" (.artifact artifactID)

end WorkMesh.AgentTeam
