import WorkMesh.AgentTeam.Delivery
import WorkMesh.AgentTeam.Runtimes
import WorkMesh.AgentTeam.Tasks
import WorkMesh.StateMachine.Run

/-!
# The control plane as a machine

A request holds the state lock from its first read to its save, so the service
is a machine that answers one request at a time. Between two requests the clock
moves on by any amount, and any save may fail.

## Implementation notes

A request reads the clock several times under one lock; the machine uses one
reading for all of them. The second round of a waiting poll is a request of its
own, and an event stream that expires leases is a status query.
-/

namespace WorkMesh.AgentTeam

open StateMachine

/-- The requests that read or write the team state under the lock. -/
inductive Request where
  | register (body : Fields)
  | heartbeat (body : Fields)
  | unregister (body : Fields)
  | events (body : Fields)
  | commands (project runtime token limit : String)
  | commandAck (body : Fields)
  | runtimeStatus (project : String)
  | taskCreate (project : String) (body : Fields)
  | taskAction (taskPath : String) (action : TaskAction) (body : Fields)
  | artifactUpload (c : RuntimeCredentials) (taskID artifactID : String) (fields : Fields)

/-- The answer to a request and the state it leaves. -/
def handle (env : Env) (now : Instant) (failure : Option String) (s : TeamState) :
    Request → TeamState × Response
  | .register body => handleAgentRuntimeRegister now failure s body
  | .heartbeat body => handleAgentRuntimeHeartbeat now failure s body
  | .unregister body => handleAgentRuntimeUnregister now failure s body
  | .events body => handleAgentRuntimeEvents env now failure s body
  | .commands project runtime token limit =>
      handleAgentRuntimeCommands now failure s project runtime token limit
  | .commandAck body => handleAgentRuntimeCommandAck now failure s body
  | .runtimeStatus project => handleProjectRuntimeStatus now failure s project
  | .taskCreate project body => handleProjectTaskCreate env now failure s project body
  | .taskAction taskPath action body =>
      handleDevTaskAction env now failure s taskPath action body
  | .artifactUpload c taskID artifactID fields =>
      storeArtifactUpload now failure s c taskID artifactID fields

/-- The clock and the stored state. -/
structure World where
  now : Instant
  team : TeamState

/-- A server at an instant, with nothing stored. -/
def World.start (now : Instant) : World := ⟨now, .empty⟩

/-- One request: how far the clock has moved on since the last one, whether its
save fails, and what it asks for. -/
structure Input where
  advance : Nat
  failure : Option String
  request : Request

/-- The answer to a request. -/
def answer (env : Env) (w : World) (i : Input) : TeamState × Response :=
  handle env (w.now + i.advance) i.failure w.team i.request

def respond (env : Env) (w : World) (i : Input) : Response := (answer env w i).2

def next (env : Env) (w : World) (i : Input) : World :=
  ⟨w.now + i.advance, (answer env w i).1⟩

@[simp] theorem next_now (env : Env) (w : World) (i : Input) :
    (next env w i).now = w.now + i.advance := rfl

/-- The world after a list of requests to a server that had stored nothing. -/
def reached (env : Env) (now : Instant) (inputs : List Input) : World :=
  run (next env) (.start now) inputs

theorem reached_append (env : Env) (now : Instant) (first rest : List Input) :
    reached env now (first ++ rest) = run (next env) (reached env now first) rest :=
  run_append ..

/-! ## Requests as a client writes them -/

section Client
variable (project runtime token : String)

/-- The fields that name a registration. -/
def credentialFields : Fields :=
  [("projectId", .str project), ("runtimeId", .str runtime), ("fencingToken", .str token)]

def registerBody : Fields :=
  [("projectId", .str project), ("runtimeId", .str runtime), ("instanceId", .str runtime),
    ("memberId", .str "member")]

def registerRequest : Request := .register (registerBody project runtime)

def heartbeatRequest : Request := .heartbeat (credentialFields project runtime token)

def unregisterRequest : Request := .unregister (credentialFields project runtime token)

/-- A batch of one event about a task. -/
def eventRequest (sequence : Int) (typ taskID : String) (attempt : Int) : Request :=
  .events (credentialFields project runtime token ++
    [("events", .arr [.obj [("sequence", .int sequence), ("type", .str typ),
      ("taskId", .str taskID), ("attempt", .int attempt)]])])

def createRequest (profile : String) (dependencies : List String) : Request :=
  .taskCreate project [("title", .str "t"), ("instruction", .str "i"),
    ("resourceProfile", .str profile), ("dependsOn", idList dependencies)]

end Client

/-- A request `seconds` after the one before it, whose save succeeds. -/
def Input.after (seconds : Nat) (request : Request) : Input :=
  ⟨seconds * 10 ^ 9, none, request⟩

/-- A server without a configured budget. -/
def Env.default : Env := ⟨""⟩

end WorkMesh.AgentTeam
