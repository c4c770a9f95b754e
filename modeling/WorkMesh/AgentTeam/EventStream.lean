import WorkMesh.AgentTeam.EventLog

/-!
# The event stream of a project

`serveTeamSSE` answers one client for as long as the connection lasts. It takes
the state lock for each of its rounds, to end expired leases and to copy the
log, and writes what the client has not seen yet after the lock is free again,
so requests fall between its rounds in any way.

## Implementation notes

A connection that has failed once takes nothing more. How many writes and
flushes it still takes is part of its state. The two requests that open a stream
differ in the project and the task that they name.
-/

namespace WorkMesh.AgentTeam

open StateMachine

/-! ## Frames -/

/-- A number of at least `width` digits. -/
def padded (width n : Nat) : String :=
  "".pushn '0' (width - (toString n).length) ++ toString n

/-- Year, month and day of a day counted from 1970-01-01. -/
def civilDate (days : Nat) : Nat × Nat × Nat :=
  let shifted := days + 719468
  let era := shifted / 146097
  let dayOfEra := shifted % 146097
  let yearOfEra := (dayOfEra - dayOfEra / 1460 + dayOfEra / 36524 - dayOfEra / 146096) / 365
  let dayOfYear := dayOfEra - (365 * yearOfEra + yearOfEra / 4 - yearOfEra / 100)
  let marchMonth := (5 * dayOfYear + 2) / 153
  let month := if marchMonth < 10 then marchMonth + 3 else marchMonth - 9
  (yearOfEra + 400 * era + (if month ≤ 2 then 1 else 0), month,
    dayOfYear - (153 * marchMonth + 2) / 5 + 1)

/-- The fraction of a second without the zeros at its end. -/
def fractionText (nanoseconds : Nat) : String :=
  let digits := (padded 9 nanoseconds).toList.reverse.dropWhile (· == '0')
  if digits.isEmpty then "" else "." ++ String.ofList digits.reverse

/-- `Format(time.RFC3339Nano)` of an instant in UTC. -/
def formatRFC3339Nano (t : Instant) : String :=
  let seconds := t / 10 ^ 9
  let (year, month, day) := civilDate (seconds / 86400)
  padded 4 year ++ "-" ++ padded 2 month ++ "-" ++ padded 2 day ++ "T" ++
    padded 2 (seconds / 3600 % 24) ++ ":" ++ padded 2 (seconds / 60 % 60) ++ ":" ++
    padded 2 (seconds % 60) ++ fractionText (t % 10 ^ 9) ++ "Z"

example : formatRFC3339Nano 0 = "1970-01-01T00:00:00Z" := by decide +kernel

/-- The stored map of an event. -/
def teamEventMap (event : TeamEvent) : Fields :=
  [("eventId", Json.str event.eventId), ("sequence", .int event.sequence),
    ("projectId", .str event.projectId), ("type", .str event.type), ("taskId", .str event.taskId),
    ("runtimeId", .str event.runtimeId), ("payload", .obj event.payload),
    ("createdAt", .str (formatRFC3339Nano event.createdAt))] ++
  (match event.attempt with
    | some attempt => [("attempt", Json.int attempt)]
    | none => []) ++
  (if event.staleAttempt then [("staleAttempt", Json.bool true)] else [])

/-- An event as it is written to a client: its `id`, its `event` and its `data` line. -/
structure Frame where
  id : Nat
  event : String
  data : Fields

/-- The sequence number as the stream reads it. -/
def streamSequence (event : TeamEvent) : Nat := min event.sequence (2 ^ 60)

/-- The frame of an event. Its map is sanitized before it is encoded. -/
def sseFrame (event : TeamEvent) : Frame :=
  let safeEvent := sanitizeTeamMap (teamEventMap event)
  ⟨streamSequence event, aiString safeEvent ["type"], safeEvent⟩

/-! ## The connection -/

/-- How many writes and flushes still succeed (`none` for all of them), and the
frames written so far. -/
structure Connection where
  writes : Option Nat
  flushes : Option Nat
  sent : List Frame

/-- One write, and whether it succeeded. -/
def Connection.write (w : Connection) : Connection × Bool :=
  if w.writes = some 0 then (w, false)
  else ({ w with writes := w.writes.map Nat.pred }, true)

/-- `writeTeamSSE`, with the frame it makes of the event. -/
def writeTeamSSE (w : Connection) (event : TeamEvent) : Connection × Bool :=
  match w.write with
  | (w, true) => ({ w with sent := w.sent ++ [sseFrame event] }, true)
  | (w, false) => (w, false)

/-- `controller.Flush`, and whether it succeeded. -/
def Connection.flush (w : Connection) : Connection × Bool :=
  if w.flushes = some 0 then (w, false)
  else ({ w with flushes := w.flushes.map Nat.pred }, true)

/-! ## The stream -/

inductive StreamPhase where
  | opening | streaming | closed
  | refused (status : Nat) (code message : String)
  deriving DecidableEq

/-- One call of `serveTeamSSE`. An empty `taskID` is a stream of the whole project. -/
structure Stream where
  projectID : String
  taskID : String
  cursor : Nat
  phase : StreamPhase
  connection : Connection

/-- `parseCursor`: the first value that is a number, and 0 without one. -/
def parseCursor (values : List String) : Nat :=
  (values.findSome? fun value => (atoi (trimSpace value)).bind fun parsed =>
    if 0 ≤ parsed then some parsed.toNat else none).getD 0

/-- A stream before it has taken the lock for the first time. -/
def serveTeamSSE (available : Bool) (projectID taskID lastEventID query : String)
    (connection : Connection) : Stream where
  projectID := projectID
  taskID := taskID
  cursor := parseCursor [lastEventID, query]
  phase :=
    if available then .opening
    else .refused 429 "SSE_LIMIT_REACHED" "实时事件连接已达到资源上限"
  connection := connection

/-- Whether an event belongs to the stream. -/
def Stream.serves (stream : Stream) (event : TeamEvent) : Bool :=
  stream.taskID = "" || trimSpace event.taskId = stream.taskID

/-- The expired-cursor check on the log that the opening copies. -/
def openStream (stream : Stream) (initialEvents : List TeamEvent) : Stream :=
  match initialEvents with
  | [] => { stream with phase := .streaming }
  | first :: _ =>
      let oldest := streamSequence first
      if 0 < stream.cursor ∧ 0 < oldest ∧ stream.cursor + 1 < oldest then
        { stream with
          phase := .refused 409 "EVENT_CURSOR_EXPIRED"
            "事件游标已超出保留窗口，请先重新读取任务快照" }
      else { stream with phase := .streaming }

/-- The events of one round. A failed write is passed over, a failed flush ends the stream. -/
def streamEvents (stream : Stream) : List TeamEvent → Stream
  | [] => stream
  | event :: events =>
      if streamSequence event ≤ stream.cursor ∨ ¬stream.serves event then
        streamEvents stream events
      else
        match writeTeamSSE stream.connection event with
        | (connection, false) => streamEvents { stream with connection := connection } events
        | (connection, true) =>
            let written := { stream with cursor := streamSequence event }
            match connection.flush with
            | (connection, false) =>
                { written with phase := .closed, connection := connection }
            | (connection, true) =>
                streamEvents { written with connection := connection } events

/-- The comment line that is written when 15 seconds pass without news. -/
def streamHeartbeat (stream : Stream) : Stream :=
  match stream.connection.write with
  | (connection, false) => { stream with phase := .closed, connection := connection }
  | (connection, true) =>
      match connection.flush with
      | (connection, false) => { stream with phase := .closed, connection := connection }
      | (connection, true) => { stream with connection := connection }

/-! ## A stream beside the other requests -/

/-- The leases that have run out are ended and the state is saved; without one
nothing is saved. -/
def expireDueLeases (now : Instant) (failure : Option String) (s : TeamState) :
    TeamState × Option String :=
  if hasExpiredRuntimeLeaseLocked s now then
    saveTeamStateLocked s (expireRuntimeLeasesLocked s now) failure
  else (s, none)

/-- A server with one open stream. -/
structure Served where
  world : World
  stream : Stream

/-- What happens next: a request, the next round of the stream under the lock,
its heartbeat, or the end of the connection. -/
inductive Turn where
  | request (input : Input)
  | round (advance : Nat) (failure : Option String)
  | heartbeat
  | done

/-- The first round opens the stream, every later one writes what is new. -/
def streamRound (now : Instant) (failure : Option String) (s : TeamState) (stream : Stream) :
    TeamState × Stream :=
  match stream.phase with
  | .opening =>
      match expireDueLeases now failure s with
      | (s, some message) =>
          (s, { stream with phase := .refused 500 "AGENT_RUNTIME_SAVE_FAILED" message })
      | (s, none) => (s, openStream stream (s.teamEvents stream.projectID).retained)
  | .streaming =>
      match expireDueLeases now failure s with
      | (s, some _) => (s, { stream with phase := .closed })
      | (s, none) => (s, streamEvents stream (s.teamEvents stream.projectID).retained)
  | _ => (s, stream)

def nextTurn (env : Env) (served : Served) : Turn → Served
  | .request input => { served with world := next env served.world input }
  | .round advance failure =>
      let now := served.world.now + advance
      let (team, stream) := streamRound now failure served.world.team served.stream
      ⟨⟨now, team⟩, stream⟩
  | .heartbeat =>
      if served.stream.phase = .streaming then
        { served with stream := streamHeartbeat served.stream }
      else served
  | .done =>
      if served.stream.phase = .streaming then
        { served with stream := { served.stream with phase := .closed } }
      else served

/-- Ending the due leases is what a status query does. -/
theorem expireDueLeases_eq_handle (env : Env) (now : Instant) (failure : Option String)
    (s : TeamState) {project : String} (hproject : validTeamID project ≠ "") :
    (expireDueLeases now failure s).1 = (handle env now failure s (.runtimeStatus project)).1 := by
  simp only [expireDueLeases, handle, handleProjectRuntimeStatus, hproject, if_false]
  by_cases hdue : hasExpiredRuntimeLeaseLocked s now = true
  · rw [if_pos hdue, if_pos hdue, if_pos hdue, commitTeamState]
    generalize saveTeamStateLocked s (expireRuntimeLeasesLocked s now) failure = saved
    cases saved with
    | mk t message => cases message <;> rfl
  · rw [if_neg hdue, if_neg hdue]

/-- For the logs a turn is a request. -/
theorem nextTurn_logs {P : TeamState → Prop} (hP : KeptByLogs P) (env : Env) (served : Served)
    (turn : Turn) (h : P served.world.team) : P (nextTurn env served turn).world.team := by
  cases turn with
  | request input => exact (next_effect env served.world input).logs hP h
  | round advance failure =>
      have hexpired : P (expireDueLeases (served.world.now + advance) failure
          served.world.team).1 := by
        rw [expireDueLeases_eq_handle env _ _ _ (show validTeamID "p" ≠ "" by decide +kernel)]
        exact (next_effect env served.world ⟨advance, failure, .runtimeStatus "p"⟩).logs hP h
      simp only [nextTurn, streamRound]
      generalize expireDueLeases _ failure served.world.team = expired at hexpired
      split
      · obtain ⟨t, _ | message⟩ := expired <;> exact hexpired
      · obtain ⟨t, _ | message⟩ := expired <;> exact hexpired
      · exact h
  | heartbeat => simp only [nextTurn]; split <;> exact h
  | done => simp only [nextTurn]; split <;> exact h

end WorkMesh.AgentTeam
