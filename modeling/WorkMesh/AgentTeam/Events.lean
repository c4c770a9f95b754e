import WorkMesh.AgentTeam.Collaboration

/-!
# Ingestion of agent events

`handleAgentRuntimeEvents` reads a batch twice. The first loop checks every
event that is not a repetition; the second one stores the events and changes
the tasks. A batch that fails the first loop has changed nothing.
-/

namespace WorkMesh.AgentTeam

open StateMachine

def eventSequence (event : Fields) : Nat := boundedInt (event.lookup "sequence") 0 (2 ^ 60)

def eventType (event : Fields) : String := validEventType (aiString event ["type", "eventType"])

/-- An attempt is missing or a positive integer within the limit. -/
def attemptValid : Option Json → Bool
  | none => true
  | some (.num v _) => 1 ≤ v && v ≤ teamAttemptLimit && v.den == 1
  | some _ => false

def teamFenced : Response := .error 409 "AGENT_RUNTIME_FENCED" "Agent runtime 租约已失效"

/-- One iteration of the checking loop. `last` is the sequence accepted before
the batch, `expected` the one accepted so far in this loop. -/
def checkTeamEvent (s : TeamState) (projectID : String) (last expected : Nat) (value : Json) :
    Except Response Nat :=
  match value with
  | .obj event =>
      let sequence := eventSequence event
      let typ := eventType event
      let taskID := aiString event ["taskId"]
      if sequence = 0 ∨ typ = "" then
        .error (.error 400 "AGENT_EVENT_INVALID" "事件必须提供正数 sequence 和合法 type")
      else if sequence ≤ last then .ok expected
      else if sequence ≠ expected + 1 then
        .error (.error 409 "AGENT_EVENT_SEQUENCE_GAP" "Agent 事件 sequence 必须连续")
      else if taskID ≠ "" ∧ ¬(findTeamTaskLocked s (validTeamID taskID)).any
          (fun task => task.projectId = projectID) then
        .error (.error 400 "AGENT_EVENT_TASK_INVALID" "事件 taskId 不属于当前项目")
      else if ¬attemptValid (event.lookup "attempt") then
        .error (.error 400 "AGENT_EVENT_ATTEMPT_INVALID" "事件 attempt 必须是正整数")
      else
        match normalizeTeamCollaborationEvent typ (event.lookup "payload") with
        | .error message => .error (.error 400 "AGENT_EVENT_PAYLOAD_INVALID" message)
        | .ok _ => .ok sequence
  | _ => .error (.error 400 "AGENT_EVENT_INVALID" "事件必须是对象")

/-- The checking loop. -/
def checkTeamEvents (s : TeamState) (projectID : String) (last : Nat) :
    Nat → List Json → Except Response Nat
  | expected, [] => .ok expected
  | expected, value :: raw =>
      match checkTeamEvent s projectID last expected value with
      | .error response => .error response
      | .ok expected => checkTeamEvents s projectID last expected raw

def eventTaskID (event : Fields) : String := validTeamID (aiString event ["taskId"])

def eventAttempt (event : Fields) : Nat := boundedInt (event.lookup "attempt") 1 teamAttemptLimit

/-- The payload that the checking loop has let through. -/
def eventPayload (event : Fields) : Fields :=
  match normalizeTeamCollaborationEvent (eventType event) (event.lookup "payload") with
  | .ok payload => payload
  | .error _ => []

/-- The event names an attempt that its task is not in. -/
def eventStale (s : TeamState) (event : Fields) : Bool :=
  (findTeamTaskLocked s (eventTaskID event)).any fun task =>
    eventAttempt event ≠ teamTaskAttempt task

/-- The log entry of an agent event. -/
def ingestedEvent (s : TeamState) (now : Instant) (projectID runtimeID : String)
    (event : Fields) : TeamEvent :=
  { newTeamEvent s now projectID (eventType event) (eventTaskID event) runtimeID
      (eventPayload event) with
    attempt := if eventTaskID event ≠ "" then some (eventAttempt event) else none
    staleAttempt := eventStale s event }

/-- The event types after which waiting tasks are looked at again. -/
def endsTask (typ : String) : Bool :=
  typ = "task.completed" ∨ typ = "task.failed" ∨ typ = "task.cancelled" ∨ typ = "task.blocked"

/-- The body of the storing loop for one new event. -/
def ingestTeamEvent (env : Env) (now : Instant) (projectID runtimeID : String) (s : TeamState)
    (event : Fields) : TeamState :=
  let typ := eventType event
  let taskID := eventTaskID event
  let payload := eventPayload event
  let stored := storeTeamEvent s projectID (ingestedEvent s now projectID runtimeID event)
  if eventStale s event then stored
  else
    let updated := updateTeamTaskFromEventLocked stored now projectID taskID typ payload
    let applied := applyTeamCollaborationEventLocked env updated now projectID taskID typ payload
    if endsTask typ then activateReadyTeamTasksLocked env applied now projectID else applied

/-- Without a status of its own, an event type ends no task. -/
theorem endsTask_of_status_none {typ : String} (h : teamEventStatus typ = none) :
    endsTask typ = false := by
  simp only [teamEventStatus] at h
  split_ifs at h
  simp_all [endsTask]

/-- The status of an event type that ends no task is running. -/
theorem running_of_not_endsTask {typ : String} {status : TaskStatus}
    (h : teamEventStatus typ = some status) (hends : endsTask typ = false) :
    status = .running := by
  simp only [teamEventStatus] at h
  split_ifs at h <;> simp_all [endsTask]

section Cases
variable (env : Env) (now : Instant) (projectID runtimeID : String) (s : TeamState)
variable (event : Fields)

/-- What storing an event can do besides logging it. -/
inductive Ingested : TeamState → Prop
  | logged :
      Ingested (storeTeamEvent s projectID (ingestedEvent s now projectID runtimeID event))
  | woken (hends : endsTask (eventType event)) :
      Ingested (activateReadyTeamTasksLocked env
        (storeTeamEvent s projectID (ingestedEvent s now projectID runtimeID event)) now projectID)
  | written (task new) (hfresh : eventStale s event = false)
      (hopen : openTask s projectID (eventTaskID event) = some task)
      (hwrite : AgentWrite (eventType event) (eventPayload event) task new)
      (hquiet : new.status = task.status ∨ new.status = .running ∨ new.status = .waitingInput) :
      Ingested (replaceTeamTaskLocked
        (storeTeamEvent s projectID (ingestedEvent s now projectID runtimeID event)) new)
  | ended (task new) (hfresh : eventStale s event = false)
      (hopen : openTask s projectID (eventTaskID event) = some task)
      (hwrite : AgentWrite (eventType event) (eventPayload event) task new) :
      Ingested (activateReadyTeamTasksLocked env (replaceTeamTaskLocked
        (storeTeamEvent s projectID (ingestedEvent s now projectID runtimeID event)) new) now
        projectID)

theorem ingestTeamEvent_of_stale (h : eventStale s event = true) :
    ingestTeamEvent env now projectID runtimeID s event =
      storeTeamEvent s projectID (ingestedEvent s now projectID runtimeID event) := by
  simp only [ingestTeamEvent, if_pos h]

/-- An event is logged, may write one task, and may wake the waiting ones. -/
theorem ingestTeamEvent_ingested :
    Ingested env now projectID runtimeID s event
      (ingestTeamEvent env now projectID runtimeID s event) := by
  cases hstale : eventStale s event with
  | true => rw [ingestTeamEvent_of_stale _ _ _ _ _ _ hstale]; exact .logged
  | false =>
      simp only [ingestTeamEvent, hstale, Bool.false_eq_true, if_false]
      generalize hstored :
        storeTeamEvent s projectID (ingestedEvent s now projectID runtimeID event) = stored
      have hopened : ∀ id, openTask stored projectID id = openTask s projectID id := by
        subst hstored; intro id; rfl
      rcases updateTeamTaskFromEventLocked_cases stored now projectID (eventTaskID event)
          (eventPayload event) (eventType event) with
        hupdate | ⟨task, status, hopen, hstatus, hwrite, hupdate⟩
      · rw [hupdate]
        rcases applyTeamCollaborationEventLocked_cases env stored now projectID
            (eventTaskID event) (eventPayload event) (eventType event) with
          happly | ⟨task, new, hopen, hnone, hwrite, happly⟩
        · rw [happly]
          split
          · rename_i hends; subst hstored; exact .woken hends
          · subst hstored; exact .logged
        · rw [hopened] at hopen
          rw [endsTask_of_status_none hnone]
          rcases happly with ⟨happly, hquiet⟩ | happly
          · rw [happly]; subst hstored
            exact .written task new hstale hopen hwrite hquiet
          · rw [happly]; subst hstored
            exact .ended task new hstale hopen hwrite
      · rw [hopened] at hopen
        rw [hupdate, applyTeamCollaborationEventLocked_of_status env _ now projectID _ _ hstatus]
        cases hends : endsTask (eventType event) with
        | true => subst hstored; exact .ended task _ hstale hopen hwrite
        | false =>
            obtain rfl := running_of_not_endsTask hstatus hends
            subst hstored
            exact .written task _ hstale hopen hwrite (.inr (.inl rfl))

/-- What logging, writing an open task and waking the waiting ones keep, an
ingested event keeps. -/
theorem ingestTeamEvent_preserves {env : Env} {now : Instant} {projectID runtimeID : String}
    {s : TeamState} {event : Fields} {P : TeamState → Prop}
    (hlog : ∀ s, P s →
      P (storeTeamEvent s projectID (ingestedEvent s now projectID runtimeID event)))
    (hwrite : ∀ s task new, P s → openTask s projectID (eventTaskID event) = some task →
      AgentWrite (eventType event) (eventPayload event) task new →
      P (replaceTeamTaskLocked s new))
    (hactivate : ∀ s, P s → P (activateReadyTeamTasksLocked env s now projectID))
    (hs : P s) : P (ingestTeamEvent env now projectID runtimeID s event) := by
  have hlogged := hlog s hs
  have hcases := ingestTeamEvent_ingested env now projectID runtimeID s event
  generalize ingestTeamEvent env now projectID runtimeID s event = t at hcases ⊢
  cases hcases with
  | logged => exact hlogged
  | woken => exact hactivate _ hlogged
  | written task new _ hopen hw => exact hwrite _ task new hlogged hopen hw
  | ended task new _ hopen hw => exact hactivate _ (hwrite _ task new hlogged hopen hw)

@[simp] theorem ingestTeamEvent_agentRuntimes :
    (ingestTeamEvent env now projectID runtimeID s event).agentRuntimes = s.agentRuntimes :=
  ingestTeamEvent_preserves (P := fun t => t.agentRuntimes = s.agentRuntimes)
    (fun _ h => h) (fun _ _ _ h _ _ => h) (fun _ h => by rw [activateReady_agentRuntimes, h]) rfl

theorem le_ingestTeamEvent_idCounter :
    s.idCounter ≤ (ingestTeamEvent env now projectID runtimeID s event).idCounter :=
  ingestTeamEvent_preserves (P := fun t => s.idCounter ≤ t.idCounter)
    (fun _ h => Nat.le_succ_of_le h) (fun _ _ _ h _ _ => h)
    (fun _ h => Nat.le_trans h (le_activateReady_idCounter _)) (Nat.le_refl _)

end Cases

/-- The objects of a batch. The checking loop has refused batches with other values. -/
def eventObjects (raw : List Json) : List Fields :=
  raw.filterMap fun value => match value with
    | .obj event => some event
    | _ => none

/-- The events of a batch that the storing loop does not skip. -/
def freshEvents : Nat → List Fields → List Fields
  | _, [] => []
  | last, event :: events =>
      if eventSequence event ≤ last then freshEvents last events
      else event :: freshEvents (eventSequence event) events

/-- The last sequence after the storing loop. -/
def lastFresh (last : Nat) (events : List Fields) : Nat :=
  ((freshEvents last events).map eventSequence).getLastD last

/-- The fields of a request sent by a runtime under its registration. -/
structure RuntimeCredentials where
  projectID : String
  runtimeID : String
  fencing : String
  deriving DecidableEq

def runtimeCredentials (body : Fields) : RuntimeCredentials where
  projectID := validTeamID (aiString body ["projectId"])
  runtimeID := validTeamID (aiString body ["runtimeId"])
  fencing := trimSpace (aiString body ["fencingToken"])

def RuntimeCredentials.complete (c : RuntimeCredentials) : Bool :=
  c.projectID ≠ "" && c.runtimeID ≠ "" && c.fencing ≠ ""

/-- The registration that the credentials name, if its lease still stands. -/
def leasedRuntime (s : TeamState) (now : Instant) (c : RuntimeCredentials) :
    Option AgentRuntime :=
  (findRuntimeLocked s c.projectID c.runtimeID).filter fun item =>
    item.fencingToken = c.fencing && item.status ≠ .fenced && !item.leaseBefore now

def bodyList (body : Fields) (key : String) : List Json :=
  match body.lookup key with
  | some (.arr items) => items
  | _ => []

/-- The entry of a runtime after a batch: the new cursor, and a renewed lease. -/
def sequencedRuntime (now : Instant) (item : AgentRuntime) (last : Nat) : AgentRuntime :=
  { item with
    lastSequence := last
    lastSeenAt := now
    leaseExpiresAt := some (now + teamLeaseDuration) }

/-- The cursor that a batch starts from. -/
def lastAccepted (item : AgentRuntime) : Nat := min item.lastSequence (2 ^ 60)

/-- The storing loop and the write of the runtime's entry. -/
def storeEventBatch (env : Env) (now : Instant) (s : TeamState) (c : RuntimeCredentials)
    (item : AgentRuntime) (events : List Fields) : TeamState :=
  replaceRuntimeLocked
    ((freshEvents (lastAccepted item) events).foldl
      (ingestTeamEvent env now c.projectID c.runtimeID) s)
    (sequencedRuntime now item (lastFresh (lastAccepted item) events))

theorem leasedRuntime_some {s : TeamState} {now : Instant} {c : RuntimeCredentials}
    {item : AgentRuntime} (h : leasedRuntime s now c = some item) :
    findRuntimeLocked s c.projectID c.runtimeID = some item ∧ item.fencingToken = c.fencing ∧
      item.status ≠ .fenced ∧ item.leaseBefore now = false := by
  simpa [leasedRuntime, Option.filter_eq_some_iff, and_assoc] using h

theorem findRuntimeLocked_some {s : TeamState} {projectID runtimeID : String}
    {item : AgentRuntime} (h : findRuntimeLocked s projectID runtimeID = some item) :
    item ∈ s.agentRuntimes ∧ item.projectId = projectID ∧ item.runtimeId = runtimeID := by
  simpa [AgentRuntime.key] using lookupKey_some h

/-- What every event of a batch keeps, the storing loop keeps. -/
theorem storeEventBatch_preserves {env : Env} {now : Instant} {s : TeamState}
    {c : RuntimeCredentials} {item : AgentRuntime} {events : List Fields}
    {P : TeamState → Prop}
    (hruntime : ∀ s item, P s → P (replaceRuntimeLocked s item))
    (hevent : ∀ s event, P s → P (ingestTeamEvent env now c.projectID c.runtimeID s event))
    (hs : P s) : P (storeEventBatch env now s c item events) :=
  hruntime _ _ (List.foldlRecOn _ _ hs fun s h event _ => hevent s event h)

theorem foldl_ingest_agentRuntimes (env : Env) (now : Instant) (p r : String)
    (events : List Fields) (s : TeamState) :
    (events.foldl (ingestTeamEvent env now p r) s).agentRuntimes = s.agentRuntimes :=
  List.foldlRecOn (motive := fun t : TeamState => t.agentRuntimes = s.agentRuntimes) _ _ rfl
    fun t ht event _ => by rw [ingestTeamEvent_agentRuntimes, ht]

theorem storeEventBatch_agentRuntimes {env : Env} {now : Instant} {s : TeamState}
    {c : RuntimeCredentials} {item : AgentRuntime} {events : List Fields}
    (h : leasedRuntime s now c = some item) :
    (storeEventBatch env now s c item events).agentRuntimes =
      replaceKey AgentRuntime.key
        (sequencedRuntime now item (lastFresh (lastAccepted item) events)) s.agentRuntimes := by
  have hfold := foldl_ingest_agentRuntimes env now c.projectID c.runtimeID
    (freshEvents (lastAccepted item) events) s
  obtain ⟨hfind, -⟩ := leasedRuntime_some h
  obtain ⟨-, hp, hr⟩ := findRuntimeLocked_some hfind
  have hkey : lookupKey AgentRuntime.key
      (sequencedRuntime now item (lastFresh (lastAccepted item) events)).key s.agentRuntimes =
        some item := by
    simpa only [AgentRuntime.key, sequencedRuntime, hp, hr, findRuntimeLocked] using hfind
  rw [← hfold] at hkey
  rw [storeEventBatch, replaceRuntimeLocked_agentRuntimes hkey, hfold]

theorem le_storeEventBatch_idCounter (env : Env) (now : Instant) (s : TeamState)
    (c : RuntimeCredentials) (item : AgentRuntime) (events : List Fields) :
    s.idCounter ≤ (storeEventBatch env now s c item events).idCounter :=
  storeEventBatch_preserves (P := fun t => s.idCounter ≤ t.idCounter) (fun _ _ h => h)
    (fun _ _ h => Nat.le_trans h (le_ingestTeamEvent_idCounter ..)) (Nat.le_refl _)

def handleAgentRuntimeEvents (env : Env) (now : Instant) (failure : Option String)
    (s : TeamState) (body : Fields) : TeamState × Response :=
  let c := runtimeCredentials body
  let raw := bodyList body "events"
  if ¬c.complete ∨ raw.isEmpty ∨ 100 < raw.length then
    (s, .error 400 "AGENT_EVENTS_INVALID"
      "projectId、runtimeId、fencingToken 和 1-100 条 events 必须同时提供")
  else
    match leasedRuntime s now c with
    | none => (s, teamFenced)
    | some runtimeItem =>
        let last := lastAccepted runtimeItem
        match checkTeamEvents s c.projectID last last raw with
        | .error response => (s, response)
        | .ok _ =>
            let events := eventObjects raw
            commitTeamState s (storeEventBatch env now s c runtimeItem events) failure
              "AGENT_EVENT_SAVE_FAILED"
              (.events (freshEvents last events).length (lastFresh last events))

end WorkMesh.AgentTeam
