import WorkMesh.AgentTeam.Effects

/-!
# What reaches the event log

Every request appends to the logs of its project or leaves them alone. Of the
events that a batch appends, those with a runtime are the events of the batch;
the scheduler signs its own with no runtime.
-/

namespace WorkMesh.AgentTeam

open StateMachine

theorem storeTeamEvent_all (s : TeamState) (p : String) (event : TeamEvent) (q : String) :
    ((storeTeamEvent s p event).teamEvents q).all =
      (s.teamEvents q).all ++ if q = p then [event] else [] := by
  simp only [storeTeamEvent]
  split
  · rename_i h
    rw [EventLog.all_append, h]
  · rw [List.append_nil]

/-! ## What writing to the logs keeps -/

/-- Logs and sequence numbers are the same. -/
structure SameLogs (s t : TeamState) : Prop where
  teamEvents : t.teamEvents = s.teamEvents
  teamSequences : t.teamSequences = s.teamSequences

/-- A property of the logs that storing the next event keeps. -/
structure KeptByLogs (P : TeamState → Prop) : Prop where
  same : ∀ {s t}, P s → SameLogs s t → P t
  store : ∀ {s} event, P s → event.sequence = s.teamSequences event.projectId + 1 →
    P (storeTeamEvent s event.projectId event)

section Parts
variable {env : Env} {now : Instant} {P : TeamState → Prop} (hP : KeptByLogs P)
include hP

theorem KeptByLogs.append {s : TeamState} (hs : P s) {p typ id r : String} {payload : Fields} :
    P (appendTeamEventLocked s now p typ id r payload) :=
  hP.store (newTeamEvent s now p typ id r payload) hs rfl

theorem KeptByLogs.enqueue {s : TeamState} (hs : P s) (task : TeamTask) (kind : CommandKind)
    (payload : Fields) : P (enqueueTaskCommandLocked s now task kind payload).1 :=
  hP.same hs ⟨enqueueTaskCommandLocked_teamEvents .., enqueueTaskCommandLocked_teamSequences ..⟩

theorem KeptByLogs.scheduled {p : String} {s t : TeamState} {i : Nat} {task : TeamTask} (hs : P s)
    (h : Scheduled env now p s i task t) : P t := by
  have hstored : ∀ status typ payload, P (storeScheduled now s i task status typ payload) := by
    intro status typ payload
    apply hP.append
    exact hP.same hs ⟨rfl, rfl⟩
  cases h with
  | waitsForUnits => exact hstored _ _ _
  | accepted => exact hP.enqueue (hstored _ _ _) _ _ _
  | blocked => exact hstored _ _ _

theorem KeptByLogs.activate {s : TeamState} (hs : P s) (p : String) :
    P (activateReadyTeamTasksLocked env s now p) :=
  activateReady_preserves (fun _ _ _ _ hs _ _ _ hmove => hP.scheduled hs hmove) hs

theorem KeptByLogs.ingest {s : TeamState} (hs : P s) (p r : String) (event : Fields) :
    P (ingestTeamEvent env now p r s event) :=
  ingestTeamEvent_preserves
    (fun u hu => hP.store (ingestedEvent u now p r event) hu rfl)
    (fun _ _ _ hs _ _ => hP.same hs ⟨rfl, rfl⟩) (fun _ hs => hP.activate hs _) hs

theorem KeptByLogs.act {s : TeamState} (hs : P s) (task : TeamTask) (action : TaskAction)
    (body : Fields) : P (performTaskAction env s now task action body) := by
  have hprepared : P (prepareTaskAction s now task action) := by
    cases action with
    | retry =>
        have hsuperseded : P (supersedeTeamCommandsLocked s now task.taskId) :=
          hP.same hs ⟨rfl, rfl⟩
        exact hP.enqueue hsuperseded _ _ _
    | _ => exact hs
  have hfollow : ∀ (s : TeamState) acted, P s → P (followTaskAction env s now acted body action) := by
    intro s acted hs
    have hsuperseded : P (supersedeTeamCommandsLocked s now acted.taskId) :=
      hP.same hs ⟨rfl, rfl⟩
    cases action with
    | input => exact hP.enqueue hs _ _ _
    | cancel => exact hP.enqueue (hP.activate hsuperseded _) _ _ _
    | retry =>
        simp only [followTaskAction]
        split
        · exact hP.enqueue hs _ _ _
        · exact hs
    | complete => exact hP.activate (hP.enqueue hsuperseded _ _ _) _
    | approve => exact hs
    | reject => exact hP.activate hs _
  simp only [performTaskAction]
  apply hfollow
  apply hP.append
  exact hP.same hprepared ⟨rfl, rfl⟩

theorem KeptByLogs.register {s : TeamState} (hs : P s) (item : AgentRuntime) :
    P (storeRegistration s now item) := by
  have hredispatch : ∀ t, ∀ task ∈ s.teamTasks, P t →
      P (redispatchTeamTask now item.projectId t task) := by
    intro t task _ ht
    rcases redispatchTeamTask_cases t now item.projectId task with h | ⟨-, -, -, h⟩
    · rw [h]; exact ht
    · rw [h]; exact hP.enqueue ht _ _ _
  simp only [storeRegistration]
  apply hP.append
  apply redispatch_preserves _ hredispatch
  exact hP.same hs ⟨rfl, rfl⟩

end Parts

/-- What storing the next event keeps, every request keeps. -/
theorem Effect.logs {env : Env} {now : Instant} {s t : TeamState} {request : Request}
    {response : Response} {P : TeamState → Prop} (h : Effect env now s request t response)
    (hP : KeptByLogs P) (hs : P s) : P t := by
  cases h with
  | refused => exact hP.same hs ⟨rfl, rfl⟩
  | answered => exact hs
  | recreated => exact hs
  | repeated => exact hs
  | inputUnsaved => exact hP.same hs ⟨rfl, rfl⟩
  | registered => exact hP.register hs _
  | renewed => exact hP.same hs ⟨rfl, rfl⟩
  | unregistered =>
      apply hP.append
      exact hP.same hs ⟨rfl, rfl⟩
  | ingested =>
      exact storeEventBatch_preserves (fun _ _ hs => hP.same hs ⟨rfl, rfl⟩)
        (fun _ _ hs => hP.ingest hs _ _ _) hs
  | polled => exact hP.same hs ⟨rfl, rfl⟩
  | acked => exact hP.same hs ⟨by simp, by simp⟩
  | expired =>
      exact expireRuntimeLeases_preserves (fun _ _ hs => hP.same hs ⟨rfl, rfl⟩)
        (fun _ _ _ _ _ hs => hP.append hs) hs
  | created spec reply =>
      have hstored : ∀ tasks, P { s.tick with teamTasks := tasks } :=
        fun tasks => hP.same hs ⟨rfl, rfl⟩
      simp only [storeNewTask]
      split
      · exact hP.enqueue (hP.append (hstored _)) _ _ _
      · exact hP.append (hstored _)
  | acted task => exact hP.act hs task _ _
  | uploaded => exact hP.same hs ⟨rfl, rfl⟩

/-! ## Logs only grow -/

/-- Each log of the second state continues the one of the first. -/
def LogExtends (s t : TeamState) : Prop :=
  ∀ projectID, (s.teamEvents projectID).all <+: (t.teamEvents projectID).all

theorem LogExtends.refl (s : TeamState) : LogExtends s s := fun _ => List.prefix_refl _

theorem keptByLogs_extends (s : TeamState) : KeptByLogs (LogExtends s) where
  same := fun h hsame projectID => by
    rw [hsame.teamEvents]
    exact h projectID
  store := fun event h _ projectID => by
    rw [storeTeamEvent_all]
    exact (h projectID).trans (List.prefix_append _ _)

/-- No request takes an event back. -/
theorem Effect.logExtends {env : Env} {now : Instant} {s t : TeamState} {request : Request}
    {response : Response} (h : Effect env now s request t response) : LogExtends s t :=
  h.logs (keptByLogs_extends s) (.refl s)

/-! ## Logs are numbered -/

/-- The events are numbered from one on, and only what no longer fits is forgotten. -/
structure EventLog.Numbered (log : EventLog) (n : Nat) : Prop where
  sequences : log.all.map TeamEvent.sequence = List.range' 1 n
  retained : log.retained.length = min n teamEventLimit

theorem EventLog.Numbered.length {log : EventLog} {n : Nat} (h : log.Numbered n) :
    log.all.length = n := by
  simpa using congrArg List.length h.sequences

theorem EventLog.Numbered.append {log : EventLog} {n : Nat} (h : log.Numbered n)
    {event : TeamEvent} (hnext : event.sequence = n + 1) : (log.append event).Numbered (n + 1) where
  sequences := by
    rw [EventLog.all_append, List.map_append, h.sequences, List.range'_concat, List.map_singleton,
      hnext, Nat.one_mul, Nat.add_comm]
  retained := by
    simp only [EventLog.append, List.length_drop, List.length_append, List.length_singleton,
      h.retained]
    omega

theorem EventLog.Numbered.sorted {log : EventLog} {n : Nat} (h : log.Numbered n) :
    log.all.Pairwise fun a b => a.sequence < b.sequence := by
  have hrange : (log.all.map TeamEvent.sequence).Pairwise (· < ·) := by
    rw [h.sequences]
    exact List.pairwise_lt_range'
  exact List.pairwise_map.mp hrange

theorem EventLog.Numbered.dropped_length {log : EventLog} {n : Nat} (h : log.Numbered n) :
    log.dropped.length = n - teamEventLimit := by
  have hall := h.length
  rw [EventLog.all, List.length_append, h.retained] at hall
  omega

/-- The log keeps the newest events. -/
theorem EventLog.Numbered.retained_sequences {log : EventLog} {n : Nat} (h : log.Numbered n) :
    log.retained.map TeamEvent.sequence = (List.range' 1 n).drop (n - teamEventLimit) := by
  rw [← h.sequences, EventLog.all, List.map_append,
    List.drop_left' (by rw [List.length_map, h.dropped_length])]

/-- A forgotten event is older than the newest ones. -/
theorem EventLog.Numbered.dropped_le {log : EventLog} {n : Nat} (h : log.Numbered n)
    {event : TeamEvent} (hdropped : event ∈ log.dropped) :
    event.sequence + teamEventLimit ≤ n := by
  have hrange : log.dropped.map TeamEvent.sequence = List.range' 1 (n - teamEventLimit) := by
    have htake := congrArg (List.take (n - teamEventLimit)) h.sequences
    rw [EventLog.all, List.map_append,
      List.take_left' (by rw [List.length_map, h.dropped_length])] at htake
    rw [htake, List.take_range'_of_length_ge (Nat.sub_le _ _)]
  have hmem : event.sequence ∈ List.range' 1 (n - teamEventLimit) :=
    hrange ▸ List.mem_map_of_mem hdropped
  have hle := (List.mem_range'_1.mp hmem).2
  have hpos := (List.mem_range'_1.mp hmem).1
  omega

/-- Every log of the state is numbered. -/
def LogsNumbered (s : TeamState) : Prop :=
  ∀ projectID, (s.teamEvents projectID).Numbered (s.teamSequences projectID)

theorem keptByLogs_numbered : KeptByLogs LogsNumbered where
  same := fun h hsame projectID => by
    rw [hsame.teamEvents, hsame.teamSequences]
    exact h projectID
  store := by
    intro s event h hnext projectID
    simp only [storeTeamEvent]
    split
    · exact (h event.projectId).append hnext
    · exact h projectID

theorem logsNumbered_empty : LogsNumbered .empty := fun _ => ⟨rfl, rfl⟩

theorem reached_logsNumbered (env : Env) (now : Instant) (inputs : List Input) :
    LogsNumbered (reached env now inputs).team :=
  run_preserves (P := fun w : World => LogsNumbered w.team)
    (fun w i h => (next_effect env w i).logs keptByLogs_numbered h) logsNumbered_empty inputs

/-- The events that a step appends to the log of a project. -/
def loggedBy (env : Env) (projectID : String) (w : World) (i : Input) : List TeamEvent :=
  ((next env w i).team.teamEvents projectID).all.drop (w.team.teamEvents projectID).all.length

theorem all_next (env : Env) (projectID : String) (w : World) (i : Input) :
    ((next env w i).team.teamEvents projectID).all =
      (w.team.teamEvents projectID).all ++ loggedBy env projectID w i := by
  obtain ⟨added, hadded⟩ := (next_effect env w i).logExtends projectID
  simp [loggedBy, ← hadded]

/-- A log is what the steps have appended to it, in order. -/
theorem all_run (env : Env) (projectID : String) (w : World) (inputs : List Input) :
    ((run (next env) w inputs).team.teamEvents projectID).all =
      (w.team.teamEvents projectID).all ++ outputs (next env) (loggedBy env projectID) w inputs := by
  induction inputs generalizing w with
  | nil => simp [outputs]
  | cons i inputs ih =>
      rw [run_cons, ih, all_next, outputs, List.append_assoc]

/-! ## The entries of a runtime -/

/-- The entries of a log that name a runtime. -/
def runtimeEntries (projectID runtimeID : String) (s : TeamState) : List TeamEvent :=
  (s.teamEvents projectID).all.filter fun entry => entry.runtimeId = runtimeID

section Entries
variable {env : Env} {now : Instant} {p r : String}

theorem runtimeEntries_congr {s t : TeamState} (h : t.teamEvents = s.teamEvents) :
    runtimeEntries p r t = runtimeEntries p r s := by
  simp only [runtimeEntries, h]

theorem runtimeEntries_store (s : TeamState) (event : TeamEvent) :
    runtimeEntries p r (storeTeamEvent s p event) =
      runtimeEntries p r s ++ if event.runtimeId = r then [event] else [] := by
  simp only [runtimeEntries, storeTeamEvent_all, if_true, List.filter_append]
  by_cases h : event.runtimeId = r <;> simp [h]

/-- The scheduler's events name no runtime. -/
theorem Scheduled.runtimeEntries_eq (hr : r ≠ "") {s t : TeamState} {i : Nat} {task : TeamTask}
    (hp : task.projectId = p) (h : Scheduled env now p s i task t) :
    runtimeEntries p r t = runtimeEntries p r s := by
  have hstored : ∀ status typ payload,
      runtimeEntries p r (storeScheduled now s i task status typ payload) =
        runtimeEntries p r s := by
    intro status typ payload
    subst hp
    refine (runtimeEntries_store
      { s with teamTasks := s.teamTasks.set i (scheduledTask now task status) } _).trans ?_
    rw [if_neg (fun h => hr h.symm), List.append_nil]
    rfl
  cases h with
  | waitsForUnits => exact hstored _ _ _
  | accepted =>
      exact (runtimeEntries_congr (enqueueTeamCommandLocked_teamEvents ..)).trans (hstored _ _ _)
  | blocked => exact hstored _ _ _

theorem activate_runtimeEntries (hr : r ≠ "") (s : TeamState) :
    runtimeEntries p r (activateReadyTeamTasksLocked env s now p) = runtimeEntries p r s :=
  activateReady_preserves (P := fun t => runtimeEntries p r t = runtimeEntries p r s)
    (fun _ _ _ _ hs _ hp _ hmove => (hmove.runtimeEntries_eq hr hp).trans hs) rfl

/-- Storing an event adds one entry of its runtime. -/
theorem ingest_runtimeEntries (hr : r ≠ "") (s : TeamState) (event : Fields) :
    runtimeEntries p r (ingestTeamEvent env now p r s event) =
      runtimeEntries p r s ++ [ingestedEvent s now p r event] := by
  have hlogged : runtimeEntries p r (storeTeamEvent s p (ingestedEvent s now p r event)) =
      runtimeEntries p r s ++ [ingestedEvent s now p r event] := by
    rw [runtimeEntries_store, if_pos (show (ingestedEvent s now p r event).runtimeId = r from rfl)]
  have hcases := ingestTeamEvent_ingested env now p r s event
  generalize ingestTeamEvent env now p r s event = t at hcases ⊢
  cases hcases with
  | logged => exact hlogged
  | woken => exact (activate_runtimeEntries hr _).trans hlogged
  | written => exact hlogged
  | ended => exact (activate_runtimeEntries hr _).trans hlogged

end Entries

/-- The entry is the record of an event that the runtime has sent. -/
def Records (runtimeID : String) (event : Fields) (entry : TeamEvent) : Prop :=
  entry.type = eventType event ∧ entry.taskId = eventTaskID event ∧
    entry.runtimeId = runtimeID ∧
    entry.payload = boundedPayload (some (.obj (eventPayload event)))

theorem records_ingestedEvent (s : TeamState) (now : Instant) (p r : String) (event : Fields) :
    Records r event (ingestedEvent s now p r event) := by
  simp only [Records, ingestedEvent, newTeamEvent, and_self]

/-- The storing loop adds one record for each event, in their order. -/
theorem foldl_ingest_runtimeEntries (env : Env) (now : Instant) (p : String) {r : String}
    (hr : r ≠ "") (events : List Fields) (s : TeamState) :
    ∃ entries, runtimeEntries p r (events.foldl (ingestTeamEvent env now p r) s) =
        runtimeEntries p r s ++ entries ∧ List.Forall₂ (Records r) events entries := by
  induction events generalizing s with
  | nil => exact ⟨[], by simp, .nil⟩
  | cons event events ih =>
      obtain ⟨entries, hentries, hrecords⟩ := ih (ingestTeamEvent env now p r s event)
      refine ⟨ingestedEvent s now p r event :: entries, ?_,
        .cons (records_ingestedEvent ..) hrecords⟩
      rw [List.foldl_cons, hentries, ingest_runtimeEntries hr, List.append_assoc]
      rfl

end WorkMesh.AgentTeam
