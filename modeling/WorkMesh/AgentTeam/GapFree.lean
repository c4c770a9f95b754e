import WorkMesh.AgentTeam.EventStream

/-!
# What an event stream leaves out

A stream writes, in their order, the events of its project that follow the
cursor it was opened with, as long as the log still holds them when a round
copies it. A round that comes after its next event has been forgotten goes on
behind the gap and says nothing: the cursor is compared with the oldest event
only once, when the stream is opened, and not at all for cursor 0.
-/

namespace WorkMesh.AgentTeam

open StateMachine

/-! ## The leases that a round ends -/

/-- How many leases of the project have run out. -/
def dueLeases (now : Instant) (projectID : String) (s : TeamState) : Nat :=
  s.agentRuntimes.countP fun item => item.projectId = projectID ∧ leaseExpired now item

theorem leaseExpired_offlineRuntime (now : Instant) (item : AgentRuntime) :
    leaseExpired now (offlineRuntime now item) = false := by
  simp [leaseExpired, offlineRuntime]

/-- An iteration of the expiry loop turns a due lease into an event. -/
theorem expireRuntimeLease_due (now : Instant) (projectID : String) (s : TeamState) (i : Nat) :
    (expireRuntimeLease now s i).teamSequences projectID +
        dueLeases now projectID (expireRuntimeLease now s i) =
      s.teamSequences projectID + dueLeases now projectID s := by
  simp only [expireRuntimeLease]
  cases hget : s.agentRuntimes[i]? with
  | none => rfl
  | some item =>
      dsimp only
      split
      · rename_i hdue
        have hcount := countP_set (a := offlineRuntime now item) (fun r : AgentRuntime =>
          decide (r.projectId = projectID ∧ leaseExpired now r)) hget
        simp only [hdue, leaseExpired_offlineRuntime, and_true, Bool.false_eq_true, and_false,
          decide_false, if_false, decide_eq_true_eq] at hcount
        simp only [appendTeamEventLocked, storeTeamEvent, dueLeases, TeamState.tick_agentRuntimes,
          eq_comm (a := projectID)]
        by_cases hproject : item.projectId = projectID
        · subst hproject
          simp only [if_true] at hcount ⊢
          omega
        · simp only [hproject, if_false] at hcount ⊢
          omega
      · rfl

theorem expireRuntimeLeasesLocked_teamSequences (s : TeamState) (now : Instant)
    (projectID : String) :
    (expireRuntimeLeasesLocked s now).teamSequences projectID =
      s.teamSequences projectID + dueLeases now projectID s := by
  have hsum : (expireRuntimeLeasesLocked s now).teamSequences projectID +
      dueLeases now projectID (expireRuntimeLeasesLocked s now) =
        s.teamSequences projectID + dueLeases now projectID s :=
    List.foldlRecOn (motive := fun t : TeamState => t.teamSequences projectID +
      dueLeases now projectID t = s.teamSequences projectID + dueLeases now projectID s) _ _ rfl
      fun t ht i _ => (expireRuntimeLease_due now projectID t i).trans ht
  have hnone : dueLeases now projectID (expireRuntimeLeasesLocked s now) = 0 := by
    rw [dueLeases, expireRuntimeLeasesLocked_agentRuntimes, List.countP_map, List.countP_eq_zero]
    intro item _
    have hended : leaseExpired now (afterExpiry now item) = false := by
      simp only [afterExpiry]
      split
      · exact leaseExpired_offlineRuntime now item
      · exact Bool.eq_false_iff.mpr ‹_›
    simp only [Function.comp_apply, hended, Bool.false_eq_true, and_false, decide_false,
      not_false_eq_true]
  rwa [hnone, Nat.add_zero] at hsum

/-- The events of ended leases name no task. -/
theorem expireRuntimeLeasesLocked_teamEvents (s : TeamState) (now : Instant) (projectID : String) :
    ∃ added, ((expireRuntimeLeasesLocked s now).teamEvents projectID).all =
        (s.teamEvents projectID).all ++ added ∧ ∀ event ∈ added, event.taskId = "" := by
  refine expireRuntimeLeases_preserves (P := fun t : TeamState => ∃ added,
    (t.teamEvents projectID).all = (s.teamEvents projectID).all ++ added ∧
      ∀ event ∈ added, event.taskId = "") (fun _ _ h => h) ?_ ⟨[], by simp, by simp⟩
  rintro t p typ runtimeID payload ⟨added, hall, hadded⟩
  rw [appendTeamEventLocked, storeTeamEvent_all, hall]
  split
  · refine ⟨added ++ [newTeamEvent t now p typ "" runtimeID payload], by simp, ?_⟩
    intro event hmem
    rcases List.mem_append.mp hmem with h | h
    · exact hadded event h
    · rw [List.mem_singleton.mp h]
      rfl
  · exact ⟨added, by simp, hadded⟩

/-- What a round finds when the save, if one is due, succeeds. -/
theorem expireDueLeases_log {now : Instant} {failure : Option String} {s t : TeamState}
    (h : expireDueLeases now failure s = (t, none)) (projectID : String) :
    t.teamSequences projectID = s.teamSequences projectID + dueLeases now projectID s ∧
      ∃ added, (t.teamEvents projectID).all = (s.teamEvents projectID).all ++ added ∧
        ∀ event ∈ added, event.taskId = "" := by
  simp only [expireDueLeases] at h
  split at h
  · cases failure with
    | some message => simp [saveTeamStateLocked] at h
    | none =>
        obtain rfl : expireRuntimeLeasesLocked s now = t := congrArg Prod.fst h
        exact ⟨expireRuntimeLeasesLocked_teamSequences s now projectID,
          expireRuntimeLeasesLocked_teamEvents s now projectID⟩
  · rename_i hdue
    obtain rfl : s = t := congrArg Prod.fst h
    have hnone : dueLeases now projectID s = 0 := by
      rw [dueLeases, List.countP_eq_zero]
      intro item hitem
      simp only [hasExpiredRuntimeLeaseLocked, List.any_eq_true, not_exists, not_and] at hdue
      simp [hdue item hitem]
    exact ⟨by rw [hnone, Nat.add_zero], [], by simp, by simp⟩

/-! ## The events of one round -/

/-- The sequence number that a client which has these events is at. -/
def lastSequence (c : Nat) (events : List TeamEvent) : Nat :=
  (events.getLast?.map TeamEvent.sequence).getD c

@[simp] theorem lastSequence_nil (c : Nat) : lastSequence c [] = c := rfl

@[simp] theorem lastSequence_concat (c : Nat) (events : List TeamEvent) (event : TeamEvent) :
    lastSequence c (events ++ [event]) = event.sequence := by
  simp [lastSequence]

theorem lastSequence_cons (c : Nat) (event : TeamEvent) (events : List TeamEvent) :
    lastSequence c (event :: events) = lastSequence event.sequence events := by
  rcases List.eq_nil_or_concat events with rfl | ⟨init, last, rfl⟩
  · rfl
  · rw [List.concat_eq_append, ← List.cons_append, lastSequence_concat, lastSequence_concat]

theorem lastSequence_append (c : Nat) (first rest : List TeamEvent) :
    lastSequence c (first ++ rest) = lastSequence (lastSequence c first) rest := by
  induction first generalizing c with
  | nil => rfl
  | cons event first ih => rw [List.cons_append, lastSequence_cons, ih, lastSequence_cons]

/-- The events that a stream at cursor `c` is to write. -/
def Stream.wanted (stream : Stream) (c : Nat) (events : List TeamEvent) : List TeamEvent :=
  events.filter fun event => c < event.sequence && stream.serves event

/-- A connection that has failed takes nothing more. -/
theorem streamEvents_broken {stream : Stream} (h : stream.connection.writes = some 0)
    (events : List TeamEvent) : streamEvents stream events = stream := by
  induction events with
  | nil => rfl
  | cons event events ih =>
      have hwrite : writeTeamSSE stream.connection event = (stream.connection, false) := by
        simp [writeTeamSSE, Connection.write, h]
      simp only [streamEvents, hwrite, ih, ite_self]

theorem streamEvents_fixed (stream : Stream) (events : List TeamEvent) :
    (streamEvents stream events).projectID = stream.projectID ∧
      (streamEvents stream events).taskID = stream.taskID := by
  induction events generalizing stream with
  | nil => exact ⟨rfl, rfl⟩
  | cons event events ih =>
      simp only [streamEvents]
      split
      · exact ih stream
      · obtain ⟨w, _ | _⟩ := writeTeamSSE stream.connection event
        · exact ih _
        · dsimp only
          obtain ⟨w, _ | _⟩ := w.flush
          · exact ⟨rfl, rfl⟩
          · exact ih _

/-- The outcome of a round over the events that it has copied: it has written the
first of those that are wanted, and all of them over a sound connection. -/
structure Wrote (stream after : Stream) (events written : List TeamEvent) : Prop where
  first : written <+: stream.wanted stream.cursor events
  sent : after.connection.sent = stream.connection.sent ++ written.map sseFrame
  cursor : after.cursor = lastSequence stream.cursor written
  sound : stream.connection.writes = none → stream.connection.flushes = none →
    written = stream.wanted stream.cursor events

theorem streamEvents_wrote (stream : Stream) (events : List TeamEvent)
    (hsorted : events.Pairwise fun a b => a.sequence < b.sequence)
    (hsmall : ∀ event ∈ events, event.sequence ≤ 2 ^ 60) :
    ∃ written, Wrote stream (streamEvents stream events) events written := by
  induction events generalizing stream with
  | nil => exact ⟨[], ⟨List.prefix_refl _, by simp [streamEvents], rfl, fun _ _ => rfl⟩⟩
  | cons event events ih =>
      obtain ⟨hlater, hsorted⟩ := List.pairwise_cons.mp hsorted
      have hsequence : streamSequence event = event.sequence :=
        Nat.min_eq_left (hsmall event List.mem_cons_self)
      have ih := fun stream => ih stream hsorted fun e he => hsmall e (List.mem_cons_of_mem _ he)
      by_cases hskip : event.sequence ≤ stream.cursor ∨ ¬stream.serves event
      · -- the event is not wanted
        obtain ⟨written, hwrote⟩ := ih stream
        have hwanted : stream.wanted stream.cursor (event :: events) =
            stream.wanted stream.cursor events := by
          refine List.filter_cons_of_neg ?_
          simp only [Bool.and_eq_true, decide_eq_true_eq, not_and_or, Nat.not_lt]
          exact hskip
        refine ⟨written, ?_⟩
        rw [streamEvents, hsequence, if_pos hskip]
        exact { hwrote with
          first := hwanted ▸ hwrote.first
          sound := fun hw hf => hwanted ▸ hwrote.sound hw hf }
      · obtain ⟨hafter, hserves⟩ : stream.cursor < event.sequence ∧ stream.serves event = true := by
          simpa [not_or] using hskip
        have hwanted : stream.wanted stream.cursor (event :: events) =
            event :: stream.wanted event.sequence events := by
          rw [Stream.wanted, List.filter_cons_of_pos (by simp [hafter, hserves])]
          refine congrArg (event :: ·) (List.filter_congr fun e he => ?_)
          rw [decide_eq_true (hlater e he), decide_eq_true (Nat.lt_trans hafter (hlater e he))]
        by_cases hbroken : stream.connection.writes = some 0
        · rw [streamEvents_broken hbroken]
          exact ⟨[], List.nil_prefix, by simp, rfl,
            fun hw => absurd (hw.symm.trans hbroken) (by simp)⟩
        · -- the event is written; whether the loop goes on depends on the flush
          generalize hwritten : ({ stream.connection with
            writes := stream.connection.writes.map Nat.pred
            sent := stream.connection.sent ++ [sseFrame event] } : Connection) = connection
          have hwrite : writeTeamSSE stream.connection event = (connection, true) := by
            simp [writeTeamSSE, Connection.write, hbroken, hwritten]
          have hsent : connection.sent = stream.connection.sent ++ [sseFrame event] := by
            rw [← hwritten]
          have hwrites : connection.writes = stream.connection.writes.map Nat.pred := by
            rw [← hwritten]
          have hflushes : connection.flushes = stream.connection.flushes := by rw [← hwritten]
          by_cases hlost : connection.flushes = some 0
          · have hflush : connection.flush = (connection, false) := by
              simp [Connection.flush, hlost]
            refine ⟨[event], ?_⟩
            simp only [streamEvents, hsequence, if_neg hskip, hwrite, hflush]
            refine ⟨hwanted ▸ ⟨_, rfl⟩, by simpa using hsent, by simp [lastSequence], ?_⟩
            intro _ hf
            rw [hflushes, hf] at hlost
            cases hlost
          · generalize hflushed : ({ connection with
              flushes := connection.flushes.map Nat.pred } : Connection) = sound
            have hflush : connection.flush = (sound, true) := by
              simp [Connection.flush, hlost, hflushed]
            obtain ⟨written, hwrote⟩ := ih
              { stream with cursor := event.sequence, connection := sound }
            refine ⟨event :: written, ?_⟩
            simp only [streamEvents, hsequence, if_neg hskip, hwrite, hflush]
            have hfirst : written <+: stream.wanted event.sequence events := hwrote.first
            refine ⟨hwanted ▸ (List.cons_prefix_cons.mpr ⟨rfl, hfirst⟩), ?_, ?_, ?_⟩
            · rw [hwrote.sent, ← hflushed]
              simp [hsent]
            · rw [hwrote.cursor, lastSequence_cons]
            · intro hw hf
              have hall : written = stream.wanted event.sequence events :=
                hwrote.sound (by simp [← hflushed, hwrites, hw]) (by simp [← hflushed, hflushes, hf])
              rw [hwanted, hall]

/-! ## Rounds that keep up -/

/-- The newest events of the project, those of the leases that the round ends
included, reach back to the stream's cursor; or the stream is one of a task that
has no older event behind its cursor. -/
def reachesBack (now : Instant) (s : TeamState) (stream : Stream) : Bool :=
  let newest := s.teamSequences stream.projectID + dueLeases now stream.projectID s
  newest ≤ 2 ^ 60 && (newest ≤ stream.cursor + teamEventLimit ||
    stream.taskID ≠ "" && (s.teamEvents stream.projectID).all.all fun event =>
      !stream.serves event || event.sequence ≤ stream.cursor ||
        newest < event.sequence + teamEventLimit)

/-- A round that reads the log reaches back to the cursor. -/
def KeepsUp (served : Served) : Turn → Prop
  | .round advance failure =>
      served.stream.phase = .streaming →
      (hasExpiredRuntimeLeaseLocked served.world.team (served.world.now + advance) = true →
        failure = none) →
      reachesBack (served.world.now + advance) served.world.team served.stream = true
  | _ => True

instance (served : Served) (turn : Turn) : Decidable (KeepsUp served turn) := by
  cases turn with
  | round => exact inferInstanceAs (Decidable (_ → _))
  | _ => exact inferInstanceAs (Decidable True)

/-- Nothing that the stream is to write has been forgotten. -/
theorem wanted_retained {now : Instant} {failure : Option String} {s t : TeamState}
    {stream : Stream} (hexpired : expireDueLeases now failure s = (t, none))
    (hnumbered : LogsNumbered t) (hreaches : reachesBack now s stream = true) :
    stream.wanted stream.cursor (t.teamEvents stream.projectID).retained =
      stream.wanted stream.cursor (t.teamEvents stream.projectID).all := by
  obtain ⟨hnewest, added, hall, hadded⟩ := expireDueLeases_log hexpired stream.projectID
  have hlog := hnumbered stream.projectID
  rw [hnewest] at hlog
  simp only [reachesBack, Bool.and_eq_true, Bool.or_eq_true, decide_eq_true_eq] at hreaches
  have hdropped : stream.wanted stream.cursor (t.teamEvents stream.projectID).dropped = [] := by
    rw [Stream.wanted, List.filter_eq_nil_iff]
    intro event hevent hwanted
    rw [Bool.and_eq_true, decide_eq_true_eq] at hwanted
    have hold := hlog.dropped_le hevent
    obtain ⟨-, hcursor | ⟨htask, hevents⟩⟩ := hreaches
    · have hafter := hwanted.1
      omega
    · have hmem : event ∈ (s.teamEvents stream.projectID).all ++ added :=
        hall ▸ List.mem_append_left _ hevent
      rcases List.mem_append.mp hmem with h | h
      · have hkept := List.all_eq_true.mp hevents event h
        rw [hwanted.2] at hkept
        simp only [Bool.not_true, Bool.false_or, Bool.or_eq_true, decide_eq_true_eq] at hkept
        have hafter := hwanted.1
        omega
      · -- the events of the ended leases belong to no task
        have hserves := hwanted.2
        simp only [Stream.serves, htask, decide_false, Bool.false_or, hadded event h,
          decide_eq_true_eq] at hserves
        exact htask (hserves ▸ by decide)
  rw [EventLog.all, Stream.wanted, Stream.wanted, List.filter_append]
  exact (congrArg (· ++ _) hdropped).symm

/-- Behind a first part of what is wanted comes what is wanted after its last event. -/
theorem wanted_rest {stream : Stream} {c : Nat} {events written : List TeamEvent}
    (hsorted : events.Pairwise fun a b => a.sequence < b.sequence)
    (h : written <+: stream.wanted c events) :
    stream.wanted c events = written ++ stream.wanted (lastSequence c written) events := by
  obtain ⟨rest, hrest⟩ := h
  rcases List.eq_nil_or_concat written with rfl | ⟨init, last, rfl⟩
  · rfl
  · rw [List.concat_eq_append] at hrest ⊢
    rw [lastSequence_concat]
    have hpairs : (init ++ [last] ++ rest).Pairwise fun a b => a.sequence < b.sequence :=
      hrest ▸ hsorted.filter _
    obtain ⟨hwritten, -, hrestAfter⟩ := List.pairwise_append.mp hpairs
    have hlast : c < last.sequence := by
      have hmem : last ∈ stream.wanted c events := by simp [← hrest]
      have hwanted := (List.mem_filter.mp hmem).2
      rw [Bool.and_eq_true, decide_eq_true_eq] at hwanted
      exact hwanted.1
    have hagain : stream.wanted last.sequence events =
        (stream.wanted c events).filter fun event => last.sequence < event.sequence := by
      rw [Stream.wanted, Stream.wanted, List.filter_filter]
      refine List.filter_congr fun event _ => ?_
      by_cases hafter : last.sequence < event.sequence
      · simp [hafter, Nat.lt_trans hlast hafter]
      · simp [hafter]
    have hbefore : (init ++ [last]).filter (fun event => last.sequence < event.sequence) = [] := by
      rw [List.filter_eq_nil_iff]
      intro event hevent
      rw [decide_eq_true_eq, Nat.not_lt]
      rcases List.mem_append.mp hevent with h | h
      · exact Nat.le_of_lt ((List.pairwise_append.mp hwritten).2.2 event h last
          (List.mem_singleton_self last))
      · rw [List.mem_singleton.mp h]
    have hbehind : rest.filter (fun event => last.sequence < event.sequence) = rest := by
      rw [List.filter_eq_self]
      intro event hevent
      exact decide_eq_true (hrestAfter last (List.mem_append_right _ (List.mem_singleton_self last))
        event hevent)
    rw [hagain, ← hrest, List.filter_append, hbefore, hbehind, List.nil_append]

/-! ## A stream from its opening -/

/-- The stream has written the first of the events that it is to write, and its
cursor is at the last of them. -/
structure Follows (c : Nat) (stream : Stream) (log : EventLog) (written : List TeamEvent) :
    Prop where
  sent : stream.connection.sent = written.map sseFrame
  first : written <+: stream.wanted c log.all
  cursor : stream.cursor = lastSequence c written
  small : ∀ event ∈ written, event.sequence ≤ 2 ^ 60

theorem Follows.extend {c : Nat} {stream : Stream} {log log' : EventLog}
    {written : List TeamEvent} (h : Follows c stream log written) (hlog : log.all <+: log'.all) :
    Follows c stream log' written :=
  { h with first := h.first.trans (hlog.filter _) }

/-- A round over a log that still holds what is wanted. -/
theorem Follows.round {c : Nat} {stream : Stream} {log : EventLog} {written : List TeamEvent}
    {n : Nat} (h : Follows c stream log written) (hlog : log.Numbered n) (hn : n ≤ 2 ^ 60)
    (hretained : stream.wanted stream.cursor log.retained = stream.wanted stream.cursor log.all) :
    ∃ more, Follows c (streamEvents stream log.retained) log (written ++ more) ∧
      (stream.connection.writes = none → stream.connection.flushes = none →
        written ++ more = stream.wanted c log.all) := by
  have hsmall : ∀ event ∈ log.all, event.sequence ≤ 2 ^ 60 := by
    intro event hevent
    have hmem : event.sequence ∈ List.range' 1 n := hlog.sequences ▸ List.mem_map_of_mem hevent
    have hle := (List.mem_range'_1.mp hmem).2
    omega
  have hkept : log.retained.Sublist log.all := List.sublist_append_right _ _
  obtain ⟨more, hwrote⟩ := streamEvents_wrote stream log.retained (hlog.sorted.sublist hkept)
    fun event hevent => hsmall event (hkept.subset hevent)
  have hrest := wanted_rest hlog.sorted h.first
  rw [← h.cursor] at hrest
  have hserves : ∀ c events, (streamEvents stream log.retained).wanted c events =
      stream.wanted c events := by
    intro c events
    simp only [Stream.wanted, Stream.serves, (streamEvents_fixed stream log.retained).2]
  refine ⟨more, ⟨?_, ?_, ?_, ?_⟩, ?_⟩
  · rw [hwrote.sent, h.sent, List.map_append]
  · rw [hserves, hrest]
    exact (List.prefix_append_right_inj _).mpr (hretained ▸ hwrote.first)
  · rw [hwrote.cursor, h.cursor, lastSequence_append]
  · intro event hevent
    rcases List.mem_append.mp hevent with hmem | hmem
    · exact h.small event hmem
    · exact hsmall event (List.mem_filter.mp ((hretained ▸ hwrote.first).subset hmem)).1
  · intro hw hf
    rw [hrest, hwrote.sound hw hf, hretained]

/-- The stream has the same position in the log of the same project. -/
structure SamePlace (stream after : Stream) : Prop where
  projectID : after.projectID = stream.projectID
  taskID : after.taskID = stream.taskID
  cursor : after.cursor = stream.cursor
  sent : after.connection.sent = stream.connection.sent

theorem Follows.same {c : Nat} {stream after : Stream} {log : EventLog} {written : List TeamEvent}
    (h : Follows c stream log written) (hsame : SamePlace stream after) :
    Follows c after log written where
  sent := hsame.sent.trans h.sent
  first := by simpa only [Stream.wanted, Stream.serves, hsame.taskID] using h.first
  cursor := hsame.cursor.trans h.cursor
  small := h.small

theorem openStream_same (stream : Stream) (events : List TeamEvent) :
    SamePlace stream (openStream stream events) := by
  simp only [openStream]
  split
  · exact ⟨rfl, rfl, rfl, rfl⟩
  · split <;> exact ⟨rfl, rfl, rfl, rfl⟩

theorem streamHeartbeat_same (stream : Stream) : SamePlace stream (streamHeartbeat stream) := by
  have hwrite : stream.connection.write.1.sent = stream.connection.sent := by
    simp only [Connection.write]
    split <;> rfl
  have hflush : ∀ w : Connection, w.flush.1.sent = w.sent := by
    intro w
    simp only [Connection.flush]
    split <;> rfl
  simp only [streamHeartbeat]
  generalize stream.connection.write = written at hwrite
  obtain ⟨w, _ | _⟩ := written
  · exact ⟨rfl, rfl, rfl, hwrite⟩
  · have hflush := (hflush w).trans hwrite
    dsimp only
    generalize w.flush = flushed at hflush
    obtain ⟨w, _ | _⟩ := flushed <;> exact ⟨rfl, rfl, rfl, hflush⟩

/-- A round that writes no events leaves the stream where it is. -/
theorem streamRound_same {now : Instant} {failure : Option String} {s : TeamState}
    {stream : Stream} (h : ¬(stream.phase = .streaming ∧
      (hasExpiredRuntimeLeaseLocked s now = true → failure = none))) :
    SamePlace stream (streamRound now failure s stream).2 := by
  have hexpired : stream.phase = .streaming →
      ∃ message, (expireDueLeases now failure s).2 = some message := by
    intro hphase
    have hunsaved : ¬(hasExpiredRuntimeLeaseLocked s now = true → failure = none) :=
      fun hsaved => h ⟨hphase, hsaved⟩
    obtain ⟨hdue, hfailure⟩ := Classical.not_imp.mp hunsaved
    obtain ⟨message, hmessage⟩ := Option.ne_none_iff_exists'.mp hfailure
    exact ⟨message, by simp [expireDueLeases, hdue, hmessage, saveTeamStateLocked]⟩
  simp only [streamRound]
  generalize expireDueLeases now failure s = expired at hexpired
  split
  · obtain ⟨t, _ | message⟩ := expired
    · exact openStream_same stream _
    · exact ⟨rfl, rfl, rfl, rfl⟩
  · obtain ⟨message, hmessage⟩ := hexpired ‹_›
    obtain ⟨t, _ | message⟩ := expired
    · cases hmessage
    · exact ⟨rfl, rfl, rfl, rfl⟩
  · exact ⟨rfl, rfl, rfl, rfl⟩

/-- A server whose logs are numbered and whose stream is in step with them. -/
structure InStep (projectID : String) (c : Nat) (served : Served) : Prop where
  numbered : LogsNumbered served.world.team
  project : served.stream.projectID = projectID
  follows : ∃ written, Follows c served.stream (served.world.team.teamEvents projectID) written

section Turns
variable {env : Env} {projectID : String} {c : Nat} {served : Served}

theorem InStep.same (h : InStep projectID c served) (turn : Turn) {after : Stream}
    (hsame : SamePlace served.stream after) (hafter : (nextTurn env served turn).stream = after) :
    InStep projectID c (nextTurn env served turn) := by
  obtain ⟨written, hfollows⟩ := h.follows
  have hextends : LogExtends served.world.team (nextTurn env served turn).world.team :=
    nextTurn_logs (keptByLogs_extends _) env served turn (.refl _)
  refine ⟨nextTurn_logs keptByLogs_numbered env served turn h.numbered, ?_, written, ?_⟩
  · rw [hafter, hsame.projectID, h.project]
  · rw [hafter]
    exact (hfollows.same hsame).extend (hextends projectID)

/-- A streaming round, when the leases that have run out could be ended. -/
theorem nextTurn_streaming {advance : Nat} {failure : Option String} {t : TeamState}
    (hphase : served.stream.phase = .streaming)
    (hexpired : expireDueLeases (served.world.now + advance) failure served.world.team =
      (t, none)) :
    nextTurn env served (.round advance failure) =
      ⟨⟨served.world.now + advance, t⟩,
        streamEvents served.stream (t.teamEvents served.stream.projectID).retained⟩ := by
  simp only [nextTurn, streamRound, hphase, hexpired]

theorem expireDueLeases_saved {now : Instant} {failure : Option String} {s : TeamState}
    (h : hasExpiredRuntimeLeaseLocked s now = true → failure = none) :
    ∃ t, expireDueLeases now failure s = (t, none) := by
  simp only [expireDueLeases]
  split
  · rw [h ‹_›]
    exact ⟨_, rfl⟩
  · exact ⟨s, rfl⟩

/-- A round that keeps up writes on without a gap, and to the end over a sound connection. -/
theorem InStep.round (env : Env) (h : InStep projectID c served) {advance : Nat}
    {failure : Option String}
    (hphase : served.stream.phase = .streaming)
    (hsaved : hasExpiredRuntimeLeaseLocked served.world.team (served.world.now + advance) = true →
      failure = none)
    (hreaches : reachesBack (served.world.now + advance) served.world.team served.stream = true) :
    ∃ written, InStep projectID c (nextTurn env served (.round advance failure)) ∧
      Follows c (nextTurn env served (.round advance failure)).stream
        ((nextTurn env served (.round advance failure)).world.team.teamEvents projectID) written ∧
      (served.stream.connection.writes = none → served.stream.connection.flushes = none →
        written = served.stream.wanted c
          ((nextTurn env served (.round advance failure)).world.team.teamEvents projectID).all) := by
  obtain ⟨t, hexpired⟩ := expireDueLeases_saved hsaved
  obtain ⟨written, hfollows⟩ := h.follows
  have hextends : LogExtends served.world.team
      (nextTurn env served (.round advance failure)).world.team :=
    nextTurn_logs (keptByLogs_extends _) env served _ (.refl _)
  have hnumbered : LogsNumbered (nextTurn env served (.round advance failure)).world.team :=
    nextTurn_logs keptByLogs_numbered env served _ h.numbered
  rw [nextTurn_streaming hphase hexpired] at hextends hnumbered ⊢
  have hretained := wanted_retained hexpired hnumbered hreaches
  have hsmall : t.teamSequences projectID ≤ 2 ^ 60 := by
    rw [(expireDueLeases_log hexpired projectID).1]
    simp only [reachesBack, Bool.and_eq_true, decide_eq_true_eq, h.project] at hreaches
    exact hreaches.1
  rw [h.project] at hretained ⊢
  obtain ⟨more, hmore, hall⟩ :=
    (hfollows.extend (hextends projectID)).round (hnumbered projectID) hsmall hretained
  have hproject := (streamEvents_fixed served.stream (t.teamEvents projectID).retained).1
  exact ⟨written ++ more, ⟨hnumbered, hproject.trans h.project, written ++ more, hmore⟩, hmore, hall⟩

/-- Every turn keeps the stream in step, if the rounds keep up. -/
theorem InStep.next (h : InStep projectID c served) (turn : Turn) (hkeeps : KeepsUp served turn) :
    InStep projectID c (nextTurn env served turn) := by
  have hsame : SamePlace served.stream served.stream := ⟨rfl, rfl, rfl, rfl⟩
  cases turn with
  | request input => exact h.same (.request input) hsame rfl
  | heartbeat =>
      by_cases hphase : served.stream.phase = .streaming
      · exact h.same .heartbeat (streamHeartbeat_same served.stream)
          (by simp only [nextTurn, if_pos hphase])
      · exact h.same .heartbeat hsame (by simp only [nextTurn, if_neg hphase])
  | done =>
      by_cases hphase : served.stream.phase = .streaming
      · have hclosed : SamePlace served.stream { served.stream with phase := .closed } :=
          ⟨rfl, rfl, rfl, rfl⟩
        exact h.same .done hclosed (by simp only [nextTurn, if_pos hphase])
      · exact h.same .done hsame (by simp only [nextTurn, if_neg hphase])
  | round advance failure =>
      by_cases hreads : served.stream.phase = .streaming ∧ (hasExpiredRuntimeLeaseLocked
          served.world.team (served.world.now + advance) = true → failure = none)
      · obtain ⟨_, hround, -⟩ := h.round env hreads.1 hreads.2 (hkeeps hreads.1 hreads.2)
        exact hround
      · exact h.same (.round advance failure) (streamRound_same hreads) rfl

end Turns

/-- What a stream that was opened at cursor `c` has written is free of gaps: the
frames are those of the first events after `c`, under growing identifiers, and a
round over a sound connection leaves none of the log out. -/
structure GapFree (env : Env) (projectID : String) (c : Nat) (served : Served) : Prop where
  first : served.stream.connection.sent <+:
    (served.stream.wanted c (served.world.team.teamEvents projectID).all).map sseFrame
  increasing : (served.stream.connection.sent.map Frame.id).Pairwise (· < ·)
  complete : ∀ advance failure, served.stream.phase = .streaming →
    (hasExpiredRuntimeLeaseLocked served.world.team (served.world.now + advance) = true →
      failure = none) →
    KeepsUp served (.round advance failure) →
    served.stream.connection.writes = none → served.stream.connection.flushes = none →
    (nextTurn env served (.round advance failure)).stream.connection.sent =
      (served.stream.wanted c ((nextTurn env served
        (.round advance failure)).world.team.teamEvents projectID).all).map sseFrame

theorem InStep.gapFree {env : Env} {projectID : String} {c : Nat} {served : Served}
    (h : InStep projectID c served) : GapFree env projectID c served := by
  obtain ⟨written, hfollows⟩ := h.follows
  refine ⟨?_, ?_, ?_⟩
  · rw [hfollows.sent]
    exact hfollows.first.map sseFrame
  · have hsorted : written.Pairwise fun a b => a.sequence < b.sequence :=
      (((h.numbered projectID).sorted.filter _).sublist hfollows.first.sublist)
    rw [hfollows.sent, List.map_map, List.pairwise_map]
    refine hsorted.imp_of_mem fun {a b} ha hb hlt => ?_
    simpa only [Function.comp_apply, sseFrame, streamSequence,
      Nat.min_eq_left (hfollows.small a ha), Nat.min_eq_left (hfollows.small b hb)] using hlt
  · intro advance failure hphase hsaved hkeeps hw hf
    obtain ⟨written, -, hwritten, hall⟩ := h.round env hphase hsaved (hkeeps hphase hsaved)
    rw [hwritten.sent, hall hw hf]

section Served

attribute [local irreducible] parseCursor

/-- A stream whose rounds keep up with the log writes what follows its cursor,
without a gap and in order. -/
theorem stream_gapFree (env : Env) (now : Instant) (inputs : List Input) (turns : List Turn)
    (available : Bool) (projectID taskID lastEventID query : String)
    (writes flushes : Option Nat)
    (h : Meets (nextTurn env) KeepsUp ⟨reached env now inputs,
      serveTeamSSE available projectID taskID lastEventID query ⟨writes, flushes, []⟩⟩ turns) :
    GapFree env projectID (parseCursor [lastEventID, query]) (run (nextTurn env)
      ⟨reached env now inputs,
        serveTeamSSE available projectID taskID lastEventID query ⟨writes, flushes, []⟩⟩ turns) := by
  have hstart : InStep projectID (parseCursor [lastEventID, query]) ⟨reached env now inputs,
      serveTeamSSE available projectID taskID lastEventID query ⟨writes, flushes, []⟩⟩ :=
    ⟨reached_logsNumbered env now inputs, rfl, [], rfl, List.nil_prefix, rfl, by simp⟩
  exact (run_invariant (fun _ turn hstep hkeeps => hstep.next turn hkeeps) hstart h).gapFree

end Served

/-! ## A gap at the opening -/

def endRequest : Request := unregisterRequest "p" "a" (teamNewID "fence" 0 1)

/-- A runtime registers, and gives its registration up again and again. -/
def endedOften (k : Nat) : List Input :=
  [Input.after 0 (registerRequest "p" "a"), .after 0 endRequest] ++
    List.replicate k (Input.after 0 endRequest)

def idleRuntime : AgentRuntime := offlineRuntime 0 (newRuntime .empty 0 (registerBody "p" "a"))

/-- The only runtime is offline, and the log of the project has `n` events. -/
structure Idle (n : Nat) (w : World) : Prop where
  now : w.now = 0
  runtimes : w.team.agentRuntimes = [idleRuntime]
  sequences : w.team.teamSequences "p" = n

theorem Idle.next {n : Nat} {w : World} (h : Idle n w) :
    Idle (n + 1) (WorkMesh.AgentTeam.next .default w (.after 0 endRequest)) := by
  have hcredentials : runtimeCredentials (credentialFields "p" "a" (teamNewID "fence" 0 1)) =
      ⟨"p", "a", teamNewID "fence" 0 1⟩ := by decide +kernel
  have hfind : findRuntimeLocked w.team "p" "a" = some idleRuntime := by
    rw [findRuntimeLocked, h.runtimes]
    decide +kernel
  have htoken : idleRuntime.fencingToken = teamNewID "fence" 0 1 := by decide +kernel
  have hteam : (WorkMesh.AgentTeam.next .default w (.after 0 endRequest)).team =
      appendTeamEventLocked (replaceRuntimeLocked w.team (offlineRuntime 0 idleRuntime)) 0 "p"
        "runtime.offline" "" "a" [] := by
    simp only [WorkMesh.AgentTeam.next, answer, handle, Input.after, endRequest, unregisterRequest,
      handleAgentRuntimeUnregister, hcredentials, hfind, htoken, h.now, Nat.zero_mul, Nat.add_zero,
      ne_eq, not_true_eq_false, if_false, commitTeamState, saveTeamStateLocked]
  have hruntimes : (replaceRuntimeLocked w.team (offlineRuntime 0 idleRuntime)).agentRuntimes =
      [idleRuntime] := by
    rw [replaceRuntimeLocked, h.runtimes]
    dsimp only
    decide +kernel
  refine ⟨h.now, ?_, ?_⟩
  · rw [hteam, appendTeamEventLocked_agentRuntimes, hruntimes]
  · rw [hteam, appendTeamEventLocked, storeTeamEvent]
    simp only [if_true]
    exact congrArg (· + 1) h.sequences

theorem idle_ended (k : Nat) : Idle (k + 2) (reached .default 0 (endedOften k)) := by
  induction k with
  | zero => exact ⟨rfl, by decide +kernel, by decide +kernel⟩
  | succ k ih =>
      rw [endedOften, List.replicate_succ', ← List.append_assoc, reached_append, run_cons, run_nil,
        ← endedOften]
      exact ih.next

theorem Idle.round {n : Nat} {w : World} (h : Idle n w) (now : Instant) (hnow : now = w.now)
    (failure : Option String) : expireDueLeases now failure w.team = (w.team, none) := by
  have hdue : hasExpiredRuntimeLeaseLocked w.team now = false := by
    rw [hasExpiredRuntimeLeaseLocked, h.runtimes, hnow, h.now]
    decide +kernel
  simp only [expireDueLeases, hdue, Bool.false_eq_true, if_false]

/-- The stream of a client that has seen nothing. -/
def freshStream : Stream := serveTeamSSE true "p" "" "" "" ⟨none, none, []⟩

theorem wanted_everything (stream : Stream) {events : List TeamEvent} (htask : stream.taskID = "")
    (hpositive : ∀ event ∈ events, 0 < event.sequence) : stream.wanted 0 events = events := by
  rw [Stream.wanted, List.filter_eq_self]
  intro event hevent
  simp [hpositive event hevent, Stream.serves, htask]

/-- The identifiers of the frames are the numbers of the events. -/
theorem map_sseFrame_id {events : List TeamEvent}
    (hsmall : ∀ event ∈ events, event.sequence ≤ 2 ^ 60) :
    (events.map sseFrame).map Frame.id = events.map TeamEvent.sequence := by
  rw [List.map_map]
  exact List.map_congr_left fun event hevent => Nat.min_eq_left (hsmall event hevent)

/-- The first round of a fresh stream writes what the log retains. -/
theorem freshStream_round {n : Nat} {w : World} (hidle : Idle n w) :
    run (nextTurn .default) ⟨w, freshStream⟩ [.round 0 none, .round 0 none] =
      ⟨w, streamEvents { freshStream with phase := .streaming } (w.team.teamEvents "p").retained⟩ := by
  have hcursor : freshStream.cursor = 0 := by decide +kernel
  have hopen : nextTurn .default ⟨w, freshStream⟩ (.round 0 none) =
      ⟨w, { freshStream with phase := .streaming }⟩ := by
    have hphase : freshStream.phase = .opening := rfl
    simp only [nextTurn, streamRound, hphase, hidle.round _ rfl, Nat.add_zero, openStream, hcursor,
      Nat.lt_irrefl, false_and, if_false]
    split <;> rfl
  rw [run_cons, hopen, run_cons, run_nil]
  have hphase : (Served.mk w { freshStream with phase := .streaming }).stream.phase =
      .streaming := rfl
  exact nextTurn_streaming hphase (hidle.round _ rfl none)

theorem gap_of_idle {n : Nat} {w : World} (hidle : Idle n w)
    (hlog : (w.team.teamEvents "p").Numbered n) (hn : n ≤ 2 ^ 60) (hfull : teamEventLimit < n) :
    ¬GapFree .default "p" 0
      (run (nextTurn .default) ⟨w, freshStream⟩ [.round 0 none, .round 0 none]) := by
  rw [freshStream_round hidle]
  generalize hstream : ({ freshStream with phase := .streaming } : Stream) = stream
  have hcursor : stream.cursor = 0 := by rw [← hstream]; decide +kernel
  have htask : stream.taskID = "" := by rw [← hstream]; rfl
  have hnumber : ∀ event ∈ (w.team.teamEvents "p").all,
      0 < event.sequence ∧ event.sequence ≤ 2 ^ 60 := by
    intro event hevent
    have hmem := List.mem_map_of_mem (f := TeamEvent.sequence) hevent
    rw [hlog.sequences, List.mem_range'_1] at hmem
    omega
  have hkept : (w.team.teamEvents "p").retained.Sublist (w.team.teamEvents "p").all :=
    List.sublist_append_right _ _
  have hretained := fun event hevent => hnumber event (hkept.subset hevent)
  obtain ⟨written, hwrote⟩ := streamEvents_wrote stream _ (hlog.sorted.sublist hkept)
    fun event hevent => (hretained event hevent).2
  have hwritten : written = (w.team.teamEvents "p").retained := by
    rw [hwrote.sound (by rw [← hstream]; rfl) (by rw [← hstream]; rfl), hcursor]
    exact wanted_everything stream htask fun event hevent => (hretained event hevent).1
  intro hgap
  have hfirst := hgap.first
  have hserves := wanted_everything (streamEvents stream (w.team.teamEvents "p").retained)
    ((streamEvents_fixed stream _).2.trans htask) fun event hevent => (hnumber event hevent).1
  have hsent : stream.connection.sent = [] := by rw [← hstream]; rfl
  rw [hserves, hwrote.sent, hwritten, hsent, List.nil_append] at hfirst
  have hids := hfirst.map Frame.id
  rw [map_sseFrame_id fun event hevent => (hretained event hevent).2,
    map_sseFrame_id fun event hevent => (hnumber event hevent).2, hlog.retained_sequences,
    hlog.sequences] at hids
  -- the first identifier that is written is not the first of the log
  obtain ⟨rest, hrest⟩ := hids
  have hhead := congrArg (fun ids : List Nat => ids[0]?) hrest
  have hlimit : 0 < teamEventLimit := by decide
  have hdrop : 0 < ((List.range' 1 n).drop (n - teamEventLimit)).length := by
    rw [List.length_drop, List.length_range']
    omega
  rw [List.getElem?_append_left hdrop, List.getElem?_drop, List.getElem?_range' (by omega),
    List.getElem?_range' (by omega), Option.some_inj] at hhead
  omega

/-- The first event is gone before the stream is opened, and the client gets the second. -/
theorem stream_gap :
    ¬GapFree .default "p" (parseCursor ["", ""]) (run (nextTurn .default)
      ⟨reached .default 0 (endedOften 1999), serveTeamSSE true "p" "" "" "" ⟨none, none, []⟩⟩
      [.round 0 none, .round 0 none]) := by
  have hlog := reached_logsNumbered .default 0 (endedOften 1999) "p"
  rw [(idle_ended 1999).sequences] at hlog
  exact gap_of_idle (idle_ended 1999) hlog (by norm_num) (by decide)

/-- The same stream, opened before anything is forgotten. -/
theorem stream_gapFree_registered :
    GapFree .default "p" (parseCursor ["", ""]) (run (nextTurn .default)
      ⟨reached .default 0 [.after 0 (registerRequest "p" "a")],
        serveTeamSSE true "p" "" "" "" ⟨none, none, []⟩⟩
      [.round 0 none, .round 0 none, .request (.after 1 endRequest), .round 1 none]) :=
  stream_gapFree .default 0 [.after 0 (registerRequest "p" "a")]
    [.round 0 none, .round 0 none, .request (.after 1 endRequest), .round 1 none]
    true "p" "" "" "" none none (by decide +kernel)

end WorkMesh.AgentTeam
