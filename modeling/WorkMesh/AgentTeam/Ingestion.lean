import WorkMesh.AgentTeam.EventLog
import WorkMesh.AgentTeam.Lease

/-!
# Exactly-once ingestion

The cursor of a registration is the number of events that its batches have
brought in. A batch that passes its checks stores the events beyond the cursor,
which continue it without a gap, and skips the others.
-/

namespace WorkMesh.AgentTeam

open StateMachine

/-! ## One batch -/

/-- An event that passes its checks repeats an accepted one or is the next one. -/
theorem checkTeamEvent_ok {s : TeamState} {p : String} {last expected next : Nat} {value : Json}
    (h : checkTeamEvent s p last expected value = .ok next) :
    ∃ event, value = .obj event ∧
      (eventSequence event ≤ last ∧ next = expected ∨
        last < eventSequence event ∧ eventSequence event = expected + 1 ∧
          next = eventSequence event) := by
  cases value with
  | obj event =>
      refine ⟨event, rfl, ?_⟩
      simp only [checkTeamEvent] at h
      generalize eventSequence event = sequence at h ⊢
      split at h
      · cases h
      split at h
      · rename_i hle
        exact .inl ⟨hle, (Except.ok.inj h).symm⟩
      rename_i hlast
      split at h
      · cases h
      rename_i hnext
      split at h
      · cases h
      split at h
      · cases h
      split at h
      · cases h
      · exact .inr ⟨by omega, by omega, (Except.ok.inj h).symm⟩
  | _ => cases h

/-- The events that the storing loop keeps from a checked batch: all those
beyond the old cursor, numbered from the new one on. -/
theorem freshEvents_of_checked {s : TeamState} {p : String} {last expected final : Nat}
    {raw : List Json} (hle : last ≤ expected)
    (h : checkTeamEvents s p last expected raw = .ok final) :
    freshEvents expected (eventObjects raw) =
        (eventObjects raw).filter (fun event => last < eventSequence event) ∧
      (freshEvents expected (eventObjects raw)).map eventSequence =
        List.range' (expected + 1) (freshEvents expected (eventObjects raw)).length := by
  induction raw generalizing expected with
  | nil => exact ⟨rfl, rfl⟩
  | cons value raw ih =>
      simp only [checkTeamEvents] at h
      split at h
      · cases h
      · rename_i next hvalue
        obtain ⟨event, rfl, ⟨hold, rfl⟩ | ⟨hlast, hnext, rfl⟩⟩ := checkTeamEvent_ok hvalue
        · obtain ⟨hfilter, hrange⟩ := ih hle h
          have hobjects : eventObjects (.obj event :: raw) = event :: eventObjects raw := rfl
          rw [hobjects, freshEvents, if_pos (Nat.le_trans hold hle),
            List.filter_cons_of_neg (by simpa using hold)]
          exact ⟨hfilter, hrange⟩
        · obtain ⟨hfilter, hrange⟩ := ih (by omega) h
          have hobjects : eventObjects (.obj event :: raw) = event :: eventObjects raw := rfl
          rw [hobjects, freshEvents, if_neg (by omega),
            List.filter_cons_of_pos (by simpa using hlast), hfilter]
          rw [hfilter, hnext] at hrange
          refine ⟨rfl, ?_⟩
          rw [List.map_cons, hrange, hnext, List.length_cons, List.range'_succ]

theorem getLastD_range' (n k : Nat) : (List.range' (n + 1) k).getLastD n = n + k := by
  cases k with
  | zero => rfl
  | succ k => simp [List.range'_concat]; omega

/-- The new cursor counts the stored events. -/
theorem lastFresh_of_checked {s : TeamState} {p : String} {last final : Nat} {raw : List Json}
    (h : checkTeamEvents s p last last raw = .ok final) :
    lastFresh last (eventObjects raw) =
      last + (freshEvents last (eventObjects raw)).length := by
  rw [lastFresh, (freshEvents_of_checked (Nat.le_refl _) h).2, getLastD_range']

/-- Events up to the cursor make no difference to what is stored. -/
theorem freshEvents_filter {n last : Nat} (h : n ≤ last) (events : List Fields) :
    freshEvents last (events.filter fun event => n < eventSequence event) =
      freshEvents last events := by
  induction events generalizing last with
  | nil => rfl
  | cons event events ih =>
      by_cases hn : n < eventSequence event
      · rw [List.filter_cons_of_pos (by simpa using hn), freshEvents, freshEvents]
        split
        · exact ih h
        · rw [ih (by omega)]
      · rw [List.filter_cons_of_neg (by simpa using hn), freshEvents, if_pos (by omega)]
        exact ih h

/-! ## The batches of a registration -/

/-- The request is a batch of the registration and is answered with `200`. -/
def acceptsBatch (env : Env) (c : RuntimeCredentials) (w : World) (i : Input) : Bool :=
  match i.request with
  | .events body => runtimeCredentials body = c && (respond env w i).isOk
  | _ => false

/-- The events of an accepted batch beyond the cursor of the registration. -/
def acceptedEvents (env : Env) (c : RuntimeCredentials) (w : World) (i : Input) : List Fields :=
  match acceptsBatch env c w i, i.request, findRuntimeLocked w.team c.projectID c.runtimeID with
  | true, .events body, some item =>
      (eventObjects (bodyList body "events")).filter fun event =>
        item.lastSequence < eventSequence event
  | _, _, _ => []

/-- What an accepted batch adds to the log in the name of its runtime. -/
def receivedEntries (env : Env) (c : RuntimeCredentials) (w : World) (i : Input) :
    List TeamEvent :=
  if acceptsBatch env c w i then
    (loggedBy env c.projectID w i).filter fun entry => entry.runtimeId = c.runtimeID
  else []

/-- What happens when a batch is accepted. -/
structure Accepted (env : Env) (c : RuntimeCredentials) (w : World) (i : Input)
    (item : AgentRuntime) : Prop where
  complete : c.complete
  leased : leasedRuntime w.team (next env w i).now c = some item
  sequences : (acceptedEvents env c w i).map eventSequence =
    List.range' (item.lastSequence + 1) (acceptedEvents env c w i).length
  stored : (next env w i).team = replaceRuntimeLocked
    ((acceptedEvents env c w i).foldl
      (ingestTeamEvent env (next env w i).now c.projectID c.runtimeID) w.team)
    (sequencedRuntime (next env w i).now item
      (item.lastSequence + (acceptedEvents env c w i).length))
  answered : respond env w i = .ok (.events (acceptedEvents env c w i).length
    (item.lastSequence + (acceptedEvents env c w i).length))

/-- A batch that is answered with `200` has passed every check. -/
theorem handleAgentRuntimeEvents_ok {env : Env} {now : Instant} {failure : Option String}
    {s : TeamState} {body : Fields}
    (h : (handleAgentRuntimeEvents env now failure s body).2.isOk = true) :
    ∃ item expected, (runtimeCredentials body).complete = true ∧
      leasedRuntime s now (runtimeCredentials body) = some item ∧
      checkTeamEvents s (runtimeCredentials body).projectID (lastAccepted item)
        (lastAccepted item) (bodyList body "events") = .ok expected ∧
      handleAgentRuntimeEvents env now failure s body =
        (storeEventBatch env now s (runtimeCredentials body) item
          (eventObjects (bodyList body "events")),
        .ok (.events
          (freshEvents (lastAccepted item) (eventObjects (bodyList body "events"))).length
          (lastFresh (lastAccepted item) (eventObjects (bodyList body "events"))))) := by
  simp only [handleAgentRuntimeEvents] at h ⊢
  split at h
  · cases h
  rename_i hguard
  simp only [not_or, not_not] at hguard
  split at h
  · cases h
  rename_i item hleased
  split at h
  · rename_i response hchecked
    have herror := checkTeamEvents_error s hchecked
    cases response <;> simp_all [Response.isOk, Response.isError]
  rename_i expected hchecked
  refine ⟨item, expected, hguard.1, hleased, hchecked, ?_⟩
  rw [if_neg (by simpa using hguard)]
  rcases commitTeamState_cases s (storeEventBatch env now s (runtimeCredentials body) item
    (eventObjects (bodyList body "events"))) failure "AGENT_EVENT_SAVE_FAILED" _ with
    hsaved | ⟨message, hfailed⟩
  · exact hsaved
  · rw [hfailed] at h
    cases h

section Batch
variable {env : Env} {c : RuntimeCredentials} {w : World} {i : Input}

theorem answer_events {body : Fields} (h : i.request = .events body) :
    answer env w i =
      handleAgentRuntimeEvents env (next env w i).now i.failure w.team body := by
  simp only [answer, h, handle, next_now]

theorem acceptsBatch_iff :
    acceptsBatch env c w i = true ↔
      ∃ body, i.request = .events body ∧ runtimeCredentials body = c ∧
        (respond env w i).isOk = true := by
  cases hrequest : i.request <;> simp [acceptsBatch, hrequest]

theorem lastAccepted_of_mem {n : Nat} {runtimes : List AgentRuntime}
    (h : RuntimesWellFormed n runtimes) {item : AgentRuntime} (hmem : item ∈ runtimes) :
    lastAccepted item = item.lastSequence := Nat.min_eq_left (h.sequences item hmem)

theorem accepted_of_acceptsBatch (hw : WellFormed w.team) (h : acceptsBatch env c w i = true) :
    ∃ item, Accepted env c w i item := by
  obtain ⟨body, hrequest, rfl, hok⟩ := acceptsBatch_iff.mp h
  have hhandle : answer env w i = _ := answer_events hrequest
  rw [respond, hhandle] at hok
  obtain ⟨item, expected, hcomplete, hleased, hchecked, hresult⟩ := handleAgentRuntimeEvents_ok hok
  have hfind := (leasedRuntime_some hleased).1
  rw [lastAccepted_of_mem hw.runtimes (findRuntimeLocked_some hfind).1] at hchecked hresult
  obtain ⟨hfilter, hrange⟩ := freshEvents_of_checked (Nat.le_refl _) hchecked
  have haccepted : acceptedEvents env (runtimeCredentials body) w i =
      freshEvents item.lastSequence (eventObjects (bodyList body "events")) := by
    simp only [acceptedEvents, h, hrequest, hfind, hfilter]
  have hlast := lastFresh_of_checked hchecked
  rw [← haccepted] at hrange hlast
  refine ⟨item, hcomplete, hleased, hrange, ?_, ?_⟩
  · have hteam : (next env w i).team = _ := congrArg Prod.fst (hhandle.trans hresult)
    rw [← hlast, haccepted]
    simpa only [storeEventBatch,
      lastAccepted_of_mem hw.runtimes (findRuntimeLocked_some hfind).1] using hteam
  · rw [respond, hhandle, hresult, haccepted, ← haccepted, ← hlast]

theorem acceptedEvents_of_not (h : acceptsBatch env c w i = false) :
    acceptedEvents env c w i = [] := by
  simp only [acceptedEvents, h]

/-- The batch adds one record for each event beyond the cursor. -/
theorem receivedEntries_records (hw : WellFormed w.team) :
    List.Forall₂ (Records c.runtimeID) (acceptedEvents env c w i)
      (receivedEntries env c w i) := by
  cases h : acceptsBatch env c w i with
  | false => simp [receivedEntries, h, acceptedEvents_of_not h]
  | true =>
      obtain ⟨item, haccepted⟩ := accepted_of_acceptsBatch hw h
      have hr : c.runtimeID ≠ "" := by
        have hcomplete := haccepted.complete
        simp only [RuntimeCredentials.complete, Bool.and_eq_true, decide_eq_true_eq] at hcomplete
        exact hcomplete.1.2
      obtain ⟨entries, hentries, hrecords⟩ := foldl_ingest_runtimeEntries env (next env w i).now
        c.projectID hr (acceptedEvents env c w i) w.team
      have hnext : runtimeEntries c.projectID c.runtimeID (next env w i).team =
          runtimeEntries c.projectID c.runtimeID w.team ++ entries := by
        rw [haccepted.stored, ← hentries]
        exact runtimeEntries_congr rfl
      simp only [runtimeEntries, all_next, List.filter_append] at hnext
      rw [receivedEntries, if_pos h, List.append_cancel_left hnext]
      exact hrecords

/-- An accepted batch moves the cursor of its registration and no other. -/
theorem Accepted.agentRuntimes {item : AgentRuntime} (h : Accepted env c w i item) :
    (next env w i).team.agentRuntimes = replaceKey AgentRuntime.key
      (sequencedRuntime (next env w i).now item
        (item.lastSequence + (acceptedEvents env c w i).length)) w.team.agentRuntimes := by
  have hfold := foldl_ingest_agentRuntimes env (next env w i).now c.projectID c.runtimeID
    (acceptedEvents env c w i) w.team
  generalize hnew : sequencedRuntime (next env w i).now item
    (item.lastSequence + (acceptedEvents env c w i).length) = new
  have hfind : lookupKey AgentRuntime.key new.key w.team.agentRuntimes = some item :=
    lookupKey_of_findRuntime (leasedRuntime_some h.leased).1 (by rw [← hnew]; rfl)
  rw [← hfold] at hfind
  rw [h.stored, hnew, replaceRuntimeLocked_agentRuntimes hfind, hfold]

end Batch

/-! ## Runs -/

/-- The registration has brought in `n` events. -/
def Cursor (c : RuntimeCredentials) (n : Nat) (s : TeamState) : Prop :=
  (∀ item ∈ s.agentRuntimes, item.key = (c.projectID, c.runtimeID) →
    item.fencingToken = c.fencing → item.lastSequence = n) ∧
  (0 < n → Issued s.idCounter c.fencing)

/-- A write that leaves key, token and sequence of an entry alone. -/
theorem forall_replaceKey {runtimes : List AgentRuntime} {item new : AgentRuntime}
    {Q : String × String → String → Nat → Prop}
    (h : ∀ old ∈ runtimes, Q old.key old.fencingToken old.lastSequence)
    (hfind : lookupKey AgentRuntime.key new.key runtimes = some item)
    (htoken : new.fencingToken = item.fencingToken)
    (hsequence : new.lastSequence = item.lastSequence) :
    ∀ old ∈ replaceKey AgentRuntime.key new runtimes,
      Q old.key old.fencingToken old.lastSequence := by
  intro old hmem
  obtain ⟨hitem, hkey⟩ := lookupKey_some hfind
  rcases mem_replaceKey hmem with rfl | hmem
  · rw [← hkey, htoken, hsequence]
    exact h item hitem
  · exact h old hmem

/-- What registrations and batches keep, every request keeps of the keys, tokens
and sequences of the entries. -/
theorem Effect.cursors {env : Env} {now : Instant} {s t : TeamState} {request : Request}
    {response : Response} (h : Effect env now s request t response)
    {Q : String × String → String → Nat → Prop}
    (hs : ∀ old ∈ s.agentRuntimes, Q old.key old.fencingToken old.lastSequence)
    (hregister : ∀ body, request = .register body →
      response = .ok (.runtime (newRuntime s now body)) →
      Q (newRuntime s now body).key (newRuntime s now body).fencingToken 0)
    (hbatch : ∀ item body expected, request = .events body → response.isOk = true →
      leasedRuntime s now (runtimeCredentials body) = some item →
      checkTeamEvents s (runtimeCredentials body).projectID (lastAccepted item)
        (lastAccepted item) (bodyList body "events") = .ok expected →
      Q item.key item.fencingToken
        (lastFresh (lastAccepted item) (eventObjects (bodyList body "events")))) :
    ∀ old ∈ t.agentRuntimes, Q old.key old.fencingToken old.lastSequence := by
  apply h.runtimes (P := fun runtimes =>
    ∀ old ∈ runtimes, Q old.key old.fencingToken old.lastSequence) hs
  · intro body hrequest hresponse _ old hmem
    rcases List.mem_append.mp hmem with hmem | hmem
    · obtain ⟨kept, hkept, rfl⟩ := List.mem_map.mp hmem
      have hold := hs kept (List.mem_of_mem_filter hkept)
      simp only [fenceRuntime]
      split <;> exact hold
    · rw [List.mem_singleton.mp hmem]
      exact hregister body hrequest hresponse
  · intro item body _ hfind _
    exact forall_replaceKey hs (lookupKey_of_findRuntime hfind rfl) rfl rfl
  · intro item body _ _ hfind _
    exact forall_replaceKey hs (lookupKey_of_findRuntime hfind rfl) rfl rfl
  · intro item body expected hrequest hok hleased hchecked old hmem
    rcases mem_replaceKey hmem with rfl | hmem
    · exact hbatch item body expected hrequest hok hleased hchecked
    · exact hs old hmem
  · intro old hmem
    obtain ⟨kept, hkept, rfl⟩ := List.mem_map.mp hmem
    simp only [afterExpiry]
    split <;> exact hs kept hkept

section Run
variable {env : Env} {c : RuntimeCredentials} {w : World} {i : Input} {n : Nat}

theorem Cursor.next_of_not (h : Cursor c n w.team) (hnot : acceptsBatch env c w i = false) :
    Cursor c n (next env w i).team := by
  have heffect := next_effect env w i
  refine ⟨?_, fun hn => (h.2 hn).mono heffect.idCounter_le⟩
  have hcursors := heffect.cursors
    (Q := fun key token sequence => key = (c.projectID, c.runtimeID) → token = c.fencing →
      sequence = n) h.1
  refine hcursors ?_ ?_
  · intro body _ _ _ htoken
    by_contra hn
    have hissued := h.2 (Nat.pos_of_ne_zero (Ne.symm hn))
    exact hissued.ne_teamNewID (Nat.lt_succ_self _) htoken.symm
  · intro item body expected hrequest hok hleased _ hkey htoken
    obtain ⟨hfind, hfencing, -⟩ := leasedRuntime_some hleased
    obtain ⟨-, hp, hr⟩ := findRuntimeLocked_some hfind
    have hc : runtimeCredentials body = c := by
      simp only [AgentRuntime.key, Prod.mk.injEq] at hkey
      cases c
      simp_all [runtimeCredentials]
    have haccepts := acceptsBatch_iff.mpr ⟨body, hrequest, hc, hok⟩
    rw [hnot] at haccepts
    cases haccepts

theorem Cursor.next_of_accepted (hw : WellFormed w.team) (h : Cursor c n w.team)
    {item : AgentRuntime} (haccepted : Accepted env c w i item) :
    item.lastSequence = n ∧
      Cursor c (n + (acceptedEvents env c w i).length) (next env w i).team := by
  obtain ⟨hfind, htoken, -⟩ := leasedRuntime_some haccepted.leased
  obtain ⟨hmem, hp, hr⟩ := findRuntimeLocked_some hfind
  have hkey : item.key = (c.projectID, c.runtimeID) := by rw [← hp, ← hr]; rfl
  have hn := h.1 item hmem hkey htoken
  refine ⟨hn, ?_, fun _ => ?_⟩
  · rw [haccepted.agentRuntimes]
    intro old hold holdKey _
    rcases mem_replaceKey_of_nodup hw.runtimes.keys hold with rfl | ⟨-, hne⟩
    · rw [← hn]; rfl
    · exact absurd (holdKey.trans hkey.symm) hne
  · rw [← htoken]
    exact (hw.runtimes.issued _ (List.mem_map_of_mem hmem)).mono (next_effect env w i).idCounter_le

/-- Over a run, the accepted events of a registration continue its cursor
without gaps or repetitions, and each has left one record. -/
theorem run_cursor (hw : WellFormed w.team) (h : Cursor c n w.team) (inputs : List Input) :
    (outputs (next env) (acceptedEvents env c) w inputs).map eventSequence =
        List.range' (n + 1) (outputs (next env) (acceptedEvents env c) w inputs).length ∧
      List.Forall₂ (Records c.runtimeID) (outputs (next env) (acceptedEvents env c) w inputs)
        (outputs (next env) (receivedEntries env c) w inputs) ∧
      Cursor c (n + (outputs (next env) (acceptedEvents env c) w inputs).length)
        (run (next env) w inputs).team := by
  induction inputs generalizing w n with
  | nil => exact ⟨rfl, .nil, h⟩
  | cons i inputs ih =>
      have hrecords : List.Forall₂ (Records c.runtimeID) (acceptedEvents env c w i) _ :=
        receivedEntries_records hw
      have hstep : (acceptedEvents env c w i).map eventSequence =
            List.range' (n + 1) (acceptedEvents env c w i).length ∧
          Cursor c (n + (acceptedEvents env c w i).length) (next env w i).team := by
        cases haccepts : acceptsBatch env c w i with
        | false =>
            rw [acceptedEvents_of_not haccepts]
            exact ⟨rfl, h.next_of_not haccepts⟩
        | true =>
            obtain ⟨item, haccepted⟩ := accepted_of_acceptsBatch hw haccepts
            obtain ⟨hn, hcursor⟩ := h.next_of_accepted hw haccepted
            exact ⟨hn ▸ haccepted.sequences, hcursor⟩
      obtain ⟨hsequences, hrest, hcursor⟩ := ih (next_wellFormed hw) hstep.2
      simp only [outputs, List.map_append, List.length_append, run_cons]
      refine ⟨?_, List.rel_append hrecords hrest, ?_⟩
      · rw [hstep.1, hsequences, Nat.add_right_comm, List.range'_append_1]
      · rw [← Nat.add_assoc]
        exact hcursor

end Run

/-- The events accepted under a registration in a run from the start. -/
def accepted (env : Env) (c : RuntimeCredentials) (now : Instant) (inputs : List Input) :
    List Fields :=
  outputs (next env) (acceptedEvents env c) (.start now) inputs

/-- The entries that these events have left in the log. -/
def received (env : Env) (c : RuntimeCredentials) (now : Instant) (inputs : List Input) :
    List TeamEvent :=
  outputs (next env) (receivedEntries env c) (.start now) inputs

/-- The registration holds the entry. -/
def RuntimeCredentials.names (c : RuntimeCredentials) (item : AgentRuntime) : Prop :=
  item.key = (c.projectID, c.runtimeID) ∧ item.fencingToken = c.fencing

theorem reached_cursor (env : Env) (c : RuntimeCredentials) (now : Instant)
    (inputs : List Input) :
    (accepted env c now inputs).map eventSequence =
        List.range' 1 (accepted env c now inputs).length ∧
      List.Forall₂ (Records c.runtimeID) (accepted env c now inputs)
        (received env c now inputs) ∧
      Cursor c (accepted env c now inputs).length (reached env now inputs).team := by
  have hstart : Cursor c 0 (World.start now).team :=
    ⟨(by intro item hmem; cases hmem), fun h => absurd h (Nat.lt_irrefl 0)⟩
  simpa only [Nat.zero_add, accepted, received, reached] using
    run_cursor wellFormed_empty hstart inputs

theorem accepted_append (env : Env) (c : RuntimeCredentials) (now : Instant)
    (inputs more : List Input) :
    accepted env c now (inputs ++ more) = accepted env c now inputs ++
      outputs (next env) (acceptedEvents env c) (reached env now inputs) more :=
  outputs_append ..

/-- A batch that is answered with an error has used up identifiers at most. -/
theorem next_of_rejected {env : Env} {w : World} {i : Input} {body : Fields}
    (hrequest : i.request = .events body) (h : (respond env w i).isOk = false) :
    (next env w i).team = { w.team with idCounter := (next env w i).team.idCounter } := by
  have heffect := next_effect env w i
  rw [hrequest] at heffect
  generalize respond env w i = response at heffect h
  generalize (next env w i).team = t at heffect ⊢
  cases heffect with
  | refused => rfl
  | answered => cases h
  | ingested => cases h

/-- Under every registration, the events are taken in once each and in order.
The accepted events are numbered from one on and leave one entry each, in the
log that the steps have appended; their number is the stored cursor, which the
answer to a batch reports and which never goes back; a rejected batch changes
nothing. -/
theorem events_ingested_once (env : Env) (c : RuntimeCredentials) (now : Instant)
    (inputs : List Input) :
    (accepted env c now inputs).map eventSequence =
        List.range' 1 (accepted env c now inputs).length ∧
      List.Forall₂ (Records c.runtimeID) (accepted env c now inputs)
        (received env c now inputs) ∧
      (∀ projectID, ((reached env now inputs).team.teamEvents projectID).all =
        outputs (next env) (loggedBy env projectID) (.start now) inputs) ∧
      (∀ item ∈ (reached env now inputs).team.agentRuntimes, c.names item →
        item.lastSequence = (accepted env c now inputs).length) ∧
      (∀ i, acceptsBatch env c (reached env now inputs) i = true →
        ∃ count, ∃ item ∈ (reached env now (inputs ++ [i])).team.agentRuntimes, c.names item ∧
          respond env (reached env now inputs) i = .ok (.events count item.lastSequence)) ∧
      (∀ more, ∀ old ∈ (reached env now inputs).team.agentRuntimes, c.names old →
        ∀ item ∈ (reached env now (inputs ++ more)).team.agentRuntimes, c.names item →
          old.lastSequence ≤ item.lastSequence) ∧
      ∀ i body, i.request = .events body →
        (respond env (reached env now inputs) i).isOk = false →
        (next env (reached env now inputs) i).team =
          { (reached env now inputs).team with
            idCounter := (next env (reached env now inputs) i).team.idCounter } := by
  obtain ⟨hsequences, hrecords, hcursor⟩ := reached_cursor env c now inputs
  refine ⟨hsequences, hrecords, fun projectID => ?_, fun item hmem hnames => ?_, fun i h => ?_,
    fun more old hold hnamesOld item hmem hnames => ?_, fun i body => next_of_rejected⟩
  · exact all_run env projectID (.start now) inputs
  · exact hcursor.1 item hmem hnames.1 hnames.2
  · obtain ⟨item, haccepted⟩ := accepted_of_acceptsBatch (reached_wellFormed env now inputs) h
    obtain ⟨hfind, htoken, -⟩ := leasedRuntime_some haccepted.leased
    obtain ⟨hmem, hp, hr⟩ := findRuntimeLocked_some hfind
    refine ⟨_, sequencedRuntime (next env (reached env now inputs) i).now item
      (item.lastSequence + (acceptedEvents env c (reached env now inputs) i).length), ?_,
      ⟨?_, htoken⟩, haccepted.answered⟩
    · rw [reached_append, run_cons, run_nil, haccepted.agentRuntimes]
      exact mem_replaceKey_self (lookupKey_of_findRuntime hfind rfl)
    · rw [← hp, ← hr]; rfl
  · obtain ⟨-, -, hlater⟩ := reached_cursor env c now (inputs ++ more)
    rw [hcursor.1 old hold hnamesOld.1 hnamesOld.2, hlater.1 item hmem hnames.1 hnames.2,
      accepted_append, List.length_append]
    exact Nat.le_add_right _ _

/-! ## Events sent again -/

theorem le_lastFresh {last : Nat} {s : TeamState} {p : String} {final : Nat} {raw : List Json}
    (h : checkTeamEvents s p last last raw = .ok final) :
    last ≤ lastFresh last (eventObjects raw) := by
  rw [lastFresh_of_checked h]
  exact Nat.le_add_right _ _

/-- Unless the runtime registers anew, its cursor does not go back. -/
theorem Effect.sequence_le {env : Env} {now : Instant} {s t : TeamState} {request : Request}
    {response : Response} (h : Effect env now s request t response) (hwf : WellFormed s)
    {key : String × String} {n : Nat}
    (hs : ∀ old ∈ s.agentRuntimes, old.key = key → n ≤ old.lastSequence)
    (hregisters : registers key request response = false) :
    ∀ old ∈ t.agentRuntimes, old.key = key → n ≤ old.lastSequence := by
  refine h.cursors (Q := fun k _ sequence => k = key → n ≤ sequence) hs ?_ ?_
  · rintro body rfl rfl hkey
    simp [registers, ← hkey, newRuntime, AgentRuntime.key] at hregisters
  · intro item body expected _ _ hleased hchecked hkey
    have hmem := (findRuntimeLocked_some (leasedRuntime_some hleased).1).1
    refine Nat.le_trans (hs item hmem hkey) ?_
    rw [← lastAccepted_of_mem hwf.runtimes hmem]
    exact le_lastFresh hchecked

theorem run_sequence_le {env : Env} {w : World} {key : String × String} {n : Nat}
    (hwf : WellFormed w.team)
    (hw : ∀ old ∈ w.team.agentRuntimes, old.key = key → n ≤ old.lastSequence)
    {inputs : List Input}
    (h : Meets (next env) (fun w i => registers key i.request (respond env w i) = false) w
      inputs) :
    ∀ old ∈ (run (next env) w inputs).team.agentRuntimes, old.key = key →
      n ≤ old.lastSequence :=
  (run_invariant (P := fun w : World => WellFormed w.team ∧
    ∀ old ∈ w.team.agentRuntimes, old.key = key → n ≤ old.lastSequence)
    (fun w i hw hregisters => ⟨next_wellFormed hw.1,
      (next_effect env w i).sequence_le hw.1 hw.2 hregisters⟩) ⟨hwf, hw⟩ h).2

/-- A batch without the events up to a sequence. -/
def dropSent (n : Nat) (events : List Fields) : List Fields :=
  events.filter fun event => n < eventSequence event

/-- The batch of a request stores what it would store without the events up to `n`. -/
def SkipsSent (env : Env) (n : Nat) (w : World) (i : Input) (body : Fields) : Prop :=
  ∃ item ∈ w.team.agentRuntimes, (runtimeCredentials body).names item ∧
    (next env w i).team =
      storeEventBatch env (next env w i).now w.team (runtimeCredentials body) item
        (dropSent n (eventObjects (bodyList body "events")))

theorem skipsSent_of_le {env : Env} {w : World} {i : Input} {body : Fields} {n : Nat}
    (hwf : WellFormed w.team)
    (hle : ∀ item ∈ w.team.agentRuntimes,
      item.key = ((runtimeCredentials body).projectID, (runtimeCredentials body).runtimeID) →
        n ≤ item.lastSequence)
    (hrequest : i.request = .events body) (hok : (respond env w i).isOk = true) :
    SkipsSent env n w i body := by
  rw [respond, answer_events hrequest] at hok
  obtain ⟨item, expected, -, hleased, -, hresult⟩ := handleAgentRuntimeEvents_ok hok
  obtain ⟨hfind, htoken, -⟩ := leasedRuntime_some hleased
  obtain ⟨hmem, hp, hr⟩ := findRuntimeLocked_some hfind
  have hkey : item.key =
      ((runtimeCredentials body).projectID, (runtimeCredentials body).runtimeID) := by
    rw [← hp, ← hr]; rfl
  have hteam : (next env w i).team = _ :=
    congrArg Prod.fst ((answer_events hrequest).trans hresult)
  refine ⟨item, hmem, ⟨hkey, htoken⟩, ?_⟩
  rw [hteam]
  simp only [storeEventBatch, dropSent, lastFresh, lastAccepted_of_mem hwf.runtimes hmem,
    freshEvents_filter (hle item hmem hkey)]

/-- An accepted registration stores an entry without a cursor. -/
theorem registered_cursor {env : Env} {w : World} {i : Input} {body : Fields}
    {item : AgentRuntime} (hrequest : i.request = .register body)
    (hresponse : respond env w i = .ok (.runtime item)) :
    item ∈ (next env w i).team.agentRuntimes ∧ item.lastSequence = 0 := by
  have heffect := next_effect env w i
  rw [hrequest] at heffect
  generalize respond env w i = response at heffect hresponse
  generalize (next env w i).team = t at heffect ⊢
  cases heffect with
  | refused => cases hresponse
  | answered reply hreads =>
      rw [Response.ok.inj hresponse] at hreads
      cases hreads
  | registered =>
      rw [← Reply.runtime.inj (Response.ok.inj hresponse)]
      exact ⟨by simp [registeredRuntimes], rfl⟩

/-- Until the runtime registers anew, the events it has been acknowledged make
no difference to a later batch; a registration opens a new stream of events. -/
theorem resent_events_ignored (env : Env) (now : Instant) (first rest : List Input)
    (old : AgentRuntime) (hold : old ∈ (reached env now first).team.agentRuntimes)
    (hregisters : Meets (next env)
      (fun w i => registers old.key i.request (respond env w i) = false) (reached env now first)
      rest) :
    (∀ i body, i.request = .events body →
      ((runtimeCredentials body).projectID, (runtimeCredentials body).runtimeID) = old.key →
      (respond env (reached env now (first ++ rest)) i).isOk = true →
      SkipsSent env old.lastSequence (reached env now (first ++ rest)) i body) ∧
      ∀ i body item, i.request = .register body →
        respond env (reached env now (first ++ rest)) i = .ok (.runtime item) →
        item ∈ (next env (reached env now (first ++ rest)) i).team.agentRuntimes ∧
          item.lastSequence = 0 := by
  have hfirst := reached_wellFormed env now first
  have hrest := reached_wellFormed env now (first ++ rest)
  rw [reached_append] at hrest ⊢
  refine ⟨fun i body hrequest hkey hok => ?_, fun i body item => registered_cursor⟩
  refine skipsSent_of_le hrest (hkey ▸ run_sequence_le hfirst ?_ hregisters) hrequest hok
  intro other hother hotherKey
  rw [eq_of_mem_of_key hfirst.runtimes.keys hother hold hotherKey]

/-- A registration, an event, the same registration again, and the same event. -/
def resentAfterRegistration : List Input :=
  let task := teamNewID "task" 0 1
  [.after 0 (createRequest "p" "small" []), .after 1 (registerRequest "p" "a"),
    .after 1 (eventRequest "p" "a" (teamNewID "fence" (10 ^ 9) 3) 1 "task.started" task 1),
    .after 1 (registerRequest "p" "a"),
    .after 1 (eventRequest "p" "a" (teamNewID "fence" (3 * 10 ^ 9) 8) 1 "task.started" task 1)]

/-- The log entries of a type. -/
def entriesOfType (typ : String) (s : TeamState) (projectID : String) : List TeamEvent :=
  (s.teamEvents projectID).all.filter fun entry => entry.type = typ

theorem resent_event_stored_twice :
    ¬(entriesOfType "task.started" (reached .default 0 resentAfterRegistration).team "p").length ≤
      (entriesOfType "task.started"
        (reached .default 0 (resentAfterRegistration.take 3)).team "p").length := by
  decide +kernel

/-- The body of the second event request under the first registration. -/
def resentBody : Fields :=
  credentialFields "p" "a" (teamNewID "fence" (10 ^ 9) 3) ++
    [("events", .arr [.obj [("sequence", .int 1), ("type", .str "task.started"),
      ("taskId", .str (teamNewID "task" 0 1)), ("attempt", .int 1)]])]

/-- The same event sent again after a heartbeat only. -/
theorem resent_events_ignored_beat :
    SkipsSent .default 1 (reached .default 0 (resentAfterRegistration.take 3 ++ [.after 1
        (heartbeatRequest "p" "a" (teamNewID "fence" (10 ^ 9) 3))]))
      (.after 1 (.events resentBody)) resentBody :=
  (resent_events_ignored .default 0 (resentAfterRegistration.take 3)
    [.after 1 (heartbeatRequest "p" "a" (teamNewID "fence" (10 ^ 9) 3))]
    (sequencedRuntime (3 * 10 ^ 9 - 10 ^ 9)
      (newRuntime (reached .default 0 (resentAfterRegistration.take 1)).team (10 ^ 9)
        (registerBody "p" "a")) 1)
    (by decide +kernel) (by decide +kernel)).1 _ resentBody rfl (by decide +kernel)
    (by decide +kernel)

end WorkMesh.AgentTeam
