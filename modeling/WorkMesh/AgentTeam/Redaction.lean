import WorkMesh.AgentTeam.EventStream
import WorkMesh.AgentTeam.Ingestion
import WorkMesh.AgentTeam.Printed

/-!
# Secrets in requests

Two requests whose values differ only under sensitive keys have the same
outcome, and with it the same stored payloads and the same frames, as long as
the payload of an event is a map. A list is stored as its printed text, which is
not redacted.
-/

namespace WorkMesh.AgentTeam

open StateMachine

theorem boundedPayload_samePublic {v w : Json} (h : SamePublic v w) (hsafe : leaks v = false) :
    boundedPayload (some v) = boundedPayload (some w) := by
  cases h with
  | obj hfields =>
      have hcopy := hfields.sanitize
      simp only [boundedPayload, sanitizeTeamMap, hcopy]
      rfl
  | arr hitems =>
      have htext := boundedText_of_not_leaks (.arr hitems) hsafe
      simp only [boundedPayload, htext]
  | _ => rfl

/-! ## Batches -/

/-- A batch in which one event has the payload. -/
def batchWith (credentials : Fields) (before after : List Json) (fields : Fields)
    (payload : Json) : Fields :=
  credentials ++ [("events", .arr (before ++ .obj (("payload", payload) :: fields) :: after))]

/-- Two events that are stored in the same way. -/
structure ReadAlike (event event' : Fields) : Prop where
  sequence : eventSequence event = eventSequence event'
  check : ∀ s projectID last expected, checkTeamEvent s projectID last expected (.obj event) =
    checkTeamEvent s projectID last expected (.obj event')
  ingest : ∀ env now projectID runtimeID s,
    ingestTeamEvent env now projectID runtimeID s event =
      ingestTeamEvent env now projectID runtimeID s event'

section Payload
variable (value : Json) (fields : Fields)

theorem lookup_payload {key : String} (hkey : key ≠ "payload") :
    List.lookup key (("payload", value) :: fields) = fields.lookup key := by
  rw [List.lookup_cons, beq_eq_false_iff_ne.mpr hkey]

theorem lookup_payload_self :
    List.lookup "payload" (("payload", value) :: fields) = some value := by
  rw [List.lookup_cons, beq_self_eq_true]

theorem aiString_payload {keys : List String} (hkeys : "payload" ∉ keys) :
    aiString (("payload", value) :: fields) keys = aiString fields keys := by
  induction keys with
  | nil => rfl
  | cons key keys ih =>
      rw [List.mem_cons, not_or] at hkeys
      simp only [aiString, lookup_payload value fields (Ne.symm hkeys.1), ih hkeys.2]

theorem eventSequence_payload :
    eventSequence (("payload", value) :: fields) = eventSequence fields := by
  rw [eventSequence, lookup_payload value fields (by decide), eventSequence]

theorem eventType_payload : eventType (("payload", value) :: fields) = eventType fields := by
  rw [eventType, aiString_payload value fields (by decide), eventType]

theorem eventTaskID_payload : eventTaskID (("payload", value) :: fields) = eventTaskID fields := by
  rw [eventTaskID, aiString_payload value fields (by decide), eventTaskID]

theorem eventAttempt_payload :
    eventAttempt (("payload", value) :: fields) = eventAttempt fields := by
  rw [eventAttempt, lookup_payload value fields (by decide), eventAttempt]

end Payload

theorem readAlike_payload {v w : Json} (h : boundedPayload (some v) = boundedPayload (some w))
    (fields : Fields) : ReadAlike (("payload", v) :: fields) (("payload", w) :: fields) := by
  have hnormalized : ∀ typ, normalizeTeamCollaborationEvent typ (some v) =
      normalizeTeamCollaborationEvent typ (some w) := by
    intro typ
    simp only [normalizeTeamCollaborationEvent, h]
  have hread : eventPayload (("payload", v) :: fields) = eventPayload (("payload", w) :: fields) := by
    simp only [eventPayload, eventType_payload, lookup_payload_self, hnormalized]
  refine ⟨by rw [eventSequence_payload, eventSequence_payload], ?_, ?_⟩
  · intro s projectID last expected
    have htask := fun value => aiString_payload value fields (show "payload" ∉ ["taskId"] by decide)
    have hattempt := fun value =>
      lookup_payload value fields (show "attempt" ≠ "payload" by decide)
    simp only [checkTeamEvent, eventSequence_payload, eventType_payload, htask, hattempt,
      lookup_payload_self, hnormalized]
  · intro env now projectID runtimeID s
    simp only [ingestTeamEvent, ingestedEvent, eventStale, eventType_payload, eventTaskID_payload,
      eventAttempt_payload, hread]

section Batch
variable {event event' : Fields} (h : ReadAlike event event')
include h

theorem ReadAlike.checks (s : TeamState) (projectID : String) (last expected : Nat)
    (before after : List Json) :
    checkTeamEvents s projectID last expected (before ++ .obj event :: after) =
      checkTeamEvents s projectID last expected (before ++ .obj event' :: after) := by
  induction before generalizing expected with
  | nil => simp only [List.nil_append, checkTeamEvents, h.check]
  | cons value before ih => simp only [List.cons_append, checkTeamEvents, ih]

/-- The storing loop treats the two batches alike. -/
theorem ReadAlike.fresh (last : Nat) (before after : List Fields) :
    List.Forall₂ (fun e e' => e = e' ∨ e = event ∧ e' = event')
      (freshEvents last (before ++ event :: after)) (freshEvents last (before ++ event' :: after)) := by
  have hrefl : ∀ events : List Fields,
      List.Forall₂ (fun e e' => e = e' ∨ e = event ∧ e' = event') events events :=
    fun events => List.forall₂_same.mpr fun _ _ => .inl rfl
  induction before generalizing last with
  | nil =>
      simp only [List.nil_append, freshEvents, h.sequence]
      split
      · exact hrefl _
      · exact .cons (.inr ⟨rfl, rfl⟩) (hrefl _)
  | cons first before ih =>
      simp only [List.cons_append, freshEvents]
      split
      · exact ih last
      · exact .cons (.inl rfl) (ih _)

theorem ReadAlike.batch (env : Env) (now : Instant) (s : TeamState) (c : RuntimeCredentials)
    (item : AgentRuntime) (before after : List Fields) :
    storeEventBatch env now s c item (before ++ event :: after) =
        storeEventBatch env now s c item (before ++ event' :: after) ∧
      (freshEvents (lastAccepted item) (before ++ event :: after)).length =
        (freshEvents (lastAccepted item) (before ++ event' :: after)).length ∧
      lastFresh (lastAccepted item) (before ++ event :: after) =
        lastFresh (lastAccepted item) (before ++ event' :: after) := by
  have hfresh := h.fresh (lastAccepted item) before after
  have hsequences : (freshEvents (lastAccepted item) (before ++ event :: after)).map eventSequence =
      (freshEvents (lastAccepted item) (before ++ event' :: after)).map eventSequence := by
    rw [← List.forall₂_eq_eq_eq, List.forall₂_map_left_iff, List.forall₂_map_right_iff]
    refine hfresh.imp fun e e' hsame => ?_
    rcases hsame with rfl | ⟨rfl, rfl⟩
    · rfl
    · exact h.sequence
  have hlast : lastFresh (lastAccepted item) (before ++ event :: after) =
      lastFresh (lastAccepted item) (before ++ event' :: after) := by
    rw [lastFresh, lastFresh, hsequences]
  have hfold : ∀ {xs ys : List Fields},
      List.Forall₂ (fun e e' => e = e' ∨ e = event ∧ e' = event') xs ys → ∀ t : TeamState,
        xs.foldl (ingestTeamEvent env now c.projectID c.runtimeID) t =
          ys.foldl (ingestTeamEvent env now c.projectID c.runtimeID) t := by
    intro xs ys hsame
    induction hsame with
    | nil => exact fun _ => rfl
    | cons hhead _ ih =>
        intro t
        rw [List.foldl_cons, List.foldl_cons, ih]
        rcases hhead with rfl | ⟨rfl, rfl⟩
        · rfl
        · rw [h.ingest]
  refine ⟨?_, hfresh.length_eq, hlast⟩
  rw [storeEventBatch, storeEventBatch, hfold hfresh, hlast]

/-- Both batches have the same outcome. -/
theorem ReadAlike.handle (env : Env) (now : Instant) (failure : Option String) (s : TeamState)
    {body body' : Fields} {before after : List Json}
    (hcredentials : runtimeCredentials body = runtimeCredentials body')
    (hbody : bodyList body "events" = before ++ .obj event :: after)
    (hbody' : bodyList body' "events" = before ++ .obj event' :: after) :
    handleAgentRuntimeEvents env now failure s body =
      handleAgentRuntimeEvents env now failure s body' := by
  have hobjects : ∀ e : Fields, eventObjects (before ++ .obj e :: after) =
      eventObjects before ++ e :: eventObjects after := by
    intro e
    simp [eventObjects]
  have hlength : (before ++ .obj event :: after).length =
      (before ++ .obj event' :: after).length := by
    rw [List.length_append, List.length_append, List.length_cons, List.length_cons]
  have hempty : (before ++ .obj event :: after).isEmpty =
      (before ++ .obj event' :: after).isEmpty := by
    cases before <;> rfl
  simp only [handleAgentRuntimeEvents, hcredentials, hbody, hbody', hlength, hempty, h.checks,
    hobjects]
  cases leasedRuntime s now (runtimeCredentials body') with
  | none => rfl
  | some item =>
      obtain ⟨hstored, hcount, hlast⟩ := h.batch env now s (runtimeCredentials body') item
        (eventObjects before) (eventObjects after)
      simp only [hstored, hcount, hlast]

end Batch

theorem runtimeCredentials_append (credentials : Fields) (value : Json) :
    runtimeCredentials (credentials ++ [("events", value)]) = runtimeCredentials credentials := by
  have hstring : ∀ keys, "events" ∉ keys →
      aiString (credentials ++ [("events", value)]) keys = aiString credentials keys := by
    intro keys hkeys
    induction keys with
    | nil => rfl
    | cons key keys ih =>
        rw [List.mem_cons, not_or] at hkeys
        have hlookup : (credentials ++ [("events", value)]).lookup key = credentials.lookup key := by
          rw [List.lookup_append, List.lookup_cons, beq_eq_false_iff_ne.mpr (Ne.symm hkeys.1),
            List.lookup_nil, Option.or_none]
        simp only [aiString, hlookup, ih hkeys.2]
  simp only [runtimeCredentials, hstring _ (show "events" ∉ ["projectId"] by decide),
    hstring _ (show "events" ∉ ["runtimeId"] by decide),
    hstring _ (show "events" ∉ ["fencingToken"] by decide)]

theorem bodyList_append {credentials : Fields} (h : credentials.lookup "events" = none)
    (items : List Json) :
    bodyList (credentials ++ [("events", .arr items)]) "events" = items := by
  rw [bodyList, List.lookup_append, h, Option.none_or, List.lookup_cons, beq_self_eq_true]

/-- The outcome of a batch does not depend on what its payload's stored copy leaves out. -/
theorem handle_batchWith {v w : Json} (h : boundedPayload (some v) = boundedPayload (some w))
    (env : Env) (now : Instant) (failure : Option String) (s : TeamState)
    (credentials : Fields) (before after : List Json) (fields : Fields) :
    handle env now failure s (.events (batchWith credentials before after fields v)) =
      handle env now failure s (.events (batchWith credentials before after fields w)) := by
  simp only [WorkMesh.AgentTeam.handle, batchWith]
  cases hown : credentials.lookup "events" with
  | some value =>
      -- the list is one of the other fields
      have hlist : ∀ other : Json, bodyList (credentials ++ [("events", other)]) "events" =
          bodyList credentials "events" := by
        intro other
        rw [bodyList, List.lookup_append, hown, Option.some_or, bodyList, hown]
      simp only [handleAgentRuntimeEvents, runtimeCredentials_append, hlist]
  | none =>
      exact (readAlike_payload h fields).handle env now failure s
        ((runtimeCredentials_append ..).trans (runtimeCredentials_append ..).symm)
        (bodyList_append hown _) (bodyList_append hown _)

/-! ## Actions -/

/-- What is read of related maps under a key that is not sensitive. -/
theorem SamePublicFields.lookup {xs ys : Fields} {key : String}
    (hkey : sensitiveTeamField key = false) (h : SamePublicFields xs ys) :
    (xs.lookup key = none ∧ ys.lookup key = none) ∨
      ∃ v w, xs.lookup key = some v ∧ ys.lookup key = some w ∧ SamePublic v w := by
  cases h with
  | nil => exact .inl ⟨rfl, rfl⟩
  | @secret key' _ _ _ _ hsecret hrest =>
      have hne : (key == key') = false := by
        rw [beq_eq_false_iff_ne]
        rintro rfl
        rw [hkey] at hsecret
        cases hsecret
      simpa only [List.lookup_cons, hne] using SamePublicFields.lookup hkey hrest
  | @shown key' v w _ _ hv hrest =>
      by_cases heq : key = key'
      · subst heq
        exact .inr ⟨v, w, by simp, by simp, hv⟩
      · have hne : (key == key') = false := beq_eq_false_iff_ne.mpr heq
        simpa only [List.lookup_cons, hne] using SamePublicFields.lookup hkey hrest

theorem SamePublicFields.aiString {xs ys : Fields} (h : SamePublicFields xs ys)
    {keys : List String} (hkeys : ∀ key ∈ keys, sensitiveTeamField key = false) :
    WorkMesh.AgentTeam.aiString xs keys = WorkMesh.AgentTeam.aiString ys keys := by
  induction keys with
  | nil => rfl
  | cons key keys ih =>
      have ih := ih fun key hkey => hkeys key (List.mem_cons_of_mem _ hkey)
      rcases SamePublicFields.lookup (hkeys key List.mem_cons_self) h with ⟨hx, hy⟩ | ⟨v, w, hx, hy, hv⟩
      · simp only [WorkMesh.AgentTeam.aiString, hx, hy, ih]
      · simp only [WorkMesh.AgentTeam.aiString, hx, hy, ih]
        cases hv <;> rfl

/-- An action reads nothing secret. -/
theorem handle_action {body body' : Fields} (h : SamePublicFields body body') (env : Env)
    (now : Instant) (failure : Option String) (s : TeamState) (path : String)
    (action : TaskAction) :
    handle env now failure s (.taskAction path action body) =
      handle env now failure s (.taskAction path action body') := by
  have hpayload : boundedPayload (some (.obj body)) = boundedPayload (some (.obj body')) :=
    boundedPayload_samePublic (.obj h) rfl
  have hinput : inputText body = inputText body' := by
    rw [inputText, inputText, h.aiString (by decide +kernel)]
  have hreason : aiString body ["reason"] = aiString body' ["reason"] :=
    h.aiString (by decide +kernel)
  have hacted : ∀ s task, actedTask env s now task body action =
      actedTask env s now task body' action := by
    intro s task
    cases action <;> simp only [actedTask, hreason]
  have hfollow : ∀ s task, followTaskAction env s now task body action =
      followTaskAction env s now task body' action := by
    intro s task
    cases action <;> simp only [followTaskAction, hpayload]
  have hrefusal : ∀ task, taskActionRefusal s task action body =
      taskActionRefusal s task action body' := by
    intro task
    simp only [taskActionRefusal, hinput]
  simp only [WorkMesh.AgentTeam.handle, handleDevTaskAction, performTaskAction, hrefusal, hacted,
    hfollow, hpayload]

/-! ## Which payloads are safe -/

/-- Two requests that leave the same state behind, and frames that are the same. -/
structure SameOutcome (a b : TeamState × Response) : Prop where
  state : a.1 = b.1
  response : a.2 = b.2
  frames : ∀ projectID, (a.1.teamEvents projectID).all.map sseFrame =
    (b.1.teamEvents projectID).all.map sseFrame

theorem sameOutcome_of_eq {a b : TeamState × Response} (h : a = b) : SameOutcome a b := by
  subst h
  exact ⟨rfl, rfl, fun _ => rfl⟩

/-- Nothing that is stored or sent tells the value from one with other secrets,
whether it is the payload of an event in any batch or the body of an action. -/
structure Redacted (v : Json) : Prop where
  twice : sanitizeTeamValue (sanitizeTeamValue v) = sanitizeTeamValue v
  event : ∀ w, SamePublic v w → ∀ env now failure s credentials before after fields,
    SameOutcome
      (handle env now failure s (.events (batchWith credentials before after fields v)))
      (handle env now failure s (.events (batchWith credentials before after fields w)))
  action : ∀ body body', v = .obj body → SamePublic v (.obj body') →
    ∀ env now failure s path action,
      SameOutcome (handle env now failure s (.taskAction path action body))
        (handle env now failure s (.taskAction path action body'))

theorem redacted_of_not_leaks {v : Json} (hsafe : leaks v = false) : Redacted v where
  twice := sanitizeTeamValue_twice v
  event := fun w h env now failure s credentials before after fields =>
    sameOutcome_of_eq (handle_batchWith (boundedPayload_samePublic h hsafe) env now failure s
      credentials before after fields)
  action := by
    intro body body' hbody h env now failure s path action
    subst hbody
    cases h with
    | obj hfields => exact sameOutcome_of_eq (handle_action hfields env now failure s path action)

/-! ## What a leaking payload shows -/

def noteFields : Fields := [("sequence", .int 1), ("type", .str "agent.note")]

/-- One event of a runtime that has just registered. -/
def noteBody (v : Json) : Fields :=
  batchWith (credentialFields "p" "a" (teamNewID "fence" 0 1)) [] [] noteFields v

def registeredOnce : TeamState := (reached .default 0 [.after 0 (registerRequest "p" "a")]).team

theorem handle_note (v : Json) :
    ((handle .default 0 none registeredOnce (.events (noteBody v))).1.teamEvents "p").all =
      (registeredOnce.teamEvents "p").all ++
        [ingestedEvent registeredOnce 0 "p" "a" (("payload", v) :: noteFields)] := by
  have hcredentials : runtimeCredentials (noteBody v) = ⟨"p", "a", teamNewID "fence" 0 1⟩ := by
    rw [noteBody, batchWith, runtimeCredentials_append]
    decide +kernel
  have hlist : bodyList (noteBody v) "events" = [.obj (("payload", v) :: noteFields)] :=
    bodyList_append (by decide +kernel) _
  have hcomplete : RuntimeCredentials.complete ⟨"p", "a", teamNewID "fence" 0 1⟩ = true := by
    decide +kernel
  have hleased : leasedRuntime registeredOnce 0 ⟨"p", "a", teamNewID "fence" 0 1⟩ =
      some (newRuntime .empty 0 (registerBody "p" "a")) := by decide +kernel
  have hlast : lastAccepted (newRuntime .empty 0 (registerBody "p" "a")) = 0 := by decide +kernel
  have hsequence : eventSequence noteFields = 1 := by decide +kernel
  have htype : eventType noteFields = "agent.note" := by decide +kernel
  have htask : aiString (("payload", v) :: noteFields) ["taskId"] = "" := by
    rw [aiString_payload _ _ (by decide)]
    decide +kernel
  have htaskID : eventTaskID noteFields = "" := by decide +kernel
  have hattempt : List.lookup "attempt" (("payload", v) :: noteFields) = none := by
    rw [lookup_payload _ _ (by decide)]
    decide +kernel
  have hchecked : checkTeamEvents registeredOnce "p" 0 0
      [.obj (("payload", v) :: noteFields)] = .ok 1 := by
    simp [checkTeamEvents, checkTeamEvent, eventSequence_payload, eventType_payload, htask,
      hattempt, hsequence, htype, normalizeTeamCollaborationEvent, attemptValid]
  generalize newRuntime .empty 0 (registerBody "p" "a") = item at hleased hlast
  have hstale : eventStale registeredOnce (("payload", v) :: noteFields) = false := by
    rw [eventStale, eventTaskID_payload, htaskID]
    have hnone : findTeamTaskLocked registeredOnce "" = none := by decide +kernel
    rw [hnone]
    rfl
  have hhandle : (handle .default 0 none registeredOnce (.events (noteBody v))).1 =
      storeEventBatch .default 0 registeredOnce ⟨"p", "a", teamNewID "fence" 0 1⟩ item
        [("payload", v) :: noteFields] := by
    simp [handle, handleAgentRuntimeEvents, hcredentials, hlist, hcomplete, hleased, hlast,
      hchecked, commitTeamState, saveTeamStateLocked, eventObjects]
  have hfresh : freshEvents 0 [("payload", v) :: noteFields] = [("payload", v) :: noteFields] := by
    simp [freshEvents, eventSequence_payload, hsequence]
  have hingested : ingestTeamEvent .default 0 "p" "a" registeredOnce (("payload", v) :: noteFields) =
      storeTeamEvent registeredOnce "p"
        (ingestedEvent registeredOnce 0 "p" "a" (("payload", v) :: noteFields)) := by
    have hends : endsTask "agent.note" = false := by decide +kernel
    have hopen : openTask (storeTeamEvent registeredOnce "p" (ingestedEvent registeredOnce 0 "p" "a"
        (("payload", v) :: noteFields))) "p" "" = none := by
      have hsame : ∀ (u : TeamState) event, openTask (storeTeamEvent u "p" event) "p" "" =
          openTask u "p" "" := fun _ _ => rfl
      rw [hsame]
      decide +kernel
    simp only [ingestTeamEvent, hstale, eventType_payload, htype, eventTaskID_payload, htaskID,
      updateTeamTaskFromEventLocked, applyTeamCollaborationEventLocked, hopen, hends,
      Bool.false_eq_true, if_true, if_false]
  have hkept : ∀ (u : TeamState) entry, (replaceRuntimeLocked u entry).teamEvents = u.teamEvents :=
    fun _ _ => rfl
  rw [hhandle, storeEventBatch, hkept, hlast, hfresh, List.foldl_cons, List.foldl_nil, hingested]
  generalize ingestedEvent registeredOnce 0 "p" "a" _ = entry
  generalize registeredOnce = s
  rw [storeTeamEvent_all, if_pos rfl]

/-- The stored text of a leaking payload differs for two of its fillings. -/
theorem storedPayload_of_leaks {items : List Json} (h : leaks (.arr items) = true) :
    boundedPayload (some (.obj (boundedPayload (some (fillSecrets "a" (.arr items)))))) ≠
      boundedPayload (some (.obj (boundedPayload (some (fillSecrets "<" (.arr items)))))) := by
  have hsize := jsonStringSize_of_leaks h
  have hstored : ∀ text, boundedPayload (some (fillSecrets text (.arr items))) =
      [("value", .str (boundedText (sprint (fillSecrets text (.arr items))) 64000))] :=
    fun text => rfl
  rw [hstored, hstored]
  generalize boundedText (sprint (fillSecrets "a" (.arr items))) 64000 = x at hsize ⊢
  generalize boundedText (sprint (fillSecrets "<" (.arr items))) 64000 = y at hsize ⊢
  have hvalue : sensitiveTeamField "value" = false := by decide +kernel
  have hcopy : ∀ text : String,
      sanitizeTeamMap [("value", .str text)] = [("value", .str text)] := by
    intro text
    simp only [sanitizeTeamMap, sanitizeTeamValue.sanitizeTeamMap, hvalue, Bool.false_eq_true,
      if_false, sanitizeTeamValue]
  have hlength : ∀ text : String, jsonSize (.obj [("value", .str text)]) =
      1 + (jsonStringSize "value" + 1 + jsonStringSize text + 1) := by
    intro text
    simp only [jsonSize, jsonSize.fieldsSize]
    omega
  simp only [boundedPayload, hcopy, hlength]
  intro hsame
  split at hsame <;> split at hsame
  · -- both are too long, and the marker holds the length
    simp only [List.cons.injEq, Prod.mk.injEq, Json.int, Json.num.injEq, Int.cast_natCast,
      Nat.cast_inj] at hsame
    omega
  · simp at hsame
  · simp at hsame
  · have htext : x = y := by simpa using hsame
    rw [htext] at hsize
    exact Nat.lt_irrefl _ hsize

theorem notePayload (w : Json) :
    (ingestedEvent registeredOnce 0 "p" "a" (("payload", w) :: noteFields)).payload =
      boundedPayload (some (.obj (boundedPayload (some w)))) := by
  have htype : eventType noteFields = "agent.note" := by decide +kernel
  have hread : eventPayload (("payload", w) :: noteFields) = boundedPayload (some w) := by
    simp [eventPayload, eventType_payload, htype, normalizeTeamCollaborationEvent]
  simp only [ingestedEvent, newTeamEvent, hread]

/-- Some batch shows the secrets of a leaking payload. -/
theorem leaks_false_of_redacted {v : Json} (h : Redacted v) : leaks v = false := by
  rw [← Bool.not_eq_true]
  intro hleaks
  have hlogged : ∀ text, (registeredOnce.teamEvents "p").all ++
      [ingestedEvent registeredOnce 0 "p" "a" (("payload", v) :: noteFields)] =
        (registeredOnce.teamEvents "p").all ++
          [ingestedEvent registeredOnce 0 "p" "a" (("payload", fillSecrets text v) :: noteFields)] := by
    intro text
    have hstate := (h.event _ (samePublic_fillSecrets text v) .default 0 none registeredOnce
      (credentialFields "p" "a" (teamNewID "fence" 0 1)) [] [] noteFields).state
    rw [← handle_note, ← handle_note, noteBody, noteBody, hstate]
  have hpayload : ∀ text, boundedPayload (some (.obj (boundedPayload (some v)))) =
      boundedPayload (some (.obj (boundedPayload (some (fillSecrets text v))))) := by
    intro text
    have hentry := List.singleton_inj.mp (List.append_cancel_left (hlogged text))
    rw [← notePayload, ← notePayload, hentry]
  cases v with
  | arr items => exact storedPayload_of_leaks hleaks ((hpayload "a").symm.trans (hpayload "<"))
  | _ => cases hleaks

/-- Secrets stay out of what is stored and sent, whatever the shape of the value,
unless it is a list that prints a secret within the stored length. -/
theorem secrets_redacted_iff (v : Json) : Redacted v ↔ leaks v = false :=
  ⟨leaks_false_of_redacted, redacted_of_not_leaks⟩

/-- A list of one map with a password is stored with the password. -/
theorem password_leaked : ¬Redacted (.arr [.obj [("password", .str "hunter2")]]) := by
  intro h
  have hsafe := leaks_false_of_redacted h
  revert hsafe
  decide +kernel

end WorkMesh.AgentTeam
