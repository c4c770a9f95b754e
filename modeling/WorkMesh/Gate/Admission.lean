import WorkMesh.Gate.Pipeline

/-!
# Why a request was let through

For every handler that serves a request there is a reason of the middleware and,
behind the relay, one of `authenticateNodeAPI`. The routes match the segments of
the path as it was written and the checks read the decoded path; on what is
served the two agree.
-/

namespace WorkMesh.Gate

open Encoding
open WorkMesh.Relay (NodeRelay authenticateForwarded)

/-! ## Decoded paths -/

section Paths
variable {written decoded : Bytes}

/-- Decoding goes through the segments of a path one by one. -/
theorem decoded_intercalate {parts : List Bytes} (hparts : parts ≠ [])
    (h : unescape false (List.intercalate [47] parts) = some decoded) :
    decoded = List.intercalate [47] (parts.map pathUnescape) := by
  induction parts generalizing decoded with
  | nil => exact absurd rfl hparts
  | cons part rest ih =>
      cases rest with
      | nil =>
          have hpart : unescape false part = some decoded := by
            rwa [List.intercalate_singleton] at h
          rw [List.map_singleton, List.intercalate_singleton, pathUnescape, hpart]
          rfl
      | cons next rest =>
          rw [List.intercalate_cons_cons, List.append_assoc, List.singleton_append] at h
          obtain ⟨front, hfront⟩ := unescape_of_append_slash h
          have hpart : pathUnescape part = front := by rw [pathUnescape, hfront]; rfl
          rw [unescape_append hfront, unescape_cons (by decide), Option.map_map,
            Option.map_eq_some_iff] at h
          obtain ⟨tail, htail, rfl⟩ := h
          rw [List.map_cons, List.map_cons, List.intercalate_cons_cons, hpart, ← List.map_cons,
            ← ih (by simp) htail]
          simp

/-- A path that is matched segment by segment decodes to its segments. -/
theorem decoded_segments (h : unescape false written = some decoded)
    (hsegments : segments written ≠ []) :
    decoded = 47 :: List.intercalate [47] (segments written) := by
  cases written with
  | nil => exact absurd rfl hsegments
  | cons c rest =>
      by_cases hc : c = 47
      · subst hc
        rw [unescape_cons (by decide), Option.map_eq_some_iff] at h
        obtain ⟨tail, htail, rfl⟩ := h
        have hjoin : List.intercalate [47] (rest.splitOn 47) = rest := List.intercalate_splitOn 47
        rw [← hjoin] at htail
        rw [decoded_intercalate (List.splitOn_ne_nil 47 rest) htail]
        rfl
      · refine absurd ?_ hsegments
        rw [segments.eq_def]
        split
        · rename_i heq
          exact absurd (List.cons.inj heq).1 hc
        · rfl

end Paths

section Routes
variable {method : Bytes} {url : UrlPath} {route : ControlRoute}

/-- A route of the control plane serves the path that it names, under one of its prefixes. -/
theorem control_path (h : mainMux method url.escapedPath = .control route) :
    route ∈ controlRoutes ∧ url.path = bytes route.path := by
  have hnamed : ∀ route ∈ controlRoutes, segments (bytes route.path) ≠ [] ∧
      bytes route.path = 47 :: List.intercalate [47] (segments (bytes route.path)) := by
    decide +kernel
  rw [mainMux] at h
  split at h
  · cases h
  · split at h
    · rename_i found hfound
      obtain rfl := Route.control.inj h
      have hmem := List.mem_of_find?_eq_some hfound
      have hmatch := List.find?_some hfound
      rw [ControlRoute.matches, Bool.and_eq_true, decide_eq_true_eq] at hmatch
      obtain ⟨hne, hpath⟩ := hnamed found hmem
      refine ⟨hmem, ?_⟩
      rw [decoded_segments (encodes_escapedPath url).decoded (hmatch.2 ▸ hne), hmatch.2]
      exact hpath.symm
    · split at h
      · cases h
      · split_ifs at h

theorem isAPIRequest_of_control : ∀ route ∈ controlRoutes, isAPIRequest (bytes route.path) = true ∧
    controlPrefixes.any (hasPrefix (bytes route.path) ·) = true := by decide +kernel

/-- What goes to the relay is a path of the interface. -/
theorem isAPIRequest_of_relay (h : mainMux method url.escapedPath = .relay) :
    isAPIRequest url.path = true ∧ isAssetRoute method url.escapedPath = false := by
  rw [mainMux] at h
  split at h
  · cases h
  · split at h
    · cases h
    · split at h
      · cases h
      · split_ifs at h with hasset hunder
        refine ⟨?_, by simpa using hasset⟩
        rw [underDirectory, Bool.and_eq_true, decide_eq_true_eq] at hunder
        have hdirectory : segments (bytes "/api/v2") = [bytes "api", bytes "v2"] := by decide +kernel
        rw [hdirectory] at hunder
        obtain ⟨behind, hbehind⟩ := List.isPrefixOf_iff_prefix.mp hunder.1
        have hpath := decoded_segments (encodes_escapedPath url).decoded
          (by rw [← hbehind]; exact List.cons_ne_nil _ _)
        cases behind with
        | nil =>
            rw [← hbehind] at hunder
            exact absurd hunder.2 (lt_irrefl _)
        | cons part rest =>
            have hfront : bytes "/api/v2/" = 47 :: (bytes "api" ++ 47 :: (bytes "v2" ++ [47])) := by
              decide +kernel
            rw [hpath, ← hbehind, isAPIRequest, hasPrefix, List.isPrefixOf_iff_prefix, hfront]
            refine ⟨List.intercalate [47] (part :: rest), ?_⟩
            simp [List.intercalate_cons_cons]

end Routes

/-! ## Reasons -/

section Reasons
variable {s : Server} {settings : SecuritySettings} {m : Moment} {now : Time} {r : HttpRequest}
  {gate inner : Admission} {pattern : Bytes}

/-- What the middleware has found when it lets a request through. -/
def Passed (s : Server) (settings : SecuritySettings) (m : Moment) (now : Time) (r : HttpRequest) :
    Admission → Prop
  | .unguarded => isAPIRequest r.path = false ∨ isPublicSecurityPath r = true ∨
      isStaticAPIPath r.path = true
  | .stream => isSelfAuthenticatedStream r.path = true
  | .service => isAgentRuntimeRequest r = true
  | .forwarded => isForwardedRelayRequest r = true
  | .session => authorizeControlRequest m.current r = true ∧
      passwordExpired r settings s.addDays now = false ∧ checkCSRF r = none

/-- What `authenticateNodeAPI` has found, and the relay before it. -/
def Reason (s : Server) (m : Moment) (r : HttpRequest) : Admission → Prop
  | .unguarded => publicNodeAPIPath r = true
  | .stream => selfAuthenticatedStreamPath r.path = true
  | .service => isAgentRuntimeRequest r = true
  | .forwarded => ∃ body, r.body = some body ∧
      (authenticateForwarded s.relay (r.arrival m body)).2 = .ok ()
  | .session => (publicNodeAPIPath r = false ∧ selfAuthenticatedStreamPath r.path = false ∧
      isAgentRuntimeRequest r = false) ∧ r.header.get "X-WorkMesh-Forwarded" ≠ bytes "1" ∧
      authorizeControlRequest m.currentLater r = true

theorem gateAdmission_ok (h : gateAdmission s settings m now r = .ok gate) :
    Passed s settings m now r gate := by
  rw [gateAdmission] at h
  split at h
  · cases h
  · split at h
    · rename_i hforwarded
      obtain rfl := Except.ok.inj h
      exact hforwarded
    · split at h
      · cases h
      · split at h
        · rename_i hopen
          obtain rfl := Except.ok.inj h
          simpa [Passed, or_assoc] using hopen
        · split at h
          · rename_i hstream
            obtain rfl := Except.ok.inj h
            exact hstream
          · split at h
            · rename_i hservice
              obtain rfl := Except.ok.inj h
              exact hservice
            · split at h
              · cases h
              · rename_i hauthorize
                split at h
                · cases h
                · rename_i hexpired
                  split at h
                  · cases h
                  · rename_i hcsrf
                    obtain rfl := Except.ok.inj h
                    exact ⟨by simpa using hauthorize, by simpa using hexpired, hcsrf⟩

theorem serve_served (h : ∀ refusal, (serve s settings m now r).2 ≠ .refused refusal) :
    ∃ gate, gateAdmission s settings m now r = .ok gate ∧
      serve s settings m now r = serveRoutes s m gate r := by
  cases hgate : gateAdmission s settings m now r with
  | error refusal => exact absurd (by rw [serve, hgate]) (h refusal)
  | ok gate => exact ⟨gate, rfl, by rw [serve, hgate]⟩

theorem authenticateNodeAPI_node {verified : Bool} {gate' : Admission}
    (h : authenticateNodeAPI s m gate verified r = .node pattern gate' inner) :
    gate' = gate ∧ s.nodeMux.pattern r.method r.host r.url = some pattern ∧
      nodeAdmission m verified r = some inner := by
  rw [authenticateNodeAPI] at h
  split at h
  · cases h
  · rename_i hpattern
    split at h
    · cases h
    · rename_i hinner
      obtain ⟨rfl, rfl, rfl⟩ := Outcome.node.inj h
      exact ⟨rfl, hpattern, hinner⟩

/-- A signature that was not verified leaves only a session to a path that is not open. -/
theorem nodeAdmission_reason (h : nodeAdmission m false r = some inner)
    (hmarker : r.header.get "X-WorkMesh-Forwarded" ≠ bytes "1") : Reason s m r inner := by
  simp only [nodeAdmission, Bool.false_eq_true, if_false] at h
  split_ifs at h with hpublic hstream hservice hauthorize
  · obtain rfl := Option.some.inj h
    exact hpublic
  · obtain rfl := Option.some.inj h
    exact hstream
  · obtain rfl := Option.some.inj h
    exact hservice
  · obtain rfl := Option.some.inj h
    exact ⟨⟨by simpa using hpublic, by simpa using hstream, by simpa using hservice⟩, hmarker,
      hauthorize⟩

theorem nodeAdmission_verified (h : nodeAdmission m true r = some inner) {body : Bytes}
    (hbody : r.body = some body)
    (haccepted : (authenticateForwarded s.relay (r.arrival m body)).2 = .ok ()) :
    Reason s m r inner := by
  simp only [nodeAdmission] at h
  split_ifs at h with hpublic hstream hservice
  · obtain rfl := Option.some.inj h
    exact hpublic
  · obtain rfl := Option.some.inj h
    exact hstream
  · obtain rfl := Option.some.inj h
    exact hservice
  · obtain rfl := Option.some.inj h
    exact ⟨body, hbody, haccepted⟩

/-- What reaches a handler of the node has come through the relay. -/
theorem serveRoutes_node {gate' : Admission}
    (h : (serveRoutes s m gate r).2 = .node pattern gate' inner) :
    gate' = gate ∧ mainMux r.method r.written = .relay ∧
      s.nodeMux.pattern r.method r.host r.url = some pattern ∧ Reason s m r inner := by
  rw [serveRoutes] at h
  split at h
  · cases h
  · cases h
  · cases h
  · cases h
  · dsimp only at h
    split at h <;> cases h
  · rename_i hroute
    rw [serveRelay] at h
    split at h
    · rw [serveForwarded] at h
      split at h
      · cases h
      · rename_i body hbody
        split at h
        · cases h
        · rename_i relay haccepted
          obtain ⟨hgate, hpattern, hinner⟩ := authenticateNodeAPI_node h
          have hread : r.body = some body := (Option.filter_eq_some_iff.mp hbody).1
          exact ⟨hgate, hroute, hpattern, nodeAdmission_verified hinner hread (by rw [haccepted])⟩
    · rename_i hmarker
      dsimp only at h
      split at h
      · obtain ⟨hgate, hpattern, hinner⟩ := authenticateNodeAPI_node h
        exact ⟨hgate, hroute, hpattern, nodeAdmission_reason hinner hmarker⟩
      · split at h
        · cases h
        · split at h <;> cases h

theorem serveRoutes_control {gate' : Admission} {route : ControlRoute}
    (h : (serveRoutes s m gate r).2 = .control route gate') :
    gate' = gate ∧ mainMux r.method r.written = .control route := by
  rw [serveRoutes] at h
  split at h
  · cases h
  · cases h
  · cases h
  · cases h
  · rename_i hroute
    dsimp only at h
    split at h
    · cases h
    · obtain ⟨rfl, rfl⟩ := Outcome.control.inj h
      exact ⟨rfl, hroute⟩
  · rw [serveRelay] at h
    split at h
    · rw [serveForwarded] at h
      split at h
      · cases h
      · split at h
        · cases h
        · exact absurd h (by rw [authenticateNodeAPI]; split <;> [skip; split] <;> simp)
    · dsimp only at h
      split at h
      · exact absurd h (by rw [authenticateNodeAPI]; split <;> [skip; split] <;> simp)
      · split at h
        · cases h
        · split at h <;> cases h

end Reasons

/-! ## Requests to a node -/

/-- A handler of the node serves what is neither open nor checks its caller itself only with a
session or with a signature of another node. -/
theorem node_requests_authenticated (s : Server) (settings : SecuritySettings) (m : Moment)
    (now : Time) (r : HttpRequest) (pattern : Bytes) (gate inner : Admission)
    (hserved : (serve s settings m now r).2 = .node pattern gate inner)
    (hpublic : publicNodeAPIPath r = false) (hstream : selfAuthenticatedStreamPath r.path = false)
    (hruntime : isAgentRuntimeRequest r = false) :
    authorizeControlRequest m.currentLater r = true ∨
      ∃ body, r.body = some body ∧
        (authenticateForwarded s.relay (r.arrival m body)).2 = .ok () := by
  obtain ⟨gate', -, hroutes⟩ := serve_served (by rw [hserved]; exact fun _ h => by cases h)
  obtain ⟨-, -, -, hreason⟩ := serveRoutes_node (hroutes ▸ hserved)
  cases inner with
  | unguarded => exact absurd hreason (by rw [Reason, hpublic]; decide)
  | stream => exact absurd hreason (by rw [Reason, hstream]; decide)
  | service => exact absurd hreason (by rw [Reason, hruntime]; decide)
  | forwarded => exact .inr hreason
  | session => exact .inl hreason.2.2

/-- A node with one route. -/
def filesMux : NodeMux where
  pattern method _ url :=
    if method = bytes "DELETE" ∧ url.path = bytes "/api/v2/files/share" then
      some (bytes "/api/v2/files/")
    else none
  noAsset method host url h _ := by
    refine if_neg ?_
    rintro ⟨-, hpath⟩
    have hother : isStaticAPIPath (bytes "/api/v2/files/share") = false := by decide +kernel
    rw [hpath, hother] at h
    cases h

def panelServer : Server where
  relay := ⟨Relay.relayReceiver, []⟩
  knownNode _ := false
  nodeMux := filesMux
  addDays time days := time.add (days * 86400 * 10 ^ 9)

def noSettings : SecuritySettings := ⟨[], [], 0, none, none⟩

/-- The only session is `session-1`. -/
def panelMoment : Moment where
  current session := session = bytes "session-1"
  currentLater session := session = bytes "session-1"
  sinceReading := .unix 1700000000
  untilReading := .unix 1700000000
  lockReading := .unix 1700000000
  source := Relay.atEpoch 1

/-- The removal of a share with the cookies of a browser, and more headers. -/
def removeShare (header : Header) : HttpRequest where
  method := bytes "DELETE"
  url := ⟨bytes "/api/v2/files/share", []⟩
  rawQuery := []
  host := bytes "panel.example.test"
  header := ("Cookie", [bytes "workmesh_session=session-1; pcsrftoken=csrf-1"]) :: header
  body := some []

theorem removeShare_route (header : Header) :
    mainMux (removeShare header).method (removeShare header).written = .relay := by
  have hroute : mainMux (bytes "DELETE") (bytes "/api/v2/files/share") = .relay := by decide +kernel
  have hwritten : (removeShare header).written = bytes "/api/v2/files/share" := by
    have hplain : (UrlPath.mk (bytes "/api/v2/files/share") []).escapedPath =
        bytes "/api/v2/files/share" := by decide +kernel
    exact hplain
  rw [hwritten]
  exact hroute

/-- A removal that is not meant for another node is served by the node. -/
theorem serve_removeShare {settings : SecuritySettings} {now : Time} {header : Header}
    {gate inner : Admission}
    (hgate : gateAdmission panelServer settings panelMoment now (removeShare header) = .ok gate)
    (hmarker : (removeShare header).header.get "X-WorkMesh-Forwarded" ≠ bytes "1")
    (hlocal : relayTarget (removeShare header) = [])
    (hinner : nodeAdmission panelMoment false (removeShare header) = some inner) :
    (serve panelServer settings panelMoment now (removeShare header)).2 =
      .node (bytes "/api/v2/files/") gate inner := by
  have hpattern : panelServer.nodeMux.pattern (removeShare header).method (removeShare header).host
      (removeShare header).url = some (bytes "/api/v2/files/") := by
    simp [panelServer, filesMux, removeShare]
  simp only [serve, hgate, serveRoutes, removeShare_route, serveRelay, if_neg hmarker, hlocal,
    true_or, if_true, authenticateNodeAPI, hpattern, hinner]

theorem node_requests_authenticated_removal :
    authorizeControlRequest panelMoment.currentLater
        (removeShare [("X-Csrf-Token", [bytes "csrf-1"])]) = true ∨
      ∃ body, some [] = some body ∧ (authenticateForwarded panelServer.relay
        ((removeShare [("X-Csrf-Token", [bytes "csrf-1"])]).arrival panelMoment body)).2 =
          .ok () :=
  node_requests_authenticated panelServer noSettings panelMoment (.unix 1700000000)
    (removeShare [("X-Csrf-Token", [bytes "csrf-1"])]) (bytes "/api/v2/files/") .session
    .session (serve_removeShare (by decide +kernel) (by decide +kernel) (by decide +kernel)
      (by decide +kernel)) (by decide +kernel) (by decide +kernel) (by decide +kernel)

end WorkMesh.Gate
