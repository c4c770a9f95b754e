import WorkMesh.Gate.Admission

/-!
# Requests with the session of a cookie

The checks for the age of the password and for the CSRF token look for another
credential than the cookie in four headers, and leave forwarded requests to the
relay and streams to their handlers. The session is taken from the cookie first,
the relay takes only the bare marker for one of a forwarded request, and the
handlers of the streams look at the session alone. What falls between is not
checked.
-/

namespace WorkMesh.Gate

open Encoding

/-- A handler of a stream: the variable with its own token, whether it asks for an identity only
before an upgrade, and whether it serves `HEAD` as well. -/
structure StreamHandler where
  path : String
  token : String
  upgradeOnly : Bool
  head : Bool

def streamHandlers : List StreamHandler :=
  [⟨"/api/v2/process/ws", "WORKMESH_PROCESS_TOKEN", true, true⟩,
    ⟨"/api/v2/containers/search/log", "WORKMESH_CONTAINER_TOKEN", false, false⟩,
    ⟨"/api/v2/files/wget/process", "WORKMESH_FILE_TOKEN", true, false⟩,
    ⟨"/api/v2/hosts/terminal/local", "WORKMESH_TERMINAL_TOKEN", false, true⟩,
    ⟨"/api/v2/hosts/terminal/container", "WORKMESH_TERMINAL_TOKEN", false, true⟩,
    ⟨"/api/v2/hosts/terminal/ssh", "WORKMESH_TERMINAL_TOKEN", false, true⟩]

/-- What the handlers of the streams look at besides the request: the environment, and which
sessions are those of an administrator. -/
structure StreamSettings where
  getenv : String → Bytes
  admin : Bytes → Bool

/-- The relay has verified the signature of what is served with the bare marker. -/
def isForwardedRequestVerified (r : HttpRequest) : Bool :=
  r.header.get "X-WorkMesh-Forwarded" = bytes "1"

/-- The session of the request has a user. -/
def hasSession (current : Bytes → Bool) (r : HttpRequest) : Bool :=
  coreSessionID r ≠ [] && current (coreSessionID r)

/-- `requireStreamAuth`: what it lets the request through for. -/
def requireStreamAuth (e : StreamSettings) (current : Bytes → Bool) (names : List String)
    (r : HttpRequest) : Option Admission :=
  if isForwardedRequestVerified r then some .forwarded
  else
    match (names.map fun name => trimSpace (e.getenv name)).find? (· ≠ []) with
    | some token => if r.header.get "X-WorkMesh-Token" = token then some .stream else none
    | none => if hasSession current r then some .session else none

def authorizeScriptRun (e : StreamSettings) (current : Bytes → Bool) (r : HttpRequest) :
    Option Admission :=
  let token := trimSpace (e.getenv "WORKMESH_COMMAND_TOKEN")
  if isForwardedRequestVerified r then some .forwarded
  else if hasSession current r then
    if e.admin (coreSessionID r) then some .session else none
  else if token ≠ [] ∧ r.header.get "X-WorkMesh-Token" = token then some .stream
  else none

def isUpgrade (r : HttpRequest) : Bool :=
  equalFold (r.header.get "Upgrade") (bytes "websocket")

def StreamHandler.asks (h : StreamHandler) (r : HttpRequest) : Bool :=
  r.path = bytes h.path && (r.method = bytes "GET" || h.head && r.method = bytes "HEAD") &&
    (!h.upgradeOnly || isUpgrade r)

/-- What the handler of a stream lets a request through for. Other methods end at handlers that ask
for nothing. -/
def streamAdmission (e : StreamSettings) (m : Moment) (r : HttpRequest) : Option Admission :=
  if r.path = bytes "/api/v2/core/script/run" ∧
      (r.method = bytes "GET" ∨ r.method = bytes "HEAD") then
    authorizeScriptRun e m.currentLater r
  else
    match streamHandlers.find? (·.asks r) with
    | some h => requireStreamAuth e m.currentLater [h.token, "WORKMESH_STREAM_TOKEN"] r
    | none => some .unguarded

/-- A handler of the node or of the control plane serves the request because of the session that
its cookie names. -/
def ByCookie (e : StreamSettings) (m : Moment) (r : HttpRequest) : Outcome → Prop
  | .control _ gate => (cookieSession r).isSome = true ∧ gate = .session
  | .node _ gate inner => (cookieSession r).isSome = true ∧
      (gate = .session ∨ inner = .session ∨
        inner = .stream ∧ streamAdmission e m r = some .session)
  | _ => False

/-- The password is not too old, and what is not safe has the token. -/
structure Checked (settings : SecuritySettings) (addDays : Time → Int → Time) (now : Time)
    (r : HttpRequest) : Prop where
  expiry : settings.expired addDays now = false ∨ isPasswordExpirationExempt r = true
  token : unsafeHTTPMethod r.method = true → csrfTokensMatch r = true

/-- Another header is filled that names a credential, or the marker of a forwarded request stands
between spaces. -/
def Skips (r : HttpRequest) : Prop :=
  hasNonCookieCredential r = true ∨
    isForwardedRelayRequest r = true ∧ r.header.get "X-WorkMesh-Forwarded" ≠ bytes "1"

/-- The handler of a stream takes the session of the request for its identity. -/
def Streams (e : StreamSettings) (m : Moment) (r : HttpRequest) : Prop :=
  isSelfAuthenticatedStream r.path = true ∧ streamAdmission e m r = some .session

section Checks
variable {s : Server} {settings settings' : SecuritySettings} {m : Moment} {now now' : Time}
  {r : HttpRequest} {e : StreamSettings}

theorem ByCookie.cookie {o : Outcome} (h : ByCookie e m r o) : (cookieSession r).isSome = true := by
  cases o with
  | control route gate => exact h.1
  | node pattern gate inner => exact h.1
  | _ => exact h.elim

theorem ByCookie.served {o : Outcome} (h : ByCookie e m r o) : ∀ refusal, o ≠ .refused refusal := by
  rintro refusal rfl
  exact h

/-- The handlers stand under the interface, whatever the path looks like. -/
theorem ByCookie.isAPIRequest (h : ByCookie e m r (serve s settings m now r).2) :
    Gate.isAPIRequest r.path = true := by
  obtain ⟨gate, -, hroutes⟩ := serve_served h.served
  rw [hroutes] at h
  cases ho : (serveRoutes s m gate r).2 with
  | control route gate' =>
      obtain ⟨-, hroute⟩ := serveRoutes_control ho
      obtain ⟨hmem, hpath⟩ := control_path hroute
      rw [HttpRequest.path, hpath]
      exact (isAPIRequest_of_control route hmem).1
  | node pattern gate' inner => exact (isAPIRequest_of_relay (serveRoutes_node ho).2.1).1
  | _ => exact (ho ▸ h).elim

/-- Only the session of the cookie at the gate, behind a marker between spaces, or at the handler
of a stream is left. -/
theorem ByCookie.gate (h : ByCookie e m r (serve s settings m now r).2) :
    gateAdmission s settings m now r = .ok .session ∨ Skips r ∨ Streams e m r := by
  obtain ⟨gate, hgate, hroutes⟩ := serve_served h.served
  rw [hroutes] at h
  have hpassed := gateAdmission_ok hgate
  cases ho : (serveRoutes s m gate r).2 with
  | control route gate' =>
      obtain ⟨rfl, -⟩ := serveRoutes_control ho
      rw [ho] at h
      exact .inl (h.2 ▸ hgate)
  | node pattern gate' inner =>
      obtain ⟨rfl, hroute, hpattern, hreason⟩ := serveRoutes_node ho
      rw [ho] at h
      by_cases hgate' : gate' = .session
      · exact .inl (hgate' ▸ hgate)
      · rcases h.2.resolve_left hgate' with rfl | ⟨rfl, hstreams⟩
        · obtain ⟨⟨hpublic, hstream, hservice⟩, hmarker, -⟩ := hreason
          obtain ⟨hapi, hasset⟩ := isAPIRequest_of_relay hroute
          cases gate' with
          | session => exact absurd rfl hgate'
          | unguarded =>
              obtain hpage | hopen | hstatic := hpassed
              · exact absurd hapi (Bool.eq_false_iff.mp hpage)
              · exact absurd hopen (Bool.eq_false_iff.mp hpublic)
              · have hnone := s.nodeMux.noAsset r.method r.host r.url hstatic hasset
                rw [hnone] at hpattern
                cases hpattern
          | stream => exact absurd hpassed (Bool.eq_false_iff.mp hstream)
          | service => exact absurd hpassed (Bool.eq_false_iff.mp hservice)
          | forwarded => exact .inr (.inl (.inr ⟨hpassed, hmarker⟩))
        · exact .inr (.inr ⟨hreason, hstreams⟩)
  | _ => exact (ho ▸ h).elim

theorem checked_of_gate (h : gateAdmission s settings m now r = .ok .session)
    (hcookie : (cookieSession r).isSome = true) (hcredential : hasNonCookieCredential r = false) :
    Checked settings s.addDays now r := by
  obtain ⟨-, hexpired, hcsrf⟩ := gateAdmission_ok h
  exact ⟨not_expired_of_check hcredential hexpired, tokensMatch_of_check hcredential hcookie hcsrf⟩

theorem checkBoundDomain_congr (hdomain : settings'.bindDomain = settings.bindDomain) :
    checkBoundDomain r settings' = checkBoundDomain r settings := by
  simp only [checkBoundDomain, hdomain]

theorem checkSecurityEntrance_api (hapi : Gate.isAPIRequest r.path = true)
    (authorize : HttpRequest → Bool) : checkSecurityEntrance r settings authorize = none := by
  simp [checkSecurityEntrance, hapi]

/-- What skips the checks is let through whenever the password was changed. -/
theorem gateAdmission_of_skips (hskips : Skips r) (hapi : Gate.isAPIRequest r.path = true)
    (hdomain : settings'.bindDomain = settings.bindDomain) :
    gateAdmission s settings' m now' r = gateAdmission s settings m now r := by
  simp only [gateAdmission, checkBoundDomain_congr hdomain, checkSecurityEntrance_api hapi]
  cases hskips with
  | inl hcredential =>
      have hexpired : ∀ settings now, passwordExpired r settings s.addDays now = false := by
        intro settings now
        simp [passwordExpired, hcredential]
      simp only [hexpired]
  | inr hmarker => simp only [hmarker.1, if_true]

/-- A stream is let through before the age of the password is looked at. -/
theorem gateAdmission_of_stream (hstream : isSelfAuthenticatedStream r.path = true)
    (hapi : Gate.isAPIRequest r.path = true)
    (hdomain : settings'.bindDomain = settings.bindDomain) :
    gateAdmission s settings' m now' r = gateAdmission s settings m now r := by
  simp only [gateAdmission, checkBoundDomain_congr hdomain, checkSecurityEntrance_api hapi,
    hstream, if_true]

end Checks

/-- A request with the session of a cookie is checked for every setting and at every time if and
only if nothing of it skips the checks and no handler of a stream takes its session, or its path is
exempt and it has the token in any case. -/
theorem cookie_requests_checked_iff (s : Server) (e : StreamSettings) (m : Moment) (r : HttpRequest)
    (hserved : ∃ settings now, ByCookie e m r (serve s settings m now r).2) :
    (∀ settings now, ByCookie e m r (serve s settings m now r).2 →
        Checked settings s.addDays now r) ↔
      (Skips r ∨ Streams e m r → isPasswordExpirationExempt r = true ∧
        (unsafeHTTPMethod r.method = true → csrfTokensMatch r = true)) := by
  constructor
  · intro hchecked hskips
    obtain ⟨settings, now, hby⟩ := hserved
    let old : SecuritySettings :=
      { settings with expirationDays := 1, expirationTime := some (.unix 0) }
    have hafter : (Time.unix 1).after (.unix 0) = true := by decide
    have hexpired : old.expired s.addDays (.unix 1) = true := by
      simp [old, SecuritySettings.expired, SecuritySettings.expires, hafter]
    have hgate : gateAdmission s old m (.unix 1) r = gateAdmission s settings m now r := by
      cases hskips with
      | inl hskips => exact gateAdmission_of_skips hskips hby.isAPIRequest rfl
      | inr hstreams => exact gateAdmission_of_stream hstreams.1 hby.isAPIRequest rfl
    have hsame : serve s old m (.unix 1) r = serve s settings m now r := by
      rw [serve, serve, hgate]
    obtain ⟨hexpiry, htoken⟩ := hchecked old (.unix 1) (hsame ▸ hby)
    exact ⟨hexpiry.resolve_left (by simp [hexpired]), htoken⟩
  · intro hcondition settings now hby
    by_cases hskips : Skips r ∨ Streams e m r
    · exact ⟨.inr (hcondition hskips).1, (hcondition hskips).2⟩
    · have hcredential : hasNonCookieCredential r = false := by
        simpa using fun h => hskips (.inl (.inl h))
      exact checked_of_gate (hby.gate.resolve_right hskips) hby.cookie hcredential

/-- No tokens for streams are set, and all users are administrators. -/
def openStreams : StreamSettings := ⟨fun _ => [], fun _ => true⟩

/-- A request with the session of its cookie and the token. -/
theorem cookie_requests_checked_removal :
    Checked noSettings panelServer.addDays (.unix 0)
      (removeShare [("X-Csrf-Token", [bytes "csrf-1"])]) := by
  generalize hr : removeShare [("X-Csrf-Token", [bytes "csrf-1"])] = r
  have hby : ByCookie openStreams panelMoment r
      (serve panelServer noSettings panelMoment (.unix 0) r).2 := by
    have houtcome : (serve panelServer noSettings panelMoment (.unix 0)
        (removeShare [("X-Csrf-Token", [bytes "csrf-1"])])).2 =
          .node (bytes "/api/v2/files/") .session .session :=
      serve_removeShare (by decide +kernel) (by decide +kernel) (by decide +kernel)
        (by decide +kernel)
    rw [← hr, houtcome]
    exact ⟨by decide +kernel, .inl rfl⟩
  have hcondition : Skips r ∨ Streams openStreams panelMoment r →
      isPasswordExpirationExempt r = true ∧
        (unsafeHTTPMethod r.method = true → csrfTokensMatch r = true) := by
    intro hskips
    exact absurd hskips (by rw [← hr, Skips, Streams]; decide +kernel)
  exact (cookie_requests_checked_iff panelServer openStreams panelMoment r
    ⟨noSettings, .unix 0, hby⟩).mpr hcondition noSettings (.unix 0) hby

/-- A request from another site is refused, and served once it has any text for an authorization. -/
theorem cross_site_removal :
    (serve panelServer noSettings panelMoment (.unix 0)
        (removeShare [("Sec-Fetch-Site", [bytes "cross-site"])])).2 = .refused loginRequired ∧
      ByCookie openStreams panelMoment
        (removeShare [("Sec-Fetch-Site", [bytes "cross-site"]), ("Authorization", [bytes "x"])])
        (serve panelServer noSettings panelMoment (.unix 0) (removeShare
          [("Sec-Fetch-Site", [bytes "cross-site"]), ("Authorization", [bytes "x"])])).2 ∧
      ¬Checked noSettings panelServer.addDays (.unix 0) (removeShare
        [("Sec-Fetch-Site", [bytes "cross-site"]), ("Authorization", [bytes "x"])]) := by
  have houtcome : (serve panelServer noSettings panelMoment (.unix 0) (removeShare
      [("Sec-Fetch-Site", [bytes "cross-site"]), ("Authorization", [bytes "x"])])).2 =
        .node (bytes "/api/v2/files/") .session .session :=
    serve_removeShare (by decide +kernel) (by decide +kernel) (by decide +kernel)
      (by decide +kernel)
  refine ⟨by decide +kernel, ?_, fun hchecked => ?_⟩
  · rw [houtcome]
    exact ⟨by decide +kernel, .inl rfl⟩
  · exact absurd (hchecked.token (by decide +kernel)) (by decide +kernel)

end WorkMesh.Gate
