import WorkMesh.Encoding.Clock
import WorkMesh.Encoding.Cookie
import WorkMesh.Encoding.Url

/-!
# The security policy

What the policy of `security_policy.go` reads of a request: its path, its
headers and its cookies. `AuthorizeControlRequest` finds the session of a
request on its own, with the cookie before every header.
-/

namespace WorkMesh.Gate

open Encoding

/-- A request as the server has parsed it. Without a body its reading failed. -/
structure HttpRequest where
  method : Bytes
  url : UrlPath
  rawQuery : Bytes
  host : Bytes
  header : Header
  body : Option Bytes

namespace HttpRequest

variable (r : HttpRequest)

def path : Bytes := r.url.path
def trimmed (name : String) : Bytes := trimSpace (r.header.get name)

end HttpRequest

/-- An answer that stops a request: the status, the code and the message. -/
structure Refusal where
  status : Nat
  errCode : String
  message : Bytes
deriving DecidableEq

structure SecuritySettings where
  bindDomain : Bytes
  securityEntrance : Bytes
  expirationDays : Int
  expirationTime : Option Time
  passwordChangedAt : Option Time

/-! ## Paths -/

def hasPrefix (path : Bytes) (front : String) : Bool := (bytes front).isPrefixOf path

def isAPIRequest (path : Bytes) : Bool := hasPrefix path "/api/v2/"

def isStaticAPIPath (path : Bytes) : Bool :=
  hasPrefix path "/api/v2/images/" || hasPrefix path "/api/v2/static/"

def isStaticAssetPath (path : Bytes) : Bool :=
  path = bytes "/favicon.ico" || hasPrefix path "/assets/" || hasPrefix path "/public/"

def publicGets : List String :=
  ["/api/v2/health", "/api/v2/health/check", "/api/v2/core/health", "/api/v2/core/auth/captcha",
    "/api/v2/core/auth/setting", "/api/v2/core/auth/welcome", "/api/v2/core/auth/ldap/status",
    "/api/v2/core/auth/oidc/status", "/api/v2/core/auth/saml2/status"]

def publicPosts : List String :=
  ["/api/v2/core/auth/login", "/api/v2/core/auth/mfalogin", "/api/v2/core/auth/passkey/finish",
    "/api/v2/core/auth/oidc/begin", "/api/v2/core/auth/oidc/finish",
    "/api/v2/core/auth/saml2/begin", "/api/v2/core/auth/saml2/finish"]

def isPublicSecurityPath (r : HttpRequest) : Bool :=
  (r.method = bytes "GET" && publicGets.any (r.path = bytes ·)) ||
    (r.method = bytes "POST" && publicPosts.any (r.path = bytes ·))

def streamPaths : List String :=
  ["/api/v2/process/ws", "/api/v2/containers/search/log", "/api/v2/files/wget/process",
    "/api/v2/hosts/terminal/local", "/api/v2/hosts/terminal/container",
    "/api/v2/hosts/terminal/ssh", "/api/v2/core/script/run"]

def isSelfAuthenticatedStream (path : Bytes) : Bool := streamPaths.any (path = bytes ·)

def isAgentRuntimeRequest (r : HttpRequest) : Bool :=
  ["POST /api/v2/agent-runtime/register", "POST /api/v2/agent-runtime/heartbeat",
    "POST /api/v2/agent-runtime/unregister", "POST /api/v2/agent-runtime/events",
    "POST /api/v2/agent-runtime/artifacts/init", "GET /api/v2/agent-runtime/commands",
    "POST /api/v2/agent-runtime/commands/ack"].any (r.method ++ bytes " " ++ r.path = bytes ·) ||
  (r.method = bytes "PUT" && hasPrefix r.path "/api/v2/agent-runtime/artifacts/" &&
    (bytes "/chunks").isSuffixOf r.path)

/-- The prefixes of the control plane, whose handlers stand behind no relay. -/
def controlPrefixes : List String := ["/api/v2/core/", "/api/v2/gateway/", "/api/v2/workmesh/"]

def isForwardedRelayRequest (r : HttpRequest) : Bool :=
  isAPIRequest r.path && r.trimmed "X-WorkMesh-Forwarded" = bytes "1" &&
    !controlPrefixes.any (hasPrefix r.path ·)

def isPasswordExpirationExempt (r : HttpRequest) : Bool :=
  hasPrefix r.path "/api/v2/core/auth" || r.path = bytes "/api/v2/core/settings/search" ||
    r.path = bytes "/api/v2/core/settings/search/base" ||
    r.path = bytes "/api/v2/core/auth/expired/reset"

/-! ## Hosts -/

def requestHost (r : HttpRequest) : Bytes :=
  let host := trimSpace r.host
  (splitHostPort host).getD host

def isLocalRequest (r : HttpRequest) : Bool := equalFold (r.trimmed "X-WorkMesh-Local") (bytes "1")

def checkBoundDomain (r : HttpRequest) (settings : SecuritySettings) : Option Refusal :=
  let bound := trimSuffix (toLower (trimSpace settings.bindDomain)) (bytes ".")
  if bound = [] ∨ isLocalRequest r then none
  else if toLower (trimSuffix (requestHost r) (bytes ".")) = bound then none
  else if isAPIRequest r.path then some ⟨403, "DOMAIN_MISMATCH", bytes "请求域名与绑定域名不匹配"⟩
  else some ⟨403, "DOMAIN_MISMATCH", bytes "当前访问域名未授权"⟩

/-- The host in an `Origin` header. -/
def neturlParse (value : Bytes) : Option Bytes :=
  let rec behind : Bytes → Option Bytes
    | 58 :: 47 :: 47 :: host => some host
    | _ :: rest => behind rest
    | [] => none
  (behind value).filter fun host =>
    host ≠ [] ∧ 47 ∉ host ∧ 63 ∉ host ∧ 35 ∉ host ∧ 13 ∉ host ∧ 10 ∉ host

def sameOrigin (origin : Bytes) (r : HttpRequest) : Bool :=
  match neturlParse origin with
  | none => false
  | some parsed => equalFold parsed (requestHost r) || equalFold parsed r.host

/-! ## Credentials -/

def unsafeHTTPMethod (method : Bytes) : Bool :=
  !(["GET", "HEAD", "OPTIONS", "TRACE"].any (method = bytes ·))

def hasSessionCookie (r : HttpRequest) : Bool :=
  match r.header.cookie (bytes "workmesh_session") with
  | none => false
  | some value => trimSpace value ≠ []

def hasNonCookieCredential (r : HttpRequest) : Bool :=
  ["Authorization", "X-WorkMesh-Token", "X-API-Key", "X-Panel-Local-Token"].any
    (r.trimmed · ≠ [])

/-- The header with the CSRF token is filled like the cookie. -/
def csrfTokensMatch (r : HttpRequest) : Bool :=
  match r.header.cookie (bytes "pcsrftoken") with
  | none => false
  | some value =>
      value ≠ [] ∧ r.trimmed "X-CSRF-Token" ≠ [] ∧ value = r.trimmed "X-CSRF-Token"

def isCrossSite (r : HttpRequest) : Bool :=
  toLower (r.trimmed "Sec-Fetch-Site") = bytes "cross-site"

def checkCSRF (r : HttpRequest) : Option Refusal :=
  if !unsafeHTTPMethod r.method || hasNonCookieCredential r || !hasSessionCookie r then none
  else if isCrossSite r then some ⟨403, "CSRF_INVALID", bytes "跨站请求被拒绝"⟩
  else if r.trimmed "Origin" ≠ [] ∧ sameOrigin (r.trimmed "Origin") r = false then
    some ⟨403, "CSRF_INVALID", bytes "请求来源与当前站点不匹配"⟩
  else if csrfTokensMatch r then none
  else some ⟨403, "CSRF_INVALID", bytes "CSRF token invalid"⟩

/-- When the password expires. The calendar of the host counts the days. -/
def SecuritySettings.expires (settings : SecuritySettings) (addDays : Time → Int → Time) :
    Option Time :=
  match settings.expirationTime with
  | some expires => some expires
  | none => settings.passwordChangedAt.map (addDays · settings.expirationDays)

/-- The password of the account has expired. -/
def SecuritySettings.expired (settings : SecuritySettings) (addDays : Time → Int → Time)
    (now : Time) : Bool :=
  0 < settings.expirationDays &&
    match settings.expires addDays with
    | none => false
    | some expires => now.after expires

def passwordExpired (r : HttpRequest) (settings : SecuritySettings) (addDays : Time → Int → Time)
    (now : Time) : Bool :=
  if settings.expirationDays ≤ 0 || isPasswordExpirationExempt r || hasNonCookieCredential r then
    false
  else
    match settings.expires addDays with
    | none => false
    | some expires => now.after expires

/-! ## Sessions -/

/-- The session that a cookie names. -/
def cookieSession (r : HttpRequest) : Option Bytes :=
  ((r.header.cookie (bytes "workmesh_session")).map trimSpace).filter (· ≠ [])

/-- The headers that can name a session. -/
def sessionHeaders : List String := ["Authorization", "X-WorkMesh-Token", "X-API-Key"]

def coreSessionID (r : HttpRequest) : Bytes :=
  match cookieSession r with
  | some session => session
  | none =>
      (sessionHeaders.findSome? fun name =>
        let value := r.trimmed name
        let value :=
          if hasPrefix (toLower value) "bearer " then trimSpace (value.drop 7) else value
        if value ≠ [] then some value else none).getD []

/-- `AuthorizeControlRequest`, where `current` says for which sessions there is a user. -/
def authorizeControlRequest (current : Bytes → Bool) (r : HttpRequest) : Bool :=
  if !current (coreSessionID r) then false
  else if sessionHeaders.any (r.trimmed · ≠ []) then true
  else if isCrossSite r then false
  else if r.trimmed "Origin" = [] then true
  else equalFold (r.trimmed "Origin") (bytes "http://" ++ r.host) ||
    equalFold (r.trimmed "Origin") (bytes "https://" ++ r.host)

/-- The web pages stand behind an entrance, which a cookie remembers. -/
def checkSecurityEntrance (r : HttpRequest) (settings : SecuritySettings)
    (authorize : HttpRequest → Bool) : Option Refusal :=
  let entrance := trimSlash (trimSpace settings.securityEntrance)
  if entrance = [] || r.path = bytes "/health" || r.path = bytes "/ready" || isAPIRequest r.path ||
      isStaticAssetPath r.path || !(r.method = bytes "GET" || r.method = bytes "HEAD") then none
  else if trimSlash (trimSpace r.path) = entrance then none
  else if (r.header.cookie (bytes "SecurityEntrance")).bind stdDecode = some entrance then none
  else if authorize r then none
  else some ⟨404, "SECURITY_ENTRANCE_REQUIRED", bytes "请通过安全入口访问服务"⟩

/-! ## What the checks leave -/

section Checks
variable {r : HttpRequest} {settings : SecuritySettings} {addDays : Time → Int → Time} {now : Time}

theorem hasSessionCookie_eq : hasSessionCookie r = (cookieSession r).isSome := by
  rw [hasSessionCookie, cookieSession]
  cases r.header.cookie (bytes "workmesh_session") with
  | none => rfl
  | some value => by_cases h : trimSpace value = [] <;> simp [h]

/-- Without another credential a password that has expired is noticed outside the exempt paths. -/
theorem not_expired_of_check (hcredential : hasNonCookieCredential r = false)
    (hcheck : passwordExpired r settings addDays now = false) :
    settings.expired addDays now = false ∨ isPasswordExpirationExempt r = true := by
  by_cases hexempt : isPasswordExpirationExempt r = true
  · exact .inr hexempt
  · refine .inl ?_
    rw [passwordExpired, hcredential] at hcheck
    by_cases hdays : settings.expirationDays ≤ 0
    · simp [SecuritySettings.expired, hdays]
    · rw [if_neg (by simp [hdays, hexempt])] at hcheck
      rw [SecuritySettings.expired, hcheck, Bool.and_false]

/-- Without another credential a session in a cookie needs the token for what is not safe. -/
theorem tokensMatch_of_check (hcredential : hasNonCookieCredential r = false)
    (hcookie : (cookieSession r).isSome = true) (hcheck : checkCSRF r = none)
    (hmethod : unsafeHTTPMethod r.method = true) : csrfTokensMatch r = true := by
  rw [checkCSRF, if_neg (by simp [hcredential, hasSessionCookie_eq, hcookie, hmethod])] at hcheck
  split_ifs at hcheck with hsite horigin htoken
  exact htoken

end Checks

end WorkMesh.Gate
