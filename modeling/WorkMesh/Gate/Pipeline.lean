import WorkMesh.Gate.Policy
import WorkMesh.Relay.Forwarding

/-!
# The way of a request through a server

The middleware of `NewSecurityMiddleware` stands before the routes of the
control plane and of the relay; behind the relay stands `authenticateNodeAPI`
before the routes of the node. This module follows a request to the handler
that serves it, with the reasons for which it was let through.

## Implementation notes

The middleware reads the decoded path. A `http.ServeMux` matches the path as it
was written, segment by segment, and redirects what is not clean. The routes of
the node are too many to be listed: they are a parameter, of which only the two
directories of assets are known.
-/

namespace WorkMesh.Gate

open Encoding
open WorkMesh.Relay (NodeRelay Arrival EpochSource authenticateForwarded)

/-! ## Routes -/

def pathUnescape (segment : Bytes) : Bytes := (unescape false segment).getD segment

/-- The segments of a path as it was written, each decoded. -/
def segments : Bytes → List Bytes
  | 47 :: rest => (rest.splitOn 47).map pathUnescape
  | _ => []

/-- `cleanPath` changes nothing. -/
def isCleanPath : Bytes → Bool
  | 47 :: rest =>
      let parts := rest.splitOn 47
      parts.dropLast.all (fun part => part ≠ []) &&
        parts.all fun part => part ≠ bytes "." && part ≠ bytes ".."
  | _ => false

/-- A route of the control plane, for any method if it names none. One with `write` asks for a
session itself. -/
structure ControlRoute where
  method : Option String
  path : String
  write : Bool
deriving DecidableEq

def roleRoutes : List ControlRoute :=
  [⟨"POST", "/api/v2/core/nodes/list", false⟩, ⟨"GET", "/api/v2/core/nodes/list", false⟩,
    ⟨"GET", "/api/v2/core/nodes/simple/all", false⟩, ⟨"POST", "/api/v2/core/nodes/add", true⟩,
    ⟨"POST", "/api/v2/core/nodes/update", true⟩, ⟨"POST", "/api/v2/core/nodes/del", true⟩,
    ⟨"POST", "/api/v2/core/nodes/delete", true⟩, ⟨"POST", "/api/v2/core/xpack/nodes/add", true⟩,
    ⟨"POST", "/api/v2/core/xpack/nodes/update", true⟩,
    ⟨"POST", "/api/v2/core/xpack/nodes/del", true⟩,
    ⟨"POST", "/api/v2/core/xpack/nodes/delete", true⟩,
    ⟨"POST", "/api/v2/core/xpack/nodes/search", false⟩,
    ⟨"GET", "/api/v2/core/xpack/nodes/list", false⟩,
    ⟨"POST", "/api/v2/core/xpack/nodes/favorite", true⟩,
    ⟨"GET", "/api/v2/core/nodes/role", false⟩, ⟨"POST", "/api/v2/core/nodes/role/check", false⟩,
    ⟨"POST", "/api/v2/core/nodes/role/prepare", true⟩,
    ⟨"POST", "/api/v2/core/nodes/role/commit", true⟩,
    ⟨"POST", "/api/v2/core/nodes/role/abort", true⟩]

def gatewayRoutes : List ControlRoute :=
  [⟨"GET", "/api/v2/gateway/status", false⟩, ⟨"GET", "/api/v2/workmesh/gateway/status", false⟩,
    ⟨"POST", "/api/v2/gateway/register", true⟩,
    ⟨"POST", "/api/v2/workmesh/gateway/register", true⟩,
    ⟨"POST", "/api/v2/workmesh/gateway/login", true⟩, ⟨"POST", "/api/v2/gateway/heartbeat", true⟩,
    ⟨"POST", "/api/v2/gateway/authorization/refresh", true⟩,
    ⟨"POST", "/api/v2/gateway/unbind", true⟩, ⟨"POST", "/api/v2/workmesh/gateway/unbind", true⟩]

def controlRoutes : List ControlRoute :=
  ⟨none, "/api/v2/core/health", false⟩ :: roleRoutes ++ gatewayRoutes

/-- The routes of the link server, which checks a signature itself. -/
def linkRoutes : List ControlRoute :=
  [⟨"POST", "/api/v2/link/handshake", false⟩, ⟨"POST", "/api/v2/workmesh/link/handshake", false⟩,
    ⟨"POST", "/api/v2/link/heartbeat", false⟩, ⟨"POST", "/api/v2/workmesh/link/heartbeat", false⟩,
    ⟨"GET", "/api/v2/link/status", false⟩, ⟨"GET", "/api/v2/workmesh/link/status", false⟩,
    ⟨"POST", "/api/v2/link/sync/pull", false⟩, ⟨"POST", "/api/v2/workmesh/link/sync/pull", false⟩,
    ⟨"POST", "/api/v2/link/sync/push", false⟩, ⟨"POST", "/api/v2/workmesh/link/sync/push", false⟩,
    ⟨"POST", "/api/v2/link/fencing/check", false⟩, ⟨"POST", "/api/v2/link/fence/check", false⟩,
    ⟨"POST", "/api/v2/link/fencing/prepare", false⟩, ⟨"POST", "/api/v2/link/fence/prepare", false⟩,
    ⟨"POST", "/api/v2/link/fencing/commit", false⟩, ⟨"POST", "/api/v2/link/fence/commit", false⟩,
    ⟨"POST", "/api/v2/link/fencing/abort", false⟩, ⟨"POST", "/api/v2/link/fence/abort", false⟩]

/-- A pattern for `GET` serves `HEAD` as well. -/
def methodMatches (wanted : Option String) (method : Bytes) : Bool :=
  match wanted with
  | none => true
  | some wanted => method = bytes wanted || (wanted = "GET" && method = bytes "HEAD")

def ControlRoute.matches (route : ControlRoute) (method written : Bytes) : Bool :=
  methodMatches route.method method && segments written = segments (bytes route.path)

/-- A subtree pattern: the path goes on behind the directory. -/
def underDirectory (directory : String) (written : Bytes) : Bool :=
  (segments (bytes directory)).isPrefixOf (segments written) &&
    (segments (bytes directory)).length < (segments written).length

/-- The pages and assets that are served under `/api/v2/` before the relay. -/
def isAssetRoute (method written : Bytes) : Bool :=
  methodMatches (some "GET") method &&
    (segments written = segments (bytes "/api/v2/health/check") ||
      underDirectory "/api/v2/images" written || underDirectory "/api/v2/static" written)

inductive Route where
  | redirect
  | control (route : ControlRoute)
  | link (route : ControlRoute)
  | asset
  | relay
  | page
deriving DecidableEq

/-- The outer `http.ServeMux`. -/
def mainMux (method written : Bytes) : Route :=
  if method ≠ bytes "CONNECT" ∧ isCleanPath written = false then .redirect
  else
    match controlRoutes.find? (·.matches method written) with
    | some route => .control route
    | none =>
        match linkRoutes.find? (·.matches method written) with
        | some route => .link route
        | none =>
            if isAssetRoute method written then .asset
            else if underDirectory "/api/v2" written then .relay
            else if segments written = segments (bytes "/api/v2") then .redirect
            else .page

/-- The pattern of the node under which a request is served. Under the directories of the assets
there is none besides those that come first. -/
structure NodeMux where
  pattern : (method host : Bytes) → UrlPath → Option Bytes
  noAsset : ∀ method host url, isStaticAPIPath url.path = true →
    isAssetRoute method url.escapedPath = false → pattern method host url = none

/-! ## The relay -/

/-- Why a request was let through by the middleware, or later by `authenticateNodeAPI`. -/
inductive Admission where
  | unguarded
  | stream
  | service
  | forwarded
  | session
deriving DecidableEq

inductive Outcome where
  | refused (refusal : Refusal)
  | redirected
  | page
  | unrouted
  | relayed (target : Bytes)
  | link (route : ControlRoute)
  | control (route : ControlRoute) (gate : Admission)
  | node (pattern : Bytes) (gate inner : Admission)
deriving DecidableEq

structure Server where
  relay : NodeRelay
  knownNode : Bytes → Bool
  nodeMux : NodeMux
  addDays : Time → Int → Time

/-- What is read while a request is served: the sessions that have a user, before and behind the
middleware, and what the relay reads. -/
structure Moment where
  current : Bytes → Bool
  currentLater : Bytes → Bool
  sinceReading : Time
  untilReading : Time
  lockReading : Time
  source : EpochSource

def HttpRequest.written (r : HttpRequest) : Bytes := r.url.escapedPath

def Values.get (values : Values) (key : Bytes) : Bytes :=
  ((values.lookup key).bind List.head?).getD []

def relayTarget (r : HttpRequest) : Bytes :=
  let value := trimSpace (Values.get (parseQuery r.rawQuery) (bytes "operateNode"))
  let header := r.trimmed "CurrentNode"
  match if value ≠ [] then unescape true value else none with
  | some decoded => trimSpace decoded
  | none => (unescape true header).getD header

def relayRefusal (status : Nat) (message : Bytes) : Refusal :=
  ⟨status, "NODE_RELAY_FAILED", message⟩

def loginRequired : Refusal := ⟨401, "LOCAL_AUTH_REQUIRED", bytes "需要有效的本地登录会话"⟩

def publicNodeAPIPath (r : HttpRequest) : Bool :=
  (r.method = bytes "GET" && publicGets.any (r.path = bytes ·)) ||
    (r.method = bytes "POST" && publicPosts.any (r.path = bytes ·))

def selfAuthenticatedStreamPath (path : Bytes) : Bool := streamPaths.any (path = bytes ·)

/-- What `authenticateNodeAPI` lets through. The request is verified if its signature was. -/
def nodeAdmission (m : Moment) (verified : Bool) (r : HttpRequest) : Option Admission :=
  if publicNodeAPIPath r then some .unguarded
  else if selfAuthenticatedStreamPath r.path then some .stream
  else if isAgentRuntimeRequest r then some .service
  else if verified then some .forwarded
  else if authorizeControlRequest m.currentLater r then some .session
  else none

def authenticateNodeAPI (s : Server) (m : Moment) (gate : Admission) (verified : Bool)
    (r : HttpRequest) : Outcome :=
  match s.nodeMux.pattern r.method r.host r.url with
  | none => .unrouted
  | some pattern =>
      match nodeAdmission m verified r with
      | none => .refused loginRequired
      | some inner => .node pattern gate inner

def maxRelayBody : Nat := 8 * 2 ^ 20

/-- What `authenticateForwarded` is called with. -/
def HttpRequest.arrival (r : HttpRequest) (m : Moment) (body : Bytes) : Arrival where
  request :=
    { method := r.method, escapedPath := r.written, query := parseQuery r.rawQuery
      header := r.header, body }
  sinceReading := m.sinceReading
  untilReading := m.untilReading
  lockReading := m.lockReading
  source := m.source

def serveForwarded (s : Server) (m : Moment) (gate : Admission) (r : HttpRequest) :
    NodeRelay × Outcome :=
  match r.body.filter fun body => body.length ≤ maxRelayBody with
  | none => (s.relay, .refused (relayRefusal 413 (bytes "节点透传请求体无效或超过 8 MiB 限制")))
  | some body =>
      match authenticateForwarded s.relay (r.arrival m body) with
      | (relay, .error err) => (relay, .refused (relayRefusal 401 (bytes err)))
      | (relay, .ok ()) => (relay, authenticateNodeAPI s m gate true r)

/-- `NodeRelay.ServeHTTP`. -/
def serveRelay (s : Server) (m : Moment) (gate : Admission) (r : HttpRequest) :
    NodeRelay × Outcome :=
  if r.header.get "X-WorkMesh-Forwarded" = bytes "1" then serveForwarded s m gate r
  else
    let target := relayTarget r
    if target = [] ∨ target = bytes "local" ∨ target = bytes "undefined" ∨
        target = s.relay.options.nodeID then
      (s.relay, authenticateNodeAPI s m gate false r)
    else if isAgentRuntimeRequest r then
      (s.relay, .refused (relayRefusal 400 (bytes "Agent runtime 请求只能发送到当前节点")))
    else if s.knownNode target = false then
      (s.relay, .refused (relayRefusal 404 (bytes "目标节点不存在: " ++ target)))
    else (s.relay, .relayed target)

/-! ## The middleware -/

/-- Behind the middleware. -/
def serveRoutes (s : Server) (m : Moment) (gate : Admission) (r : HttpRequest) :
    NodeRelay × Outcome :=
  match mainMux r.method r.written with
  | .redirect => (s.relay, .redirected)
  | .page => (s.relay, .page)
  | .asset => (s.relay, .page)
  | .link route => (s.relay, .link route)
  | .control route =>
      (s.relay,
        if route.write && !authorizeControlRequest m.currentLater r then .refused loginRequired
        else .control route gate)
  | .relay => serveRelay s m gate r

/-- What `NewSecurityMiddleware` lets through. -/
def gateAdmission (s : Server) (settings : SecuritySettings) (m : Moment) (now : Time)
    (r : HttpRequest) : Except Refusal Admission :=
  let authorize := authorizeControlRequest m.current
  match checkBoundDomain r settings with
  | some refusal => .error refusal
  | none =>
      if isForwardedRelayRequest r then .ok .forwarded
      else
        match checkSecurityEntrance r settings authorize with
        | some refusal => .error refusal
        | none =>
            if !isAPIRequest r.path || isPublicSecurityPath r || isStaticAPIPath r.path then
              .ok .unguarded
            else if isSelfAuthenticatedStream r.path then .ok .stream
            else if isAgentRuntimeRequest r then .ok .service
            else if !authorize r then .error loginRequired
            else if passwordExpired r settings s.addDays now then
              .error ⟨313, "PASSWORD_EXPIRED", bytes "登录密码已过期，请先重置密码"⟩
            else
              match checkCSRF r with
              | some refusal => .error refusal
              | none => .ok .session

def serve (s : Server) (settings : SecuritySettings) (m : Moment) (now : Time) (r : HttpRequest) :
    NodeRelay × Outcome :=
  match gateAdmission s settings m now r with
  | .error refusal => (s.relay, .refused refusal)
  | .ok gate => serveRoutes s m gate r

end WorkMesh.Gate
