import WorkMesh.Gateway.Store
import WorkMesh.StateMachine.Handlers

/-!
# The handlers of the binding

Every handler is cut where it takes the lock of the store and where it calls
the gateway. Between two sections any other handler may run.
-/

namespace WorkMesh.Gateway

open Encoding StateMachine

/-! ## Requests and answers -/

structure LoginRequest where
  username : Bytes
  password : Bytes
  gatewayURL : Bytes := []

structure RegisterRequest where
  gatewayURL : Bytes := []
  registrationToken : Bytes := []

inductive Request where
  /-- `Start`, which begins the loop of heartbeats. -/
  | start
  | login (request : LoginRequest)
  | register (request : RegisterRequest)
  | heartbeat
  /-- The ticker of the loop. -/
  | tick
  | refresh
  | unbind

structure LoginResponse where
  token : Bytes := []
  expiresAt : Bytes := []

structure RegisterResponse where
  bindingID : Bytes := []
  nodeID : Bytes := []
  id : Bytes := []
  accessToken : Bytes := []
  expiresAt : Bytes := []
  refreshable : Bool := false
  scopes : List Bytes := []
  itemBindingID : Bytes := []
  itemNodeID : Bytes := []
  itemID : Bytes := []

structure RefreshResponse where
  token : Bytes := []
  expiresAt : Bytes := []
  bindingID : Bytes := []
  scopes : List Bytes := []
  refreshable : Bool := false

/-- What the environment does in a section: the error of the call, or its response, and the
failures of the writes. -/
structure Answer where
  error : Option String := none
  login : LoginResponse := {}
  register : RegisterResponse := {}
  refresh : RefreshResponse := {}
  save : Option String := none
  marker : Option String := none
  resave : Option String := none

/-- An authorization with a binding. -/
abbrev BoundAuthorization := { auth : Authorization // auth.bindingID ≠ [] }

/-- The binding of a response, from the first field that has it. -/
def RegisterResponse.binding (r : RegisterResponse) : Bytes :=
  ([r.bindingID, r.itemBindingID, r.itemNodeID, r.itemID, r.nodeID, r.id].find? (· ≠ [])).getD []

/-! ## The client -/

namespace GatewayStateStore

variable (s : GatewayStateStore)

/-- The end of `HTTPClient.Login`. -/
def loggedIn (client : ℕ) (r : LoginResponse) : GatewayStateStore × Authorization :=
  (s.setToken client r.token true,
    { accessToken := r.token, refreshable := r.token ≠ [], expiresAt := r.expiresAt })

/-- The token of a response, if there is one, is that of the client from now on. -/
def takeToken (client : ℕ) (token : Bytes) : GatewayStateStore :=
  if token = [] then s else s.setToken client token true

/-- The end of `HTTPClient.Register`. -/
def registered (client : ℕ) (r : RegisterResponse) :
    GatewayStateStore × Except String BoundAuthorization :=
  if h : r.binding = [] then (s, .error "Gateway 注册响应缺少绑定标识")
  else
  let s := s.takeToken client r.accessToken
  (s, .ok ⟨{ bindingID := r.binding, accessToken := s.tokenOf client, scopes := r.scopes
             expiresAt := r.expiresAt, refreshable := r.refreshable || s.tokenOf client ≠ [] }, h⟩)

/-- The end of `HTTPClient.Refresh`. -/
def refreshed (client : ℕ) (r : RefreshResponse) : GatewayStateStore × Authorization :=
  let s := s.takeToken client r.token
  (s, { bindingID := r.bindingID, scopes := r.scopes, expiresAt := r.expiresAt
        refreshable := r.refreshable || s.tokenOf client ≠ [], accessToken := s.tokenOf client })

end GatewayStateStore

def mergeGatewayAuthorization (auth registered : Authorization) : Authorization where
  bindingID := registered.bindingID
  scopes := if registered.scopes ≠ [] then registered.scopes else auth.scopes
  expiresAt := if registered.expiresAt ≠ [] then registered.expiresAt else auth.expiresAt
  refreshable := auth.refreshable || registered.refreshable
  accessToken := if auth.accessToken = [] then registered.accessToken else auth.accessToken

/-! ## Sections that write -/

namespace GatewayStateStore

variable (s : GatewayStateStore)

/-- Write the state in memory, or take the change of the status back. -/
def withStatus (status : Status) (failure : Option String) : GatewayStateStore × Option String :=
  match { s with status }.persistLocked failure with
  | (_, some e) => (s, some e)
  | (next, none) => (next, none)

def markGatewayOffline (reason : String) (failure : Option String) : GatewayStateStore :=
  (s.withStatus { s.status with connected := false, registration := .registered, reason }
    failure).1

def markGatewayPending (reason : String) (failure : Option String) : GatewayStateStore :=
  (s.withStatus { s.status with registration := .pending, connected := false, reason } failure).1

/-- The last section of `heartbeatHandler`. -/
def heartbeatHandler (failure : Option String) : GatewayStateStore :=
  (s.withStatus { s.status with connected := true } failure).1

/-- The last section of `gatewayHeartbeat`. -/
def gatewayHeartbeat (error failure : Option String) : GatewayStateStore :=
  match error with
  | some e => (s.withStatus { s.status with connected := false, reason := e } failure).1
  | none =>
      (s.withStatus { s.status with
        registration := if s.auth.bindingID ≠ [] then .registered else s.status.registration
        connected := true } failure).1

/-- The section of `connectGateway` after a heartbeat that came through. -/
def recovered (failure : Option String) : GatewayStateStore :=
  (s.withStatus { s.status with connected := true, reason := "" } failure).1

/-- The last section of `refreshHandler`. -/
def storeRefreshed (auth : Authorization) (issued : Bool) (failure : Option String) :
    GatewayStateStore :=
  let next := { s with auth, status := { s.status with authorizationExpireAt := auth.expiresAt } }
  let next :=
    match next.client with
    | some client => next.setToken client auth.accessToken issued
    | none => next
  match next.persistLocked failure with
  | (_, some _) => s
  | (next, none) => next

/-- The last section of `unbindHandler`. -/
def unbindHandler (failure : Option String) : GatewayStateStore :=
  let next := { s with
    status := { s.status with
      registration := .unregistered, connected := false, reason := "用户解除绑定" }
    auth := {}
    account := [] }
  match next.removePersisted failure with
  | (_, some _) => s
  | (next, none) => { next with unbinds := next.unbinds + 1 }

/-- The last section of `loginIfConfigured`. -/
def storeLogin (auth : Authorization) (failure : Option String) :
    GatewayStateStore × Option String :=
  match { s with auth }.persistLocked failure with
  | (_, some e) => (s, some e)
  | (next, none) => (next, none)

/-- The last section of `connectGateway`. -/
def connectGateway (result : Except String BoundAuthorization) (failure : Option String) :
    GatewayStateStore :=
  match result with
  | .error e =>
      (s.withStatus { s.status with registration := .pending, connected := false, reason := e }
        failure).1
  | .ok auth =>
      let next := { s with
        status := { s.status with registration := .registered, connected := true, reason := "" }
        auth := auth.1
        boundMachineCode := s.machineCode
        identityStatus := .ready }
      match next.persistLocked failure with
      | (_, some _) => s
      | (next, none) => { next with lockedOut := false }

/-- The state is written, then the marker. A marker that cannot be written has the earlier
state written again. -/
def saveBound (next : GatewayStateStore) (a : Answer) : GatewayStateStore × Bool :=
  match next.persistLocked a.save with
  | (_, some _) => (s, false)
  | (saved, none) =>
  match saved.persistIdentityMachineMarker a.marker with
  | (saved, some _) => (({ s with row := saved.row }.persistLocked a.resave).1, false)
  | (saved, none) => ({ saved with lockedOut := false }, true)

def saveLoginState (auth : Authorization) (account : Bytes) (a : Answer) :
    GatewayStateStore × Bool :=
  if auth.bindingID = [] then (s, false)
  else
  s.saveBound
    { s with
      status := { s.status with
        registration := .registered, connected := true
        authorizationExpireAt := auth.expiresAt, reason := "" }
      auth
      account
      boundMachineCode := s.machineCode
      identityStatus := .ready
      gatewayURL := if s.gatewayURL = [] then trimURL s.settings.gatewayURL else s.gatewayURL } a

def saveRegistration (client : ℕ) (requestedURL : Bytes) (auth : BoundAuthorization) (a : Answer) :
    GatewayStateStore × Bool :=
  let url := trimURL requestedURL
  s.saveBound
    { s with
      client := some client
      gatewayURL := if url = [] then trimURL s.settings.gatewayURL else url
      status := { s.status with
        registration := .registered, connected := true
        authorizationExpireAt := auth.1.expiresAt, reason := "" }
      auth := auth.1
      boundMachineCode := s.machineCode
      identityStatus := .ready } a

end GatewayStateStore

/-! ## Stages -/

/-- Who sends a heartbeat: a request, the ticker, or the loop when it begins. -/
inductive Beat where
  | handler
  | tick
  | recovery

/-- What follows `loginIfConfigured`. -/
inductive After where
  | connect
  | register (client : ℕ) (url : Bytes)

/-- A handler before its next section. -/
inductive Stage where
  | login (request : LoginRequest)
  | loginClient (request : LoginRequest)
  /-- `client.Login` is under way. -/
  | loginSent (client : ℕ) (username : Bytes)
  | loginAnswered (client : ℕ) (username : Bytes) (auth : Authorization)
  /-- The binding that is there is tried with a heartbeat. -/
  | loginHeartbeat (client : ℕ) (username : Bytes) (auth : Authorization) (bindingID : Bytes)
  /-- `client.Register` is under way. -/
  | loginRegister (client : ℕ) (username : Bytes) (auth : Authorization)
  /-- The new binding is tried with a heartbeat. -/
  | verifying (client : ℕ) (username : Bytes) (auth : Authorization)
  | saving (username : Bytes) (auth : Authorization)
  /-- The loop is about to be started, if it can be. -/
  | launching
  /-- `client.Refresh` is under way. -/
  | refreshing (client : ℕ)
  | refreshed (auth : Authorization) (issued : Bool)
  /-- `client.Revoke` is under way. -/
  | revoking
  | unbinding
  | beat (by_ : Beat)
  | beatReading (by_ : Beat)
  /-- The heartbeat is under way. -/
  | beatSent (by_ : Beat)
  | beatDone (by_ : Beat) (error : Option String)
  | connecting
  | autoLogin (after : After)
  /-- `client.Login` is under way. -/
  | autoLoginSent (client : ℕ) (after : After)
  | autoLoginSaving (auth : Authorization) (after : After)
  | postponed (reason : String)
  /-- `client.Register` is under way. -/
  | registering (client : ℕ)
  | registered (result : Except String BoundAuthorization)
  | register (request : RegisterRequest)
  | registerExisting (request : RegisterRequest)
  | registerClient (request : RegisterRequest)
  /-- `client.Register` is under way. -/
  | registerSent (client : ℕ) (url : Bytes)
  | registerSaving (client : ℕ) (url : Bytes) (auth : BoundAuthorization)

/-- What follows `loginIfConfigured` when it is done, or when it fails. -/
def After.done (s : GatewayStateStore) : After → Option Stage
  | .connect => s.client.map .registering
  | .register client url => some (.registerSent client url)

def After.failed (e : String) : After → Option Stage
  | .connect => some (.postponed e)
  | .register _ _ => none

namespace Stage

/-- The next section of a handler. -/
def resume (s : GatewayStateStore) (stage : Stage) (a : Answer) :
    GatewayStateStore × Option Stage :=
  match stage with
  | .login request =>
      if trimSpace request.gatewayURL = [] then (s, some (.loginClient request))
      else
      match a.error with
      | some _ => (s, none)
      | none =>
          let url := trimURL request.gatewayURL
          ({ s.withClient { baseURL := url } with gatewayURL := url },
            some (.loginClient request))
  | .loginClient request =>
      match s.client with
      | none => (s, none)
      | some client =>
          if trimSpace request.username = [] ∨ request.password = [] then (s, none)
          else (s, some (.loginSent client (trimSpace request.username)))
  | .loginSent client username =>
      match a.error with
      | some _ => (s, none)
      | none =>
          let (s, auth) := s.loggedIn client a.login
          (s, some (.loginAnswered client username auth))
  | .loginAnswered client username auth =>
      if trimSpace s.status.nodeID = [] then (s, none)
      else if s.auth.bindingID ≠ [] ∧ s.identityStatus ≠ .machineChanged then
        (s, some (.loginHeartbeat client username auth s.auth.bindingID))
      else (s, some (.loginRegister client username auth))
  | .loginHeartbeat client username auth bindingID =>
      match a.error with
      | some _ => (s, some (.loginRegister client username auth))
      | none => (s, some (.saving username { auth with bindingID }))
  | .loginRegister client username auth =>
      match a.error with
      | some _ => (s, none)
      | none =>
          match s.registered client a.register with
          | (s, .error _) => (s, none)
          | (s, .ok added) =>
              (s, some (.verifying client username (mergeGatewayAuthorization auth added.1)))
  | .verifying _ username auth =>
      match a.error with
      | some _ => (s, none)
      | none => (s, some (.saving username auth))
  | .saving username auth =>
      match s.saveLoginState auth username a with
      | (s, true) => (s, some .launching)
      | (s, false) => (s, none)
  | .launching =>
      if s.started ∨ !s.runnable ∨ s.client = none ∨ s.machineIdentityError ≠ none then (s, none)
      else ({ s with started := true }, some .connecting)
  | .refreshing client =>
      match a.error with
      | some _ => (s, none)
      | none =>
          let (s, auth) := s.refreshed client a.refresh
          (s, some (.refreshed auth (a.refresh.token ≠ [])))
  | .refreshed auth issued => (s.storeRefreshed auth issued a.save, none)
  | .revoking => (s, if a.error = none then some .unbinding else none)
  | .unbinding => (s.unbindHandler a.save, none)
  | .beat by_ =>
      match s.machineIdentityError with
      | some e => (s, some (.beatDone by_ (some e)))
      | none => (s, some (.beatReading by_))
  | .beatReading by_ =>
      if s.client = none then (s, some (.beatDone by_ (some "Gateway 未配置")))
      else (s, some (.beatSent by_))
  | .beatSent by_ => (s, some (.beatDone by_ a.error))
  | .beatDone .handler error =>
      match error with
      | some _ => (s, none)
      | none => (s.heartbeatHandler a.save, none)
  | .beatDone .tick error => (s.gatewayHeartbeat error a.save, none)
  | .beatDone .recovery error =>
      match error with
      | some _ => (s.markGatewayOffline "Gateway 绑定已保存，但心跳恢复失败" a.save, none)
      | none => (s.recovered a.save, none)
  | .connecting =>
      if s.status.registration = .registered ∧ s.auth.bindingID ≠ [] then
        (s, some (.beat .recovery))
      else (s, some (.autoLogin .connect))
  | .autoLogin after =>
      if s.auth.accessToken ≠ [] then (s, after.done s)
      else if s.settings.username = [] ∧ s.settings.password = [] then (s, after.done s)
      else if s.settings.username = [] ∨ s.settings.password = [] then
        (s, after.failed "Gateway 登录凭据配置不完整")
      else (s, s.client.map fun client => .autoLoginSent client after)
  | .autoLoginSent client after =>
      match a.error with
      | some e => (s, after.failed e)
      | none =>
          let (s, auth) := s.loggedIn client a.login
          (s, some (.autoLoginSaving auth after))
  | .autoLoginSaving auth after =>
      match s.storeLogin auth a.save with
      | (s, some e) => (s, after.failed e)
      | (s, none) => (s, after.done s)
  | .postponed reason => (s.markGatewayPending reason a.save, none)
  | .registering client =>
      match a.error with
      | some e => (s, some (.registered (.error e)))
      | none =>
          let (s, result) := s.registered client a.register
          (s, some (.registered result))
  | .registered result => (s.connectGateway result a.save, none)
  | .register request =>
      if s.status.nodeID = [] then (s, none) else (s, some (.registerExisting request))
  | .registerExisting request =>
      if s.status.registration = .registered ∧ s.auth.bindingID ≠ [] then (s, none)
      else (s, some (.registerClient request))
  | .registerClient request =>
      if trimSpace request.gatewayURL ≠ [] then
        if a.error ≠ none ∨ trimSpace request.registrationToken = [] then (s, none)
        else
          ({ s with clients := s.clients ++
              [⟨trimURL request.gatewayURL, trimSpace request.registrationToken, true⟩] },
            some (.registerSent s.clients.length request.gatewayURL))
      else
      match s.client with
      | none => (s, none)
      | some client =>
          if trimSpace request.registrationToken = [] then
            (s, some (.autoLogin (.register client request.gatewayURL)))
          else (s, some (.registerSent client request.gatewayURL))
  | .registerSent client url =>
      match a.error with
      | some _ => (s, none)
      | none =>
          match s.registered client a.register with
          | (s, .error _) => (s, none)
          | (s, .ok auth) => (s, some (.registerSaving client url auth))
  | .registerSaving client url auth =>
      match s.saveRegistration client url auth a with
      | (s, true) => (s, some .launching)
      | (s, false) => (s, none)

end Stage

/-- The first section of a request. -/
def Request.arrive (s : GatewayStateStore) : Request → GatewayStateStore × Option Stage
  | .start => ({ s with runnable := true }, some .launching)
  | .login request =>
      if s.machineIdentityAvailableError = none then (s, some (.login request)) else (s, none)
  | .register request =>
      if s.machineIdentityAvailableError = none then (s, some (.register request)) else (s, none)
  | .heartbeat =>
      if s.machineIdentityError ≠ none then (s, none)
      else if s.client = none then (s, some (.beatDone .handler none))
      else (s, some (.beat .handler))
  | .tick => (s, if s.started then some (.beat .tick) else none)
  | .refresh =>
      if s.status.registration = .registered then (s, s.client.map .refreshing) else (s, none)
  | .unbind => (s, some (if s.client = none then .unbinding else .revoking))

/-- A handler with the number of unbinds that were acknowledged when it began. -/
structure Handler where
  stage : Stage
  seen : ℕ

def sections : Sections GatewayStateStore Handler Request Answer where
  arrive s request :=
    let (next, stage) := request.arrive s
    (next, stage.map fun stage => ⟨stage, s.unbinds⟩)
  resume s handler a :=
    let (next, stage) := handler.stage.resume s a
    (next, stage.map fun stage => ⟨stage, handler.seen⟩)

/-- A section runs, or the process is started again. -/
inductive Event where
  | turn (turn : Turn Request Answer)
  | restart (opening : Opening)

abbrev System := Concurrent GatewayStateStore Handler

def System.step (c : System) : Event → System
  | .turn turn => sections.step c turn
  | .restart o => ⟨c.shared.registerGatewayRoutes o, []⟩

/-- The first process of a node. -/
def System.start (o : Opening) : System :=
  ⟨({} : GatewayStateStore).registerGatewayRoutes o, []⟩

/-! ## A login -/

def firstOpening : Opening where
  settings := { gatewayURL := bytes "https://gateway.example" }
  machine := .ok (bytes "sha256:5d41402abc4b2a76b9719d911017c592", 1)

/-- The next section of the handler that came last. -/
def continues (a : Answer) : Event := .turn (.resume 0 a)

def signsIn : List Event :=
  [.turn (.arrive (.login ⟨bytes "admin", bytes "secret", []⟩)), continues {}, continues {},
    continues { login := { token := bytes "first" } }, continues {},
    continues { register := { bindingID := bytes "binding" } }, continues {}, continues {},
    continues {}]

/-! ## What the sections leave -/

/-- The sections that write the state of the store. -/
def Stage.stores : Stage → Bool
  | .saving _ _ | .refreshed _ _ | .unbinding | .beatDone _ _ | .autoLoginSaving _ _
  | .postponed _ | .registered _ | .registerSaving _ _ _ => true
  | _ => false

/-- All that a section without a write leaves. -/
structure Framed (s t : GatewayStateStore) : Prop where
  status : t.status = s.status
  auth : t.auth = s.auth
  row : t.row = s.row
  unbinds : t.unbinds = s.unbinds
  machineCode : t.machineCode = s.machineCode
  fingerprintVersion : t.fingerprintVersion = s.fingerprintVersion
  identityStatus : t.identityStatus = s.identityStatus
  lockedOut : t.lockedOut = s.lockedOut

variable {s t : GatewayStateStore} {stage : Stage} {a : Answer}

theorem Framed.refl (s : GatewayStateStore) : Framed s s :=
  ⟨rfl, rfl, rfl, rfl, rfl, rfl, rfl, rfl⟩

/-- What a section leaves that has called the gateway, and writes nothing: a client with another
token, a client more, or a loop that is started. -/
inductive Called (s : GatewayStateStore) : GatewayStateStore → Prop
  | same : Called s s
  | token (client : ℕ) (token : Bytes) : Called s (s.setToken client token true)
  | opened (url : Bytes) :
      Called s { s.withClient { baseURL := url } with gatewayURL := url }
  | added (client : HTTPClient) : Called s { s with clients := s.clients ++ [client] }
  | started : Called s { s with started := true }

theorem Called.framed (h : Called s t) : Framed s t := by
  cases h with
  | same => exact .refl s
  | _ => exact ⟨rfl, rfl, rfl, rfl, rfl, rfl, rfl, rfl⟩

theorem called_takeToken (s : GatewayStateStore) (client : ℕ) (token : Bytes) :
    Called s (s.takeToken client token) := by
  rw [GatewayStateStore.takeToken]
  split
  · exact .same
  · exact .token client token

theorem called_registered (s : GatewayStateStore) (client : ℕ) (r : RegisterResponse) :
    Called s (s.registered client r).1 := by
  rw [GatewayStateStore.registered]
  split
  · exact .same
  · exact called_takeToken s client r.accessToken

/-- The sections that only look at the store. -/
def Stage.looks : Stage → Bool
  | .loginClient _ | .loginAnswered _ _ _ | .loginHeartbeat _ _ _ _ | .verifying _ _ _
  | .revoking | .beat _ | .beatReading _ | .beatSent _ | .connecting | .autoLogin _
  | .register _ | .registerExisting _ => true
  | _ => false

theorem resume_of_looks (hstage : stage.looks = true) : (stage.resume s a).1 = s := by
  cases stage with
  | revoking | beatSent _ => rfl
  | loginHeartbeat _ _ _ _ | verifying _ _ _ | beat _ | beatReading _ | connecting | register _
  | registerExisting _ =>
      simp only [Stage.resume]
      split
      · rfl
      · rfl
  | loginClient _ | loginAnswered _ _ _ =>
      simp only [Stage.resume]
      split
      · rfl
      · split
        · rfl
        · rfl
  | autoLogin after =>
      simp only [Stage.resume]
      split
      · rfl
      · split
        · rfl
        · split
          · rfl
          · rfl
  | _ => cases hstage

theorem called_resume (hstage : stage.stores = false) : Called s (stage.resume s a).1 := by
  by_cases hlooks : stage.looks = true
  · rw [resume_of_looks hlooks]
    exact .same
  · cases stage with
    | login request =>
        simp only [Stage.resume]
        split
        · exact .same
        · split
          · exact .same
          · exact .opened (trimURL request.gatewayURL)
    | loginSent client _ | autoLoginSent client _ =>
        simp only [Stage.resume]
        split
        · exact .same
        · exact .token client a.login.token
    | loginRegister client _ _ | registerSent client _ =>
        have hcalled := called_registered s client a.register
        simp only [Stage.resume]
        split
        · exact .same
        · split
          · rename_i heq
            rwa [heq] at hcalled
          · rename_i heq
            rwa [heq] at hcalled
    | launching =>
        simp only [Stage.resume]
        split
        · exact .same
        · exact .started
    | refreshing client =>
        simp only [Stage.resume]
        split
        · exact .same
        · exact called_takeToken s client a.refresh.token
    | registering client =>
        simp only [Stage.resume]
        split
        · exact .same
        · exact called_registered s client a.register
    | registerClient request =>
        simp only [Stage.resume]
        split
        · split
          · exact .same
          · exact .added _
        · split
          · exact .same
          · split
            · exact .same
            · exact .same
    | saving _ _ | refreshed _ _ | unbinding | beatDone _ _ | autoLoginSaving _ _ | postponed _
    | registered _ | registerSaving _ _ _ => cases hstage
    | _ => exact absurd rfl hlooks

theorem framed_resume (hstage : stage.stores = false) : Framed s (stage.resume s a).1 :=
  (called_resume hstage).framed

/-- What a section leaves that saves a binding, or the answer to a login. -/
@[simp] theorem resume_saving (s : GatewayStateStore) (username : Bytes) (auth : Authorization)
    (a : Answer) :
    ((Stage.saving username auth).resume s a).1 = (s.saveLoginState auth username a).1 := by
  simp only [Stage.resume]
  split
  · rename_i heq
    rw [heq]
  · rename_i heq
    rw [heq]

@[simp] theorem resume_registerSaving (s : GatewayStateStore) (client : ℕ) (url : Bytes)
    (auth : BoundAuthorization) (a : Answer) :
    ((Stage.registerSaving client url auth).resume s a).1 =
      (s.saveRegistration client url auth a).1 := by
  simp only [Stage.resume]
  split
  · rename_i heq
    rw [heq]
  · rename_i heq
    rw [heq]

@[simp] theorem resume_autoLoginSaving (s : GatewayStateStore) (auth : Authorization)
    (after : After) (a : Answer) :
    ((Stage.autoLoginSaving auth after).resume s a).1 = (s.storeLogin auth a.save).1 := by
  simp only [Stage.resume]
  split
  · rename_i heq
    rw [heq]
  · rename_i heq
    rw [heq]

theorem framed_arrive (s : GatewayStateStore) (request : Request) :
    Framed s (request.arrive s).1 := by
  cases request with
  | start => exact ⟨rfl, rfl, rfl, rfl, rfl, rfl, rfl, rfl⟩
  | login request =>
      simp only [Request.arrive]
      split
      · exact .refl s
      · exact .refl s
  | register request =>
      simp only [Request.arrive]
      split
      · exact .refl s
      · exact .refl s
  | heartbeat =>
      simp only [Request.arrive]
      split
      · exact .refl s
      · split
        · exact .refl s
        · exact .refl s
  | tick => exact .refl s
  | refresh =>
      simp only [Request.arrive]
      split
      · exact .refl s
      · exact .refl s
  | unbind => exact .refl s

namespace GatewayStateStore

variable (s : GatewayStateStore)

/-- A change of the status is written with the state in memory, or taken back. -/
theorem withStatus_cases (status : Status) (failure : Option String) :
    (s.withStatus status failure).1 = s ∧ failure ≠ none ∨
      (s.withStatus status failure).1 =
        { s with status, row := some { s with status }.snapshot } ∧ failure = none := by
  cases failure with
  | none => exact .inr ⟨rfl, rfl⟩
  | some e => exact .inl ⟨rfl, by simp⟩

/-- What saving a binding comes to: the state before, perhaps written once more, or the next
one. -/
theorem saveBound_cases (next : GatewayStateStore) (a : Answer) :
    (∃ row, (s.saveBound next a).1 = { s with row }) ∧ (s.saveBound next a).2 = false ∨
      (∃ row marker, (s.saveBound next a).1 = { next with row, marker, lockedOut := false }) ∧
        (s.saveBound next a).2 = true := by
  rw [saveBound]
  cases a.save with
  | some e => exact .inl ⟨⟨s.row, rfl⟩, rfl⟩
  | none =>
      simp only [persistLocked, persistIdentityMachineMarker]
      split
      · rename_i heq
        split at heq
        · cases heq
        · cases hmarker : a.marker with
          | none =>
              rw [hmarker] at heq
              cases heq
          | some e =>
              rw [hmarker] at heq
              left
              cases a.resave with
              | some e => exact ⟨⟨_, rfl⟩, rfl⟩
              | none => exact ⟨⟨_, rfl⟩, rfl⟩
      · rename_i saved heq
        right
        split at heq
        · rw [← (Prod.mk.inj heq).1]
          exact ⟨⟨_, _, rfl⟩, rfl⟩
        · cases hmarker : a.marker with
          | none =>
              rw [hmarker] at heq
              rw [← (Prod.mk.inj heq).1]
              exact ⟨⟨_, _, rfl⟩, rfl⟩
          | some e =>
              rw [hmarker] at heq
              cases heq

end GatewayStateStore

/-- No write but that of an unbind counts as one, and none locks a node out. -/
structure Kept (s t : GatewayStateStore) : Prop where
  unbinds : t.unbinds = s.unbinds
  lockedOut : t.lockedOut = true → s.lockedOut = true

theorem Kept.refl (s : GatewayStateStore) : Kept s s := ⟨rfl, id⟩

theorem Framed.kept (h : Framed s t) : Kept s t := ⟨h.unbinds, fun ht => h.lockedOut ▸ ht⟩

theorem kept_withStatus (s : GatewayStateStore) (status : Status) (failure : Option String) :
    Kept s (s.withStatus status failure).1 := by
  rcases s.withStatus_cases status failure with ⟨heq, -⟩ | ⟨heq, -⟩
  · rw [heq]
    exact .refl s
  · rw [heq]
    exact ⟨rfl, id⟩

theorem kept_saveBound {next : GatewayStateStore} (hnext : next.unbinds = s.unbinds) :
    Kept s (s.saveBound next a).1 := by
  rcases s.saveBound_cases next a with ⟨⟨row, heq⟩, -⟩ | ⟨⟨row, marker, heq⟩, -⟩
  · rw [heq]
    exact ⟨rfl, id⟩
  · rw [heq]
    exact ⟨hnext, fun h => by cases h⟩

theorem kept_saveLoginState (s : GatewayStateStore) (auth : Authorization) (account : Bytes)
    (a : Answer) : Kept s (s.saveLoginState auth account a).1 := by
  rw [GatewayStateStore.saveLoginState]
  split
  · exact .refl s
  · exact kept_saveBound rfl

theorem kept_storeLogin (s : GatewayStateStore) (auth : Authorization)
    (failure : Option String) : Kept s (s.storeLogin auth failure).1 := by
  rw [GatewayStateStore.storeLogin]
  cases failure with
  | some e => exact .refl s
  | none => exact ⟨rfl, id⟩

theorem kept_storeRefreshed (s : GatewayStateStore) (auth : Authorization) (issued : Bool)
    (failure : Option String) : Kept s (s.storeRefreshed auth issued failure) := by
  simp only [GatewayStateStore.storeRefreshed]
  cases failure with
  | some e => exact .refl s
  | none =>
      simp only [GatewayStateStore.persistLocked]
      split
      · exact ⟨rfl, id⟩
      · exact ⟨rfl, id⟩

theorem kept_connectGateway (s : GatewayStateStore) (result : Except String BoundAuthorization)
    (failure : Option String) : Kept s (s.connectGateway result failure) := by
  cases result with
  | error e => exact kept_withStatus s _ failure
  | ok auth =>
      simp only [GatewayStateStore.connectGateway]
      cases failure with
      | some e => exact .refl s
      | none => exact ⟨rfl, fun h => by cases h⟩

/-- The end of a heartbeat writes the status alone. -/
theorem resume_beatDone (s : GatewayStateStore) (by_ : Beat) (error : Option String)
    (a : Answer) : ((Stage.beatDone by_ error).resume s a).1 = s ∨
      ∃ status, ((Stage.beatDone by_ error).resume s a).1 = (s.withStatus status a.save).1 := by
  cases by_ with
  | handler =>
      simp only [Stage.resume]
      split
      · exact .inl rfl
      · exact .inr ⟨_, rfl⟩
  | tick =>
      cases error with
      | some e => exact .inr ⟨_, rfl⟩
      | none => exact .inr ⟨_, rfl⟩
  | recovery =>
      cases error with
      | some e => exact .inr ⟨_, rfl⟩
      | none => exact .inr ⟨_, rfl⟩

theorem kept_resume (hstage : stage ≠ .unbinding) : Kept s (stage.resume s a).1 := by
  by_cases hstores : stage.stores = false
  · exact (framed_resume hstores).kept
  · cases stage with
    | saving username auth =>
        rw [resume_saving]
        exact kept_saveLoginState s auth username a
    | refreshed auth issued => exact kept_storeRefreshed s auth issued a.save
    | unbinding => exact absurd rfl hstage
    | beatDone by_ error =>
        rcases resume_beatDone s by_ error a with heq | ⟨status, heq⟩
        · rw [heq]
          exact .refl s
        · rw [heq]
          exact kept_withStatus s status a.save
    | autoLoginSaving auth after =>
        rw [resume_autoLoginSaving]
        exact kept_storeLogin s auth a.save
    | postponed reason => exact kept_withStatus s _ a.save
    | registered result => exact kept_connectGateway s result a.save
    | registerSaving client url auth =>
        rw [resume_registerSaving]
        exact kept_saveBound rfl
    | _ => exact absurd rfl hstores

end WorkMesh.Gateway
