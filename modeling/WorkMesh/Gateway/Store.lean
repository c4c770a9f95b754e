import WorkMesh.Encoding.Cookie

/-!
# The binding of a node to the gateway

A node is bound to the gateway by an authorization, which it keeps in memory
and in a row of its database. The row also says on which machine the binding
was made, and a marker file says to which machine the signing identity of the
node belongs. A process that starts compares both with the machine it runs on.
-/

namespace WorkMesh.Gateway

open Encoding

inductive RegistrationState where
  | unregistered
  | pending
  | registered
  | revoked
deriving DecidableEq

structure Status where
  registration : RegistrationState := .unregistered
  nodeID : Bytes := []
  connected : Bool := false
  authorizationExpireAt : Bytes := []
  reason : String := ""
deriving DecidableEq

structure Authorization where
  bindingID : Bytes := []
  scopes : List Bytes := []
  expiresAt : Bytes := []
  refreshable : Bool := false
  accessToken : Bytes := []
deriving DecidableEq

inductive IdentityStatus where
  | unavailable
  | ready
  | machineChanged
  | identityError
deriving DecidableEq

/-- The row of `gateway_binding`. -/
structure BindingRow where
  status : Status
  auth : Authorization
  gatewayURL : Bytes
  account : Bytes
  machineCode : Bytes
  boundMachineCode : Bytes
  fingerprintVersion : ℤ
  identityStatus : IdentityStatus
  previousBindingID : Bytes
deriving DecidableEq

/-- A client with its token. `issued` notes whether the token has come from the gateway, or from
a user, since the process started. -/
structure HTTPClient where
  baseURL : Bytes
  accessToken : Bytes := []
  issued : Bool := false
deriving DecidableEq

/-- The settings of a process. -/
structure Settings where
  gatewayURL : Bytes := []
  username : Bytes := []
  password : Bytes := []
deriving DecidableEq

/-- `GatewayStateStore`, with the row and the marker. A client is known by its place in the
list of all that were made, as handlers keep pointers to them. -/
structure GatewayStateStore where
  settings : Settings := {}
  /-- `Start` has been called. -/
  runnable : Bool := false
  /-- The loop of heartbeats runs. -/
  started : Bool := false
  status : Status := {}
  auth : Authorization := {}
  clients : List HTTPClient := []
  client : Option ℕ := none
  account : Bytes := []
  gatewayURL : Bytes := []
  machineCode : Bytes := []
  boundMachineCode : Bytes := []
  fingerprintVersion : ℤ := 0
  identityStatus : IdentityStatus := .unavailable
  previousBindingID : Bytes := []
  row : Option BindingRow := none
  marker : Option Bytes := none
  /-- How many unbinds have been acknowledged. -/
  unbinds : ℕ := 0
  /-- The identity has been marked as that of another machine, and no login or registration
  has succeeded since. -/
  lockedOut : Bool := false

/-- `strings.TrimRight(strings.TrimSpace(value), "/")`. -/
def trimURL (value : Bytes) : Bytes := (trimSpace value).rdropWhile (· = 47)

def gatewayDeviceID (machineCode : Bytes) : Bytes :=
  let code := trimSpace machineCode
  let value := if (bytes "sha256:").isPrefixOf code then code.drop 7 else code
  let value := value.take 24
  if value = [] then [] else bytes "device-" ++ value

namespace GatewayStateStore

variable (s : GatewayStateStore)

/-- The row as the state in memory is written to it. -/
def snapshot : BindingRow where
  status := s.status
  auth := s.auth
  gatewayURL :=
    if trimSpace s.settings.gatewayURL = [] then s.gatewayURL else trimURL s.settings.gatewayURL
  account := s.account
  machineCode := s.machineCode
  boundMachineCode := s.boundMachineCode
  fingerprintVersion := s.fingerprintVersion
  identityStatus := s.identityStatus
  previousBindingID := s.previousBindingID

/-- The state is written, or the write fails. -/
def persistLocked (failure : Option String) : GatewayStateStore × Option String :=
  match failure with
  | some e => (s, some e)
  | none => ({ s with row := some s.snapshot }, none)

def removePersisted (failure : Option String) : GatewayStateStore × Option String :=
  match failure with
  | some e => (s, some e)
  | none => ({ s with row := none }, none)

def persistIdentityMachineMarker (failure : Option String) :
    GatewayStateStore × Option String :=
  if s.machineCode = [] then (s, none)
  else
  match failure with
  | some e => (s, some e)
  | none => ({ s with marker := some s.machineCode }, none)

def machineIdentityAvailableError : Option String :=
  if s.machineCode = [] ∨ s.fingerprintVersion ≤ 0 then some "本机没有可用的稳定机器身份"
  else if s.identityStatus = .identityError then some "Gateway 节点签名身份不可用"
  else none

def machineIdentityError : Option String :=
  match s.machineIdentityAvailableError with
  | some e => some e
  | none =>
      if s.identityStatus = .machineChanged then some "机器身份已变化，必须重新登录 Gateway"
      else none

/-! ## Clients -/

/-- A new client, which becomes that of the store. -/
def withClient (client : HTTPClient) : GatewayStateStore :=
  { s with clients := s.clients ++ [client], client := some s.clients.length }

/-- The token of a client changes. -/
def setToken (client : ℕ) (token : Bytes) (issued : Bool) : GatewayStateStore :=
  { s with clients := s.clients.modify client fun c => { c with accessToken := token, issued } }

def tokenOf (client : ℕ) : Bytes := ((s.clients[client]?).map (·.accessToken)).getD []

/-! ## The start of a process -/

/-- The row as it is taken over. -/
def load : GatewayStateStore :=
  match s.row with
  | none => s
  | some row =>
      let s := { s with
        status := row.status
        auth := row.auth
        gatewayURL := row.gatewayURL
        account := row.account
        boundMachineCode := row.boundMachineCode
        previousBindingID := row.previousBindingID
        identityStatus := row.identityStatus }
      if s.status.registration = .registered ∧ s.auth.bindingID = [] then
        { s with status := { s.status with registration := .pending, connected := false } }
      else s

/-- Whether the identity has to be replaced. -/
def reconcileMachineIdentity (failure : Option String) : GatewayStateStore × Bool :=
  if s.machineCode = [] then (s, false)
  else if s.auth.bindingID = [] then ({ s with identityStatus := .ready }, false)
  else if s.boundMachineCode = s.machineCode then ({ s with identityStatus := .ready }, false)
  else
  let s := { s with
    previousBindingID := s.auth.bindingID
    auth := {}
    status := { s.status with
      registration := .pending
      connected := false
      reason := "检测到机器硬件身份变化，已停用旧绑定，请重新登录 Gateway" }
    identityStatus := .machineChanged
    lockedOut := true }
  match s.persistLocked failure with
  | (s, some e) =>
      ({ s with status := { s.status with
          reason := s!"检测到机器硬件身份变化，但保存隔离状态失败: {e}" } }, true)
  | (s, none) => (s, true)

/-- What reading the marker file comes to. -/
inductive MarkerFile where
  | missing
  | unreadable
  | text (value : Bytes)
deriving DecidableEq

/-- The marker file, which may not be readable. -/
def markerFile (unreadable : Bool) : MarkerFile :=
  if unreadable then .unreadable
  else
  match s.marker with
  | none => .missing
  | some value => .text (trimSpace value)

def reconcileIdentityMachineMarker (file : MarkerFile) (rotation failure : Option String) :
    GatewayStateStore × Bool :=
  if file = .text s.machineCode then (s, false)
  else if file = .missing ∧ s.auth.bindingID = [] then (s, false)
  else
  match rotation with
  | some e =>
      ({ s with
          identityStatus := .identityError
          status := { s.status with reason := s!"停用复制的 Gateway 身份失败: {e}" } }, false)
  | none =>
      let s := { s with
        identityStatus := .machineChanged
        status := { s.status with
          registration := .pending
          connected := false
          reason := "检测到复制的 Gateway 身份不属于本机，已生成新身份，请重新登录" }
        lockedOut := true }
      ((s.persistLocked failure).1, true)

end GatewayStateStore

/-- What a process finds when it starts: its settings, the machine with the version of its
fingerprint, and what fails. -/
structure Opening where
  settings : Settings := {}
  machine : Except String (Bytes × ℤ)
  unreadable : Bool := false
  save : Option String := none
  rotation : Option String := none
  secondRotation : Option String := none
  identity : Option String := none
  markerWrite : Option String := none

namespace GatewayStateStore

/-- The store of a new process. -/
def fresh (s : GatewayStateStore) (o : Opening) : GatewayStateStore :=
  match o.machine with
  | .error e =>
      { settings := o.settings, row := s.row, marker := s.marker, unbinds := s.unbinds
        lockedOut := s.lockedOut
        status := { registration := .pending, reason := s!"读取本机机器身份失败: {e}" } }
  | .ok (code, version) =>
      { settings := o.settings, row := s.row, marker := s.marker, unbinds := s.unbinds
        lockedOut := s.lockedOut
        machineCode := code
        fingerprintVersion := version
        identityStatus := .ready
        status := { nodeID := gatewayDeviceID code } }

/-- The part of `RegisterGatewayRoutes` before the identity is compared. -/
def begin (s : GatewayStateStore) (o : Opening) : GatewayStateStore :=
  let loaded := (s.fresh o).load
  if loaded.machineCode ≠ [] then
    { loaded with status := { loaded.status with nodeID := gatewayDeviceID loaded.machineCode } }
  else { loaded with identityStatus := .unavailable }

/-- The comparison of the identity. -/
def reconcile (s : GatewayStateStore) (o : Opening) : GatewayStateStore × Bool :=
  match s.reconcileMachineIdentity o.save with
  | (s, true) => (s, true)
  | (s, false) =>
      if s.machineCode = [] then (s, false)
      else s.reconcileIdentityMachineMarker (s.markerFile o.unreadable) o.rotation o.save

/-- The address of the gateway. -/
def baseURL (s : GatewayStateStore) : Bytes :=
  let configured := trimSpace s.settings.gatewayURL
  if configured = [] then s.gatewayURL else configured

/-- The client of the process, if there is an address. -/
def connectClient (s : GatewayStateStore) (o : Opening) (identity : Option String) :
    GatewayStateStore :=
  let url := s.baseURL
  if url = [] then s
  else
  let s := { s with gatewayURL := url.rdropWhile (· = 47) }
  match identity with
  | some e =>
      { s with status := { s.status with
          registration := .pending, reason := s!"加载 Gateway 节点身份失败: {e}" } }
  | none =>
      let s := (s.persistIdentityMachineMarker o.markerWrite).1
      s.withClient { baseURL := url.rdropWhile (· = 47), accessToken := s.auth.accessToken }

/-- `RegisterGatewayRoutes`: a new process on the row and the marker that are there. -/
def registerGatewayRoutes (s : GatewayStateStore) (o : Opening) : GatewayStateStore :=
  let (s, rotate) := (s.begin o).reconcile o
  if rotate then
    match o.secondRotation with
    | some e =>
        let s := { s with
          identityStatus := .identityError
          status := { s.status with reason := s!"轮换 Gateway 节点身份失败: {e}" } }
        s.connectClient o (some e)
    | none => s.connectClient o none
  else s.connectClient o o.identity

end GatewayStateStore

end WorkMesh.Gateway
