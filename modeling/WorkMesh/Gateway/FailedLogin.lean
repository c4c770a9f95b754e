import WorkMesh.Gateway.Handlers

/-!
# A login that fails

A login that no other request comes between is one function of the store, the
request and what the gateway and the disk answer. It puts a new client in the
place of the old one before it asks the gateway anything, and the client that
asks takes every token it is given. What is saved at the end is taken back
when it cannot be saved; the client, its token and the address are not.
-/

namespace WorkMesh.Gateway

open Encoding

/-- What the environment does in the course of a login. -/
structure LoginAnswers where
  /-- The address is refused, or the identity of the node cannot be loaded. -/
  address : Option String := none
  login : Except String LoginResponse
  heartbeat : Option String := none
  register : Except String RegisterResponse := .error "节点注册失败"
  verify : Option String := none
  save : Option String := none
  marker : Option String := none
  resave : Option String := none

/-- The error of a call, and its response. -/
def LoginAnswers.answer (e : LoginAnswers) : Stage → Answer
  | .login _ => { error := e.address }
  | .loginSent _ _ =>
      match e.login with
      | .error message => { error := some message }
      | .ok login => { login }
  | .loginHeartbeat _ _ _ _ => { error := e.heartbeat }
  | .loginRegister _ _ _ =>
      match e.register with
      | .error message => { error := some message }
      | .ok register => { register }
  | .verifying _ _ _ => { error := e.verify }
  | _ => { save := e.save, marker := e.marker, resave := e.resave }

namespace GatewayStateStore

variable (s : GatewayStateStore) (request : LoginRequest) (e : LoginAnswers)

/-! ## The login as one function -/

/-- The client that is to ask, with the username, once there is one. -/
def chosenClient : Option (ℕ × Bytes) :=
  match s.client with
  | none => none
  | some client =>
      if trimSpace request.username = [] ∨ request.password = [] then none
      else some (client, trimSpace request.username)

def prepareLoginClient : GatewayStateStore × Option (ℕ × Bytes) :=
  if s.machineIdentityAvailableError ≠ none then (s, none)
  else if trimSpace request.gatewayURL = [] then (s, s.chosenClient request)
  else
  match e.address with
  | some _ => (s, none)
  | none =>
      let url := trimURL request.gatewayURL
      let s := { s.withClient { baseURL := url } with gatewayURL := url }
      (s, s.chosenClient request)

def registerAfterLogin (client : ℕ) (auth : Authorization) :
    GatewayStateStore × Option Authorization :=
  match e.register with
  | .error _ => (s, none)
  | .ok response =>
  match s.registered client response with
  | (s, .error _) => (s, none)
  | (s, .ok added) =>
      (s, if e.verify = none then some (mergeGatewayAuthorization auth added.1) else none)

def authenticateAndBind (client : ℕ) : GatewayStateStore × Option Authorization :=
  match e.login with
  | .error _ => (s, none)
  | .ok response =>
      let (s, auth) := s.loggedIn client response
      if trimSpace s.status.nodeID = [] then (s, none)
      else if s.auth.bindingID ≠ [] ∧ s.identityStatus ≠ .machineChanged ∧ e.heartbeat = none then
        (s, some { auth with bindingID := s.auth.bindingID })
      else s.registerAfterLogin e client auth

/-- The end of a login that has got an authorization, or none. -/
def endLogin (username : Bytes) : GatewayStateStore × Option Authorization → GatewayStateStore × Bool
  | (s, none) => (s, false)
  | (s, some auth) =>
      s.saveLoginState auth username { save := e.save, marker := e.marker, resave := e.resave }

/-- A login with the client that is to ask, if there is one. -/
def loginAs : GatewayStateStore × Option (ℕ × Bytes) → GatewayStateStore × Bool
  | (s, none) => (s, false)
  | (s, some (client, username)) => endLogin e username (s.authenticateAndBind e client)

/-- `loginHandler`, and whether the login is done. -/
def loginHandler : GatewayStateStore × Bool := loginAs e (s.prepareLoginClient request e)

end GatewayStateStore

/-! ## The login as sections -/

/-- The sections of a handler that nothing comes between, until it is done or is about to start
the loop. -/
def undisturbed (answer : Stage → Answer) :
    ℕ → GatewayStateStore × Option Stage → GatewayStateStore × Option Stage
  | 0, c => c
  | _ + 1, (s, none) => (s, none)
  | _ + 1, (s, some .launching) => (s, some .launching)
  | n + 1, (s, some stage) => undisturbed answer n (stage.resume s (answer stage))

/-- What a login comes to, as a section would leave it. -/
def ended (done : GatewayStateStore × Bool) : GatewayStateStore × Option Stage :=
  (done.1, if done.2 then some .launching else none)

section

variable (s : GatewayStateStore) (e : LoginAnswers) (n client : ℕ) (username : Bytes)
  (auth : Authorization)

@[simp] theorem undisturbed_none (answer : Stage → Answer) :
    undisturbed answer n (s, none) = (s, none) := by
  cases n with
  | zero => rfl
  | succ n => rfl

@[simp] theorem undisturbed_launching (answer : Stage → Answer) :
    undisturbed answer n (s, some .launching) = (s, some .launching) := by
  cases n with
  | zero => rfl
  | succ n => rfl

theorem undisturbed_succ (answer : Stage → Answer) {stage : Stage} (hstage : stage ≠ .launching) :
    undisturbed answer (n + 1) (s, some stage) =
      undisturbed answer n (stage.resume s (answer stage)) := by
  rw [undisturbed]
  exact hstage

@[simp] theorem ended_endLogin_none :
    ended (GatewayStateStore.endLogin e username (s, none)) = (s, none) := rfl

theorem undisturbed_saving :
    undisturbed e.answer (n + 1) (s, some (.saving username auth)) =
      ended (GatewayStateStore.endLogin e username (s, some auth)) := by
  rw [undisturbed_succ _ _ _ (by simp)]
  simp only [Stage.resume, LoginAnswers.answer, GatewayStateStore.endLogin]
  generalize s.saveLoginState auth username _ = done
  obtain ⟨t, ok⟩ := done
  cases ok with
  | true => simp [ended]
  | false => simp [ended]

theorem undisturbed_register :
    undisturbed e.answer (n + 3) (s, some (.loginRegister client username auth)) =
      ended (GatewayStateStore.endLogin e username (s.registerAfterLogin e client auth)) := by
  rw [undisturbed_succ _ _ _ (by simp)]
  simp only [Stage.resume, LoginAnswers.answer, GatewayStateStore.registerAfterLogin]
  cases e.register with
  | error message => simp
  | ok response =>
      simp only
      generalize s.registered client response = answered
      obtain ⟨t, result⟩ := answered
      cases result with
      | error message => simp
      | ok added =>
          simp only
          rw [undisturbed_succ _ _ _ (by simp)]
          simp only [Stage.resume, LoginAnswers.answer]
          cases e.verify with
          | some message => simp
          | none => simp only [if_true, undisturbed_saving]

theorem undisturbed_answered :
    undisturbed e.answer (n + 5) (s, some (.loginAnswered client username auth)) =
      ended (GatewayStateStore.endLogin e username
        (if trimSpace s.status.nodeID = [] then (s, none)
        else if s.auth.bindingID ≠ [] ∧ s.identityStatus ≠ .machineChanged ∧
            e.heartbeat = none then
          (s, some { auth with bindingID := s.auth.bindingID })
        else s.registerAfterLogin e client auth)) := by
  rw [undisturbed_succ _ _ _ (by simp)]
  simp only [Stage.resume]
  by_cases hnode : trimSpace s.status.nodeID = []
  · simp [hnode]
  · by_cases hbinding : s.auth.bindingID ≠ [] ∧ s.identityStatus ≠ .machineChanged
    · simp only [if_neg hnode, if_pos hbinding]
      rw [undisturbed_succ _ _ _ (by simp)]
      simp only [Stage.resume, LoginAnswers.answer]
      cases hheartbeat : e.heartbeat with
      | none =>
          rw [undisturbed_saving, if_pos ⟨hbinding.1, hbinding.2, rfl⟩]
      | some message => simp only [undisturbed_register, reduceCtorEq, and_false, if_false]
    · have htried : ¬ (s.auth.bindingID ≠ [] ∧ s.identityStatus ≠ .machineChanged ∧
          e.heartbeat = none) := fun h => hbinding ⟨h.1, h.2.1⟩
      simp only [if_neg hnode, if_neg hbinding, if_neg htried, undisturbed_register]

theorem undisturbed_sent :
    undisturbed e.answer (n + 6) (s, some (.loginSent client username)) =
      ended (GatewayStateStore.endLogin e username (s.authenticateAndBind e client)) := by
  rw [undisturbed_succ _ _ _ (by simp)]
  simp only [Stage.resume, LoginAnswers.answer, GatewayStateStore.authenticateAndBind]
  cases e.login with
  | error message => simp
  | ok response => exact undisturbed_answered _ e n client username _

theorem undisturbed_client (request : LoginRequest) :
    undisturbed e.answer (n + 7) (s, some (.loginClient request)) =
      ended (GatewayStateStore.loginAs e (s, s.chosenClient request)) := by
  rw [undisturbed_succ _ _ _ (by simp)]
  simp only [Stage.resume, GatewayStateStore.chosenClient]
  cases s.client with
  | none => simp [ended, GatewayStateStore.loginAs]
  | some client =>
      simp only
      split
      · simp [ended, GatewayStateStore.loginAs]
      · exact undisturbed_sent s e n client _

end

/-- The sections of a login come to `loginHandler`. -/
theorem undisturbed_login (s : GatewayStateStore) (request : LoginRequest) (e : LoginAnswers) :
    undisturbed e.answer 8 (Request.arrive s (.login request)) =
      ended (s.loginHandler request e) := by
  rw [Request.arrive, GatewayStateStore.loginHandler, GatewayStateStore.prepareLoginClient]
  by_cases havailable : s.machineIdentityAvailableError = none
  · simp only [havailable, if_true, ne_eq, not_true_eq_false, if_false]
    rw [undisturbed_succ _ _ _ (by simp)]
    simp only [Stage.resume, LoginAnswers.answer]
    split
    · exact undisturbed_client s e 0 request
    · cases e.address with
      | some message => simp [ended, GatewayStateStore.loginAs]
      | none => exact undisturbed_client _ e 0 request
  · simp [havailable, ended, GatewayStateStore.loginAs]

/-! ## What a failed login leaves -/

namespace GatewayStateStore

variable (s : GatewayStateStore) (request : LoginRequest) (e : LoginAnswers)

/-- The client of the store: its address and its token. -/
def heldClient : Option (Bytes × Bytes) :=
  s.client.bind fun client => (s.clients[client]?).map fun c => (c.baseURL, c.accessToken)

/-- The client, the address, the authorization, the binding and the row are what they were. -/
structure Unchanged (s t : GatewayStateStore) : Prop where
  client : t.client = s.client
  heldClient : t.heldClient = s.heldClient
  gatewayURL : t.gatewayURL = s.gatewayURL
  auth : t.auth = s.auth
  status : t.status = s.status
  account : t.account = s.account
  boundMachineCode : t.boundMachineCode = s.boundMachineCode
  identityStatus : t.identityStatus = s.identityStatus
  previousBindingID : t.previousBindingID = s.previousBindingID
  row : t.row = s.row

theorem Unchanged.refl : Unchanged s s :=
  ⟨rfl, rfl, rfl, rfl, rfl, rfl, rfl, rfl, rfl, rfl⟩

/-- The token that the gateway gives last. -/
def lastToken (response : LoginResponse) : Bytes :=
  if trimSpace s.status.nodeID = [] then response.token
  else if s.auth.bindingID ≠ [] ∧ s.identityStatus ≠ .machineChanged ∧ e.heartbeat = none then
    response.token
  else
  match e.register with
  | .error _ => response.token
  | .ok added =>
      if added.binding = [] ∨ added.accessToken = [] then response.token else added.accessToken

/-- The authorization that the gateway grants. -/
def granted (client : ℕ) (response : LoginResponse) : Option Authorization :=
  let (t, auth) := s.loggedIn client response
  if trimSpace s.status.nodeID = [] then none
  else if s.auth.bindingID ≠ [] ∧ s.identityStatus ≠ .machineChanged ∧ e.heartbeat = none then
    some { auth with bindingID := s.auth.bindingID }
  else
  match e.register with
  | .error _ => none
  | .ok added =>
  match (t.registered client added).2 with
  | .error _ => none
  | .ok added => if e.verify = none then some (mergeGatewayAuthorization auth added.1) else none

/-- The store with a new authorization, as it is written. -/
def bound (auth : Authorization) (account : Bytes) : GatewayStateStore :=
  { s with
    status := { s.status with
      registration := .registered, connected := true
      authorizationExpireAt := auth.expiresAt, reason := "" }
    auth
    account
    boundMachineCode := s.machineCode
    identityStatus := .ready
    gatewayURL := if s.gatewayURL = [] then trimURL s.settings.gatewayURL else s.gatewayURL }

/-- The row is that of the write that comes last: of the state before, or, if that write fails,
of the state with the authorization. -/
def RowStands (auth : Authorization) (account : Bytes) : Prop :=
  e.save = none →
    s.row = some (if e.resave = none then s.snapshot else (s.bound auth account).snapshot)

/-- The row after a login that is answered and fails. -/
def rowAfter (client : ℕ) (username : Bytes) (response : LoginResponse) : Option BindingRow :=
  match s.granted e client response with
  | none => s.row
  | some auth =>
      if e.save ≠ none then s.row
      else some (if e.resave = none then s.snapshot else (s.bound auth username).snapshot)

/-- The condition: no other address is taken, the client is given no token but its own, and what
was written stood there before. -/
def HarmlessFailure : Prop :=
  s.machineIdentityAvailableError = none →
    if trimSpace request.gatewayURL ≠ [] then e.address ≠ none
    else ∀ client username, s.chosenClient request = some (client, username) →
      ∀ response, e.login = .ok response →
        (∀ c ∈ s.clients[client]?, c.accessToken = s.lastToken e response) ∧
          ∀ auth ∈ s.granted e client response, s.RowStands e auth username

/-! ### The calls -/

theorem takeToken_setToken (client : ℕ) (first second : Bytes) :
    (s.setToken client first true).takeToken client second =
      s.setToken client (if second = [] then first else second) true := by
  rw [takeToken]
  split
  · rfl
  · simp [setToken, List.modify_modify_eq, Function.comp_def]

theorem authenticateAndBind_error {message : String} (hlogin : e.login = .error message)
    (client : ℕ) : s.authenticateAndBind e client = (s, none) := by
  rw [authenticateAndBind, hlogin]

/-- A registration gives the client the token of its response, if it has one. -/
theorem registered_setToken (client : ℕ) (token : Bytes) (added : RegisterResponse) :
    ((s.setToken client token true).registered client added).1 =
      s.setToken client
        (if added.binding = [] ∨ added.accessToken = [] then token else added.accessToken) true := by
  rw [registered]
  by_cases hbinding : added.binding = []
  · rw [dif_pos hbinding, if_pos (.inl hbinding)]
  · rw [dif_neg hbinding]
    simp only [takeToken_setToken, hbinding, false_or]

/-- A login that is answered leaves the client its last token. -/
theorem authenticateAndBind_ok {response : LoginResponse} (hlogin : e.login = .ok response)
    (client : ℕ) :
    s.authenticateAndBind e client =
      (s.setToken client (s.lastToken e response) true, s.granted e client response) := by
  have hregistered := s.registered_setToken client response.token
  simp only [authenticateAndBind, hlogin, lastToken, granted, loggedIn, registerAfterLogin]
  change (if trimSpace s.status.nodeID = [] then _ else _) = _
  by_cases hnode : trimSpace s.status.nodeID = []
  · simp only [if_pos hnode]
  · simp only [if_neg hnode]
    change (if s.auth.bindingID ≠ [] ∧ s.identityStatus ≠ .machineChanged ∧ e.heartbeat = none
      then _ else _) = _
    by_cases hbinding : s.auth.bindingID ≠ [] ∧ s.identityStatus ≠ .machineChanged ∧
        e.heartbeat = none
    · simp only [if_pos hbinding]
      rfl
    · simp only [if_neg hbinding]
      cases e.register with
      | error message => rfl
      | ok added =>
          have hadded := hregistered added
          dsimp only
          generalize (s.setToken client response.token true).registered client added = answered
            at hadded ⊢
          obtain ⟨t, result⟩ := answered
          cases result with
          | error message => rw [← hadded]
          | ok bound => rw [← hadded]

/-- An authorization that is granted has a binding. -/
theorem granted_bindingID_ne {client : ℕ} {response : LoginResponse} {auth : Authorization}
    (hauth : s.granted e client response = some auth) : auth.bindingID ≠ [] := by
  simp only [granted] at hauth
  split at hauth
  · cases hauth
  · split at hauth
    · rename_i hbinding
      rw [← Option.some.inj hauth]
      exact hbinding.1
    · split at hauth
      · cases hauth
      · split at hauth
        · cases hauth
        · rename_i added _
          split at hauth
          · rw [← Option.some.inj hauth]
            exact added.2
          · cases hauth

/-! ### The state that is saved -/

theorem saveLoginState_eq {auth : Authorization} (hauth : auth.bindingID ≠ []) (account : Bytes)
    (a : Answer) :
    s.saveLoginState auth account a = s.saveBound (s.bound auth account) a := by
  rw [saveLoginState, if_neg hauth]
  rfl

/-- A save that fails leaves the store, but for the row, which one of its writes may have
left. -/
theorem saveBound_failed (next : GatewayStateStore) (a : Answer)
    (hfailed : (s.saveBound next a).2 = false) :
    (s.saveBound next a).1 =
      { s with row :=
          if a.save ≠ none then s.row
          else some (if a.resave = none then s.snapshot else next.snapshot) } := by
  rw [saveBound] at hfailed ⊢
  cases hsave : a.save with
  | some message => rfl
  | none =>
      by_cases hcode : next.machineCode = []
      · simp [hsave, persistLocked, persistIdentityMachineMarker, hcode] at hfailed
      · cases hmarker : a.marker with
        | none =>
            simp [hsave, hmarker, persistLocked, persistIdentityMachineMarker, hcode] at hfailed
        | some message =>
            simp only [persistLocked, persistIdentityMachineMarker, hcode, if_false]
            cases a.resave with
            | some message => simp
            | none => rfl

/-- The token of the client and the row decide what is left of the store. -/
theorem unchanged_setToken_iff {client : ℕ} (hclient : s.client = some client) (token : Bytes)
    (row : Option BindingRow) :
    Unchanged s { s.setToken client token true with row } ↔
      (∀ c ∈ s.clients[client]?, c.accessToken = token) ∧ row = s.row := by
  have hheld : heldClient { s.setToken client token true with row } =
      (s.clients[client]?).map fun c => (c.baseURL, token) := by
    simp [heldClient, setToken, hclient, List.getElem?_modify, Function.comp_def]
  have hold : s.heldClient = (s.clients[client]?).map fun c => (c.baseURL, c.accessToken) := by
    simp [heldClient, hclient]
  constructor
  · intro h
    have hsame := h.heldClient
    rw [hheld, hold] at hsame
    refine ⟨fun c hc => ?_, h.row⟩
    rw [Option.mem_def.mp hc] at hsame
    simp only [Option.map_some, Option.some.injEq, Prod.mk.injEq, true_and] at hsame
    exact hsame.symm
  · intro ⟨htoken, hrow⟩
    refine ⟨rfl, ?_, rfl, rfl, rfl, rfl, rfl, rfl, rfl, hrow⟩
    rw [hheld, hold]
    apply Option.map_congr
    intro c hc
    rw [htoken c hc]

/-- A store with one more client, which is its own, is not what it was. -/
theorem not_unchanged_of_newClient {t : GatewayStateStore}
    (hclient : t.client = some s.clients.length) (hlength : s.clients.length < t.clients.length) :
    ¬ Unchanged s t := by
  intro h
  have hsame : s.client = some s.clients.length := h.client.symm.trans hclient
  have hold : s.heldClient = none := by simp [heldClient, hsame]
  have hnew : t.heldClient ≠ none := by
    simp [heldClient, hclient, List.getElem?_eq_getElem hlength]
  exact hnew (h.heldClient.trans hold)

/-- What is left of a login that was answered and failed. -/
theorem endLogin_failed {client : ℕ} {username : Bytes} {response : LoginResponse}
    (hlogin : e.login = .ok response)
    (hfailed : (endLogin e username (s.authenticateAndBind e client)).2 = false) :
    (endLogin e username (s.authenticateAndBind e client)).1 =
      { s.setToken client (s.lastToken e response) true with
          row := s.rowAfter e client username response } := by
  rw [s.authenticateAndBind_ok e hlogin client] at hfailed ⊢
  rw [rowAfter]
  cases hgranted : s.granted e client response with
  | none => rfl
  | some auth =>
      rw [hgranted] at hfailed
      simp only [endLogin] at hfailed ⊢
      rw [saveLoginState_eq _ (s.granted_bindingID_ne e hgranted)] at hfailed ⊢
      exact saveBound_failed _ _ _ hfailed

theorem rowAfter_eq_iff {client : ℕ} {username : Bytes} {response : LoginResponse} :
    s.rowAfter e client username response = s.row ↔
      ∀ auth ∈ s.granted e client response, s.RowStands e auth username := by
  rw [rowAfter]
  cases s.granted e client response with
  | none => simp
  | some auth =>
      by_cases hsave : e.save = none
      · simp only [hsave, RowStands, ne_eq, not_true_eq_false, if_false, Option.mem_def,
          Option.some.injEq, forall_eq', true_imp_iff]
        exact eq_comm
      · simp [hsave, RowStands]

theorem chosenClient_some {client : ℕ} {username : Bytes}
    (hchosen : s.chosenClient request = some (client, username)) : s.client = some client := by
  rw [chosenClient] at hchosen
  split at hchosen
  · cases hchosen
  · rename_i held hheld
    split at hchosen
    · cases hchosen
    · rw [hheld, (Prod.mk.inj (Option.some.inj hchosen)).1]

/-- A login that fails keeps the client it began with. -/
theorem loginAs_client (hfailed : (loginAs e (s, s.chosenClient request)).2 = false) :
    (loginAs e (s, s.chosenClient request)).1.client = s.client ∧
      (loginAs e (s, s.chosenClient request)).1.clients.length = s.clients.length := by
  cases hchosen : s.chosenClient request with
  | none => exact ⟨rfl, rfl⟩
  | some chosen =>
      obtain ⟨client, username⟩ := chosen
      rw [hchosen] at hfailed
      simp only [loginAs] at hfailed ⊢
      cases hlogin : e.login with
      | error message =>
          rw [s.authenticateAndBind_error e hlogin]
          exact ⟨rfl, rfl⟩
      | ok response =>
          rw [s.endLogin_failed e hlogin hfailed]
          exact ⟨rfl, by simp [setToken]⟩

/-- A login at the address of the store that fails. -/
theorem loginAs_unchanged_iff
    (hfailed : (loginAs e (s, s.chosenClient request)).2 = false) :
    Unchanged s (loginAs e (s, s.chosenClient request)).1 ↔
      ∀ client username, s.chosenClient request = some (client, username) →
        ∀ response, e.login = .ok response →
          (∀ c ∈ s.clients[client]?, c.accessToken = s.lastToken e response) ∧
            ∀ auth ∈ s.granted e client response, s.RowStands e auth username := by
  cases hchosen : s.chosenClient request with
  | none => simp [loginAs, Unchanged.refl]
  | some chosen =>
      obtain ⟨client, username⟩ := chosen
      rw [hchosen] at hfailed
      simp only [loginAs, Option.some.injEq, Prod.mk.injEq, and_imp] at hfailed ⊢
      cases hlogin : e.login with
      | error message =>
          rw [s.authenticateAndBind_error e hlogin]
          simp [endLogin, Unchanged.refl]
      | ok response =>
          rw [s.endLogin_failed e hlogin hfailed,
            s.unchanged_setToken_iff (s.chosenClient_some request hchosen), rowAfter_eq_iff]
          constructor
          · rintro h _ _ rfl rfl _ hresponse
            rwa [← Except.ok.inj hresponse]
          · intro h
            exact h client username rfl rfl response rfl

/-- A failed login leaves what it found if, and only if, it takes no other address, is given no
token but the one its client had, and leaves the row as it was. -/
theorem failed_login_unchanged_iff (hfailed : (s.loginHandler request e).2 = false) :
    Unchanged s (s.loginHandler request e).1 ↔ s.HarmlessFailure request e := by
  rw [loginHandler, prepareLoginClient] at hfailed ⊢
  rw [HarmlessFailure]
  by_cases havailable : s.machineIdentityAvailableError = none
  · simp only [havailable, ne_eq, not_true_eq_false, if_false, true_imp_iff] at hfailed ⊢
    by_cases hurl : trimSpace request.gatewayURL = []
    · simp only [hurl, if_true, not_true_eq_false, if_false] at hfailed ⊢
      exact s.loginAs_unchanged_iff request e hfailed
    · simp only [hurl, if_false, not_false_eq_true, if_true] at hfailed ⊢
      cases haddress : e.address with
      | some message => simp [loginAs, Unchanged.refl]
      | none =>
          simp only [haddress] at hfailed ⊢
          obtain ⟨hclient, hlength⟩ := loginAs_client _ request e hfailed
          refine iff_of_false (s.not_unchanged_of_newClient hclient ?_) (by simp)
          rw [hlength]
          simp [withClient]
  · simp [havailable, Unchanged.refl, loginAs]

end GatewayStateStore

/-! ### A wrong password -/

/-- A node that is bound. -/
def boundNode : GatewayStateStore := (signsIn.foldl System.step (System.start firstOpening)).shared

/-- A password that the gateway refuses. -/
def wrongPassword (gatewayURL : Bytes) : LoginRequest := ⟨bytes "admin", bytes "wrong", gatewayURL⟩

theorem failed_login_unchanged :
    boundNode.Unchanged (boundNode.loginHandler (wrongPassword []) { login := .error "401" }).1 :=
  (boundNode.failed_login_unchanged_iff (wrongPassword []) { login := .error "401" }
    (by decide +kernel)).mpr (by
      intro _
      rw [if_neg (by decide)]
      intro client username _ response hresponse
      cases hresponse)

/-- A login with a wrong password at another address takes the bound node to that address. -/
theorem failed_login_replaces_client :
    ¬ ∀ (s : GatewayStateStore) (request : LoginRequest) (e : LoginAnswers),
      (s.loginHandler request e).2 = false →
        s.Unchanged (s.loginHandler request e).1 := by
  intro h
  have hunchanged := h boundNode (wrongPassword (bytes "https://other.example"))
    { login := .error "401" } (by decide +kernel)
  have hurl : (boundNode.loginHandler (wrongPassword (bytes "https://other.example"))
      { login := .error "401" }).1.gatewayURL = bytes "https://other.example" := by
    decide +kernel
  have hbefore : boundNode.gatewayURL = bytes "https://gateway.example" := by decide +kernel
  rw [hunchanged.gatewayURL, hbefore] at hurl
  exact absurd hurl (by decide)

end WorkMesh.Gateway
