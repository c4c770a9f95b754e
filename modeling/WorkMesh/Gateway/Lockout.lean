import WorkMesh.Gateway.Handlers

/-!
# The lockout after a change of the machine

Whether a node is locked out is decided anew by every process from the row and
the marker, and both are rewritten by the first process that locks it out. The
lockout lasts as long as every later process still finds one of them to be that
of another machine.
-/

namespace WorkMesh.Gateway

open Encoding StateMachine

attribute [local irreducible] bytes

/-- The token of a client has come from the gateway, or from a user, in this process. -/
def GatewayStateStore.Issued (s : GatewayStateStore) (client : ℕ) : Prop :=
  ∃ c ∈ s.clients[client]?, c.issued = true

/-- A refresh, or a heartbeat, is under way with what a process has found at its start. -/
def Stage.OldUse (s : GatewayStateStore) : Stage → Prop
  | .refreshing _ | .beatSent _ | .loginHeartbeat _ _ _ _ => True
  | .verifying client _ _ => ¬ s.Issued client
  | _ => False

/-- A locked-out node is not ready, and does not use its old credentials. -/
structure LockoutKept (c : System) : Prop where
  identity : c.shared.lockedOut = true → c.shared.identityStatus ≠ .ready
  unused : c.shared.lockedOut = true → ∀ h ∈ c.waiting, ¬ h.stage.OldUse c.shared

/-- What a process that starts has loaded is not of this machine, or the machine is unknown. The
identity can be replaced, unless the node is not registered anyway. -/
structure Foreign (s : GatewayStateStore) (o : Opening) : Prop where
  found : s.machineCode = [] ∨
    s.auth.bindingID ≠ [] ∧ s.boundMachineCode ≠ s.machineCode ∨
    s.markerFile o.unreadable ≠ .text s.machineCode ∧
      (s.markerFile o.unreadable = .missing → s.auth.bindingID ≠ [])
  unregistered : s.status.registration = .registered → s.machineCode ≠ [] ∧
    (o.rotation = none ∨ s.auth.bindingID ≠ [] ∧ s.boundMachineCode ≠ s.machineCode)

instance (s : GatewayStateStore) (o : Opening) : Decidable (Foreign s o) :=
  decidable_of_iff
    ((s.machineCode = [] ∨ s.auth.bindingID ≠ [] ∧ s.boundMachineCode ≠ s.machineCode ∨
        s.markerFile o.unreadable ≠ .text s.machineCode ∧
          (s.markerFile o.unreadable = .missing → s.auth.bindingID ≠ [])) ∧
      (s.status.registration = .registered → s.machineCode ≠ [] ∧
        (o.rotation = none ∨ s.auth.bindingID ≠ [] ∧ s.boundMachineCode ≠ s.machineCode)))
    ⟨fun h => ⟨h.1, h.2⟩, fun h => ⟨h.found, h.unregistered⟩⟩

/-- A node that is locked out is started again on what is not of this machine. -/
def StillForeign (c : System) : Event → Prop
  | .restart o => c.shared.lockedOut = true → Foreign (c.shared.begin o) o
  | .turn _ => True

instance (c : System) : DecidablePred (StillForeign c) := fun
  | .restart o => inferInstanceAs
      (Decidable (c.shared.lockedOut = true → Foreign (c.shared.begin o) o))
  | .turn _ => .isTrue trivial

/-! ## The invariant -/

/-- What keeps a locked-out node from the gateway. -/
structure Barred (s : GatewayStateStore) : Prop where
  identity : s.machineCode = [] ∧ s.identityStatus ≠ .ready ∨
    s.identityStatus = .machineChanged ∨ s.identityStatus = .identityError
  registration : s.status.registration ≠ .registered
  client : ∀ client ∈ s.client, client < s.clients.length

def After.Barred : After → Prop
  | .connect => False
  | .register _ _ => True

/-- What a locked-out node may be about to do. -/
def Stage.Barred (s : GatewayStateStore) : Stage → Prop
  | .login _ | .loginClient _ => s.machineIdentityAvailableError = none
  | .loginSent client _ => s.machineIdentityAvailableError = none ∧ client < s.clients.length
  | .loginAnswered client _ _ => s.machineIdentityAvailableError = none ∧ s.Issued client
  | .loginRegister client _ _ | .verifying client _ _ => s.Issued client
  | .autoLogin after | .autoLoginSent _ after | .autoLoginSaving _ after => after.Barred
  | .beat by_ => by_ ≠ .recovery
  | .beatDone by_ error => by_ ≠ .recovery ∧ (by_ = .tick → error ≠ none)
  | .loginHeartbeat _ _ _ _ | .refreshing _ | .refreshed _ _ | .beatReading _ | .beatSent _
  | .connecting | .postponed _ | .registering _ | .registered _ => False
  | _ => True

/-- What a section changes for a locked-out node. -/
structure Confined (s t : GatewayStateStore) : Prop where
  machineCode : t.machineCode = s.machineCode
  fingerprintVersion : t.fingerprintVersion = s.fingerprintVersion
  identityStatus : t.identityStatus = s.identityStatus
  registration : t.status.registration = .registered → s.status.registration = .registered
  client : t.client = s.client ∨ ∃ client ∈ t.client, client < t.clients.length
  length : s.clients.length ≤ t.clients.length
  issued : ∀ client, s.Issued client → t.Issued client

variable {s t : GatewayStateStore} {stage : Stage} {a : Answer} {c : System}

theorem Confined.refl (s : GatewayStateStore) : Confined s s :=
  ⟨rfl, rfl, rfl, id, .inl rfl, le_rfl, fun _ h => h⟩

theorem Confined.barred (h : Confined s t) (hs : Barred s) : Barred t := by
  refine ⟨?_, fun ht => hs.registration (h.registration ht), ?_⟩
  · rw [h.machineCode, h.identityStatus]
    exact hs.identity
  · intro client hclient
    rcases h.client with hsame | ⟨later, hlater, hlt⟩
    · rw [hsame] at hclient
      exact lt_of_lt_of_le (hs.client client hclient) h.length
    · rwa [Option.mem_unique hclient hlater]

theorem Confined.availableError (h : Confined s t) :
    t.machineIdentityAvailableError = s.machineIdentityAvailableError := by
  rw [GatewayStateStore.machineIdentityAvailableError,
    GatewayStateStore.machineIdentityAvailableError, h.machineCode, h.fingerprintVersion,
    h.identityStatus]

theorem Confined.waiting (h : Confined s t) (hs : stage.Barred s) : stage.Barred t := by
  cases stage with
  | login _ | loginClient _ => exact h.availableError.trans hs
  | loginSent client _ => exact ⟨h.availableError.trans hs.1, lt_of_lt_of_le hs.2 h.length⟩
  | loginAnswered client _ _ => exact ⟨h.availableError.trans hs.1, h.issued client hs.2⟩
  | loginRegister client _ _ | verifying client _ _ => exact h.issued client hs
  | _ => exact hs

/-- The gateway is not called by a locked-out node outside of a login or a registration. -/
theorem Barred.error (h : Barred s) : s.machineIdentityError ≠ none := by
  rw [GatewayStateStore.machineIdentityError]
  cases hcode : s.machineIdentityAvailableError with
  | some e => simp
  | none =>
      rw [GatewayStateStore.machineIdentityAvailableError] at hcode
      rcases h.identity with hempty | hchanged | herror
      · rw [if_pos (.inl hempty.1)] at hcode
        cases hcode
      · simp [hchanged]
      · rw [herror] at hcode
        split at hcode
        · cases hcode
        · cases hcode

/-- A login that has begun is that of a changed machine. -/
theorem Barred.changed (h : Barred s) (havailable : s.machineIdentityAvailableError = none) :
    s.identityStatus = .machineChanged := by
  rw [GatewayStateStore.machineIdentityAvailableError] at havailable
  rcases h.identity with hempty | hchanged | herror
  · rw [if_pos (.inl hempty.1)] at havailable
    cases havailable
  · exact hchanged
  · rw [herror] at havailable
    split at havailable
    · cases havailable
    · cases havailable

theorem Stage.Barred.not_oldUse (h : stage.Barred s) : ¬ stage.OldUse s := by
  cases stage with
  | verifying client _ _ => exact fun hnot => hnot h
  | refreshing _ | beatSent _ | loginHeartbeat _ _ _ _ => exact h.elim
  | _ => exact id

/-! ## Tokens -/

section Tokens
variable {client other : ℕ}

theorem issued_setToken (hlt : client < s.clients.length) (token : Bytes) :
    (s.setToken client token true).Issued client := by
  refine ⟨{ s.clients[client] with accessToken := token, issued := true }, ?_, rfl⟩
  simp [GatewayStateStore.setToken, List.getElem?_eq_getElem hlt]

theorem confined_setToken (s : GatewayStateStore) (other : ℕ) (token : Bytes) :
    Confined s (s.setToken other token true) := by
  refine ⟨rfl, rfl, rfl, id, .inl rfl, ?_, ?_⟩
  · simp [GatewayStateStore.setToken]
  · rintro client ⟨c, hc, hissued⟩
    by_cases heq : other = client
    · subst heq
      exact issued_setToken (List.getElem?_eq_some_iff.mp hc).1 token
    · refine ⟨c, ?_, hissued⟩
      simpa [GatewayStateStore.setToken, List.getElem?_modify, heq] using hc

/-- A client is added, and may become that of the store. -/
theorem confined_append (added : HTTPClient) (ht : t.clients = s.clients ++ [added])
    (hframed : Framed s t) (hclient : t.client = s.client ∨ t.client = some s.clients.length) :
    Confined s t := by
  refine ⟨hframed.machineCode, hframed.fingerprintVersion, hframed.identityStatus,
    fun h => by rwa [← hframed.status], ?_, by simp [ht], ?_⟩
  · rcases hclient with hsame | hadded
    · exact .inl hsame
    · exact .inr ⟨_, hadded, by simp [ht]⟩
  · rintro client ⟨c, hc, hissued⟩
    refine ⟨c, ?_, hissued⟩
    rw [ht, List.getElem?_append_left (List.getElem?_eq_some_iff.mp hc).1]
    exact hc

theorem Called.confined (h : Called s t) : Confined s t := by
  cases h with
  | same => exact .refl s
  | token client token => exact confined_setToken s client token
  | opened url => exact confined_append _ rfl ⟨rfl, rfl, rfl, rfl, rfl, rfl, rfl, rfl⟩ (.inr rfl)
  | added client => exact confined_append _ rfl ⟨rfl, rfl, rfl, rfl, rfl, rfl, rfl, rfl⟩ (.inl rfl)
  | started => exact ⟨rfl, rfl, rfl, id, .inl rfl, le_rfl, fun _ h => h⟩

end Tokens

/-! ## Sections -/

theorem confined_row (s : GatewayStateStore) (row : Option BindingRow) :
    Confined s { s with row } := ⟨rfl, rfl, rfl, id, .inl rfl, le_rfl, fun _ h => h⟩

/-- A write of the status that registers nobody. -/
theorem confined_withStatus {status : Status} (failure : Option String)
    (hstatus : status.registration = .registered → s.status.registration = .registered) :
    Confined s (s.withStatus status failure).1 := by
  rcases s.withStatus_cases status failure with ⟨heq, -⟩ | ⟨heq, -⟩
  · rw [heq]
    exact .refl s
  · rw [heq]
    exact ⟨rfl, rfl, rfl, hstatus, .inl rfl, le_rfl, fun _ h => h⟩

/-- A binding is saved, which ends the lockout, or only the row may change. -/
theorem confined_saveBound (s next : GatewayStateStore) (a : Answer) :
    (s.saveBound next a).1.lockedOut = false ∨ Confined s (s.saveBound next a).1 := by
  rcases s.saveBound_cases next a with ⟨⟨row, heq⟩, -⟩ | ⟨⟨row, marker, heq⟩, -⟩
  · rw [heq]
    exact .inr (confined_row s row)
  · rw [heq]
    exact .inl rfl

theorem confined_saveLoginState (s : GatewayStateStore) (auth : Authorization)
    (account : Bytes) (a : Answer) :
    (s.saveLoginState auth account a).1.lockedOut = false ∨
      Confined s (s.saveLoginState auth account a).1 := by
  rw [GatewayStateStore.saveLoginState]
  split
  · exact .inr (.refl s)
  · exact confined_saveBound s _ a

theorem confined_storeLogin (s : GatewayStateStore) (auth : Authorization)
    (failure : Option String) : Confined s (s.storeLogin auth failure).1 := by
  rw [GatewayStateStore.storeLogin]
  cases failure with
  | some e => exact .refl s
  | none => exact ⟨rfl, rfl, rfl, id, .inl rfl, le_rfl, fun _ h => h⟩

theorem confined_unbindHandler (s : GatewayStateStore) (failure : Option String) :
    Confined s (s.unbindHandler failure) := by
  rw [GatewayStateStore.unbindHandler]
  cases failure with
  | some e => exact .refl s
  | none => exact ⟨rfl, rfl, rfl, (fun h => by cases h), .inl rfl, le_rfl, fun _ h => h⟩

/-- The heartbeats of a locked-out node register nobody. -/
theorem confined_beatDone {by_ : Beat} {error : Option String}
    (hs : (Stage.beatDone by_ error).Barred s) :
    Confined s ((Stage.beatDone by_ error).resume s a).1 := by
  cases by_ with
  | handler =>
      simp only [Stage.resume]
      split
      · exact .refl s
      · exact confined_withStatus a.save id
  | tick =>
      cases error with
      | some e => exact confined_withStatus a.save id
      | none => exact absurd rfl (hs.2 rfl)
  | recovery => exact absurd rfl hs.1

/-- A section of a locked-out node ends the lockout, or leaves the identity as it is. -/
theorem confined_resume (hs : stage.Barred s) :
    (stage.resume s a).1.lockedOut = false ∨ Confined s (stage.resume s a).1 := by
  by_cases hstores : stage.stores = false
  · exact .inr (called_resume hstores).confined
  · cases stage with
    | saving username auth =>
        rw [resume_saving]
        exact confined_saveLoginState s auth username a
    | unbinding => exact .inr (confined_unbindHandler s a.save)
    | beatDone by_ error => exact .inr (confined_beatDone hs)
    | autoLoginSaving auth after =>
        rw [resume_autoLoginSaving]
        exact .inr (confined_storeLogin s auth a.save)
    | registerSaving client url auth =>
        rw [resume_registerSaving]
        exact confined_saveBound s _ a
    | refreshed _ _ | postponed _ | registered _ => exact hs.elim
    | _ => exact absurd rfl hstores

section Later
variable {later : Stage}

theorem barred_login {request : LoginRequest} (hs : s.machineIdentityAvailableError = none)
    (hlater : later ∈ ((Stage.login request).resume s a).2) : later.Barred s := by
  simp only [Stage.resume] at hlater
  split at hlater
  · rw [← Option.some.inj hlater]
    exact hs
  · split at hlater
    · cases hlater
    · rw [← Option.some.inj hlater]
      exact hs

theorem barred_loginClient (hshared : Barred s) {request : LoginRequest}
    (hs : s.machineIdentityAvailableError = none)
    (hlater : later ∈ ((Stage.loginClient request).resume s a).2) : later.Barred s := by
  simp only [Stage.resume] at hlater
  split at hlater
  · cases hlater
  · rename_i client hclient
    split at hlater
    · cases hlater
    · rw [← Option.some.inj hlater]
      exact ⟨hs, hshared.client client hclient⟩

theorem barred_loginSent {client : ℕ} {username : Bytes}
    (hs : (Stage.loginSent client username).Barred s)
    (hlater : later ∈ ((Stage.loginSent client username).resume s a).2) :
    later.Barred ((Stage.loginSent client username).resume s a).1 := by
  simp only [Stage.resume] at hlater ⊢
  split at hlater
  · cases hlater
  · rw [← Option.some.inj hlater]
    have htoken := confined_setToken s client a.login.token
    exact ⟨htoken.availableError.trans hs.1, issued_setToken hs.2 a.login.token⟩

/-- A changed machine does not try the binding that it has found. -/
theorem barred_loginAnswered (hshared : Barred s) {client : ℕ} {username : Bytes}
    {auth : Authorization} (hs : (Stage.loginAnswered client username auth).Barred s)
    (hlater : later ∈ ((Stage.loginAnswered client username auth).resume s a).2) :
    later.Barred s := by
  simp only [Stage.resume] at hlater
  split at hlater
  · cases hlater
  · rw [if_neg (fun h => h.2 (hshared.changed hs.1))] at hlater
    rw [← Option.some.inj hlater]
    exact hs.2

theorem After.Barred.done {after : After} (h : after.Barred) (hlater : later ∈ after.done t) :
    later.Barred s := by
  cases after with
  | connect => exact h.elim
  | register client url =>
      rw [← Option.some.inj hlater]
      exact trivial

theorem After.Barred.failed {after : After} (h : after.Barred) {e : String}
    (hlater : later ∈ after.failed e) : later.Barred s := by
  cases after with
  | connect => exact h.elim
  | register client url => cases hlater

theorem barred_autoLogin {after : After} (hs : after.Barred)
    (hlater : later ∈ ((Stage.autoLogin after).resume s a).2) : later.Barred s := by
  simp only [Stage.resume] at hlater
  split at hlater
  · exact hs.done hlater
  · split at hlater
    · exact hs.done hlater
    · split at hlater
      · exact hs.failed hlater
      · obtain ⟨_, -, rfl⟩ := Option.map_eq_some_iff.mp hlater
        exact hs

theorem barred_registerClient {request : RegisterRequest}
    (hlater : later ∈ ((Stage.registerClient request).resume s a).2) : later.Barred s := by
  simp only [Stage.resume] at hlater
  split at hlater
  · split at hlater
    · cases hlater
    · rw [← Option.some.inj hlater]
      exact trivial
  · split at hlater
    · cases hlater
    · split at hlater
      · rw [← Option.some.inj hlater]
        exact trivial
      · rw [← Option.some.inj hlater]
        exact trivial

/-- What a locked-out node does next is no use of its old credentials. -/
theorem barred_resume (hshared : Barred s) (hs : stage.Barred s)
    (hconfined : Confined s (stage.resume s a).1) (hlater : later ∈ (stage.resume s a).2) :
    later.Barred (stage.resume s a).1 := by
  have hkeep : later.Barred s → later.Barred (stage.resume s a).1 := hconfined.waiting
  cases stage with
  | login request => exact hkeep (barred_login hs hlater)
  | loginClient request => exact hkeep (barred_loginClient hshared hs hlater)
  | loginSent client username => exact barred_loginSent hs hlater
  | loginAnswered client username auth => exact hkeep (barred_loginAnswered hshared hs hlater)
  | loginRegister _ _ _ | registerSent _ _ =>
      refine hkeep ?_
      simp only [Stage.resume] at hlater
      split at hlater
      · cases hlater
      · split at hlater
        · cases hlater
        · rw [← Option.some.inj hlater]
          exact hs
  | verifying _ _ _ | register _ | registerExisting _ =>
      refine hkeep ?_
      simp only [Stage.resume] at hlater
      split at hlater
      · cases hlater
      · rw [← Option.some.inj hlater]
        exact trivial
  | saving _ _ | revoking | registerSaving _ _ _ =>
      refine hkeep ?_
      simp only [Stage.resume] at hlater
      split at hlater
      · rw [← Option.some.inj hlater]
        exact trivial
      · cases hlater
  | launching =>
      simp only [Stage.resume] at hlater
      rw [if_pos (.inr (.inr (.inr hshared.error)))] at hlater
      cases hlater
  | unbinding => cases hlater
  | beat by_ =>
      refine hkeep ?_
      simp only [Stage.resume] at hlater
      split at hlater
      · rw [← Option.some.inj hlater]
        exact ⟨hs, fun _ => by simp⟩
      · rename_i hnone
        exact absurd hnone hshared.error
  | beatDone by_ error =>
      cases by_ with
      | handler =>
          simp only [Stage.resume] at hlater
          split at hlater
          · cases hlater
          · cases hlater
      | tick => cases hlater
      | recovery => exact absurd rfl hs.1
  | autoLogin after => exact hkeep (barred_autoLogin hs hlater)
  | autoLoginSent client after =>
      refine hkeep ?_
      simp only [Stage.resume] at hlater
      split at hlater
      · exact After.Barred.failed hs hlater
      · rw [← Option.some.inj hlater]
        exact hs
  | autoLoginSaving auth after =>
      refine hkeep ?_
      simp only [Stage.resume] at hlater
      split at hlater
      · exact After.Barred.failed hs hlater
      · exact After.Barred.done hs hlater
  | registerClient request => exact hkeep (barred_registerClient hlater)
  | loginHeartbeat _ _ _ _ | refreshing _ | refreshed _ _ | beatReading _ | beatSent _
  | connecting | postponed _ | registering _ | registered _ => exact hs.elim

end Later

/-- A request of a locked-out node begins no use of its old credentials. -/
theorem barred_arrive (hshared : Barred s) (request : Request) {stage : Stage}
    (hstage : stage ∈ (request.arrive s).2) : stage.Barred s := by
  cases request with
  | start =>
      rw [← Option.some.inj hstage]
      exact trivial
  | login request =>
      simp only [Request.arrive] at hstage
      split at hstage
      · rename_i havailable
        rw [← Option.some.inj hstage]
        exact havailable
      · cases hstage
  | register request =>
      simp only [Request.arrive] at hstage
      split at hstage
      · rw [← Option.some.inj hstage]
        exact trivial
      · cases hstage
  | heartbeat =>
      simp only [Request.arrive] at hstage
      rw [if_pos hshared.error] at hstage
      cases hstage
  | tick =>
      simp only [Request.arrive] at hstage
      split at hstage
      · rw [← Option.some.inj hstage]
        exact fun h => by cases h
      · cases hstage
  | refresh =>
      simp only [Request.arrive] at hstage
      rw [if_neg hshared.registration] at hstage
      cases hstage
  | unbind =>
      rw [← Option.some.inj hstage]
      split
      · exact trivial
      · exact trivial

/-- No section locks a node out. -/
theorem lockedOut_resume (h : (stage.resume s a).1.lockedOut = true) : s.lockedOut = true := by
  by_cases hstage : stage = .unbinding
  · subst hstage
    simp only [Stage.resume, GatewayStateStore.unbindHandler] at h
    cases hsave : a.save with
    | some e =>
        rw [hsave] at h
        exact h
    | none =>
        rw [hsave] at h
        exact h
  · exact (kept_resume hstage).lockedOut h

/-! ## Starts -/

theorem client_begin (s : GatewayStateStore) (o : Opening) : (s.begin o).client = none := by
  have hfresh : (s.fresh o).client = none := by
    rw [GatewayStateStore.fresh]
    split
    · rfl
    · rfl
  have hload : ∀ t : GatewayStateStore, t.load.client = t.client := by
    intro t
    rw [GatewayStateStore.load]
    split
    · rfl
    · simp only
      split
      · rfl
      · rfl
  simp only [GatewayStateStore.begin]
  split
  · exact (hload _).trans hfresh
  · exact (hload _).trans hfresh

theorem lockedOut_begin (s : GatewayStateStore) (o : Opening) :
    (s.begin o).lockedOut = s.lockedOut := by
  have hfresh : (s.fresh o).lockedOut = s.lockedOut := by
    rw [GatewayStateStore.fresh]
    split
    · rfl
    · rfl
  have hload : ∀ t : GatewayStateStore, t.load.lockedOut = t.lockedOut := by
    intro t
    rw [GatewayStateStore.load]
    split
    · rfl
    · simp only
      split
      · rfl
      · rfl
  simp only [GatewayStateStore.begin]
  split
  · exact (hload _).trans hfresh
  · exact (hload _).trans hfresh

/-- A node without a machine is not ready. -/
theorem unavailable_begin (s : GatewayStateStore) (o : Opening) :
    (s.begin o).machineCode = [] → (s.begin o).identityStatus ≠ .ready := by
  intro hcode
  simp only [GatewayStateStore.begin] at hcode ⊢
  split
  · rename_i hloaded
    rw [if_pos hloaded] at hcode
    exact absurd hcode hloaded
  · simp

/-- The marker bars a node that was locked out, whose identity it finds to be another's. -/
theorem barred_reconcileIdentityMachineMarker {o : Opening} (hclient : s.client = none)
    (hlocked : s.lockedOut = true → s.markerFile o.unreadable ≠ .text s.machineCode ∧
      (s.markerFile o.unreadable = .missing → s.auth.bindingID ≠ []) ∧
      (s.status.registration = .registered → o.rotation = none))
    (h : (s.reconcileIdentityMachineMarker (s.markerFile o.unreadable) o.rotation
      o.save).1.lockedOut = true) :
    Barred (s.reconcileIdentityMachineMarker (s.markerFile o.unreadable) o.rotation o.save).1 := by
  have hnone : ∀ client ∈ s.client, client < s.clients.length := by
    intro client hmem
    rw [hclient] at hmem
    cases hmem
  rw [GatewayStateStore.reconcileIdentityMachineMarker.eq_def] at h ⊢
  split at h
  · rename_i htext
    exact absurd htext (hlocked h).1
  · rename_i htext
    rw [if_neg htext]
    split at h
    · rename_i hmissing
      exact absurd hmissing.2 ((hlocked h).2.1 hmissing.1)
    · rename_i hmissing
      rw [if_neg hmissing]
      cases hrotation : o.rotation with
      | some e =>
          rw [hrotation] at h hlocked
          exact ⟨.inr (.inr rfl), (fun hregistered => by cases (hlocked h).2.2 hregistered), hnone⟩
      | none =>
          cases o.save with
          | some e => exact ⟨.inr (.inl rfl), (fun hregistered => by cases hregistered), hnone⟩
          | none => exact ⟨.inr (.inl rfl), (fun hregistered => by cases hregistered), hnone⟩

/-- A process that finds what it loads to be another's is barred. -/
theorem barred_reconcile {o : Opening} (hclient : s.client = none)
    (hunavailable : s.machineCode = [] → s.identityStatus ≠ .ready)
    (hforeign : s.lockedOut = true → Foreign s o) (h : (s.reconcile o).1.lockedOut = true) :
    Barred (s.reconcile o).1 := by
  have hnone : ∀ client ∈ s.client, client < s.clients.length := by
    intro client hmem
    rw [hclient] at hmem
    cases hmem
  by_cases hcode : s.machineCode = []
  · have heq : s.reconcile o = (s, false) := by
      simp [GatewayStateStore.reconcile, GatewayStateStore.reconcileMachineIdentity, hcode]
    rw [heq] at h ⊢
    exact ⟨.inl ⟨hcode, hunavailable hcode⟩,
      fun hregistered => ((hforeign h).unregistered hregistered).1 hcode, hnone⟩
  · by_cases hfound : s.auth.bindingID ≠ [] ∧ s.boundMachineCode ≠ s.machineCode
    · have heq : s.reconcileMachineIdentity o.save =
          ((s.reconcileMachineIdentity o.save).1, true) := by
        rw [GatewayStateStore.reconcileMachineIdentity, if_neg hcode, if_neg hfound.1,
          if_neg hfound.2]
        cases o.save with
        | some e => rfl
        | none => rfl
      rw [GatewayStateStore.reconcile, heq]
      rw [GatewayStateStore.reconcileMachineIdentity, if_neg hcode, if_neg hfound.1,
        if_neg hfound.2]
      cases o.save with
      | some e => exact ⟨.inr (.inl rfl), (fun hregistered => by cases hregistered), hnone⟩
      | none => exact ⟨.inr (.inl rfl), (fun hregistered => by cases hregistered), hnone⟩
    · have heq : s.reconcileMachineIdentity o.save =
          ({ s with identityStatus := .ready }, false) := by
        rw [GatewayStateStore.reconcileMachineIdentity, if_neg hcode]
        by_cases hbinding : s.auth.bindingID = []
        · rw [if_pos hbinding]
        · rw [if_neg hbinding, if_pos (by_contra fun hbound => hfound ⟨hbinding, hbound⟩)]
      rw [GatewayStateStore.reconcile, heq] at h ⊢
      simp only [hcode, if_false] at h ⊢
      refine barred_reconcileIdentityMachineMarker (o := o) hclient (fun hlocked => ?_) h
      have hstill := hforeign hlocked
      rcases hstill.found with hempty | hbound | hmarker
      · exact absurd hempty hcode
      · exact absurd hbound hfound
      · exact ⟨hmarker.1, hmarker.2, fun hregistered =>
          ((hstill.unregistered hregistered).2).resolve_right hfound⟩

/-- The client of a process changes nothing about the identity. -/
theorem barred_connectClient (o : Opening) (identity : Option String)
    (h : Barred s) : Barred (s.connectClient o identity) := by
  simp only [GatewayStateStore.connectClient]
  split
  · exact h
  · cases identity with
    | some e => exact ⟨h.identity, (fun hregistered => by cases hregistered), h.client⟩
    | none =>
        simp only [GatewayStateStore.persistIdentityMachineMarker]
        split
        · refine ⟨h.identity, h.registration, ?_⟩
          intro client hclient
          rw [← Option.some.inj hclient]
          simp [GatewayStateStore.withClient]
        · cases o.markerWrite with
          | some e =>
              refine ⟨h.identity, h.registration, ?_⟩
              intro client hclient
              rw [← Option.some.inj hclient]
              simp [GatewayStateStore.withClient]
          | none =>
              refine ⟨h.identity, h.registration, ?_⟩
              intro client hclient
              rw [← Option.some.inj hclient]
              simp [GatewayStateStore.withClient]

theorem lockedOut_connectClient (s : GatewayStateStore) (o : Opening) (identity : Option String) :
    (s.connectClient o identity).lockedOut = s.lockedOut := by
  simp only [GatewayStateStore.connectClient]
  split
  · rfl
  · cases identity with
    | some e => rfl
    | none =>
        simp only [GatewayStateStore.persistIdentityMachineMarker]
        split
        · rfl
        · cases o.markerWrite with
          | some e => rfl
          | none => rfl

theorem barred_registerGatewayRoutes {o : Opening}
    (hforeign : s.lockedOut = true → Foreign (s.begin o) o)
    (h : (s.registerGatewayRoutes o).lockedOut = true) : Barred (s.registerGatewayRoutes o) := by
  have hreconciled : ((s.begin o).reconcile o).1.lockedOut = true →
      Barred ((s.begin o).reconcile o).1 :=
    barred_reconcile (client_begin s o) (unavailable_begin s o)
      fun hlocked => hforeign (by rwa [lockedOut_begin] at hlocked)
  simp only [GatewayStateStore.registerGatewayRoutes] at h ⊢
  split
  · rename_i hrotate
    rw [if_pos hrotate] at h
    cases hrotation : o.secondRotation with
    | some e =>
        simp only [hrotation] at h
        rw [lockedOut_connectClient] at h
        have hbarred := hreconciled h
        exact barred_connectClient o _ ⟨.inr (.inr rfl), hbarred.registration, hbarred.client⟩
    | none =>
        simp only [hrotation] at h
        rw [lockedOut_connectClient] at h
        exact barred_connectClient o _ (hreconciled h)
  · rename_i hrotate
    rw [if_neg hrotate, lockedOut_connectClient] at h
    exact barred_connectClient o _ (hreconciled h)

/-! ## Runs -/

/-- A locked-out node is barred, and so is what its handlers are about to do. -/
def LockedOutBarred : System → Prop :=
  Holds (fun s => s.lockedOut = true → Barred s)
    (fun s h => s.lockedOut = true → h.stage.Barred s)

theorem lockedOutBarred_step {e : Event} (hc : LockedOutBarred c) (hforeign : StillForeign c e) :
    LockedOutBarred (c.step e) := by
  cases e with
  | turn turn =>
      change LockedOutBarred (sections.step c turn)
      refine Holds.step hc ?_ ?_
      · intro request _
        have hframed := framed_arrive c.shared request
        have hconfined : Confined c.shared (request.arrive c.shared).1 := by
          cases request with
          | start => exact ⟨rfl, rfl, rfl, id, .inl rfl, le_rfl, fun _ h => h⟩
          | login request =>
              simp only [Request.arrive]
              split
              · exact .refl _
              · exact .refl _
          | register request =>
              simp only [Request.arrive]
              split
              · exact .refl _
              · exact .refl _
          | heartbeat =>
              simp only [Request.arrive]
              split
              · exact .refl _
              · split
                · exact .refl _
                · exact .refl _
          | tick => exact .refl _
          | refresh =>
              simp only [Request.arrive]
              split
              · exact .refl _
              · exact .refl _
          | unbind => exact .refl _
        refine ⟨fun hlocked => ?_, ?_, fun h _ hh hlocked => ?_⟩
        · exact hconfined.barred (hc.shared (hframed.lockedOut.symm.trans hlocked))
        · intro h hh hlocked
          obtain ⟨stage, hstage, rfl⟩ := Option.map_eq_some_iff.mp hh
          have hbarred := hc.shared (hframed.lockedOut.symm.trans hlocked)
          exact hconfined.waiting (barred_arrive hbarred request hstage)
        · exact hconfined.waiting (hh (hframed.lockedOut.symm.trans hlocked))
      · intro i a h _ hmem _
        have hbefore : (h.stage.resume c.shared a).1.lockedOut = true →
            Barred c.shared ∧ h.stage.Barred c.shared ∧
              Confined c.shared (h.stage.resume c.shared a).1 := by
          intro hlocked
          have hwas := lockedOut_resume hlocked
          have hstage := hc.waiting h hmem hwas
          refine ⟨hc.shared hwas, hstage, (confined_resume hstage).resolve_left ?_⟩
          rw [hlocked]
          simp
        refine ⟨fun hlocked => ?_, ?_, fun other hother hkept hlocked => ?_⟩
        · obtain ⟨hshared, -, hconfined⟩ := hbefore hlocked
          exact hconfined.barred hshared
        · intro later hlater hlocked
          obtain ⟨stage, hstage, rfl⟩ := Option.map_eq_some_iff.mp hlater
          obtain ⟨hshared, hbarred, hconfined⟩ := hbefore hlocked
          exact barred_resume hshared hbarred hconfined hstage
        · obtain ⟨-, -, hconfined⟩ := hbefore hlocked
          exact hconfined.waiting (hkept (lockedOut_resume hlocked))
  | restart o =>
      refine ⟨fun hlocked => barred_registerGatewayRoutes hforeign hlocked, ?_⟩
      intro h hmem
      cases hmem

theorem LockedOutBarred.kept (hc : LockedOutBarred c) : LockoutKept c := by
  refine ⟨fun hlocked hready => ?_, fun hlocked h hmem => ?_⟩
  · rcases (hc.shared hlocked).identity with hunavailable | hchanged | herror
    · exact hunavailable.2 hready
    · rw [hready] at hchanged
      cases hchanged
    · rw [hready] at herror
      cases herror
  · exact (hc.waiting h hmem hlocked).not_oldUse

/-- In every run in which a locked-out node is started again on what is not of its machine only,
it stays locked out until a login or a registration succeeds. -/
theorem lockout_kept (o : Opening) (events : List Event)
    (hrun : Meets System.step StillForeign (System.start o) events) :
    LockoutKept (run System.step (System.start o) events) := by
  have hstart : LockedOutBarred (System.start o) := by
    refine ⟨fun hlocked => barred_registerGatewayRoutes (fun h => by cases h) hlocked, ?_⟩
    intro h hmem
    cases hmem
  have hbarred : LockedOutBarred (run System.step (System.start o) events) :=
    run_invariant (fun _ _ hc hforeign => lockedOutBarred_step hc hforeign) hstart hrun
  exact hbarred.kept

/-- The node is bound on its first machine, and the disk then moves to another one. -/
def movedTo (code : String) : Event :=
  .restart { firstOpening with machine := .ok (bytes code, 1) }

def otherMachine : Event := movedTo "sha256:7d793037a0760186574b0282f2f435e7"

/-- Neither a refresh nor a heartbeat is sent, also when the machine cannot be read. -/
theorem lockout_kept_moved : LockoutKept (run System.step (System.start firstOpening)
    (signsIn ++ [otherMachine, .turn (.arrive .refresh), .turn (.arrive .heartbeat),
      .restart { firstOpening with machine := .error "permission denied" },
      .turn (.arrive .heartbeat)])) :=
  lockout_kept firstOpening _ (by decide +kernel)

/-- The second start on the other machine finds no binding and a marker of its own. -/
theorem ready_at_second_start : ¬ LockoutKept (run System.step (System.start firstOpening)
    (signsIn ++ [otherMachine, otherMachine])) :=
  fun h => h.identity (by decide +kernel) (by decide +kernel)

end WorkMesh.Gateway
