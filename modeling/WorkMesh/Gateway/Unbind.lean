import WorkMesh.Gateway.Handlers

/-!
# Unbinding

A refresh, a login and a registration call the gateway without the lock and
write what they are told afterwards, without a look at what has happened in
between. A heartbeat writes no credentials. So an unbind is final as long as it
meets nobody on the way to new credentials.
-/

namespace WorkMesh.Gateway

open Encoding StateMachine

attribute [local irreducible] bytes

/-- No binding, token or row comes back. The row may be written with what is in memory. -/
structure Untouched (s t : GatewayStateStore) : Prop where
  auth : t.auth = s.auth ∨ t.auth = {}
  clients : t.clients = s.clients
  row : ∀ row ∈ t.row, row.auth = s.auth ∨ row ∈ s.row

/-- A node that is registered has a binding. -/
def Bound (s : GatewayStateStore) : Prop :=
  s.status.registration = .registered → s.auth.bindingID ≠ []

/-- What an event does to the binding. -/
structure UnbindFinal (c : System) (e : Event) : Prop where
  /-- A handler that began before an unbind was acknowledged brings nothing back. -/
  stale : ∀ i a h, e = .turn (.resume i a) → c.waiting[i]? = some h →
    h.seen < c.shared.unbinds → Untouched c.shared (c.step e).shared
  bound : Bound (c.step e).shared

/-- A handler that may come to write credentials. -/
def Stage.bearing : Stage → Bool
  | .revoking | .unbinding | .beat _ | .beatReading _ | .beatSent _ | .beatDone _ _
  | .postponed _ => false
  | _ => true

/-- The condition on a section. -/
def Stage.Quiet (c : System) (a : Answer) : Stage → Prop
  | .unbinding => a.save = none → ∀ h ∈ c.waiting, h.stage.bearing = false
  | .refreshed auth _ =>
      a.save = none → c.shared.status.registration = .registered → auth.bindingID ≠ []
  | .autoLoginSaving auth _ =>
      a.save = none → c.shared.status.registration = .registered → auth.bindingID ≠ []
  | .beatDone .recovery (some _) => a.save = none → c.shared.auth.bindingID ≠ []
  | _ => True

/-- When an unbind takes effect nobody is on the way to new credentials, what is stored for a
registered node has a binding, and only a node with a binding is marked as offline. -/
def Quiet (c : System) : Event → Prop
  | .turn (.resume i a) => ∀ h ∈ c.waiting[i]?, h.stage.Quiet c a
  | _ => True

instance (c : System) (a : Answer) : DecidablePred (Stage.Quiet c a) := fun
  | .unbinding =>
      inferInstanceAs (Decidable (a.save = none → ∀ h ∈ c.waiting, h.stage.bearing = false))
  | .refreshed auth _ | .autoLoginSaving auth _ => inferInstanceAs (Decidable (
      a.save = none → c.shared.status.registration = .registered → auth.bindingID ≠ []))
  | .beatDone .recovery (some _) =>
      inferInstanceAs (Decidable (a.save = none → c.shared.auth.bindingID ≠ []))
  | .beatDone .recovery none | .beatDone .handler _ | .beatDone .tick _
  | .login _ | .loginClient _ | .loginSent _ _ | .loginAnswered _ _ _ | .loginHeartbeat _ _ _ _
  | .loginRegister _ _ _ | .verifying _ _ _ | .saving _ _ | .launching | .refreshing _
  | .revoking | .beat _ | .beatReading _ | .beatSent _ | .connecting | .autoLogin _
  | .autoLoginSent _ _ | .postponed _ | .registering _ | .registered _ | .register _
  | .registerExisting _ | .registerClient _ | .registerSent _ _ | .registerSaving _ _ _ =>
      .isTrue trivial

instance (c : System) : DecidablePred (Quiet c) := fun
  | .turn (.resume i a) =>
      inferInstanceAs (Decidable (∀ h ∈ c.waiting[i]?, h.stage.Quiet c a))
  | .turn (.arrive _) | .restart _ => .isTrue trivial

/-! ## Sections -/

variable {c : System} {s t : GatewayStateStore} {stage : Stage} {a : Answer}

theorem Framed.bound (h : Framed s t) (hs : Bound s) : Bound t := by
  intro hregistered
  rw [h.status] at hregistered
  rw [h.auth]
  exact hs hregistered

/-- A write of the status that registers nobody. -/
theorem bound_withStatus {status : Status} {failure : Option String} (hs : Bound s)
    (hstatus : failure = none → status.registration = .registered → s.auth.bindingID ≠ []) :
    Bound (s.withStatus status failure).1 := by
  rcases s.withStatus_cases status failure with ⟨heq, -⟩ | ⟨heq, hsaved⟩
  · rw [heq]
    exact hs
  · rw [heq]
    exact hstatus hsaved

theorem bound_saveBound {next : GatewayStateStore} (hs : Bound s) (hnext : Bound next) :
    Bound (s.saveBound next a).1 := by
  rcases s.saveBound_cases next a with ⟨⟨row, heq⟩, -⟩ | ⟨⟨row, marker, heq⟩, -⟩
  · rw [heq]
    exact hs
  · rw [heq]
    exact hnext

theorem bound_resume (hs : Bound c.shared) (hquiet : stage.Quiet c a) :
    Bound (stage.resume c.shared a).1 := by
  by_cases hstores : stage.stores = false
  · exact (framed_resume hstores).bound hs
  · cases stage with
    | saving username auth =>
        rw [resume_saving, GatewayStateStore.saveLoginState]
        split
        · exact hs
        · rename_i hbinding
          exact bound_saveBound hs fun _ => hbinding
    | refreshed auth issued =>
        simp only [Stage.resume, GatewayStateStore.storeRefreshed]
        cases hsave : a.save with
        | some e => exact hs
        | none =>
            simp only [GatewayStateStore.persistLocked]
            split
            · exact fun hregistered => hquiet hsave hregistered
            · exact fun hregistered => hquiet hsave hregistered
    | unbinding =>
        simp only [Stage.resume, GatewayStateStore.unbindHandler]
        cases a.save with
        | some e => exact hs
        | none => exact fun hregistered => by cases hregistered
    | beatDone by_ error =>
        cases by_ with
        | handler =>
            simp only [Stage.resume]
            split
            · exact hs
            · exact bound_withStatus hs fun _ hregistered => hs hregistered
        | tick =>
            cases error with
            | some e => exact bound_withStatus hs fun _ hregistered => hs hregistered
            | none =>
                refine bound_withStatus hs fun _ hregistered hbinding => ?_
                rw [if_neg (not_not.mpr hbinding)] at hregistered
                exact hs hregistered hbinding
        | recovery =>
            cases error with
            | some e => exact bound_withStatus hs fun hsave _ => hquiet hsave
            | none => exact bound_withStatus hs fun _ hregistered => hs hregistered
    | autoLoginSaving auth after =>
        rw [resume_autoLoginSaving, GatewayStateStore.storeLogin]
        cases hsave : a.save with
        | some e => exact hs
        | none => exact fun hregistered => hquiet hsave hregistered
    | postponed reason =>
        exact bound_withStatus hs fun _ hregistered => by cases hregistered
    | registered result =>
        cases result with
        | error e => exact bound_withStatus hs fun _ hregistered => by cases hregistered
        | ok auth =>
            simp only [Stage.resume, GatewayStateStore.connectGateway]
            cases a.save with
            | some e => exact hs
            | none => exact fun _ => auth.2
    | registerSaving client url auth =>
        rw [resume_registerSaving]
        exact bound_saveBound hs fun _ => auth.2
    | _ => exact absurd rfl hstores

theorem bound_load (hs : Bound s) : Bound s.load := by
  rw [GatewayStateStore.load]
  split
  · exact hs
  · simp only
    split
    · exact fun hregistered => by cases hregistered
    · rename_i row hboth
      exact fun hregistered hbinding => hboth ⟨hregistered, hbinding⟩

theorem bound_fresh (s : GatewayStateStore) (o : Opening) : Bound (s.fresh o) := by
  rw [GatewayStateStore.fresh]
  split
  · exact fun hregistered => by cases hregistered
  · exact fun hregistered => by cases hregistered

theorem bound_begin (s : GatewayStateStore) (o : Opening) : Bound (s.begin o) := by
  have hloaded := bound_load (bound_fresh s o)
  simp only [GatewayStateStore.begin]
  split
  · exact hloaded
  · exact hloaded

theorem bound_reconcile (hs : Bound s) (o : Opening) : Bound (s.reconcile o).1 := by
  have hmachine : Bound (s.reconcileMachineIdentity o.save).1 := by
    rw [GatewayStateStore.reconcileMachineIdentity]
    split
    · exact hs
    · split
      · exact hs
      · split
        · exact hs
        · cases o.save with
          | some e => exact fun hregistered => by cases hregistered
          | none => exact fun hregistered => by cases hregistered
  have hmarker : ∀ {t : GatewayStateStore} (file : GatewayStateStore.MarkerFile), Bound t →
      Bound (t.reconcileIdentityMachineMarker file o.rotation o.save).1 := by
    intro t file ht
    rw [GatewayStateStore.reconcileIdentityMachineMarker.eq_def]
    split
    · exact ht
    · split
      · exact ht
      · cases o.rotation with
        | some e => exact ht
        | none =>
            cases o.save with
            | some e => exact fun hregistered => by cases hregistered
            | none => exact fun hregistered => by cases hregistered
  rw [GatewayStateStore.reconcile]
  split
  · rename_i heq
    rwa [heq] at hmachine
  · rename_i heq
    rw [heq] at hmachine
    split
    · exact hmachine
    · exact hmarker _ hmachine

theorem bound_connectClient (hs : Bound s) (o : Opening) (identity : Option String) :
    Bound (s.connectClient o identity) := by
  simp only [GatewayStateStore.connectClient]
  split
  · exact hs
  · cases identity with
    | some e => exact fun hregistered => by cases hregistered
    | none =>
        simp only [GatewayStateStore.persistIdentityMachineMarker]
        split
        · exact hs
        · cases o.markerWrite with
          | some e => exact hs
          | none => exact hs

/-- A new process takes over a registration with its binding only. -/
theorem bound_registerGatewayRoutes (s : GatewayStateStore) (o : Opening) :
    Bound (s.registerGatewayRoutes o) := by
  have hreconciled := bound_reconcile (bound_begin s o) o
  simp only [GatewayStateStore.registerGatewayRoutes]
  split
  · cases o.secondRotation with
    | some e =>
        refine bound_connectClient ?_ o (some e)
        exact hreconciled
    | none => exact bound_connectClient hreconciled o none
  · exact bound_connectClient hreconciled o o.identity

/-! ## Stale handlers -/

/-- A handler that is not on the way to credentials does not come there. -/
theorem bearing_resume (hstage : stage.bearing = false) {later : Stage}
    (hlater : later ∈ (stage.resume s a).2) : later.bearing = false := by
  cases stage with
  | revoking =>
      simp only [Stage.resume] at hlater
      split at hlater
      · rw [← Option.some.inj hlater]
        rfl
      · cases hlater
  | unbinding => cases hlater
  | beat by_ =>
      simp only [Stage.resume] at hlater
      split at hlater
      · rw [← Option.some.inj hlater]
        rfl
      · rw [← Option.some.inj hlater]
        rfl
  | beatReading by_ =>
      simp only [Stage.resume] at hlater
      split at hlater
      · rw [← Option.some.inj hlater]
        rfl
      · rw [← Option.some.inj hlater]
        rfl
  | beatSent by_ =>
      rw [← Option.some.inj hlater]
      rfl
  | beatDone by_ error =>
      cases by_ with
      | handler =>
          simp only [Stage.resume] at hlater
          split at hlater
          · cases hlater
          · cases hlater
      | tick => cases hlater
      | recovery =>
          simp only [Stage.resume] at hlater
          split at hlater
          · cases hlater
          · cases hlater
  | postponed reason => cases hlater
  | _ => cases hstage

theorem Framed.untouched (h : Framed s t) (hclients : t.clients = s.clients) : Untouched s t :=
  ⟨.inl h.auth, hclients, fun row hrow => .inr (by rwa [← h.row])⟩

theorem untouched_refl (s : GatewayStateStore) : Untouched s s :=
  (Framed.refl s).untouched rfl

theorem untouched_withStatus (s : GatewayStateStore) (status : Status)
    (failure : Option String) : Untouched s (s.withStatus status failure).1 := by
  rcases s.withStatus_cases status failure with ⟨heq, -⟩ | ⟨heq, -⟩
  · rw [heq]
    exact untouched_refl s
  · rw [heq]
    refine ⟨.inl rfl, rfl, fun row hrow => .inl ?_⟩
    rw [← Option.some.inj hrow]
    rfl

theorem untouched_resume (hstage : stage.bearing = false) :
    Untouched s (stage.resume s a).1 := by
  cases stage with
  | revoking => exact untouched_refl s
  | unbinding =>
      simp only [Stage.resume, GatewayStateStore.unbindHandler]
      cases a.save with
      | some e => exact untouched_refl s
      | none => exact ⟨.inr rfl, rfl, fun row hrow => by cases hrow⟩
  | beat by_ =>
      simp only [Stage.resume]
      split
      · exact untouched_refl s
      · exact untouched_refl s
  | beatReading by_ =>
      simp only [Stage.resume]
      split
      · exact untouched_refl s
      · exact untouched_refl s
  | beatSent by_ => exact untouched_refl s
  | beatDone by_ error =>
      cases by_ with
      | handler =>
          simp only [Stage.resume]
          split
          · exact untouched_refl s
          · exact untouched_withStatus s _ a.save
      | tick =>
          cases error with
          | some e => exact untouched_withStatus s _ a.save
          | none => exact untouched_withStatus s _ a.save
      | recovery =>
          cases error with
          | some e => exact untouched_withStatus s _ a.save
          | none => exact untouched_withStatus s _ a.save
  | postponed reason => exact untouched_withStatus s _ a.save
  | _ => cases hstage

/-! ## The count of unbinds -/

/-- Only an unbind that takes effect counts as one. -/
theorem unbinds_resume (s : GatewayStateStore) (stage : Stage) (a : Answer) :
    (stage.resume s a).1.unbinds = s.unbinds ∨
      stage = .unbinding ∧ a.save = none ∧ (stage.resume s a).1.unbinds = s.unbinds + 1 := by
  by_cases hstage : stage = .unbinding
  · subst hstage
    simp only [Stage.resume, GatewayStateStore.unbindHandler]
    cases hsave : a.save with
    | some e => exact .inl rfl
    | none => exact .inr ⟨trivial, rfl, rfl⟩
  · exact .inl (kept_resume hstage).unbinds

/-! ## Runs -/

/-- A handler that began before the latest unbind is not on the way to credentials. -/
structure Settled (s : GatewayStateStore) (h : Handler) : Prop where
  seen : h.seen ≤ s.unbinds
  stale : h.seen < s.unbinds → h.stage.bearing = false

theorem Settled.of_unbinds {h : Handler} (hs : Settled s h) (heq : t.unbinds = s.unbinds) :
    Settled t h :=
  ⟨by rw [heq]; exact hs.seen, fun hlt => hs.stale (by rwa [heq] at hlt)⟩

theorem holds_step {e : Event} (hc : Holds Bound Settled c) (hquiet : Quiet c e) :
    Holds Bound Settled (c.step e) := by
  cases e with
  | turn turn =>
      change Holds Bound Settled (sections.step c turn)
      refine hc.step ?_ ?_
      · intro request _
        have hframed := framed_arrive c.shared request
        refine ⟨hframed.bound hc.shared, ?_, fun h _ hh => hh.of_unbinds hframed.unbinds⟩
        intro h hh
        obtain ⟨stage, -, rfl⟩ := Option.map_eq_some_iff.mp hh
        exact ⟨le_of_eq hframed.unbinds.symm, fun hlt => absurd hlt (by
          rw [show (sections.arrive c.shared request).1.unbinds = c.shared.unbinds from
            hframed.unbinds]
          exact lt_irrefl _)⟩
      · intro i a h hturn hmem hwaiting
        subst hturn
        have hstage := hquiet h hwaiting
        refine ⟨bound_resume hc.shared hstage, ?_, ?_⟩
        · intro later hlater
          obtain ⟨stage, hstage', rfl⟩ := Option.map_eq_some_iff.mp hlater
          rcases unbinds_resume c.shared h.stage a with hsame | ⟨hunbind, -, -⟩
          · refine ⟨?_, fun hlt => ?_⟩
            · exact le_of_le_of_eq (hc.waiting h hmem).seen hsame.symm
            · exact bearing_resume ((hc.waiting h hmem).stale (lt_of_lt_of_eq hlt hsame)) hstage'
          · rw [hunbind] at hstage'
            cases hstage'
        · intro other hother hsettled
          rcases unbinds_resume c.shared h.stage a with hsame | ⟨hunbind, hsave, hmore⟩
          · exact hsettled.of_unbinds hsame
          · refine ⟨le_trans hsettled.seen (le_of_le_of_eq (Nat.le_succ _) hmore.symm), fun _ => ?_⟩
            rw [hunbind] at hstage
            exact hstage hsave other hother
  | restart o =>
      refine ⟨bound_registerGatewayRoutes c.shared o, ?_⟩
      intro h hmem
      cases hmem

theorem unbindFinal_step {e : Event} (hc : Holds Bound Settled c) (hquiet : Quiet c e) :
    UnbindFinal c e := by
  refine ⟨?_, (holds_step hc hquiet).shared⟩
  rintro i a h rfl hwaiting hlt
  have hstage := (hc.waiting h (List.mem_of_getElem? hwaiting)).stale hlt
  simp only [System.step, Sections.step, hwaiting]
  exact untouched_resume hstage

/-- In every run whose sections are all quiet, no unbind is taken back, and a node that is
registered has a binding. -/
theorem unbind_final (o : Opening) (events : List Event)
    (hrun : Meets System.step Quiet (System.start o) events) :
    Meets System.step UnbindFinal (System.start o) events := by
  have hstart : Holds Bound Settled (System.start o) := by
    refine ⟨bound_registerGatewayRoutes _ o, ?_⟩
    intro h hmem
    cases hmem
  have hboth := hrun.with_invariant (P := Holds Bound Settled)
    (fun _ _ hc hquiet => holds_step hc hquiet) hstart
  exact hboth.mono fun c e h => unbindFinal_step h.2 h.1

/-! ## A refresh around an unbind -/

/-- The answer to a refresh has arrived. -/
def refreshAnswered : List Event :=
  signsIn ++ [.turn (.arrive .refresh),
    continues { refresh := { token := bytes "second", bindingID := bytes "binding" } }]

/-- A user unbinds the node. -/
def unbindsNode : List Event := [.turn (.arrive .unbind), continues {}, continues {}]

/-- The refresh is stored before the node is unbound. -/
theorem unbind_final_after_refresh : Meets System.step UnbindFinal (System.start firstOpening)
    (refreshAnswered ++ [continues {}] ++ unbindsNode) :=
  unbind_final firstOpening _ (by decide +kernel)

/-- The refresh is stored after the node has been unbound. -/
theorem refresh_restores_binding : ¬ Meets System.step UnbindFinal (System.start firstOpening)
    (refreshAnswered ++ unbindsNode ++ [continues {}]) := by
  intro h
  have hlast := (meets_append.mp h).2.1
  obtain ⟨handler, hwaiting⟩ : ∃ handler, (run System.step (System.start firstOpening)
      (refreshAnswered ++ unbindsNode)).waiting[0]? = some handler :=
    Option.isSome_iff_exists.mp (by decide +kernel)
  have hlt : ∀ handler ∈ (run System.step (System.start firstOpening)
      (refreshAnswered ++ unbindsNode)).waiting[0]?, handler.seen < (run System.step
        (System.start firstOpening) (refreshAnswered ++ unbindsNode)).shared.unbinds := by
    decide +kernel
  have hauth := (hlast.stale 0 {} handler rfl hwaiting (hlt handler hwaiting)).auth
  revert hauth
  decide +kernel

end WorkMesh.Gateway
