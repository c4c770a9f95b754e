import WorkMesh.Role.Fencing

/-!
# What is prepared can still be committed

A prepared operation expects the epoch of the manager. The epoch moves on with
every change of the role, whoever commits it, so an operation that is prepared on
one side goes stale when the other side switches. It stays prepared and keeps the
place from the next one.
-/

namespace WorkMesh.Role

open StateMachine

/-- The operation expects the epoch of the manager and has a role to switch to. -/
structure Committable (m : Manager) (p : Prepared) : Prop where
  epoch : p.transition.expectedEpoch = m.state.roleEpoch
  valid : validRole p.transition.toRole = true

/-- What the server has pending is committable, unless its commit has already switched and
is about to clear it. -/
def PendingFits (s : System) : Prop :=
  s.shared.pending.operationID ≠ "" → Committable s.shared.manager s.shared.pending ∨
    ∃ request answer, .fencingClear request s.shared.pending answer ∈ s.waiting

/-- The same for the controller. -/
def StateFits (s : System) : Prop :=
  s.shared.state.operationID ≠ "" → Committable s.shared.manager s.shared.state ∨
    .clear s.shared.state ∈ s.waiting

structure NoneStuck (s : System) : Prop where
  pending : PendingFits s
  state : StateFits s

/-- A commit of the operation changes the role. -/
def Changes (s : Shared) (p : Prepared) (conditions : Conditions) : Prop :=
  s.manager.Changes s.disk conditions.cancelled conditions.failure p.transition.expectedEpoch
    p.transition.toRole

/-- An operation is prepared at the epoch it was checked against, with a role to switch to,
and a commit that changes the role finds nothing else prepared. -/
def Timely (s : System) : Turn Call Conditions → Prop
  | .arrive _ => True
  | .resume i conditions =>
      match s.waiting[i]? with
      | some (.fencingPrepare request) => (s.shared.pending.operationID = "" ∨
          s.shared.pending.operationID = request.operationID) →
            request.expectedEpoch = s.shared.manager.state.roleEpoch
      | some (.prepare request) => request.expectedEpoch = s.shared.manager.state.roleEpoch ∧
          validRole request.toRole = true
      | some (.fencingCommit _ p) => Changes s.shared p conditions →
          (s.shared.pending.operationID ≠ "" → s.shared.pending = p ∨
            ∃ request answer, .fencingClear request s.shared.pending answer ∈ s.waiting) ∧
          (s.shared.state.operationID ≠ "" → .clear s.shared.state ∈ s.waiting)
      | some (.commit p) => Changes s.shared p conditions →
          (s.shared.pending.operationID ≠ "" →
            ∃ request answer, .fencingClear request s.shared.pending answer ∈ s.waiting) ∧
          (s.shared.state.operationID ≠ "" →
            s.shared.state = p ∨ .clear s.shared.state ∈ s.waiting)
      | _ => True

/-- What the server has checked before it takes the lock. -/
def Checked (_ : Shared) : Handler → Prop
  | .fencingPrepare request => validRole request.toRole = true
  | _ => True

/-- A committable operation is committed as long as the medium takes the new state. -/
theorem Committable.commits {s : Shared} {p : Prepared} (h : Committable s.manager p) {disk : Disk}
    (hsaved : save s.manager.medium s.manager.state
      (s.manager.state.changed p.transition.toRole) none s.disk = .ok disk) :
    ∃ state, (s.manager.switch s.disk false none p.transition.expectedEpoch
      p.transition.toRole).answer = .ok state := by
  by_cases hrole : p.transition.toRole = s.manager.state.role
  · exact ⟨s.manager.state, by simp [Manager.switch, h.epoch, ← hrole, h.valid]⟩
  · refine ⟨s.manager.state.changed p.transition.toRole, ?_⟩
    rw [State.changed] at hsaved ⊢
    simp [Manager.switch, h.valid, h.epoch, hrole, hsaved]

section Frame
variable {s t : System}

theorem PendingFits.frame (h : PendingFits s) (hpending : t.shared.pending = s.shared.pending)
    (hmanager : t.shared.manager = s.shared.manager)
    (hwaiting : ∀ request answer, .fencingClear request s.shared.pending answer ∈ s.waiting →
      .fencingClear request s.shared.pending answer ∈ t.waiting) : PendingFits t := by
  intro hprepared
  rw [hpending] at hprepared
  rw [hpending, hmanager]
  refine (h hprepared).imp_right ?_
  rintro ⟨request, answer, hclear⟩
  exact ⟨request, answer, hwaiting request answer hclear⟩

theorem StateFits.frame (h : StateFits s) (hstate : t.shared.state = s.shared.state)
    (hmanager : t.shared.manager = s.shared.manager)
    (hwaiting : .clear s.shared.state ∈ s.waiting → .clear s.shared.state ∈ t.waiting) :
    StateFits t := by
  intro hprepared
  rw [hstate] at hprepared
  rw [hstate, hmanager]
  exact (h hprepared).imp_right hwaiting

theorem pendingFits_zero (h : t.shared.pending = .zero) : PendingFits t := by
  intro hprepared
  rw [h] at hprepared
  exact absurd rfl hprepared

theorem stateFits_zero (h : t.shared.state = .zero) : StateFits t := by
  intro hprepared
  rw [h] at hprepared
  exact absurd rfl hprepared

end Frame

/-! ## The first sections -/

theorem validRole_of_validateTransition {state : State} {request : Transition} {required : Bool}
    (h : validateTransition state request required = .ok ()) :
    validRole request.toRole = true := by
  by_contra hrole
  have htarget : request.toRole ≠ primary ∧ request.toRole ≠ secondary := by
    simpa [validRole] using hrole
  simp only [validateTransition, if_pos htarget] at h
  split_ifs at h

/-- A first section does not switch the role, leaves what is prepared or drops it, and has
checked the target of a request that is to be prepared. -/
structure FirstSection (before : Shared) (result : Shared × Option Handler) : Prop where
  manager : result.1.manager = before.manager
  pending : result.1.pending = before.pending ∨ result.1.pending = .zero
  state : result.1.state = before.state ∨ result.1.state = .zero
  next : ∀ handler, result.2 = some handler → Checked result.1 handler

theorem firstSection_reads {u : Shared} {handler : Handler} (h : Checked u handler) :
    FirstSection u (u, some handler) := by
  refine ⟨rfl, .inl rfl, .inl rfl, fun next hnext => ?_⟩
  obtain rfl := Option.some.inj hnext
  exact h

theorem firstSection_orEnd {u : Shared} {result : Except String (Shared × Option Handler)}
    (h : ∀ next, result = .ok next → FirstSection u next) : FirstSection u (orEnd u result) := by
  cases result with
  | error err => exact ⟨rfl, .inl rfl, .inl rfl, fun _ hnone => by cases hnone⟩
  | ok next => exact h next rfl

theorem firstSection_arrive (u : Shared) (call : Call) : FirstSection u (arrive u call) := by
  cases call with
  | fencingPrepare request =>
      refine firstSection_orEnd fun next hnext => ?_
      simp only [fencingPrepare] at hnext
      cases hvalid : validateTransition u.manager.state request true with
      | error err =>
          rw [hvalid] at hnext
          cases hnext
      | ok _ =>
          rw [hvalid] at hnext
          obtain rfl := Except.ok.inj hnext
          exact firstSection_reads (validRole_of_validateTransition hvalid)
  | fencingCommit request =>
      refine firstSection_orEnd fun next hnext => ?_
      simp only [fencingCommit] at hnext
      split at hnext
      · cases hnext
      · split at hnext
        · cases hnext
        · obtain rfl := Except.ok.inj hnext
          exact firstSection_reads trivial
  | fencingAbort request =>
      refine firstSection_orEnd fun next hnext => ?_
      simp only [fencingAbort] at hnext
      split at hnext
      · cases hnext
      · obtain rfl := Except.ok.inj hnext
        exact ⟨rfl, .inr rfl, .inl rfl, fun _ hnone => by cases hnone⟩
  | prepare request =>
      refine firstSection_orEnd fun next hnext => ?_
      simp only [prepare] at hnext
      split at hnext
      · cases hnext
      · split at hnext
        · cases hnext
        · obtain rfl := Except.ok.inj hnext
          exact firstSection_reads trivial
  | commit =>
      refine firstSection_orEnd fun next hnext => ?_
      simp only [commit] at hnext
      split at hnext
      · cases hnext
      · obtain rfl := Except.ok.inj hnext
        exact firstSection_reads trivial
  | abort => exact ⟨rfl, .inl rfl, .inr rfl, fun _ hnone => by cases hnone⟩

theorem NoneStuck.arrive {s : System} (h : NoneStuck s) (call : Call) :
    NoneStuck (s.step (.arrive call)) := by
  have hfirst := firstSection_arrive s.shared call
  constructor
  · cases hfirst.pending with
    | inl hsame =>
        exact h.pending.frame hsame hfirst.manager fun request answer hclear =>
          List.mem_append_right _ hclear
    | inr hzero => exact pendingFits_zero hzero
  · cases hfirst.state with
    | inl hsame =>
        exact h.state.frame hsame hfirst.manager fun hclear => List.mem_append_right _ hclear
    | inr hzero => exact stateFits_zero hzero

/-! ## The later sections -/

section Resume
variable {s : System} {i : Nat} {conditions : Conditions}

/-- The state after a later section. -/
def resumed (s : System) (i : Nat) (result : Shared × Option Handler) : System :=
  ⟨result.1, result.2.toList ++ s.waiting.eraseIdx i⟩

theorem step_resume {handler : Handler} (hhandler : s.waiting[i]? = some handler) :
    s.step (.resume i conditions) = resumed s i (resume s.shared handler conditions) := by
  simp only [System.step, Sections.step, hhandler]
  rfl

theorem PendingFits.resumed (h : PendingFits s) {handler : Handler}
    (hhandler : s.waiting[i]? = some handler) {result : Shared × Option Handler}
    (hpending : result.1.pending = s.shared.pending)
    (hmanager : result.1.manager = s.shared.manager)
    (hother : ∀ request answer, handler ≠ .fencingClear request s.shared.pending answer) :
    PendingFits (resumed s i result) :=
  h.frame hpending hmanager fun request answer hclear => List.mem_append_right _
    (mem_eraseIdx_of_ne hhandler hclear (hother request answer).symm)

theorem StateFits.resumed (h : StateFits s) {handler : Handler}
    (hhandler : s.waiting[i]? = some handler) {result : Shared × Option Handler}
    (hstate : result.1.state = s.shared.state)
    (hmanager : result.1.manager = s.shared.manager)
    (hother : handler ≠ .clear s.shared.state) : StateFits (resumed s i result) :=
  h.frame hstate hmanager fun hclear => List.mem_append_right _
    (mem_eraseIdx_of_ne hhandler hclear hother.symm)

theorem noneStuck_fencingPrepare (h : NoneStuck s) {request : Transition}
    (hhandler : s.waiting[i]? = some (.fencingPrepare request))
    (hvalid : validRole request.toRole = true)
    (htimely : (s.shared.pending.operationID = "" ∨
      s.shared.pending.operationID = request.operationID) →
        request.expectedEpoch = s.shared.manager.state.roleEpoch) :
    NoneStuck (resumed s i (orEnd s.shared (fencingPrepareLocked s.shared request))) := by
  by_cases hbusy : s.shared.pending.operationID ≠ "" ∧
      s.shared.pending.operationID ≠ request.operationID
  · rw [fencingPrepareLocked, if_pos hbusy]
    exact ⟨h.pending.resumed hhandler rfl rfl (by simp), h.state.resumed hhandler rfl rfl (by simp)⟩
  · rw [fencingPrepareLocked, if_neg hbusy]
    have hepoch := htimely (by tauto)
    exact ⟨fun _ => .inl ⟨hepoch, hvalid⟩, h.state.resumed hhandler rfl rfl (by simp)⟩

theorem noneStuck_prepare (h : NoneStuck s) {request : Transition}
    (hhandler : s.waiting[i]? = some (.prepare request))
    (htimely : request.expectedEpoch = s.shared.manager.state.roleEpoch ∧
      validRole request.toRole = true) :
    NoneStuck (resumed s i (prepareLocked s.shared request)) :=
  ⟨h.pending.resumed hhandler rfl rfl (by simp), fun _ => .inl ⟨htimely.1, htimely.2⟩⟩

theorem noneStuck_fencingClear (h : NoneStuck s) {request : Transition} {p : Prepared}
    {answer : State} (hhandler : s.waiting[i]? = some (.fencingClear request p answer)) :
    NoneStuck (resumed s i (fencingCommitClear s.shared request p answer)) :=
  ⟨pendingFits_zero rfl, h.state.resumed hhandler rfl rfl (by simp)⟩

theorem noneStuck_clear (h : NoneStuck s) {p : Prepared}
    (hhandler : s.waiting[i]? = some (.clear p)) :
    NoneStuck (resumed s i (commitClear s.shared)) :=
  ⟨h.pending.resumed hhandler rfl rfl (by simp), stateFits_zero rfl⟩

theorem noneStuck_fencingCommit (h : NoneStuck s) {request : Transition} {p : Prepared}
    (hhandler : s.waiting[i]? = some (.fencingCommit request p))
    (htimely : Changes s.shared p conditions →
      (s.shared.pending.operationID ≠ "" → s.shared.pending = p ∨
        ∃ request answer, .fencingClear request s.shared.pending answer ∈ s.waiting) ∧
      (s.shared.state.operationID ≠ "" → .clear s.shared.state ∈ s.waiting)) :
    NoneStuck (resumed s i
      (orEnd s.shared (fencingCommitSwitch s.shared request p conditions))) := by
  have hkeeps : ¬Changes s.shared p conditions → _ := switch_unchanged
  rw [fencingCommitSwitch]
  generalize s.shared.manager.switch s.shared.disk conditions.cancelled conditions.failure
    p.transition.expectedEpoch p.transition.toRole = switched at hkeeps ⊢
  cases switched.answer with
  | error err =>
      exact ⟨h.pending.resumed hhandler rfl rfl (by simp), h.state.resumed hhandler rfl rfl (by simp)⟩
  | ok state =>
      by_cases hchanges : Changes s.shared p conditions
      · obtain ⟨hpending, hstate⟩ := htimely hchanges
        constructor
        · intro hprepared
          cases hpending hprepared with
          | inl hown => exact .inr ⟨request, state, hown ▸ List.mem_cons_self⟩
          | inr hclear =>
              obtain ⟨other, answer, hmem⟩ := hclear
              exact .inr ⟨other, answer, List.mem_append_right _
                (mem_eraseIdx_of_ne hhandler hmem (by simp))⟩
        · intro hprepared
          exact .inr (List.mem_append_right _
            (mem_eraseIdx_of_ne hhandler (hstate hprepared) (by simp)))
      · have hmanager := (hkeeps hchanges).1
        exact ⟨h.pending.resumed hhandler rfl hmanager (by simp),
          h.state.resumed hhandler rfl hmanager (by simp)⟩

theorem noneStuck_commit (h : NoneStuck s) {p : Prepared}
    (hhandler : s.waiting[i]? = some (.commit p))
    (htimely : Changes s.shared p conditions →
      (s.shared.pending.operationID ≠ "" →
        ∃ request answer, .fencingClear request s.shared.pending answer ∈ s.waiting) ∧
      (s.shared.state.operationID ≠ "" →
        s.shared.state = p ∨ .clear s.shared.state ∈ s.waiting)) :
    NoneStuck (resumed s i (orEnd s.shared (commitSwitch s.shared p conditions))) := by
  have hkeeps : ¬Changes s.shared p conditions → _ := switch_unchanged
  rw [commitSwitch]
  generalize s.shared.manager.switch s.shared.disk conditions.cancelled conditions.failure
    p.transition.expectedEpoch p.transition.toRole = switched at hkeeps ⊢
  cases switched.answer with
  | error err =>
      exact ⟨h.pending.resumed hhandler rfl rfl (by simp), h.state.resumed hhandler rfl rfl (by simp)⟩
  | ok state =>
      by_cases hchanges : Changes s.shared p conditions
      · obtain ⟨hpending, hstate⟩ := htimely hchanges
        constructor
        · intro hprepared
          obtain ⟨request, answer, hmem⟩ := hpending hprepared
          exact .inr ⟨request, answer, List.mem_append_right _
            (mem_eraseIdx_of_ne hhandler hmem (by simp))⟩
        · intro hprepared
          cases hstate hprepared with
          | inl hown => exact .inr (hown ▸ List.mem_cons_self)
          | inr hmem => exact .inr (List.mem_append_right _
              (mem_eraseIdx_of_ne hhandler hmem (by simp)))
      · have hmanager := (hkeeps hchanges).1
        exact ⟨h.pending.resumed hhandler rfl hmanager (by simp),
          h.state.resumed hhandler rfl hmanager (by simp)⟩

end Resume

/-! ## Runs -/

/-- What waits after a later section is not waiting to prepare. -/
theorem checked_resume {u : Shared} {handler next : Handler} {conditions : Conditions}
    (h : (resume u handler conditions).2 = some next) : Checked u next := by
  cases handler with
  | fencingPrepare request =>
      simp only [resume, fencingPrepareLocked] at h
      split at h
      · cases h
      · cases h
  | fencingCommit request p =>
      simp only [resume, fencingCommitSwitch] at h
      generalize u.manager.switch u.disk conditions.cancelled conditions.failure
        p.transition.expectedEpoch p.transition.toRole = switched at h
      cases hanswer : switched.answer with
      | error err =>
          rw [hanswer] at h
          cases h
      | ok state =>
          rw [hanswer] at h
          obtain rfl := Option.some.inj h
          trivial
  | fencingClear request p answer => cases h
  | prepare request => cases h
  | commit p =>
      simp only [resume, commitSwitch] at h
      generalize u.manager.switch u.disk conditions.cancelled conditions.failure
        p.transition.expectedEpoch p.transition.toRole = switched at h
      cases hanswer : switched.answer with
      | error err =>
          rw [hanswer] at h
          cases h
      | ok state =>
          rw [hanswer] at h
          obtain rfl := Option.some.inj h
          trivial
  | clear p => cases h

/-- A handler of the server that waits for its lock has checked the target role. -/
theorem checked_step {s : System} (h : Holds (fun _ => True) Checked s)
    (turn : Turn Call Conditions) : Holds (fun _ => True) Checked (s.step turn) := by
  refine h.step ?_ ?_
  · rintro request rfl
    exact ⟨trivial, (firstSection_arrive s.shared request).next, fun _ _ hchecked => hchecked⟩
  · rintro i conditions handler rfl _ _
    exact ⟨trivial, fun _ => checked_resume, fun _ _ hchecked => hchecked⟩

theorem noneStuck_step {s : System} (h : NoneStuck s) (hchecked : Holds (fun _ => True) Checked s)
    {turn : Turn Call Conditions} (htimely : Timely s turn) : NoneStuck (s.step turn) := by
  cases turn with
  | arrive call => exact h.arrive call
  | resume i conditions =>
      cases hhandler : s.waiting[i]? with
      | none =>
          simp only [System.step, Sections.step, hhandler]
          exact h
      | some handler =>
          rw [step_resume hhandler]
          simp only [Timely, hhandler] at htimely
          cases handler with
          | fencingPrepare request =>
              have hvalid := hchecked.waiting _ (List.mem_of_getElem? hhandler)
              exact noneStuck_fencingPrepare h hhandler hvalid htimely
          | fencingCommit request p => exact noneStuck_fencingCommit h hhandler htimely
          | fencingClear request p answer => exact noneStuck_fencingClear h hhandler
          | prepare request => exact noneStuck_prepare h hhandler htimely
          | commit p => exact noneStuck_commit h hhandler htimely
          | clear p => exact noneStuck_clear h hhandler

/-- While operations are prepared at the epoch they were checked against, and the role
changes only when nothing else is prepared, every prepared operation can be committed as
long as the medium takes the new state. -/
theorem prepared_committable (manager : Manager) (disk : Disk)
    (turns : List (Turn Call Conditions))
    (h : Meets System.step Timely (System.start manager disk) turns) :
    NoneStuck (run System.step (System.start manager disk) turns) ∧
      ∀ (s : Shared) (p : Prepared) (after : Disk), Committable s.manager p →
        save s.manager.medium s.manager.state (s.manager.state.changed p.transition.toRole) none
          s.disk = .ok after →
        ∃ state, (s.manager.switch s.disk false none p.transition.expectedEpoch
          p.transition.toRole).answer = .ok state := by
  have hstart : NoneStuck (System.start manager disk) ∧
      Holds (fun _ => True) Checked (System.start manager disk) :=
    ⟨⟨pendingFits_zero rfl, stateFits_zero rfl⟩, trivial, fun _ hmem => (by cases hmem)⟩
  have hrun := run_invariant (P := fun s => NoneStuck s ∧ Holds (fun _ => True) Checked s)
    (fun s turn hs htimely => ⟨noneStuck_step hs.1 hs.2 htimely, checked_step hs.2 turn⟩) hstart h
  exact ⟨hrun.1, fun _ _ _ hcommittable hsaved => hcommittable.commits hsaved⟩

/-- The server prepares and commits a switch while the controller has nothing prepared. -/
theorem prepared_committable_alone :
    NoneStuck (run System.step (System.start primaryManager emptyDisk)
      [.arrive (.fencingPrepare toSecondary), .resume 0 undisturbed,
        .arrive (.fencingCommit toSecondary), .resume 0 undisturbed]) := by
  have hwaiting : ((System.start primaryManager emptyDisk).step
      (.arrive (.fencingPrepare toSecondary))).waiting[0]? =
        some (.fencingPrepare toSecondary) := by decide +kernel
  have hprepare : Timely ((System.start primaryManager emptyDisk).step
      (.arrive (.fencingPrepare toSecondary))) (.resume 0 undisturbed) := by
    simp only [Timely, hwaiting]
    intro _
    decide +kernel
  let prepared : System := run System.step (System.start primaryManager emptyDisk)
    [.arrive (.fencingPrepare toSecondary), .resume 0 undisturbed,
      .arrive (.fencingCommit toSecondary)]
  have hcommit : prepared.waiting[0]? =
      some (.fencingCommit toSecondary ⟨toSecondary, 1⟩) := by decide +kernel
  have hpending : prepared.shared.pending = ⟨toSecondary, 1⟩ := by decide +kernel
  have hstate : prepared.shared.state = .zero := by decide +kernel
  have hswitch : Timely prepared (.resume 0 undisturbed) := by
    simp only [Timely, hcommit]
    exact fun _ => ⟨fun _ => .inl hpending, fun hprepared => absurd (hstate ▸ rfl) hprepared⟩
  exact (prepared_committable primaryManager emptyDisk
    [.arrive (.fencingPrepare toSecondary), .resume 0 undisturbed,
      .arrive (.fencingCommit toSecondary), .resume 0 undisturbed]
    ⟨trivial, hprepare, trivial, hswitch, trivial⟩).1

/-- The server has prepared a switch, and the controller commits another one: the first
stays pending at an epoch that is over. -/
theorem prepared_goes_stale :
    ¬NoneStuck (run System.step (System.start primaryManager emptyDisk)
      [.arrive (.fencingPrepare toSecondary), .resume 0 undisturbed,
        .arrive (.prepare ⟨"op-2", "", "", secondary, 1⟩), .resume 0 undisturbed,
        .arrive .commit, .resume 0 undisturbed, .resume 0 undisturbed]) := by
  intro h
  cases h.pending (by decide +kernel) with
  | inl hcommittable => exact absurd hcommittable.epoch (by decide +kernel)
  | inr hclear =>
      obtain ⟨request, answer, hmem⟩ := hclear
      have hwaiting : (run System.step (System.start primaryManager emptyDisk)
          [.arrive (.fencingPrepare toSecondary), .resume 0 undisturbed,
            .arrive (.prepare ⟨"op-2", "", "", secondary, 1⟩), .resume 0 undisturbed,
            .arrive .commit, .resume 0 undisturbed, .resume 0 undisturbed]).waiting = [] := by
        decide +kernel
      rw [hwaiting] at hmem
      cases hmem

end WorkMesh.Role
