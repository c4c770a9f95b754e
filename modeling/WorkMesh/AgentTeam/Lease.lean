import WorkMesh.AgentTeam.Identity

/-!
# The lease of a project

A registration fences every other entry of its project, so at most one entry
of a project is not fenced, and at most one can hold an unexpired lease. Of the
later writes only an unregistration can lift a fence: it checks the token and
not the status.
-/

namespace WorkMesh.AgentTeam

open StateMachine

/-- The entry holds an unexpired lease. -/
def AgentRuntime.live (item : AgentRuntime) (now : Instant) : Bool :=
  item.status ≠ .fenced && item.status ≠ .offline && item.leaseAfter now

def liveRuntimes (w : World) (projectID : String) : List AgentRuntime :=
  w.team.agentRuntimes.filter fun item => item.projectId = projectID && item.live w.now

/-! ## At most one unfenced entry -/

def unfenced (projectID : String) (item : AgentRuntime) : Bool :=
  item.projectId = projectID && item.status ≠ .fenced

def OneUnfenced (runtimes : List AgentRuntime) : Prop :=
  ∀ projectID, runtimes.countP (unfenced projectID) ≤ 1

/-- An `unregister` presents the token of an entry that is fenced. -/
def unregistersFenced (s : TeamState) : Request → Bool
  | .unregister body =>
      let c := runtimeCredentials body
      (findRuntimeLocked s c.projectID c.runtimeID).any fun item =>
        item.fencingToken = c.fencing && item.status = .fenced
  | _ => false

theorem not_fenced_of_unregister {s : TeamState} {body : Fields} {item : AgentRuntime}
    (h : unregistersFenced s (.unregister body) = false)
    (hfind : findRuntimeLocked s (runtimeCredentials body).projectID
      (runtimeCredentials body).runtimeID = some item)
    (htoken : item.fencingToken = (runtimeCredentials body).fencing) : item.status ≠ .fenced := by
  simpa [unregistersFenced, hfind, htoken] using h

theorem unfenced_afterExpiry {now : Instant} {projectID : String} {item : AgentRuntime}
    (h : unfenced projectID (afterExpiry now item) = true) : unfenced projectID item = true := by
  simp only [afterExpiry] at h
  split at h
  · rename_i hexpired
    simp only [leaseExpired, decide_eq_true_eq] at hexpired
    simp only [unfenced, Bool.and_eq_true] at h ⊢
    exact ⟨h.1, by simpa using hexpired.1⟩
  · exact h

/-- After a registration its entry is the only one of the project without a fence. -/
theorem oneUnfenced_registered {runtimes : List AgentRuntime} (h : OneUnfenced runtimes)
    (item : AgentRuntime) : OneUnfenced (registeredRuntimes runtimes item) := by
  intro projectID
  simp only [registeredRuntimes, List.countP_append, List.countP_map, List.countP_singleton]
  by_cases hproject : item.projectId = projectID
  · have hnone : (runtimes.filter fun old => old.key ≠ item.key).countP
        (unfenced projectID ∘ fenceRuntime item.projectId) = 0 := by
      rw [List.countP_eq_zero]
      intro old _
      simp only [Function.comp_apply, fenceRuntime, hproject, unfenced]
      split <;> simp_all
    rw [hnone]
    split <;> omega
  · have hsame : unfenced projectID ∘ fenceRuntime item.projectId = unfenced projectID := by
      funext old
      simp only [Function.comp_apply, fenceRuntime, unfenced]
      split <;> simp_all
    have hitem : unfenced projectID item = false := by simp [unfenced, hproject]
    rw [hsame, hitem]
    have hfilter := List.Sublist.countP_le (p := unfenced projectID)
      (List.filter_sublist (p := fun old : AgentRuntime => old.key ≠ item.key) (l := runtimes))
    have := h projectID
    simp only [Bool.false_eq_true, if_false]
    omega

/-- A write that leaves fenced entries fenced keeps the bound. -/
theorem OneUnfenced.replace {runtimes : List AgentRuntime} (h : OneUnfenced runtimes)
    {item new : AgentRuntime} (hfind : lookupKey AgentRuntime.key new.key runtimes = some item)
    (hproject : new.projectId = item.projectId) (hfenced : item.status ≠ .fenced) :
    OneUnfenced (replaceKey AgentRuntime.key new runtimes) := by
  intro projectID
  refine Nat.le_trans (countP_replaceKey_le hfind ?_) (h projectID)
  intro hnew
  simp_all [unfenced]

theorem Effect.oneUnfenced {env : Env} {now : Instant} {s t : TeamState} {request : Request}
    {response : Response} (h : Effect env now s request t response)
    (hs : OneUnfenced s.agentRuntimes)
    (hkeep : response.isOk = true → unregistersFenced s request = false) :
    OneUnfenced t.agentRuntimes := by
  apply h.runtimes hs
  · intro body _ _ _
    exact oneUnfenced_registered hs _
  · intro item body _ hfind hfenced
    exact hs.replace (lookupKey_of_findRuntime hfind rfl) rfl hfenced
  · rintro item body rfl hok hfind htoken
    exact hs.replace (lookupKey_of_findRuntime hfind rfl) rfl
      (not_fenced_of_unregister (hkeep hok) hfind htoken)
  · intro item body expected _ _ hleased _
    obtain ⟨hfind, -, hfenced, -⟩ := leasedRuntime_some hleased
    exact hs.replace (lookupKey_of_findRuntime hfind rfl) rfl hfenced
  · intro projectID
    rw [List.countP_map]
    exact Nat.le_trans (List.countP_mono_left fun item _ => unfenced_afterExpiry) (hs projectID)

theorem length_liveRuntimes_le {w : World} (h : OneUnfenced w.team.agentRuntimes)
    (projectID : String) : (liveRuntimes w projectID).length ≤ 1 := by
  rw [liveRuntimes, ← List.countP_eq_length_filter]
  refine Nat.le_trans (List.countP_mono_left ?_) (h projectID)
  intro item _ hlive
  simp_all [AgentRuntime.live, unfenced]

/-! ## A fence stays until the runtime registers anew -/

def Fenced (key : String × String) (runtimes : List AgentRuntime) : Prop :=
  ∀ item ∈ runtimes, item.key = key → item.status = .fenced

/-- An accepted registration of a runtime. -/
def registers (key : String × String) : Request → Response → Bool
  | .register body, .ok _ =>
      (validTeamID (aiString body ["projectId"]), validTeamID (aiString body ["runtimeId"])) = key
  | _, _ => false

theorem Fenced.replace {key : String × String} {runtimes : List AgentRuntime}
    (h : Fenced key runtimes) {item new : AgentRuntime}
    (hfind : lookupKey AgentRuntime.key new.key runtimes = some item)
    (hfenced : item.status ≠ .fenced) :
    Fenced key (replaceKey AgentRuntime.key new runtimes) := by
  obtain ⟨hmem, hkey⟩ := lookupKey_some hfind
  intro old hold hkeyOld
  rcases mem_replaceKey hold with rfl | hold
  · exact absurd (h item hmem (hkey.trans hkeyOld)) hfenced
  · exact h old hold hkeyOld

theorem Effect.fenced {env : Env} {now : Instant} {s t : TeamState} {request : Request}
    {response : Response} (h : Effect env now s request t response) {key : String × String}
    (hs : Fenced key s.agentRuntimes)
    (hkeep : response.isOk = true →
      unregistersFenced s request = false ∧ registers key request response = false) :
    Fenced key t.agentRuntimes := by
  apply h.runtimes hs
  · rintro body rfl rfl _ item hmem hkey
    rcases List.mem_append.mp hmem with hmem | hmem
    · obtain ⟨old, hold, rfl⟩ := List.mem_map.mp hmem
      have hkeyOld : (fenceRuntime (newRuntime s now body).projectId old).key = old.key := by
        simp only [fenceRuntime]; split <;> rfl
      have hfenced := hs old (List.mem_of_mem_filter hold) (hkeyOld.symm.trans hkey)
      simp only [fenceRuntime]
      split
      · rfl
      · exact hfenced
    · rw [List.mem_singleton.mp hmem] at hkey
      have hregister := (hkeep rfl).2
      simp [registers, ← hkey, newRuntime, AgentRuntime.key] at hregister
  · intro item body _ hfind hfenced
    exact hs.replace (lookupKey_of_findRuntime hfind rfl) hfenced
  · rintro item body rfl hok hfind htoken
    exact hs.replace (lookupKey_of_findRuntime hfind rfl)
      (not_fenced_of_unregister (hkeep hok).1 hfind htoken)
  · intro item body expected _ _ hleased _
    obtain ⟨hfind, -, hfenced, -⟩ := leasedRuntime_some hleased
    exact hs.replace (lookupKey_of_findRuntime hfind rfl) hfenced
  · intro item hmem hkey
    obtain ⟨old, hold, rfl⟩ := List.mem_map.mp hmem
    have hkeyOld : (afterExpiry now old).key = old.key := by
      simp only [afterExpiry]; split <;> rfl
    have hfenced := hs old hold (hkeyOld.symm.trans hkey)
    simp [afterExpiry, leaseExpired, hfenced]

/-- No fenced entry is unregistered, unless the save fails. -/
def KeepsFences (w : World) (i : Input) : Prop :=
  i.failure = none → unregistersFenced w.team i.request = false

instance (w : World) (i : Input) : Decidable (KeepsFences w i) :=
  inferInstanceAs (Decidable (_ → _))

variable {env : Env}

theorem run_oneUnfenced {w : World} {inputs : List Input} (hw : OneUnfenced w.team.agentRuntimes)
    (h : Meets (next env) KeepsFences w inputs) :
    OneUnfenced (run (next env) w inputs).team.agentRuntimes :=
  run_invariant (P := fun w : World => OneUnfenced w.team.agentRuntimes)
    (fun _ _ hw hkeep => next_keeps (P := fun s : TeamState => OneUnfenced s.agentRuntimes)
      (C := fun _ s request _ => unregistersFenced s request = false)
      (fun heffect hs hkeep => heffect.oneUnfenced hs hkeep) hw hkeep) hw h

theorem run_fenced {key : String × String} {w : World} {inputs : List Input}
    (hw : Fenced key w.team.agentRuntimes)
    (h : Meets (next env) (fun w i => KeepsFences w i ∧
      registers key i.request (respond env w i) = false) w inputs) :
    Fenced key (run (next env) w inputs).team.agentRuntimes :=
  run_invariant (P := fun w : World => Fenced key w.team.agentRuntimes)
    (fun _ _ hw hkeep => next_keeps (P := fun s : TeamState => Fenced key s.agentRuntimes)
      (C := fun _ s request response =>
        unregistersFenced s request = false ∧ registers key request response = false)
      (fun heffect hs hkeep => heffect.fenced hs hkeep) hw
      fun hsaved => ⟨hkeep.1 hsaved, hkeep.2⟩) hw h

/-- While no fenced entry is unregistered, at most one runtime of a project is
live, and a fenced one is not live again before it registers. -/
theorem live_runtime_unique (now : Instant) (inputs : List Input)
    (h : Meets (next env) KeepsFences (.start now) inputs) :
    (∀ projectID, (liveRuntimes (reached env now inputs) projectID).length ≤ 1) ∧
      ∀ first rest, inputs = first ++ rest →
        ∀ old ∈ (reached env now first).team.agentRuntimes, old.status = .fenced →
          Meets (next env) (fun w i => registers old.key i.request (respond env w i) = false)
            (reached env now first) rest →
          ∀ item ∈ (reached env now inputs).team.agentRuntimes, item.key = old.key →
            item.live (reached env now inputs).now = false := by
  refine ⟨fun projectID => ?_, ?_⟩
  · exact length_liveRuntimes_le (run_oneUnfenced (by simp [OneUnfenced, World.start,
      TeamState.empty]) h) projectID
  · rintro first rest rfl old hold hfenced hregisters item hitem hkey
    have hfirst : Fenced old.key (reached env now first).team.agentRuntimes := by
      intro other hother hotherKey
      rw [eq_of_mem_of_key (reached_wellFormed env now first).runtimes.keys hother hold hotherKey]
      exact hfenced
    have hrest := run_fenced hfirst ((meets_append.mp h).2.and hregisters)
    rw [reached_append] at hitem ⊢
    simp [AgentRuntime.live, hrest item hitem hkey]

/-- A takeover, after which the fenced runtime gives its lease up and beats on. -/
def fencedRevival : List Input :=
  [.after 0 (registerRequest "p" "a"), .after 16 (registerRequest "p" "b"),
    .after 1 (unregisterRequest "p" "a" (teamNewID "fence" 0 1)),
    .after 1 (heartbeatRequest "p" "a" (teamNewID "fence" 0 1))]

theorem fenced_runtime_revived :
    ¬(liveRuntimes (reached .default 0 fencedRevival) "p").length ≤ 1 := by
  decide +kernel

/-- The same takeover without the unregistration. -/
theorem live_runtime_unique_takeover :
    (liveRuntimes (reached .default 0 (fencedRevival.take 2)) "p").length ≤ 1 :=
  (live_runtime_unique 0 (fencedRevival.take 2) (by decide +kernel)).1 "p"

/-! ## Exclusion of a takeover -/

/-- Another runtime of the project is live. -/
def otherLive (s : TeamState) (now : Instant) (item : AgentRuntime) : Bool :=
  s.agentRuntimes.any fun old =>
    old.projectId = item.projectId && old.runtimeId ≠ item.runtimeId && old.live now

/-- A registration is accepted only if no other runtime of the project is live,
and is refused without any change otherwise. -/
def TakeoverExcluded (now : Instant) (failure : Option String) (s : TeamState) (body : Fields) :
    Prop :=
  ((handleAgentRuntimeRegister now failure s body).2.isOk = true →
      otherLive s now (newRuntime s now body) = false) ∧
    (otherLive s now (newRuntime s now body) = true →
      handleAgentRuntimeRegister now failure s body =
        (s, .error 409 "AGENT_RUNTIME_ALREADY_ACTIVE" "同一项目已有活动 Agent runtime"))

theorem handleAgentRuntimeRegister_blocked {now : Instant} {failure : Option String}
    {s : TeamState} {body : Fields} (hcomplete : (newRuntime s now body).incomplete = false)
    (hblocked : registrationBlocked s now (newRuntime s now body) = true) :
    handleAgentRuntimeRegister now failure s body =
      (s, .error 409 "AGENT_RUNTIME_ALREADY_ACTIVE" "同一项目已有活动 Agent runtime") := by
  simp [handleAgentRuntimeRegister, hcomplete, hblocked]

/-- A registration that the deciding entry lets through is saved or fails to be saved. -/
theorem handleAgentRuntimeRegister_free {now : Instant} (failure : Option String)
    {s : TeamState} {body : Fields} (hcomplete : (newRuntime s now body).incomplete = false)
    (hfree : registrationBlocked s now (newRuntime s now body) = false) :
    (handleAgentRuntimeRegister now failure s body).2 ≠
      .error 409 "AGENT_RUNTIME_ALREADY_ACTIVE" "同一项目已有活动 Agent runtime" := by
  simp only [handleAgentRuntimeRegister, hcomplete, hfree, Bool.false_eq_true, if_false]
  rcases commitTeamState_cases s (storeRegistration s now (newRuntime s now body)) failure
      "AGENT_RUNTIME_SAVE_FAILED" (.runtime (newRuntime s now body)) with h | ⟨message, h⟩ <;>
    simp [h]

/-- A takeover is excluded exactly when the first entry of the project that is
not offline shows it: another runtime's entry with an unexpired lease. -/
theorem takeover_excluded_iff (now : Instant) (failure : Option String) (s : TeamState)
    (body : Fields) (hcomplete : (newRuntime s now body).incomplete = false) :
    TakeoverExcluded now failure s body ↔
      (otherLive s now (newRuntime s now body) = true →
        ∃ current, currentRuntime s (newRuntime s now body).projectId = some current ∧
          current.runtimeId ≠ (newRuntime s now body).runtimeId ∧
          current.leaseAfter now = true) := by
  have hblocked : registrationBlocked s now (newRuntime s now body) = true ↔
      ∃ current, currentRuntime s (newRuntime s now body).projectId = some current ∧
        current.runtimeId ≠ (newRuntime s now body).runtimeId ∧
        current.leaseAfter now = true := by
    simp [registrationBlocked, Option.any_eq_true]
  rw [← hblocked]
  constructor
  · intro hexcluded hother
    by_contra hfree
    have hfree : registrationBlocked s now (newRuntime s now body) = false := by simpa using hfree
    exact handleAgentRuntimeRegister_free failure hcomplete hfree
      (congrArg Prod.snd (hexcluded.2 hother))
  · intro hguard
    have hrefuse : otherLive s now (newRuntime s now body) = true →
        handleAgentRuntimeRegister now failure s body =
          (s, .error 409 "AGENT_RUNTIME_ALREADY_ACTIVE" "同一项目已有活动 Agent runtime") :=
      fun hother => handleAgentRuntimeRegister_blocked hcomplete (hguard hother)
    refine ⟨fun hok => ?_, hrefuse⟩
    by_contra hother
    rw [hrefuse (by simpa using hother)] at hok
    simp [Response.isOk] at hok

/-- With one live runtime alone in the list, another one is refused. -/
theorem takeover_excluded_first :
    TakeoverExcluded 1 none
      (reached .default 0 [.after 0 (registerRequest "p" "a")]).team (registerBody "p" "b") :=
  (takeover_excluded_iff 1 none _ _ (by decide +kernel)).mpr fun _ =>
    ⟨newRuntime .empty 0 (registerBody "p" "a"), rfl, by decide +kernel, by decide +kernel⟩

/-- After a takeover the first entry is the fenced one, and a third runtime is
let in beside the live second one. -/
theorem takeover_not_excluded :
    ¬TakeoverExcluded (17 * 10 ^ 9) none
      (reached .default 0 [.after 0 (registerRequest "p" "a"),
        .after 16 (registerRequest "p" "b")]).team (registerBody "p" "c") := by
  intro h
  exact absurd (h.1 (by decide +kernel)) (by decide +kernel)

end WorkMesh.AgentTeam
