import WorkMesh.StateMachine.Run
import WorkMesh.Sandbox.System

/-!
# What reaches the backend

A specification comes to the lock of `Create` through the checks only, and
under the lock the backend is called for a task that the provider does not have.
-/

namespace WorkMesh.Sandbox

open Encoding StateMachine

/-- A specification with bounded limits and an isolation that its trust allows. -/
structure Allowed (spec : TaskSpec) : Prop where
  bounded : Bounded spec
  isolated : Isolated spec.runtimePolicy

/-- Every call of `backend.Create` was allowed, and at most one for each task succeeded. -/
structure CreatesOnce (w : World) : Prop where
  allowed : ∀ c ∈ w.creations, Allowed c.spec
  once : ∀ id, (w.creations.filter fun c => c.succeeded ∧ c.spec.taskID = id).length ≤ 1

theorem createBegin_allowed {p : TaskProvider} {host : Host}
    {capabilities : Except String SandboxCapabilities} {spec out : TaskSpec}
    (h : p.createBegin host capabilities spec = .ok out) : Allowed out := by
  rw [TaskProvider.createBegin] at h
  split at h
  · cases h
  · rename_i hvalid
    split at h
    · cases h
    · rename_i profile limits hlimits
      have hisolated : Isolated spec.runtimePolicy := isolated_of_validateSpec hvalid
      have hbounded : Bounded { spec with resourceProfile := profile, resourceLimits := limits } :=
        normalizeResourceLimits_bounded hlimits
      have hallowed : Allowed { spec with resourceProfile := profile, resourceLimits := limits } :=
        ⟨hbounded, hisolated⟩
      generalize { spec with resourceProfile := profile, resourceLimits := limits } = checked
        at h hallowed
      simp only at h
      split at h
      · rwa [← Except.ok.inj h]
      · split at h
        · cases h
        · split at h
          · cases h
          · rwa [← Except.ok.inj h]

/-- The tasks whose creation succeeded are those of the provider. -/
structure CreationInv (w : World) : Prop where
  creates : CreatesOnce w
  kept : ∀ c ∈ w.creations, c.succeeded = true → c.spec.taskID ∈ w.provider.tasks

/-- What waits for the lock is allowed. -/
def CreationLocal (_ : World) : Waiting → Prop
  | .creation spec => Allowed spec
  | .operation _ _ _ _ => True

theorem creationInv_createEnd {w : World} {spec : TaskSpec} (a : Answer) (h : CreationInv w)
    (hspec : Allowed spec) : CreationInv (w.createEnd spec a) := by
  rw [World.createEnd]
  split
  · exact h
  · rename_i hnew
    have hother : ∀ c ∈ w.creations, c.succeeded = true → c.spec.taskID ≠ spec.taskID :=
      fun c hc hok heq => hnew (heq ▸ h.kept c hc hok)
    have hnone : w.creations.filter (fun c => c.succeeded ∧ c.spec.taskID = spec.taskID) = [] := by
      rw [List.filter_eq_nil_iff]
      intro c hc hboth
      have hboth := of_decide_eq_true hboth
      exact hother c hc hboth.1 hboth.2
    have hallowed : ∀ c ∈ (⟨spec, a.error = none⟩ : Creation) :: w.creations, Allowed c.spec := by
      intro c hc
      rcases List.mem_cons.mp hc with rfl | hc
      · exact hspec
      · exact h.creates.allowed c hc
    have honce : ∀ id, (((⟨spec, a.error = none⟩ : Creation) :: w.creations).filter
        fun c => c.succeeded ∧ c.spec.taskID = id).length ≤ 1 := by
      intro id
      rw [List.filter_cons]
      split
      · rename_i hboth
        have hboth := of_decide_eq_true hboth
        rw [← hboth.2, hnone]
        rfl
      · exact h.creates.once id
    have htasks : ∀ id, id ∈ w.provider.tasks →
        id ∈ (w.provider.createEnd spec a.created).1.tasks := by
      intro id hid
      simp only [TaskProvider.createEnd, if_neg hnew]
      split
      · exact hid
      · exact (AList.mem_insert _).mpr (.inr hid)
    have hkept : ∀ c ∈ (⟨spec, a.error = none⟩ : Creation) :: w.creations, c.succeeded = true →
        c.spec.taskID ∈ (w.provider.createEnd spec a.created).1.tasks := by
      intro c hc hok
      rcases List.mem_cons.mp hc with rfl | hc
      · have hnoerror : a.error = none := of_decide_eq_true hok
        simp only [TaskProvider.createEnd, if_neg hnew, Answer.created, hnoerror]
        exact (AList.mem_insert _).mpr (.inl rfl)
      · exact htasks _ (h.kept c hc hok)
    simp only
    split
    · exact ⟨⟨hallowed, honce⟩, hkept⟩
    · exact ⟨⟨hallowed, honce⟩, hkept⟩

theorem creation_step {c : System} (h : Holds CreationInv CreationLocal c) (e : Event) :
    Holds CreationInv CreationLocal (c.step e) := by
  cases e with
  | turn turn =>
      change Holds CreationInv CreationLocal (sections.step c turn)
      refine h.step ?_ ?_
      · intro request _
        simp only [sections]
        split
        · split
          · exact h.ends
          · rename_i hbegin
            exact h.waits (createBegin_allowed hbegin)
        · split
          · exact h.ends
          · exact h.waits trivial
      · intro i a waiting _ hmem _
        cases waiting with
        | creation spec =>
            refine ⟨creationInv_createEnd a h.shared (h.waiting _ hmem), ?_, ?_⟩
            · intro _ hnext
              cases hnext
            · intro other _ hother
              cases other with
              | creation spec => exact hother
              | operation op id handle seen => trivial
        | operation op id handle seen =>
            refine ⟨⟨⟨h.shared.creates.allowed, h.shared.creates.once⟩, ?_⟩, ?_, ?_⟩
            · intro c hc hok
              exact (op.finish_tasks _ id handle a _).mpr (h.shared.kept c hc hok)
            · intro _ hnext
              cases hnext
            · intro other _ hother
              cases other with
              | creation spec => exact hother
              | operation op id handle seen => trivial
  | restart saved =>
      refine ⟨⟨⟨?_, ?_⟩, ?_⟩, ?_⟩
      · intro c hc
        cases hc
      · intro id
        exact Nat.zero_le 1
      · intro c hc
        cases hc
      · intro waiting hmem
        cases hmem

/-- In every run, whatever the requests, their order and the answers of the backend, each
call of `backend.Create` is allowed, and for each task at most one succeeds. -/
theorem creations_allowed_once (requireCapabilities inspects : Bool) (events : List Event) :
    CreatesOnce (run System.step (System.start requireCapabilities inspects) events).shared := by
  have hstart : Holds CreationInv CreationLocal (System.start requireCapabilities inspects) := by
    refine ⟨⟨⟨?_, fun id => Nat.zero_le 1⟩, ?_⟩, ?_⟩
    · intro c hc
      cases hc
    · intro c hc
      cases hc
    · intro waiting hmem
      cases hmem
  have hrun : Holds CreationInv CreationLocal
      (run System.step (System.start requireCapabilities inspects) events) :=
    run_preserves (P := Holds CreationInv CreationLocal) (fun _ e h => creation_step h e) hstart
      events
  exact hrun.shared.creates

end WorkMesh.Sandbox
