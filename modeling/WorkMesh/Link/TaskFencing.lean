import WorkMesh.Link.SyncStores
import WorkMesh.Role.Manager
import WorkMesh.StateMachine.Handlers

/-!
# Task streams and the role epoch

A push to a stream of tasks carries the role epoch of its writer. The server
compares it with the epoch of the manager and writes the store afterwards, under
another lock. While the role does not change in between, a writer of an older
epoch stores nothing. This module is `push` of the server and `task_fencing.go`.

## Implementation notes

The store is any implementation of `Push`. The log is not part of the code: it
holds the pushes that the store accepted, each with the epoch of the manager at
that moment, the latest first.
-/

namespace WorkMesh.Link

open Encoding StateMachine
open WorkMesh.Role (Manager Disk switch_unchanged)

/-- The streams of tasks, of their results and of their logs. -/
def isTaskSyncStream (stream : String) : Bool :=
  let stream := AgentTeam.toLower (AgentTeam.trimSpace stream)
  stream == "task" || stream == "tasks" || "task.".toList.isPrefixOf stream.toList ||
    "tasks.".toList.isPrefixOf stream.toList

/-- The error of a push whose epoch is missing or not the present one. -/
def validateSyncRoleEpoch (stream : String) (requestEpoch currentEpoch : UInt64) : Option String :=
  if requestEpoch = 0 then
    if isTaskSyncStream stream then some (errSyncConflict ++ ": 任务同步缺少 roleEpoch") else none
  else if requestEpoch ≠ currentEpoch then
    some (errSyncConflict ++ ": roleEpoch=" ++ toString requestEpoch.toNat ++ " current=" ++
      toString currentEpoch.toNat)
  else none

structure PushRequest where
  stream : String
  version : UInt64
  roleEpoch : UInt64
  payload : Option Bytes
deriving DecidableEq

/-- A push that the store has accepted, and the epoch of the manager then. -/
structure Accepted where
  request : PushRequest
  roleEpoch : UInt64
deriving DecidableEq

/-- The manager and the store of a server over a run. -/
structure Fenced (σ : Type*) where
  manager : Manager
  disk : Disk
  store : σ
  log : List Accepted

inductive SyncCall where
  | push (request : PushRequest)
  | switch (cancelled : Bool) (failure : Option String) (expectedEpoch : UInt64) (target : String)

section Server
variable {σ : Type*} (push : σ → Bool → SyncCursor → Option Bytes → σ × Pushed)

def acceptPush (s : Fenced σ) (request : PushRequest) : Fenced σ × Option PushRequest :=
  match validateSyncRoleEpoch request.stream request.roleEpoch s.manager.state.roleEpoch with
  | some _ => (s, none)
  | none => (s, some request)

def storePush (s : Fenced σ) (request : PushRequest) (cancelled : Bool) :
    Fenced σ × Option PushRequest :=
  let (store, pushed) := push s.store cancelled ⟨request.stream, request.version⟩ request.payload
  ({ s with
      store
      log := if pushed.err = none then ⟨request, s.manager.state.roleEpoch⟩ :: s.log else s.log },
    none)

/-- The sections of `push` beside the switches of the manager. -/
def syncSections : Sections (Fenced σ) PushRequest SyncCall Bool where
  arrive s
    | .push request => acceptPush s request
    | .switch cancelled failure expectedEpoch target =>
        let switched := s.manager.switch s.disk cancelled failure expectedEpoch target
        ({ s with manager := switched.manager, disk := switched.disk }, none)
  resume := storePush push

/-- Every task that was stored carries the epoch that the manager had then. -/
def TasksFenced (log : List Accepted) : Prop :=
  ∀ entry ∈ log, isTaskSyncStream entry.request.stream = true →
    entry.request.roleEpoch = entry.roleEpoch

/-- The role does not change while a task waits between the check and the store. -/
def Settled (c : Concurrent (Fenced σ) PushRequest) : Turn SyncCall Bool → Prop
  | .arrive (.switch cancelled failure expectedEpoch target) =>
      c.shared.manager.Changes c.shared.disk cancelled failure expectedEpoch target →
        ∀ request ∈ c.waiting, isTaskSyncStream request.stream = false
  | _ => True

/-- A task that waits for the store carries the present epoch. -/
def CarriesEpoch (s : Fenced σ) (request : PushRequest) : Prop :=
  isTaskSyncStream request.stream = true → request.roleEpoch = s.manager.state.roleEpoch

theorem carriesEpoch_of_valid {s : Fenced σ} {request : PushRequest}
    (h : validateSyncRoleEpoch request.stream request.roleEpoch s.manager.state.roleEpoch = none) :
    CarriesEpoch s request := by
  intro htask
  simp only [validateSyncRoleEpoch, htask, if_true] at h
  split at h
  · cases h
  · split at h
    · cases h
    · rename_i hsame
      exact not_not.mp hsame

variable {push} {c : Concurrent (Fenced σ) PushRequest}

theorem keeps_acceptPush (h : Holds (fun s => TasksFenced s.log) CarriesEpoch c)
    (request : PushRequest) :
    Keeps (fun s => TasksFenced s.log) CarriesEpoch c (acceptPush c.shared request) := by
  rw [acceptPush]
  cases hvalid : validateSyncRoleEpoch request.stream request.roleEpoch
      c.shared.manager.state.roleEpoch with
  | some err => exact h.ends
  | none => exact h.waits (carriesEpoch_of_valid hvalid)

theorem keeps_storePush (h : Holds (fun s => TasksFenced s.log) CarriesEpoch c)
    {request : PushRequest} (hmem : request ∈ c.waiting) (cancelled : Bool) :
    Keeps (fun s => TasksFenced s.log) CarriesEpoch c
      (storePush push c.shared request cancelled) := by
  refine ⟨?_, fun _ hnone => (by cases hnone), fun _ _ hcarries => hcarries⟩
  intro entry hentry htask
  simp only [storePush] at hentry
  split at hentry
  · cases List.mem_cons.mp hentry with
    | inl hnew =>
        subst hnew
        exact h.waiting request hmem htask
    | inr hold => exact h.shared entry hold htask
  · exact h.shared entry hentry htask

theorem keeps_switch (h : Holds (fun s => TasksFenced s.log) CarriesEpoch c)
    {cancelled : Bool} {failure : Option String} {expectedEpoch : UInt64} {target : String}
    (hsettled : Settled c (.arrive (.switch cancelled failure expectedEpoch target))) :
    Keeps (fun s => TasksFenced s.log) CarriesEpoch c
      ((syncSections push).arrive c.shared (.switch cancelled failure expectedEpoch target)) := by
  refine ⟨h.shared, fun _ hnone => (by cases hnone), fun request hmem hcarries htask => ?_⟩
  by_cases hchanges : c.shared.manager.Changes c.shared.disk cancelled failure expectedEpoch target
  · exact absurd htask (by simp [hsettled hchanges request hmem])
  · have hmanager := (switch_unchanged hchanges).1
    simp only [syncSections, hmanager]
    exact hcarries htask

/-- While the role changes only when no task waits for the store, every task that is stored
carries the epoch of that moment. -/
theorem stored_tasks_fenced (push : σ → Bool → SyncCursor → Option Bytes → σ × Pushed)
    (manager : Manager) (disk : Disk) (store : σ) (turns : List (Turn SyncCall Bool))
    (h : Meets (syncSections push).step Settled ⟨⟨manager, disk, store, []⟩, []⟩ turns) :
    TasksFenced (run (syncSections push).step ⟨⟨manager, disk, store, []⟩, []⟩ turns).shared.log := by
  have hstart : Holds (fun s => TasksFenced s.log) CarriesEpoch
      (⟨⟨manager, disk, store, []⟩, []⟩ : Concurrent (Fenced σ) PushRequest) :=
    ⟨fun _ hentry => (by cases hentry), fun _ hmem => (by cases hmem)⟩
  have hstep : ∀ c turn, Holds (fun s => TasksFenced s.log) CarriesEpoch c → Settled c turn →
      Holds (fun s => TasksFenced s.log) CarriesEpoch ((syncSections push).step c turn) := by
    intro c turn hc hsettled
    refine hc.step ?_ ?_
    · rintro call rfl
      cases call with
      | push request => exact keeps_acceptPush hc request
      | switch cancelled failure expectedEpoch target => exact keeps_switch hc hsettled
    · rintro i cancelled request rfl hmem -
      exact keeps_storePush hc hmem cancelled
  exact (run_invariant hstep hstart h).shared

end Server

/-- A task of the primary at epoch 1. -/
def taskPush : PushRequest := ⟨"tasks.node-a", 0, 1, some (bytes "running")⟩

/-- The task is stored before the role changes. -/
theorem stored_tasks_fenced_before_switch :
    TasksFenced (run (syncSections MemorySyncStore.push).step
      ⟨⟨⟨⟨"node-a", Role.primary, 1⟩, .memory⟩, ⟨.missing, []⟩, ⟨[]⟩, []⟩, []⟩
      [.arrive (.push taskPush), .resume 0 false,
        .arrive (.switch false none 1 Role.secondary)]).shared.log := by
  refine stored_tasks_fenced MemorySyncStore.push _ _ _ _ ⟨trivial, trivial, fun _ => ?_, trivial⟩
  have hwaiting : (run (syncSections MemorySyncStore.push).step
      ⟨⟨⟨⟨"node-a", Role.primary, 1⟩, .memory⟩, ⟨.missing, []⟩, ⟨[]⟩, []⟩, []⟩
      [.arrive (.push taskPush), .resume 0 false]).waiting.length = 0 := by decide +kernel
  intro request hmem
  rw [run_cons, run_cons, run_nil, List.length_eq_zero_iff] at hwaiting
  rw [hwaiting] at hmem
  cases hmem

/-- The role changes between the check and the store: the task of epoch 1 is stored at epoch 2. -/
theorem task_stored_after_switch :
    ¬TasksFenced (run (syncSections MemorySyncStore.push).step
      ⟨⟨⟨⟨"node-a", Role.primary, 1⟩, .memory⟩, ⟨.missing, []⟩, ⟨[]⟩, []⟩, []⟩
      [.arrive (.push taskPush), .arrive (.switch false none 1 Role.secondary),
        .resume 0 false]).shared.log := by
  have hlog : (run (syncSections MemorySyncStore.push).step
      ⟨⟨⟨⟨"node-a", Role.primary, 1⟩, .memory⟩, ⟨.missing, []⟩, ⟨[]⟩, []⟩, []⟩
      [.arrive (.push taskPush), .arrive (.switch false none 1 Role.secondary),
        .resume 0 false]).shared.log = [⟨taskPush, 2⟩] := by decide +kernel
  rw [hlog]
  intro h
  exact absurd (h ⟨taskPush, 2⟩ List.mem_cons_self (by decide +kernel)) (by decide)

end WorkMesh.Link
