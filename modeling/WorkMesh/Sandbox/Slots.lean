import WorkMesh.Sandbox.Limits
import WorkMesh.Sandbox.System

/-!
# Slots

A start takes a slot for its task before it calls the provider. The slot is an
entry of a map, kept under a lock, and an element of a channel with room for
the limit of the configuration. The lock is held from the look at the effective
limit to the grant, but a policy may come in between. Whoever gives a slot back
removes the entry under the lock and takes the element out of the channel after
that.
-/

namespace WorkMesh.Sandbox

open Encoding StateMachine

/-- A handler between two sections. -/
inductive Stage where
  /-- The backend creates the sandbox. -/
  | creating (spec : TaskSpec)
  /-- The handle of a new task is written. -/
  | persisting (id : Bytes)
  /-- A new task that could not be written is about to be destroyed. -/
  | removing (id : Bytes)
  /-- A start that has a slot or has found one is about to call the provider. -/
  | starting (id : Bytes) (acquired : Bool)
  /-- The backend works. `owes` tells a start that took the slot itself, and a `Destroy` that
  gives the slot back. -/
  | working (op : Operation) (id : Bytes) (handle : TaskHandle) (owes : Bool)
  /-- The record of a task that was started is written. -/
  | saving (id : Bytes)
  /-- A task whose record could not be written is about to be cancelled. -/
  | compensating (id : Bytes)
  /-- The slot is about to be given back. -/
  | releasing (id : Bytes)

structure SlotWorld where
  provider : TaskProvider
  limits : RuntimeLimitState
  /-- The tasks with an entry in `managedRuntimeSlots.aiJobs`. -/
  aiJobs : Finset Bytes := ∅
  /-- The length of the channel. -/
  channel : ℕ := 0
  /-- The task whose start holds the lock between the look at the limit and the grant. -/
  granting : Option Bytes := none
  /-- The handlers that have removed an entry and have not taken its element out yet. -/
  draining : ℕ := 0
  /-- The revisions of the policies that this process was sent. -/
  applied : List ℤ := []

namespace SlotWorld

variable (w : SlotWorld)

def limit : ℤ := w.limits.effectiveRuntimeLimit .aiJobs

/-- The room of the channel. -/
def capacity : ℤ := w.limits.limits.of .aiJobs

/-- `acquireManagedSlot` up to the grant. A start that finds the lock taken comes later. -/
def acquire (id : Bytes) : SlotWorld × Option Stage :=
  if w.granting.isSome then (w, none)
  else if id ∈ w.aiJobs then (w, some (.starting id false))
  else if 0 < w.limit ∧ w.limit ≤ w.channel then (w, none)
  else ({ w with granting := some id }, none)

/-- `releaseManagedSlot` up to the end of its lock. -/
def release (id : Bytes) : SlotWorld × Option Stage :=
  if w.granting.isSome then (w, some (.releasing id))
  else if id ∈ w.aiJobs then
    ({ w with aiJobs := w.aiJobs.erase id, draining := w.draining + 1 }, none)
  else (w, none)

/-- The first section of an operation of the provider. -/
def call (op : Operation) (id : Bytes) (owes : Bool) (otherwise : Option Stage) :
    SlotWorld × Option Stage :=
  match op.begin w.provider id with
  | .error _ => (w, otherwise)
  | .ok h => (w, some (.working op id h owes))

/-- What a handler does when the backend has answered. -/
def proceed (op : Operation) (id : Bytes) (h : TaskHandle) (owes : Bool) (a : Answer) :
    Option Stage :=
  match op with
  | .start =>
      if a.error = none then some (.saving id) else if owes then some (.releasing id) else none
  | .cancel | .collect => if a.error = none then some (.releasing id) else none
  | .destroy =>
      if (h.state = .awaitingHuman ∨ a.error = none) ∧
          ¬ (h.workspaceRef ≠ [] ∧ a.cleanup ≠ none) ∧ owes then some (.releasing id)
      else none
  | .recover => none

end SlotWorld

def Stage.resume (w : SlotWorld) (stage : Stage) (a : Answer) : SlotWorld × Option Stage :=
  match stage with
  | .creating spec =>
      match w.provider.createEnd spec a.created with
      | (provider, .error _) => ({ w with provider }, none)
      | (provider, .ok h) => ({ w with provider }, some (.persisting h.taskID))
  | .persisting id => (w, if a.error = none then none else some (.removing id))
  | .removing id => w.call .destroy id false none
  | .starting id acquired =>
      w.call .start id acquired (if acquired then some (.releasing id) else none)
  | .working op id h owes =>
      ({ w with provider := op.finish w.provider id h a }, SlotWorld.proceed op id h owes a)
  | .saving id => (w, if a.error = none then none else some (.compensating id))
  | .compensating id => w.call .cancel id true none
  | .releasing id => w.release id

def slotSections : Sections SlotWorld Stage Request Answer where
  arrive w request :=
    match request with
    | .create host capabilities spec =>
        match w.provider.createBegin host capabilities spec with
        | .error _ => (w, none)
        | .ok spec => (w, some (.creating spec))
    | .operate .start id => w.acquire id
    | .operate op id => w.call op id true none
  resume := Stage.resume

/-- A handler runs a section, the start with the lock is granted its slot, an element is taken
out of the channel, a policy arrives, or the process is started again. -/
inductive SlotEvent where
  | turn (turn : Turn Request Answer)
  | grant
  | drain
  | policy (policy : ResourcePolicy) (revision : ℤ)
  | restart (saved : List SavedHandle)

abbrev SlotSystem := Concurrent SlotWorld Stage

def SlotWorld.applyPolicy (w : SlotWorld) (policy : ResourcePolicy) (revision : ℤ) : SlotWorld :=
  match w.limits.applyRemoteResourcePolicy policy revision with
  | .error _ => w
  | .ok limits => { w with limits, applied := revision :: w.applied }

/-- The limits of a process that has just started. -/
def RuntimeLimitState.fresh (s : RuntimeLimitState) : RuntimeLimitState :=
  { limits := s.limits, positive := s.positive }

namespace SlotSystem

def grant (c : SlotSystem) : SlotSystem :=
  match c.shared.granting with
  | none => c
  | some id =>
      if c.shared.channel < c.shared.capacity then
        ⟨{ c.shared with
            aiJobs := insert id c.shared.aiJobs
            channel := c.shared.channel + 1
            granting := none }, .starting id true :: c.waiting⟩
      else ⟨{ c.shared with granting := none }, c.waiting⟩

/-- A receive from an empty channel would wait. -/
def drain (c : SlotSystem) : SlotSystem :=
  if 0 < c.shared.draining ∧ 0 < c.shared.channel then
    ⟨{ c.shared with draining := c.shared.draining - 1, channel := c.shared.channel - 1 },
      c.waiting⟩
  else c

def restart (c : SlotSystem) (saved : List SavedHandle) : SlotSystem :=
  ⟨{ provider := c.shared.provider.fresh.restoreAndInspect saved
     limits := c.shared.limits.fresh }, []⟩

def step (c : SlotSystem) : SlotEvent → SlotSystem
  | .turn turn => slotSections.step c turn
  | .grant => c.grant
  | .drain => c.drain
  | .policy policy revision => ⟨c.shared.applyPolicy policy revision, c.waiting⟩
  | .restart saved => c.restart saved

def start (limits : RuntimeLimitState) (requireCapabilities inspects : Bool) : SlotSystem :=
  ⟨{ provider := { requireCapabilities, inspects }, limits := limits.fresh }, []⟩

end SlotSystem

end WorkMesh.Sandbox
