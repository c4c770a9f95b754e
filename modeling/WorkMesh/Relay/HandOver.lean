import WorkMesh.Relay.Forwarding
import WorkMesh.Role.Manager
import WorkMesh.StateMachine.Run

/-!
# The epoch between the role manager and the relay

The manager of a node saves its role in `role-state.json` of the data directory.
The relay of the same node reads the epoch from there when no query was injected.
The manager writes `role_epoch` and the relay looks for `roleEpoch`, so the two
agree as long as no change of the role was ever saved.
-/

namespace WorkMesh.Relay

open Encoding StateMachine
open WorkMesh.Role (Manager StateFile FilePath decodeUint64 savedFile validRole newPersistent
  switch_changes switch_unchanged newPersistent_of_path)

/-- What `currentEpoch` gets from the state file. -/
def roleFile : StateFile → RoleFile
  | .missing => .missing
  | .unreadable err => .unreadable err
  | .malformed _ => .content none
  | .object fields => .content (decodeUint64 "roleEpoch" fields)

/-- The absolute path of the state file in a data directory. -/
structure DataDir where
  statePath : String
  rooted : FilePath statePath

/-- A node with its state file. No manager runs before a start or after one that failed. -/
structure Keeper where
  dir : DataDir
  manager : Option Manager
  file : StateFile

def Keeper.source (k : Keeper) : EpochSource := ⟨none, roleFile k.file⟩

inductive Act where
  | switch (cancelled : Bool) (failure : Option String) (expectedEpoch : UInt64) (target : String)
  | restart (nodeID initialRole : String) (failure : Option String)
  | remove

def Keeper.act (k : Keeper) : Act → Keeper
  | .switch cancelled failure expectedEpoch target =>
      match k.manager with
      | none => k
      | some m =>
          let switched := m.switch ⟨k.file, []⟩ cancelled failure expectedEpoch target
          { k with manager := some switched.manager, file := switched.disk.file }
  | .restart nodeID initialRole failure =>
      let file := match failure with
        | some err => .unreadable err
        | none => k.file
      { k with manager := (newPersistent nodeID initialRole k.dir.statePath file).toOption }
  | .remove => { k with file := .missing }

/-- The nodes under their names. -/
abbrev Cluster := String → Keeper

def Cluster.step (c : Cluster) (input : String × Act) : Cluster :=
  Function.update c input.1 ((c input.1).act input.2)

/-- No node has been started, and no state file is there. -/
def Cluster.start (dirs : String → DataDir) : Cluster := fun name => ⟨dirs name, none, .missing⟩

/-- The request is built by the sender and accepted by the receiver. -/
def Delivery.Accepted (d : Delivery) (sender receiver : Keeper) : Prop :=
  ∃ request, forwardAttempt d.sender sender.source d.request d.seconds d.nonce = .ok request ∧
    (authenticateForwarded d.receiver ⟨request, d.sinceReading, d.untilReading, d.lockReading,
      receiver.source⟩).2 = .ok ()

/-- Each relay reads the epoch of the manager beside it, and a request passes between two
nodes exactly when they are in the same epoch. -/
structure HandsOver (c : Cluster) : Prop where
  reads : ∀ name m, (c name).manager = some m →
    currentEpoch (c name).source = .ok m.state.roleEpoch
  accepts : ∀ (d : Delivery), d.Sound → d.Unused → ∀ sender receiver m m',
    (c sender).manager = some m → (c receiver).manager = some m' →
      (d.Accepted (c sender) (c receiver) ↔ m.state.roleEpoch = m'.state.roleEpoch)

/-- The act saves no change of the role. -/
def Keeper.Unsaved (k : Keeper) : Act → Prop
  | .switch cancelled failure expectedEpoch target => ∀ m, k.manager = some m →
      ¬m.Changes ⟨k.file, []⟩ cancelled failure expectedEpoch target
  | _ => True

def Unsaved (c : Cluster) (input : String × Act) : Prop := (c input.1).Unsaved input.2

/-- Between nodes that can read their epochs, the epoch alone decides on a new nonce. -/
theorem Delivery.Sound.accepted_iff {d : Delivery} (h : d.Sound) (hunused : d.Unused)
    {sender receiver : Keeper}
    {epoch current : UInt64} (hepoch : currentEpoch sender.source = .ok epoch)
    (hcurrent : currentEpoch receiver.source = .ok current) :
    d.Accepted sender receiver ↔ epoch = current := by
  obtain ⟨request, hforward, hwritten⟩ :
      ∃ request, forwardAttempt d.sender sender.source d.request d.seconds d.nonce = .ok request ∧
        Written d.sender epoch d.seconds d.nonce request :=
    forwardAttempt_written hepoch h.configured h.nonce.2
  have hsent : parseUint request.roleEpoch = some epoch.toNat := by
    rw [hwritten.roleEpoch, parseUint_formatUint epoch.toNat_lt]
  constructor
  · rintro ⟨other, hother, haccepted⟩
    obtain rfl : request = other := Except.ok.inj (hforward.symm.trans hother)
    simp only [authenticateForwarded] at haccepted
    split at haccepted
    · cases haccepted
    · rename_i hcheck
      obtain ⟨read, hparse, hread⟩ := (checkForwarded_ok_iff.mp hcheck).1.fenced
      have hnat : epoch.toNat = read.toNat := Option.some.inj (hsent.symm.trans hparse)
      have hsame : read = current := Except.ok.inj (hread.symm.trans hcurrent)
      exact (UInt64.toNat_inj.mp hnat).trans hsame
  · rintro rfl
    exact ⟨request, hforward, (hwritten.accepted_iff h hcurrent).mpr hunused⟩

/-! ## A saved role -/

/-- The relay finds no epoch in what the manager saves. -/
theorem currentEpoch_savedFile (state : Role.State) :
    currentEpoch ⟨none, roleFile (savedFile state)⟩ = .error "角色状态文件无效" := by
  have hnode : Role.matchesTag "roleEpoch" "node_id" = false := by decide +kernel
  have hrole : Role.matchesTag "roleEpoch" "role" = false := by decide +kernel
  have hepoch : Role.matchesTag "roleEpoch" "role_epoch" = false := by decide +kernel
  have hdecode : decodeUint64 "roleEpoch" [("node_id", .string state.nodeID),
      ("role", .string state.role), ("role_epoch", .number (formatUint state.roleEpoch.toNat))] =
        some 0 := by
    simp [decodeUint64, Role.decodeField, hnode, hrole, hepoch]
  simp [currentEpoch, savedFile, roleFile, hdecode]

/-- No file was saved, and the manager is at the epoch of a node without one. -/
structure Keeper.Unspoiled (k : Keeper) : Prop where
  file : k.file = .missing
  manager : ∀ m, k.manager = some m → m.medium = .file ∧ m.state.roleEpoch = 1

theorem Keeper.Unspoiled.reads {k : Keeper} (h : k.Unspoiled) {m : Manager}
    (hm : k.manager = some m) : currentEpoch k.source = .ok m.state.roleEpoch := by
  rw [(h.manager m hm).2, Keeper.source, h.file]
  rfl

theorem Keeper.Unspoiled.restart {k : Keeper} (h : k.Unspoiled) (nodeID initialRole : String)
    (failure : Option String) : (k.act (.restart nodeID initialRole failure)).Unspoiled := by
  refine ⟨h.file, fun m hm => ?_⟩
  by_cases hrole : validRole initialRole = true
  · cases failure with
    | none =>
        simp only [Keeper.act, newPersistent_of_path hrole k.dir.rooted, h.file, Role.load] at hm
        obtain rfl := Option.some.inj hm
        exact ⟨rfl, rfl⟩
    | some err =>
        simp only [Keeper.act, newPersistent_of_path hrole k.dir.rooted, Role.load] at hm
        cases hm
  · simp only [Keeper.act, newPersistent, Role.new, if_neg hrole] at hm
    cases hm

theorem Keeper.Unspoiled.act {k : Keeper} (h : k.Unspoiled) {a : Act} (ha : k.Unsaved a) :
    (k.act a).Unspoiled := by
  cases a with
  | restart nodeID initialRole failure => exact h.restart nodeID initialRole failure
  | remove => exact ⟨rfl, h.manager⟩
  | switch cancelled failure expectedEpoch target =>
      simp only [Keeper.act]
      cases hmanager : k.manager with
      | none => exact h
      | some m =>
          obtain ⟨hkept, hdisk⟩ := switch_unchanged (ha m hmanager)
          simp only [hkept, hdisk]
          exact ⟨h.file, fun m' hm' => h.manager m' (hmanager.trans hm')⟩

/-- After a saved change the relay cannot read the epoch of the manager. -/
theorem Keeper.Unspoiled.unread {k : Keeper} (h : k.Unspoiled) {a : Act} (ha : ¬k.Unsaved a) :
    ∃ m, (k.act a).manager = some m ∧
      currentEpoch (k.act a).source = .error "角色状态文件无效" := by
  cases a with
  | restart nodeID initialRole failure => exact absurd trivial ha
  | remove => exact absurd trivial ha
  | switch cancelled failure expectedEpoch target =>
      simp only [Keeper.Unsaved, not_forall, not_not] at ha
      obtain ⟨m, hmanager, hchanges⟩ := ha
      obtain ⟨after, hsaved, hswitch⟩ := switch_changes hchanges
      have hfile : after.file = savedFile (m.state.changed target) := by
        rw [(h.manager m hmanager).1] at hsaved
        cases failure with
        | none =>
            obtain rfl := Except.ok.inj hsaved
            rfl
        | some err => cases hsaved
      simp only [Keeper.act, hmanager, hswitch, Keeper.source, hfile]
      exact ⟨_, rfl, currentEpoch_savedFile _⟩

/-! ## The nodes together -/

theorem handsOver_of_unspoiled {c : Cluster} (h : ∀ name, (c name).Unspoiled) : HandsOver c :=
  ⟨fun name _ hm => (h name).reads hm, fun _ hd hunused sender receiver _ _ hm hm' =>
    hd.accepted_iff hunused ((h sender).reads hm) ((h receiver).reads hm')⟩

theorem unspoiled_step {c : Cluster} {input : String × Act} (h : ∀ name, (c name).Unspoiled)
    (hinput : Unsaved c input) (name : String) : (c.step input name).Unspoiled := by
  rw [Cluster.step, Function.update_apply]
  split
  · exact (h input.1).act hinput
  · exact h name

theorem handsOver_step_iff {c : Cluster} (h : ∀ name, (c name).Unspoiled) (input : String × Act) :
    HandsOver (c.step input) ↔ Unsaved c input := by
  constructor
  · intro hover
    by_contra hsaves
    obtain ⟨m, hmanager, hunread⟩ := (h input.1).unread hsaves
    have hself : c.step input input.1 = (c input.1).act input.2 := Function.update_self ..
    have hread := hover.reads input.1 m (by rw [hself, hmanager])
    rw [hself, hunread] at hread
    cases hread
  · intro hinput
    exact handsOver_of_unspoiled (unspoiled_step h hinput)

/-- In every state of a run the relays agree with the managers if and only if no step of
the run saves a change of a role. -/
theorem epochs_handed_over_iff (dirs : String → DataDir) (inputs : List (String × Act)) :
    Meets Cluster.step (fun c input => HandsOver (c.step input)) (Cluster.start dirs) inputs ↔
      Meets Cluster.step Unsaved (Cluster.start dirs) inputs := by
  have hstart : ∀ name, (Cluster.start dirs name).Unspoiled :=
    fun _ => ⟨rfl, fun _ hm => by cases hm⟩
  refine meets_congr (P := fun c => ∀ name, (c name).Unspoiled) ?_ ?_ hstart
  · exact fun c input h hinput => unspoiled_step h hinput
  · exact fun c input h => handsOver_step_iff h input

/-- A primary becomes secondary, and its relay finds no epoch any more. -/
theorem saved_epoch_unread :
    ¬HandsOver (run Cluster.step
      (Cluster.start fun _ => ⟨"/data/role-state.json", Role.filePath_roleState⟩)
      [("node-a", .restart "node-a" Role.primary none),
        ("node-a", .switch false none 1 Role.secondary)]) := by
  let started : Cluster :=
    (Cluster.start fun _ => ⟨"/data/role-state.json", Role.filePath_roleState⟩).step
      ("node-a", .restart "node-a" Role.primary none)
  have hunspoiled : ∀ name, (started name).Unspoiled :=
    unspoiled_step (fun _ => ⟨rfl, fun _ hm => by cases hm⟩) trivial
  have hmanager : (started "node-a").manager = some ⟨⟨"node-a", Role.primary, 1⟩, .file⟩ := by
    have hnew : newPersistent "node-a" Role.primary "/data/role-state.json" .missing =
        .ok ⟨⟨"node-a", Role.primary, 1⟩, .file⟩ :=
      newPersistent_of_path (by decide) Role.filePath_roleState
    exact congrArg Except.toOption hnew
  have hsaves : ¬Unsaved started ("node-a", .switch false none 1 Role.secondary) := by
    intro h
    exact h _ hmanager ⟨rfl, by decide, rfl, by decide, rfl⟩
  exact fun h => hsaves ((handsOver_step_iff hunspoiled _).mp h)

end WorkMesh.Relay
