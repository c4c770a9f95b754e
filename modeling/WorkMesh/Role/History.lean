import WorkMesh.Role.Manager
import WorkMesh.StateMachine.Run

/-!
# The history of a node's role

A node runs one process after another over the same data directory. What its
managers show over time is the history of the node. As long as every process
reads back what the one before it has saved, the epoch counts the changes of the
role and tells which role it was.
-/

namespace WorkMesh.Role

open Encoding StateMachine

/-- A node with the states it has shown, the latest first. -/
structure Node where
  backing : Backing
  manager : Manager
  disk : Disk
  observed : List State

inductive Step where
  | switch (cancelled : Bool) (failure : Option String) (expectedEpoch : UInt64) (target : String)
  | restart (initialRole : String) (failure : Option String)
  | damage (disk : Disk)

def Node.show (node : Node) : Node :=
  { node with observed := node.manager.state :: node.observed }

def Node.start (backing : Backing) (disk : Disk) (nodeID initialRole : String)
    (failure : Option String) : Node :=
  let (manager, disk) := newRoleManager backing disk nodeID initialRole failure
  { backing, manager, disk, observed := [manager.state] }

def step (node : Node) : Step → Node
  | .switch cancelled failure expectedEpoch target =>
      let switched := node.manager.switch node.disk cancelled failure expectedEpoch target
      Node.show { node with manager := switched.manager, disk := switched.disk }
  | .restart initialRole failure =>
      let (manager, disk) :=
        newRoleManager node.backing node.disk node.manager.state.nodeID initialRole failure
      Node.show { node with manager, disk }
  | .damage disk => { node with disk }

/-- Between two states that follow each other, the epoch stays while the role
stays and goes up by one when the role changes. -/
def Follows (later earlier : State) : Prop :=
  later = earlier ∨
    later.role ≠ earlier.role ∧ later.roleEpoch.toNat = earlier.roleEpoch.toNat + 1

/-- The epochs of a history count the changes of the role, and each epoch has one role. -/
structure EpochsTellRoles (observed : List State) : Prop where
  follows : observed.IsChain Follows
  role : ∀ a ∈ observed, ∀ b ∈ observed, a.roleEpoch = b.roleEpoch → a.role = b.role

/-- A process starts over a disk that its constructor reads, with a role that the
configuration allows. -/
def Starts (backing : Backing) (disk : Disk) (nodeID initialRole : String) : Prop :=
  match backing with
  | .none => False
  | .database => ∃ manager, (newSQLite nodeID initialRole none disk.rows).1 = .ok manager
  | .directory statePath =>
      ∃ manager, newPersistent nodeID initialRole statePath disk.file = .ok manager ∧
        manager.medium = .file

/-- The disk is left alone, no epoch is the last one, and a process is restarted with a
disk that can be read. Where no file was saved yet, the configured role is the same. -/
def Undamaged (node : Node) : Step → Prop
  | .switch _ _ _ _ => node.manager.state.roleEpoch.toNat + 1 < 2 ^ 64
  | .restart initialRole failure => failure = none ∧ validRole initialRole = true ∧
      match node.backing, node.disk.file with
      | .directory _, .missing => initialRole = node.manager.state.role
      | _, _ => True
  | .damage _ => False

/-! ## What is stored -/

/-- A process that is started over the disk comes to the state of the manager. -/
def Stored (node : Node) : Prop :=
  match node.backing with
  | .none => False
  | .database => node.manager.medium = .sqlite ∧
      node.disk.rows.lookup node.manager.state.nodeID =
        some ⟨node.manager.state.role, some node.manager.state.roleEpoch⟩
  | .directory statePath => FilePath statePath ∧ node.manager.medium = .file ∧
      ∀ initialRole, validRole initialRole = true →
        (node.disk.file = .missing → initialRole = node.manager.state.role) →
          load ⟨node.manager.state.nodeID, initialRole, 1⟩ node.disk.file =
            .ok node.manager.state

/-- The state of a manager has a role and an epoch. -/
def Named (state : State) : Prop := validRole state.role = true ∧ state.roleEpoch ≠ 0

theorem stored_start {backing : Backing} {disk : Disk} {nodeID initialRole : String}
    (h : Starts backing disk nodeID initialRole) :
    Stored (Node.start backing disk nodeID initialRole none) ∧
      Named (Node.start backing disk nodeID initialRole none).manager.state := by
  have hone : (1 : UInt64) ≠ 0 := by decide
  cases backing with
  | none => exact h.elim
  | database =>
      obtain ⟨manager, hmanager⟩ := h
      have hrole : validRole initialRole = true := by
        by_contra hrole
        simp only [newSQLite, new, if_neg hrole] at hmanager
        cases hmanager
      cases hrow : disk.rows.lookup nodeID with
      | none =>
          have hstarted : newRoleManager .database disk nodeID initialRole none =
              (⟨⟨nodeID, initialRole, 1⟩, .sqlite⟩,
                { disk with rows := (nodeID, ⟨initialRole, some 1⟩) :: disk.rows }) := by
            simp only [newRoleManager, newSQLite, new_of_valid hrole, hrow]
            rfl
          simp only [Node.start, hstarted]
          exact ⟨⟨rfl, List.lookup_cons_self⟩, hrole, hone⟩
      | some row =>
          obtain ⟨role, scanned⟩ := row
          cases scanned with
          | none =>
              simp only [newSQLite, new_of_valid hrole, hrow] at hmanager
              cases hmanager
          | some roleEpoch =>
              by_cases hvalid : validRole role = false ∨ roleEpoch = 0
              · simp only [newSQLite, new_of_valid hrole, hrow, if_pos hvalid] at hmanager
                cases hmanager
              · have hstarted : newRoleManager .database disk nodeID initialRole none =
                    (⟨⟨nodeID, role, roleEpoch⟩, .sqlite⟩, disk) := by
                  simp only [newRoleManager, newSQLite, new_of_valid hrole, hrow, if_neg hvalid]
                  rfl
                push Not at hvalid
                simp only [Node.start, hstarted]
                exact ⟨⟨rfl, hrow⟩, by simpa using hvalid.1, hvalid.2⟩
  | directory statePath =>
      obtain ⟨manager, hmanager, hmedium⟩ := h
      obtain ⟨hrole, hpath⟩ := newPersistent_ok hmanager hmedium
      rw [newPersistent_of_path hrole hpath] at hmanager
      cases hload : load ⟨nodeID, initialRole, 1⟩ disk.file with
      | error err =>
          rw [hload] at hmanager
          cases hmanager
      | ok state =>
          have hvalid := load_valid ⟨hrole, hone⟩ hload
          have hstarted : newRoleManager (.directory statePath) disk nodeID initialRole none =
              (⟨state, .file⟩, disk) := by
            simp only [newRoleManager, newPersistent_of_path hrole hpath, hload]
            rfl
          simp only [Node.start, hstarted]
          refine ⟨⟨hpath, rfl, fun role hother hmissing => ?_⟩, hvalid.2⟩
          by_cases hfile : disk.file = .missing
          · rw [hfile, load] at hload
            obtain rfl := Except.ok.inj hload
            rw [hmissing hfile, hfile, load]
          · rw [← hload]
            exact load_of_not_missing hfile hvalid.1

/-- What a step does to the state of an undamaged node. -/
structure Moves (node after : Node) : Prop where
  stored : Stored after
  named : Named after.manager.state
  nodeID : after.manager.state.nodeID = node.manager.state.nodeID
  follows : Follows after.manager.state node.manager.state
  observed : after.observed = after.manager.state :: node.observed

theorem toNat_succ {epoch : UInt64} (h : epoch.toNat + 1 < 2 ^ 64) :
    (epoch + 1).toNat = epoch.toNat + 1 := by
  rw [UInt64.toNat_add]
  exact Nat.mod_eq_of_lt h

theorem named_changed {state : State} {target : String} (htarget : validRole target = true)
    (h : state.roleEpoch.toNat + 1 < 2 ^ 64) : Named (state.changed target) := by
  refine ⟨htarget, fun hzero => ?_⟩
  have hnat := congrArg UInt64.toNat hzero
  rw [State.changed, toNat_succ h] at hnat
  cases hnat

theorem stored_changed {node : Node} (h : Stored node) {target : String} {failure : Option String}
    {disk : Disk} (hnamed : Named (node.manager.state.changed target))
    (hsaved : save node.manager.medium node.manager.state (node.manager.state.changed target)
      failure node.disk = .ok disk) :
    Stored (Node.show { node with
      manager := { node.manager with state := node.manager.state.changed target }, disk }) := by
  obtain ⟨backing, manager, before, observed⟩ := node
  cases backing with
  | none => exact h.elim
  | database =>
      have hmedium : manager.medium = .sqlite := h.1
      have hrow : before.rows.lookup (manager.state.changed target).nodeID =
          some ⟨manager.state.role, some manager.state.roleEpoch⟩ := h.2
      simp only [hmedium, save] at hsaved
      split at hsaved
      · cases hsaved
      · obtain rfl := Except.ok.inj hsaved
        exact ⟨hmedium, lookup_updateRow hrow rfl⟩
  | directory statePath =>
      have hpath : FilePath statePath := h.1
      have hmedium : manager.medium = .file := h.2.1
      simp only [hmedium, save] at hsaved
      split at hsaved
      · cases hsaved
      · obtain rfl := Except.ok.inj hsaved
        refine ⟨hpath, hmedium, fun initialRole _ _ => ?_⟩
        exact load_savedFile rfl hnamed.1 hnamed.2

theorem moves_switch {node : Node} (h : Stored node) (hnamed : Named node.manager.state)
    {cancelled : Bool} {failure : Option String} {expectedEpoch : UInt64} {target : String}
    (hlast : node.manager.state.roleEpoch.toNat + 1 < 2 ^ 64) :
    Moves node (step node (.switch cancelled failure expectedEpoch target)) := by
  have houtcome := switch_outcome node.manager node.disk cancelled failure expectedEpoch target
  simp only [step]
  generalize node.manager.switch node.disk cancelled failure expectedEpoch target = switched
    at houtcome ⊢
  cases houtcome with
  | refused err => exact ⟨h, hnamed, rfl, .inl rfl, rfl⟩
  | kept hepoch hrole hvalid => exact ⟨h, hnamed, rfl, .inl rfl, rfl⟩
  | changed hepoch hrole hvalid hsaved =>
      have hnext := named_changed hvalid hlast
      exact ⟨stored_changed h hnext hsaved, hnext, rfl, .inr ⟨hrole, toNat_succ hlast⟩, rfl⟩

theorem moves_restart {node : Node} (h : Stored node) (hnamed : Named node.manager.state)
    {initialRole : String} {failure : Option String}
    (hundamaged : Undamaged node (.restart initialRole failure)) :
    Moves node (step node (.restart initialRole failure)) := by
  obtain ⟨rfl, hrole, hmissing⟩ := hundamaged
  obtain ⟨backing, manager, disk, observed⟩ := node
  cases backing with
  | none => exact h.elim
  | database =>
      have hrow : disk.rows.lookup manager.state.nodeID =
          some ⟨manager.state.role, some manager.state.roleEpoch⟩ := h.2
      have hvalid : ¬(validRole manager.state.role = false ∨ manager.state.roleEpoch = 0) := by
        simp [hnamed.1, hnamed.2]
      have hmanager : newRoleManager .database disk manager.state.nodeID initialRole none =
          (⟨manager.state, .sqlite⟩, disk) := by
        simp only [newRoleManager, newSQLite, new_of_valid hrole, hrow, if_neg hvalid]
        rfl
      simp only [step, hmanager]
      exact ⟨⟨rfl, hrow⟩, hnamed, rfl, .inl rfl, rfl⟩
  | directory statePath =>
      obtain ⟨hpath, -, hload⟩ := h
      have hsame : disk.file = .missing → initialRole = manager.state.role := by
        intro hfile
        simp only [hfile] at hmissing
        exact hmissing
      have hstate := hload initialRole hrole hsame
      have hmanager : newRoleManager (.directory statePath) disk manager.state.nodeID initialRole
          none = (⟨manager.state, .file⟩, disk) := by
        simp only [newRoleManager, newPersistent_of_path hrole hpath, hstate]
        rfl
      simp only [step, hmanager]
      exact ⟨⟨hpath, rfl, hload⟩, hnamed, rfl, .inl rfl, rfl⟩

/-! ## The history -/

/-- What was shown lies as many changes of the role behind the present state as the
epochs differ. -/
structure Behind (present past : State) : Prop where
  named : validRole past.role = true
  epoch : past.roleEpoch.toNat ≤ present.roleEpoch.toNat
  role : past.role = present.role ↔
    (present.roleEpoch.toNat - past.roleEpoch.toNat) % 2 = 0

/-- A third role does not exist. -/
theorem eq_of_ne {a b c : String} (ha : validRole a = true) (hb : validRole b = true)
    (hc : validRole c = true) (hab : a ≠ b) (hcb : c ≠ b) : a = c := by
  simp only [validRole, Bool.or_eq_true, beq_iff_eq] at ha hb hc
  grind

theorem Behind.next {later present past : State} (h : Behind present past)
    (hpresent : validRole present.role = true) (hlater : validRole later.role = true)
    (hfollows : Follows later present) : Behind later past := by
  obtain rfl | ⟨hrole, hepoch⟩ := hfollows
  · exact h
  · have hle := h.epoch
    refine ⟨h.named, by omega, ?_⟩
    by_cases hsame : past.role = present.role
    · have heven := h.role.mp hsame
      have hne : past.role ≠ later.role := fun heq => hrole (heq ▸ hsame)
      simp only [hne, false_iff]
      omega
    · have hodd := mt h.role.mpr hsame
      have heq := eq_of_ne h.named hpresent hlater hsame hrole
      simp only [heq, true_iff]
      omega

/-- An undamaged node, and what it has shown. -/
structure Kept (node : Node) : Prop where
  stored : Stored node
  named : Named node.manager.state
  head : node.observed.head? = some node.manager.state
  follows : node.observed.IsChain Follows
  behind : ∀ past ∈ node.observed, Behind node.manager.state past

theorem Kept.move {node after : Node} (h : Kept node) (hmoves : Moves node after) : Kept after := by
  refine ⟨hmoves.stored, hmoves.named, by rw [hmoves.observed]; rfl, ?_, ?_⟩
  · rw [hmoves.observed]
    refine h.follows.cons fun state hstate => ?_
    rw [h.head] at hstate
    obtain rfl := Option.some.inj hstate
    exact hmoves.follows
  · rw [hmoves.observed]
    refine List.forall_mem_cons.mpr ⟨⟨hmoves.named.1, le_rfl, by simp⟩, fun past hpast => ?_⟩
    exact (h.behind past hpast).next h.named.1 hmoves.named.1 hmoves.follows

theorem Kept.epochsTellRoles {node : Node} (h : Kept node) : EpochsTellRoles node.observed := by
  refine ⟨h.follows, fun a ha b hb hepoch => ?_⟩
  have hbehind := h.behind a ha
  have hbehind' := h.behind b hb
  by_cases hsame : a.role = node.manager.state.role
  · have heven := hbehind.role.mp hsame
    rw [hepoch] at heven
    rw [hsame, hbehind'.role.mpr heven]
  · have hodd := mt hbehind.role.mpr hsame
    rw [hepoch] at hodd
    have hother := mt hbehind'.role.mp hodd
    exact eq_of_ne hbehind.named h.named.1 hbehind'.named hsame hother

theorem kept_start {backing : Backing} {disk : Disk} {nodeID initialRole : String}
    (h : Starts backing disk nodeID initialRole) :
    Kept (Node.start backing disk nodeID initialRole none) := by
  obtain ⟨hstored, hnamed⟩ := stored_start h
  refine ⟨hstored, hnamed, rfl, .singleton _, fun past hpast => ?_⟩
  have hpast : past = (Node.start backing disk nodeID initialRole none).manager.state :=
    List.mem_singleton.mp hpast
  subst hpast
  refine ⟨hnamed.1, le_rfl, ?_⟩
  rw [Nat.sub_self, Nat.zero_mod]
  exact ⟨fun _ => rfl, fun _ => rfl⟩

/-- Within one process a switch moves from a state to one that follows it. -/
theorem follows_switch (m : Manager) (disk : Disk) (cancelled : Bool) (failure : Option String)
    (expectedEpoch : UInt64) (target : String) (hlast : m.state.roleEpoch.toNat + 1 < 2 ^ 64) :
    Follows (m.switch disk cancelled failure expectedEpoch target).manager.state m.state := by
  have houtcome := switch_outcome m disk cancelled failure expectedEpoch target
  generalize m.switch disk cancelled failure expectedEpoch target = switched at houtcome ⊢
  cases houtcome with
  | refused err => exact .inl rfl
  | kept hepoch hrole hvalid => exact .inl rfl
  | changed hepoch hrole hvalid hsaved => exact .inr ⟨hrole, toNat_succ hlast⟩

/-- While the disk stays undamaged and each process reads it, the epoch tells the role
and counts its changes. Within one process it counts them over every disk, and a switch
that fails changes neither memory nor disk. A start whose constructor fails goes on as a
secondary at epoch 1 whose switches leave every disk as it is. -/
theorem epochs_tell_roles (backing : Backing) (disk : Disk) (nodeID initialRole : String)
    (hstart : Starts backing disk nodeID initialRole) (steps : List Step)
    (h : Meets step Undamaged (Node.start backing disk nodeID initialRole none) steps) :
    EpochsTellRoles (run step (Node.start backing disk nodeID initialRole none) steps).observed ∧
      (∀ (m : Manager) (disk : Disk) cancelled failure expectedEpoch target,
        (m.state.roleEpoch.toNat + 1 < 2 ^ 64 →
          Follows (m.switch disk cancelled failure expectedEpoch target).manager.state m.state) ∧
        ∀ err, (m.switch disk cancelled failure expectedEpoch target).answer = .error err →
          (m.switch disk cancelled failure expectedEpoch target).manager = m ∧
          (m.switch disk cancelled failure expectedEpoch target).disk = disk) ∧
      ∀ backing disk nodeID initialRole failure err,
        constructed backing disk nodeID initialRole failure = .error err →
          (newRoleManager backing disk nodeID initialRole failure).1 =
              ⟨⟨nodeID, secondary, 1⟩, .memory⟩ ∧
            ∀ later cancelled saving expectedEpoch target,
              ((newRoleManager backing disk nodeID initialRole failure).1.switch later cancelled
                saving expectedEpoch target).disk = later := by
  have hkept : Kept (run step (Node.start backing disk nodeID initialRole none) steps) := by
    refine run_invariant ?_ (kept_start hstart) h
    intro node i hnode hi
    cases i with
    | switch cancelled failure expectedEpoch target =>
        exact hnode.move (moves_switch hnode.stored hnode.named hi)
    | restart role failure => exact hnode.move (moves_restart hnode.stored hnode.named hi)
    | damage disk => exact hi.elim
  refine ⟨hkept.epochsTellRoles, ?_, ?_⟩
  · intro m disk cancelled failure expectedEpoch target
    exact ⟨follows_switch m disk cancelled failure expectedEpoch target, fun _ => switch_error⟩
  · intro backing disk nodeID initialRole failure err hfailed
    have hfallback := newRoleManager_fallback hfailed
    refine ⟨hfallback, ?_⟩
    intro later cancelled saving expectedEpoch target
    exact switch_memory (congrArg Manager.medium hfallback) later cancelled saving expectedEpoch
      target

/-- A primary with a state file becomes secondary and is started again. -/
theorem epochs_tell_roles_file :
    EpochsTellRoles (run step
      (Node.start (.directory "/data/role-state.json") ⟨.missing, []⟩ "node-a" primary none)
      [.switch false none 1 secondary, .restart primary none]).observed := by
  have hstart : Starts (.directory "/data/role-state.json") ⟨.missing, []⟩ "node-a" primary :=
    ⟨⟨⟨"node-a", primary, 1⟩, .file⟩, newPersistent_of_path (by decide) filePath_roleState, rfl⟩
  have hnode : Node.start (.directory "/data/role-state.json") ⟨.missing, []⟩ "node-a" primary
      none = ⟨.directory "/data/role-state.json", ⟨⟨"node-a", primary, 1⟩, .file⟩,
        ⟨.missing, []⟩, [⟨"node-a", primary, 1⟩]⟩ := by
    simp only [Node.start, newRoleManager,
      newPersistent_of_path (by decide : validRole primary = true) filePath_roleState]
    rfl
  refine (epochs_tell_roles _ _ _ _ hstart _ ?_).1
  rw [hnode]
  have hlast : (1 : UInt64).toNat + 1 < 2 ^ 64 := by decide
  exact ⟨hlast, ⟨rfl, by decide, trivial⟩, trivial⟩

/-- A secondary whose state file is damaged starts again at the epoch it had as primary. -/
theorem epoch_shown_twice :
    ¬EpochsTellRoles (run step
      (Node.start (.directory "/data/role-state.json") ⟨.missing, []⟩ "node-a" primary none)
      [.switch false none 1 secondary,
        .damage ⟨.malformed "unexpected end of JSON input", []⟩,
        .restart primary none]).observed := by
  have hobserved : (run step
      (Node.start (.directory "/data/role-state.json") ⟨.missing, []⟩ "node-a" primary none)
      [.switch false none 1 secondary,
        .damage ⟨.malformed "unexpected end of JSON input", []⟩,
        .restart primary none]).observed =
      [⟨"node-a", secondary, 1⟩, ⟨"node-a", secondary, 2⟩, ⟨"node-a", primary, 1⟩] := by
    decide +kernel
  rw [hobserved]
  intro h
  have hrole := h.role ⟨"node-a", secondary, 1⟩ (by simp) ⟨"node-a", primary, 1⟩ (by simp) rfl
  exact absurd hrole (by decide)

end WorkMesh.Role
