import Mathlib.Logic.Function.Basic
import WorkMesh.Backup.Execute

/-!
# Restoring Redis

A restore stops the container, keeps its dump, copies the new dump in, starts the
container and checks it. Its commands may end in any way, and the context of the
request may be done at any moment.
-/

namespace WorkMesh.Backup

open Encoding

/-! ## Simulations of executors -/

section Simulation
variable {σ τ : Type} {exec : Executor σ} {exec' : Executor τ} {secret : Bytes}
  {command : Command}

/-- An executor whose state is seen as that of another one. -/
def Seen (exec : Executor σ) (exec' : Executor τ) (view : σ → τ) (command : Command) : Prop :=
  ∀ live s, (exec command live s).1 = (exec' command live (view s)).1 ∧
    view (exec command live s).2 = (exec' command live (view s)).2

/-- The session with a view of its state. -/
def Session.map (view : σ → τ) (session : Session σ) : Session τ where
  state := view session.state
  cancelled := session.cancelled

theorem attempts_seen (secret : Bytes) {view : σ → τ} (h : Seen exec exec' view command)
    (left : ℕ) (expired : Bool) (session : Session σ) :
    (attempts exec secret command left expired session).1 =
        (attempts exec' secret command left expired (session.map view)).1 ∧
      (attempts exec secret command left expired session).2.map view =
        (attempts exec' secret command left expired (session.map view)).2 := by
  induction left generalizing expired session with
  | zero =>
      obtain ⟨hreport, hstate⟩ := h (!(session.cancelled || expired)) session.state
      unfold attempts
      dsimp only [Session.map]
      rw [← hreport, ← hstate]
      split <;> exact ⟨rfl, rfl⟩
  | succ left ih =>
      obtain ⟨hreport, hstate⟩ := h (!(session.cancelled || expired)) session.state
      unfold attempts
      dsimp only [Session.map]
      rw [← hreport, ← hstate]
      split
      · exact ⟨rfl, rfl⟩
      · split
        · exact ih _ _
        · split
          · exact ⟨rfl, rfl⟩
          · exact ih _ _

/-- What the first execution of the command brings about and every one keeps. -/
theorem attempts_keeps {P : σ → Prop} {left : ℕ} {expired : Bool} {session : Session σ}
    (hfirst : P (exec command (!(session.cancelled || expired)) session.state).2)
    (h : ∀ live s, (live = true → session.cancelled = false) → P s → P (exec command live s).2) :
    P (attempts exec secret command left expired session).2.state := by
  induction left generalizing expired session with
  | zero =>
      unfold attempts
      dsimp only
      split <;> exact hfirst
  | succ left ih =>
      unfold attempts
      dsimp only
      split
      · exact hfirst
      · split
        · refine ih (h _ _ (fun ht => ?_) hfirst) fun live s hs => h live s fun ht => ?_
          · simp only [Bool.not_eq_true', Bool.or_eq_false_iff] at ht
            exact ht.1.1
          · exact (Bool.or_eq_false_iff.mp (hs ht)).1
        · split
          · exact hfirst
          · refine ih (h _ _ (fun ht => ?_) hfirst) fun live s hs => h live s fun ht => ?_
            · simp only [Bool.not_eq_true', Bool.or_eq_false_iff] at ht
              exact ht.1.1.1
            · exact (Bool.or_eq_false_iff.mp (Bool.or_eq_false_iff.mp (hs ht)).1).1

/-- Under a context that is done the command fails. -/
theorem attempts_dead {left : ℕ} {expired : Bool} {session : Session σ}
    (hdead : session.cancelled = true) :
    (attempts exec secret command left expired session).1.2 = some .context ∧
      (attempts exec secret command left expired session).2.cancelled = true := by
  induction left generalizing expired session with
  | zero =>
      unfold attempts
      simp [verdict, hdead]
  | succ left ih =>
      unfold attempts
      dsimp only
      rw [hdead]
      simp only [Bool.true_or, verdict, if_true]
      split
      · exact ih rfl
      · exact ⟨rfl, rfl⟩

/-- A command that succeeds leaves the context of the request live. -/
theorem attempts_live {left : ℕ} {expired : Bool} {session : Session σ}
    (h : (attempts exec secret command left expired session).1.2 = none) :
    (attempts exec secret command left expired session).2.cancelled = false := by
  induction left generalizing expired session with
  | zero =>
      unfold attempts at h ⊢
      dsimp only at h ⊢
      split at h
      · rename_i hverdict
        unfold verdict at hverdict
        split at hverdict
        · cases hverdict
        · rename_i hdone
          exact (Bool.or_eq_false_iff.mp (Bool.eq_false_iff.mpr hdone)).1
      · cases h
  | succ left ih =>
      unfold attempts at h ⊢
      dsimp only at h ⊢
      split at h
      · rename_i hverdict
        unfold verdict at hverdict
        split at hverdict
        · cases hverdict
        · rename_i hdone
          exact (Bool.or_eq_false_iff.mp (Bool.eq_false_iff.mpr hdone)).1
      · split at h
        · rename_i hdelay
          rw [if_pos hdelay]
          exact ih h
        · rename_i hdelay
          rw [if_neg hdelay]
          split at h
          · cases h
          · rename_i hdone
            rw [if_neg hdone]
            exact ih h

end Simulation

/-! ## The container and the commands -/

/-- How an execution of a command ends, and what a failed one leaves behind. -/
structure Behaviour where
  report : Report := {}
  running : Bool := false
  content : Bytes := []

/-- The command has done its work. -/
def Behaviour.clean (b : Behaviour) : Bool := b.report.error.isNone && b.report.result.exitCode = 0

/-- The container with its dump, the files of the node, the ends of the commands to come, and
which commands have been attempted under a live context. -/
structure Scene where
  running : Bool
  dump : Bytes
  files : Bytes → Bytes
  script : String → List Behaviour
  attempted : List (String × Bool) := []

/-- What a command is to do. -/
inductive Effect where
  | stop
  | start
  | save (path : Bytes)
  | load (path : Bytes)
  | nothing
deriving DecidableEq

def effectOf (request : Request) (command : Command) : Effect :=
  if command.program ≠ "docker" then .nothing
  else match command.args with
    | [verb, name] =>
        if name ≠ request.containerName then .nothing
        else if verb = bytes "stop" then .stop
        else if verb = bytes "start" then .start
        else .nothing
    | [verb, source, target] =>
        if verb ≠ bytes "cp" then .nothing
        else if target = request.dumpInContainer then .load source
        else if source = request.dumpInContainer then .save target
        else .nothing
    | _ => .nothing

def Scene.apply (scene : Scene) (b : Behaviour) : Effect → Scene
  | .stop => { scene with running := if b.clean then false else b.running }
  | .start => { scene with running := if b.clean then true else b.running }
  | .save path =>
      { scene with
        files := Function.update scene.files path (if b.clean then scene.dump else b.content) }
  | .load path => { scene with dump := if b.clean then scene.files path else b.content }
  | .nothing => scene

/-- A command under a dead context is not started. -/
def run (request : Request) : Executor Scene := fun command live scene =>
  let behaviours := scene.script command.name
  let b := behaviours.headD {}
  let scene :=
    { scene with
      script := Function.update scene.script command.name behaviours.tail
      attempted := scene.attempted ++ [(command.name, live)] }
  (b.report, if live then scene.apply b (effectOf request command) else scene)

/-! ## How one command ends -/

/-- The ends of a command alone. -/
def replay : Executor (List Behaviour) := fun _ _ behaviours =>
  ((behaviours.headD {}).report, behaviours.tail)

section Ends
variable (request : Request) (command : Command) (behaviours : List Behaviour)

/-- Started under a live context, the command succeeds. -/
def Succeeds : Prop :=
  (executeCommand replay request.password command ⟨behaviours, false⟩).1.2 = none

/-- The context of the request is done by the end of the command. -/
def Cancels : Prop :=
  (executeCommand replay request.password command ⟨behaviours, false⟩).2.cancelled = true

instance : Decidable (Succeeds request command behaviours) :=
  inferInstanceAs (Decidable (_ = none))

instance : Decidable (Cancels request command behaviours) :=
  inferInstanceAs (Decidable (_ = true))

end Ends

section Scene
variable {request : Request} {command : Command} {scene : Scene}

@[simp] theorem apply_script (b : Behaviour) (effect : Effect) :
    (scene.apply b effect).script = scene.script := by
  cases effect <;> rfl

@[simp] theorem apply_attempted (b : Behaviour) (effect : Effect) :
    (scene.apply b effect).attempted = scene.attempted := by
  cases effect <;> rfl

theorem run_script (live : Bool) :
    (run request command live scene).2.script =
      Function.update scene.script command.name (scene.script command.name).tail := by
  cases live <;> simp [run]

theorem run_attempted (live : Bool) :
    (run request command live scene).2.attempted = scene.attempted ++ [(command.name, live)] := by
  cases live <;> simp [run]

theorem run_seen : Seen (run request) replay (fun scene => scene.script command.name) command :=
  fun live scene => ⟨rfl, by
    change (run request command live scene).2.script command.name = _
    rw [run_script, Function.update_self]
    rfl⟩

/-- The end of a command is that of its ends alone. -/
theorem executeCommand_fails :
    (executeCommand (run request) request.password command ⟨scene, false⟩).1.2 = none ↔
      Succeeds request command (scene.script command.name) := by
  rw [executeCommand, (attempts_seen request.password run_seen _ _ _).1]
  rfl

theorem executeCommand_cancelled :
    (executeCommand (run request) request.password command ⟨scene, false⟩).2.cancelled = true ↔
      Cancels request command (scene.script command.name) := by
  have h := congrArg Session.cancelled
    (attempts_seen request.password (@run_seen request command)
      (command.retry.maxAttempts.toNat - 1) false ⟨scene, false⟩).2
  exact Iff.of_eq (congrArg (· = true) h)

/-! ## What one command does -/

/-- A command leaves the scripts of the others alone and is noted under its name. -/
structure Noted (command : Command) (scene after : Scene) : Prop where
  script : ∀ name, name ≠ command.name → after.script name = scene.script name
  kept : ∀ entry ∈ scene.attempted, entry ∈ after.attempted
  new : ∀ entry ∈ after.attempted, entry ∈ scene.attempted ∨ entry.1 = command.name

theorem Noted.run {after : Scene} (h : Noted command scene after) (live : Bool) :
    Noted command scene (run request command live after).2 where
  script name hne := by
    rw [run_script, Function.update_of_ne hne]
    exact h.script name hne
  kept entry hentry := by
    rw [run_attempted]
    exact List.mem_append_left _ (h.kept entry hentry)
  new entry hentry := by
    rw [run_attempted, List.mem_append, List.mem_singleton] at hentry
    obtain hentry | rfl := hentry
    · exact h.new entry hentry
    · exact .inr rfl

theorem noted_refl : Noted command scene scene :=
  ⟨fun _ _ => rfl, fun _ h => h, fun _ h => .inl h⟩

theorem executeCommand_noted (session : Session Scene) :
    Noted command session.state
      (executeCommand (run request) request.password command session).2.state :=
  attempts_keeps (noted_refl.run _) fun live _ _ h => h.run live

theorem executeCommand_attempted :
    (command.name, true) ∈
      (executeCommand (run request) request.password command ⟨scene, false⟩).2.state.attempted := by
  refine attempts_keeps (P := fun after : Scene => (command.name, true) ∈ after.attempted) ?_ ?_
  · rw [run_attempted]
    exact List.mem_append_right _ (List.mem_singleton_self _)
  · intro live after _ h
    rw [run_attempted]
    exact List.mem_append_left _ h

/-- The container and the files are the same. -/
structure SameWorld (scene after : Scene) : Prop where
  running : after.running = scene.running
  dump : after.dump = scene.dump
  files : after.files = scene.files

theorem SameWorld.run {after : Scene} (h : SameWorld scene after) {live : Bool}
    (hidle : live = true → effectOf request command = .nothing) :
    SameWorld scene (run request command live after).2 := by
  cases live with
  | false => exact ⟨h.running, h.dump, h.files⟩
  | true =>
      simp only [Backup.run, hidle rfl]
      exact ⟨h.running, h.dump, h.files⟩

/-- A command without an effect on the container and the files. -/
theorem executeCommand_idle (hidle : effectOf request command = .nothing)
    (session : Session Scene) :
    SameWorld session.state
      (executeCommand (run request) request.password command session).2.state :=
  attempts_keeps (SameWorld.run ⟨rfl, rfl, rfl⟩ fun _ => hidle) fun _ _ _ h => h.run fun _ => hidle

/-- Under a context that is done a command only fails. -/
theorem executeCommand_dead {session : Session Scene} (hdead : session.cancelled = true) :
    let after := executeCommand (run request) request.password command session
    after.1.2 = some .context ∧ after.2.cancelled = true ∧
      SameWorld session.state after.2.state ∧
      ∀ entry ∈ after.2.state.attempted, entry ∈ session.state.attempted ∨ entry.2 = false := by
  have hlive : ∀ {live : Bool}, (live = true → session.cancelled = false) → live = false := by
    intro live h
    cases live with
    | false => rfl
    | true =>
        rw [h rfl] at hdead
        cases hdead
  have hfirst : (!(session.cancelled || false)) = false := by simp [hdead]
  refine ⟨(attempts_dead hdead).1, (attempts_dead hdead).2, ?_, ?_⟩
  · refine attempts_keeps (SameWorld.run ⟨rfl, rfl, rfl⟩ fun h => ?_)
      fun live _ hl h => h.run fun ht => ?_
    · rw [hfirst] at h
      cases h
    · rw [hlive hl] at ht
      cases ht
  · refine attempts_keeps (P := fun after : Scene => ∀ entry ∈ after.attempted,
      entry ∈ session.state.attempted ∨ entry.2 = false) ?_ ?_
    · intro entry hentry
      rw [run_attempted, List.mem_append, List.mem_singleton] at hentry
      obtain hentry | rfl := hentry
      · exact .inl hentry
      · exact .inr hfirst
    · intro live after hl h entry hentry
      rw [run_attempted, List.mem_append, List.mem_singleton] at hentry
      obtain hentry | rfl := hentry
      · exact h entry hentry
      · exact .inr (hlive hl)

/-- A command that is tried once. -/
theorem executeCommand_once (hretry : command.retry.maxAttempts = 0) :
    let b := (scene.script command.name).headD {}
    executeCommand (run request) request.password command ⟨scene, false⟩ =
      ((b.report.result.redacted request.password,
          verdict request.password command b.report (b.report.cancelled || b.report.expired)),
        ⟨(run request command true scene).2, b.report.cancelled⟩) := by
  rw [executeCommand, hretry]
  unfold attempts
  dsimp only [Int.toNat_zero]
  simp only [Bool.or_self, Bool.not_false, Bool.false_or]
  split
  · rename_i h
    rw [← h]
    rfl
  · rename_i h
    rw [← h]
    rfl

/-- A command that succeeds has done its work. -/
theorem clean_of_verdict {b : Behaviour} {done : Bool} {secret : Bytes}
    (h : verdict secret command b.report done = none) : b.clean = true := by
  unfold verdict at h
  split at h
  · cases h
  · split at h
    · cases h
    · rename_i herror
      split at h
      · cases h
      · rename_i hexit
        simp [Behaviour.clean, herror, not_not.mp hexit]

end Scene

end WorkMesh.Backup
