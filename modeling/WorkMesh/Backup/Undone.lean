import WorkMesh.Backup.Restore

/-!
# Undoing a failed restore

A restore that fails is undone when the commands of its compensation go on to the
last one. They do not when the context of the request is done by then, and the
stop of the container has no compensation.
-/

namespace WorkMesh.Backup

open Encoding

/-! ## Compensations -/

section Compensate
variable {σ : Type} {exec : Executor σ} {secret : Bytes} {command : Command}
  {commands : List Command} {session : Session σ}

theorem compensate_session :
    let next := executeCommand exec secret command session
    (compensate exec secret (command :: commands) session).2 =
      if next.1.2 = none ∨ command.continueOnError = true then
        (compensate exec secret commands next.2).2
      else next.2 := by
  rw [compensate]
  match hrun : executeCommand exec secret command session with
  | ((result, none), next) => simp
  | ((result, some e), next) =>
      dsimp only
      split <;> simp_all

theorem compensate_error :
    (compensate exec secret (command :: commands) session).1.2 = none ↔
      (executeCommand exec secret command session).1.2 = none ∧
        (compensate exec secret commands
          (executeCommand exec secret command session).2).1.2 = none := by
  rw [compensate]
  match hrun : executeCommand exec secret command session with
  | ((result, none), next) => simp
  | ((result, some e), next) =>
      dsimp only
      split <;> simp

end Compensate

section Attempted
variable {request : Request} {command : Command} {commands : List Command} {scene : Scene}

theorem compensate_dead {session : Session Scene} (hdead : session.cancelled = true) :
    ∀ entry ∈ (compensate (run request) request.password commands session).2.state.attempted,
      entry ∈ session.state.attempted ∨ entry.2 = false := by
  induction commands generalizing session with
  | nil => exact fun _ h => .inl h
  | cons command commands ih =>
      obtain ⟨-, hdead', -, hnew⟩ := @executeCommand_dead request command session hdead
      intro entry hentry
      rw [compensate_session] at hentry
      split at hentry
      · obtain hentry | hfalse := ih hdead' entry hentry
        · exact hnew entry hentry
        · exact .inr hfalse
      · exact hnew entry hentry

theorem compensate_kept (session : Session Scene) :
    ∀ entry ∈ session.state.attempted,
      entry ∈ (compensate (run request) request.password commands session).2.state.attempted := by
  induction commands generalizing session with
  | nil => exact fun _ h => h
  | cons command commands ih =>
      intro entry hentry
      have hnext := (@executeCommand_noted request command session).kept
        entry hentry
      rw [compensate_session]
      split
      · exact ih _ entry hnext
      · exact hnext

/-- The compensation goes on behind the command, under a live context. -/
def GoesOn (request : Request) (scene : Scene) (command : Command) : Prop :=
  Succeeds request command (scene.script command.name) ∨
    (command.continueOnError = true ∧ ¬ Cancels request command (scene.script command.name))

instance : Decidable (GoesOn request scene command) := inferInstanceAs (Decidable (_ ∨ _))

theorem succeeds_live (h : Succeeds request command (scene.script command.name)) :
    ¬ Cancels request command (scene.script command.name) := by
  rw [Cancels, executeCommand, attempts_live h]
  exact Bool.false_ne_true

/-- All commands of a compensation are attempted under a live context if and only if it goes on
behind each of them but the last. -/
theorem compensate_attempted_iff (hnames : (commands.map Command.name).Nodup)
    (hnew : ∀ entry ∈ scene.attempted, entry.1 ∉ commands.map Command.name) :
    (∀ command ∈ commands, (command.name, true) ∈
        (compensate (run request) request.password commands ⟨scene, false⟩).2.state.attempted) ↔
      ∀ command ∈ commands.dropLast, GoesOn request scene command := by
  induction commands generalizing scene with
  | nil => simp
  | cons command commands ih =>
      obtain ⟨hname, hrest⟩ := List.nodup_cons.mp hnames
      have hnoted := @executeCommand_noted request command ⟨scene, false⟩
      have hself := @executeCommand_attempted request command scene
      have hfresh : ∀ entry ∈ (executeCommand (run request) request.password command
          ⟨scene, false⟩).2.state.attempted, entry.1 ∉ commands.map Command.name := by
        intro entry hentry hmem
        obtain hold | heq := hnoted.new entry hentry
        · exact hnew entry hold (List.mem_cons_of_mem _ hmem)
        · exact hname (heq ▸ hmem)
      have hgoes : ∀ other ∈ commands.dropLast,
          (GoesOn request (executeCommand (run request) request.password command
            ⟨scene, false⟩).2.state other ↔ GoesOn request scene other) := by
        intro other hother
        have hne : other.name ≠ command.name := by
          intro heq
          exact hname (heq ▸ List.mem_map_of_mem (List.mem_of_mem_dropLast hother))
        rw [GoesOn, GoesOn, hnoted.script _ hne]
      cases commands with
      | nil =>
          simp only [List.mem_singleton, forall_eq, List.dropLast_singleton, List.not_mem_nil,
            false_implies, implies_true, iff_true]
          rw [compensate_session]
          split <;> exact hself
      | cons second commands =>
          rw [List.dropLast_cons_cons]
          refine (List.forall_mem_cons.trans ?_).trans List.forall_mem_cons.symm
          rw [compensate_session]
          have hsucceeds := @executeCommand_fails request command scene
          have hcancels := @executeCommand_cancelled request command scene
          generalize hrun : executeCommand (run request) request.password command ⟨scene, false⟩ =
            next at hself hfresh hgoes hsucceeds hcancels ⊢
          by_cases hgo : GoesOn request scene command
          · have hlive : next.2 = ⟨next.2.state, false⟩ := by
              have hcancelled : next.2.cancelled = false := by
                rw [← Bool.not_eq_true, hcancels]
                exact hgo.elim succeeds_live And.right
              rw [← hcancelled]
            rw [if_pos (hgo.imp hsucceeds.mpr And.left), hlive, ih hrest hfresh]
            have hhead := @compensate_kept request (second :: commands) ⟨next.2.state, false⟩ _ hself
            exact and_congr (iff_of_true hhead hgo) (forall₂_congr hgoes)
          · have hfails : next.1.2 ≠ none := fun hnone => hgo (.inl (hsucceeds.mp hnone))
            refine iff_of_false (fun ⟨_, hall⟩ => ?_) fun h => hgo h.1
            have hsecond := hall second List.mem_cons_self
            have hnone : (second.name, true) ∉ next.2.state.attempted :=
              fun hmem => hfresh _ hmem List.mem_cons_self
            split at hsecond
            · rename_i hcontinue
              have hcontinue := hcontinue.resolve_left hfails
              have hdead : next.2.cancelled = true := by
                rw [hcancels]
                by_contra hlive
                exact hgo (.inr ⟨hcontinue, hlive⟩)
              obtain hmem | hfalse := compensate_dead hdead _ hsecond
              · exact hnone hmem
              · cases hfalse
            · exact hnone hsecond

end Attempted

/-! ## The container and the files -/

section World
variable {request : Request} {command : Command} {session : Session Scene} {name : String}
  {path : Bytes}

theorem effectOf_dockerStop : effectOf request (dockerStop request name) = .stop := by
  simp [effectOf, dockerStop, dockerCommand]

theorem effectOf_dockerStart : effectOf request (dockerStart request name) = .start := by
  have hverb : bytes "start" ≠ bytes "stop" := by decide
  simp [effectOf, dockerStart, dockerCommand, hverb]

theorem effectOf_copyIn : effectOf request (copyIn request name path) = .load path := by
  simp [effectOf, copyIn, dockerCommand]

theorem rollbackPath_ne_dump : request.rollbackPath ≠ request.dumpInContainer := by
  intro h
  have hlast := congrArg List.getLast? h
  have hleft : (request.artifactPath ++ bytes ".pre-restore").getLast? = some 101 := by
    rw [List.getLast?_append_of_ne_nil _ (by decide)]
    decide
  have hright : (request.containerName ++ 58 :: redisDumpPath).getLast? = some 98 := by
    rw [List.getLast?_append_of_ne_nil _ (by decide)]
    decide
  rw [Request.rollbackPath, Request.dumpInContainer, hleft, hright] at hlast
  cases hlast

theorem effectOf_copyOut :
    effectOf request (copyOut request name request.rollbackPath) = .save request.rollbackPath := by
  simp [effectOf, copyOut, dockerCommand, rollbackPath_ne_dump]

theorem effectOf_healthCheck : effectOf request (healthCheck request name) = .nothing := rfl

theorem live_of_ok
    (hok : (executeCommand (run request) request.password command session).1.2 = none) :
    session = ⟨session.state, false⟩ := by
  have hlive : session.cancelled = false := by
    by_contra hdead
    have hfails := (@executeCommand_dead request command session
      (Bool.not_eq_false _ ▸ hdead)).1
    rw [hok] at hfails
    cases hfails
  rw [← hlive]

/-- What a command that is tried once leaves when it succeeds. -/
theorem world_of_ok (hretry : command.retry.maxAttempts = 0)
    (hok : (executeCommand (run request) request.password command session).1.2 = none) :
    ∃ b : Behaviour, b.clean = true ∧
      SameWorld (session.state.apply b (effectOf request command))
        (executeCommand (run request) request.password command session).2.state := by
  obtain ⟨scene, rfl⟩ : ∃ scene, session = ⟨scene, false⟩ := ⟨_, live_of_ok hok⟩
  rw [executeCommand_once hretry] at hok ⊢
  refine ⟨(scene.script command.name).headD {}, clean_of_verdict hok, ?_⟩
  simp only [run, if_true]
  cases effectOf request command <;> exact ⟨rfl, rfl, rfl⟩

theorem executeCommand_files (h : ∀ path, effectOf request command ≠ .save path)
    (session : Session Scene) :
    (executeCommand (run request) request.password command session).2.state.files =
      session.state.files := by
  have hrun : ∀ live (scene : Scene), (run request command live scene).2.files = scene.files := by
    intro live scene
    cases live with
    | false => rfl
    | true =>
        simp only [run, if_true]
        cases heffect : effectOf request command with
        | save path => exact absurd heffect (h path)
        | stop | start | load path | nothing => rfl
  exact attempts_keeps (P := fun after : Scene => after.files = session.state.files) (hrun _ _)
    fun live scene _ hs => (hrun live scene).trans hs

theorem executeCommand_dump (h : ∀ path, effectOf request command ≠ .load path)
    (session : Session Scene) :
    (executeCommand (run request) request.password command session).2.state.dump =
      session.state.dump := by
  have hrun : ∀ live (scene : Scene), (run request command live scene).2.dump = scene.dump := by
    intro live scene
    cases live with
    | false => rfl
    | true =>
        simp only [run, if_true]
        cases heffect : effectOf request command with
        | load path => exact absurd heffect (h path)
        | stop | start | save path | nothing => rfl
  exact attempts_keeps (P := fun after : Scene => after.dump = session.state.dump) (hrun _ _)
    fun live scene _ hs => (hrun live scene).trans hs

/-- What a command that is tried once leaves under a live context. -/
theorem world_of_once (hretry : command.retry.maxAttempts = 0) (scene : Scene) :
    SameWorld (scene.apply ((scene.script command.name).headD {}) (effectOf request command))
      (executeCommand (run request) request.password command ⟨scene, false⟩).2.state := by
  rw [executeCommand_once hretry]
  simp only [run, if_true]
  cases effectOf request command <;> exact ⟨rfl, rfl, rfl⟩

theorem restart_restored
    (hok : (compensate (run request) request.password (redisRestart request).commands
      session).1.2 = none) :
    let after := (compensate (run request) request.password (redisRestart request).commands
      session).2.state
    after.running = true ∧ after.dump = session.state.dump := by
  obtain ⟨hstart, hrest⟩ := compensate_error.mp hok
  obtain ⟨hhealth, -⟩ := compensate_error.mp hrest
  obtain ⟨b, hclean, hworld⟩ := world_of_ok rfl hstart
  rw [effectOf_dockerStart] at hworld
  have hidle := executeCommand_idle (@effectOf_healthCheck request
    "redis-health-check-after-pre-restore-failure")
    (executeCommand (run request) request.password
      (dockerStart request "redis-start-after-pre-restore-failure") session).2
  rw [redisRestart, compensate_session, if_pos (.inl hstart), compensate_session,
    if_pos (.inl hhealth)]
  refine ⟨hidle.running.trans (hworld.running.trans ?_), hidle.dump.trans hworld.dump⟩
  simp [Scene.apply, hclean]

theorem rollback_restored
    (hok : (compensate (run request) request.password (redisRollback request).commands
      session).1.2 = none) :
    let after := (compensate (run request) request.password (redisRollback request).commands
      session).2.state
    after.running = true ∧ after.dump = session.state.files request.rollbackPath := by
  obtain ⟨hstop, hrest⟩ := compensate_error.mp hok
  obtain ⟨hcopy, hrest⟩ := compensate_error.mp hrest
  obtain ⟨hstart, hrest⟩ := compensate_error.mp hrest
  obtain ⟨hhealth, -⟩ := compensate_error.mp hrest
  obtain ⟨b, hclean, hloaded⟩ := world_of_ok rfl hcopy
  obtain ⟨c, hclean', hstarted⟩ := world_of_ok rfl hstart
  rw [effectOf_copyIn] at hloaded
  rw [effectOf_dockerStart] at hstarted
  have hidle := executeCommand_idle (@effectOf_healthCheck request
    "redis-rollback-health-check")
    (executeCommand (run request) request.password (dockerStart request "redis-rollback-start")
      (executeCommand (run request) request.password
        (copyIn request "redis-rollback-copy" request.rollbackPath)
        (executeCommand (run request) request.password
          { dockerStop request "redis-rollback-stop" with continueOnError := true }
          session).2).2).2
  have hfiles := @executeCommand_files request
    { dockerStop request "redis-rollback-stop" with continueOnError := true }
    (by
      intro path
      change effectOf request (dockerStop request "redis-rollback-stop") ≠ _
      rw [effectOf_dockerStop]
      exact fun h => by cases h) session
  rw [redisRollback, compensate_session, if_pos (.inl hstop), compensate_session,
    if_pos (.inl hcopy), compensate_session, if_pos (.inl hstart), compensate_session,
    if_pos (.inl hhealth)]
  refine ⟨hidle.running.trans (hstarted.running.trans ?_),
    hidle.dump.trans (hstarted.dump.trans (hloaded.dump.trans ?_))⟩
  · simp [Scene.apply, hclean']
  · simp [Scene.apply, hclean, hfiles]

end World

/-! ## The restore -/

/-- The commands that compensate for a failed one. -/
def matching (request : Request) (failed : String) : List Command :=
  ([redisRestart request, redisRollback request].filter (·.matches failed)).flatMap
    Compensation.commands

/-- A failed command is made up for. Behind the stop, which has no compensation, the container runs
if it ran before. -/
structure Undone (request : Request) (scene after : Scene) (failed : String)
    (compensation : Option (String × Failure)) : Prop where
  attempted : ∀ command ∈ matching request failed, (command.name, true) ∈ after.attempted
  restored : matching request failed ≠ [] → compensation = none →
    after.running = true ∧ after.dump = scene.dump
  untouched : matching request failed = [] →
    (scene.running = true → after.running = true) ∧ after.dump = scene.dump

/-- A restore that ends in an error is undone. -/
def RestoreUndone (request : Request) (scene : Scene) (cancelled : Bool) : Prop :=
  let out := perform (run request) .restore request ⟨{ scene with attempted := [] }, cancelled⟩
  ∀ refusal, out.1.2 = some refusal →
    match refusal with
    | .request _ => SameWorld scene out.2.state
    | .command failed _ compensation => Undone request scene out.2.state failed compensation

section Recovers
variable (request : Request) (scene : Scene)

/-- Started under a live context, the command succeeds in the scene. -/
def Works (command : Command) : Prop := Succeeds request command (scene.script command.name)

/-- The stop of the container fails and leaves it as it ran. -/
def StopHarmless : Prop :=
  let b := (scene.script "redis-stop-for-restore").headD {}
  scene.running = true → b.clean = false ∧ b.running = true

/-- The context of the request is live behind the failed command, and the compensation goes on to
its last command. -/
def Compensated (command : Command) : Prop :=
  ¬ Cancels request command (scene.script command.name) ∧
    ∀ other ∈ (matching request command.name).dropLast, GoesOn request scene other

instance (command : Command) : Decidable (Works request scene command) :=
  inferInstanceAs (Decidable (Succeeds _ _ _))

instance : Decidable (StopHarmless scene) := inferInstanceAs (Decidable (_ → _ ∧ _))

instance (command : Command) : Decidable (Compensated request scene command) :=
  inferInstanceAs (Decidable (_ ∧ _))

/-- Whatever command is the first to fail can be made up for. -/
def Recovers : Prop :=
  ∀ front command back, redisRestoreCommands request = front ++ command :: back →
    (∀ earlier ∈ front, Works request scene earlier) → ¬ Works request scene command →
      if matching request command.name = [] then StopHarmless scene
      else Compensated request scene command

end Recovers

section Passing
variable {request : Request} {front : List Command} {scene : Scene}

/-- Commands that pass leave the scripts of the others alone and are noted under their names. -/
theorem noted_of_passes {session last : Session Scene}
    (hpass : Passes (run request) request.password front session last) :
    (∀ name, name ∉ front.map Command.name → last.state.script name = session.state.script name) ∧
      ∀ entry ∈ last.state.attempted,
        entry ∈ session.state.attempted ∨ entry.1 ∈ front.map Command.name := by
  induction hpass with
  | nil => exact ⟨fun _ _ => rfl, fun _ h => .inl h⟩
  | @cons command front session last hok hrest ih =>
      have hnoted := @executeCommand_noted request command session
      refine ⟨fun name hmem => ?_, fun entry hentry => ?_⟩
      · rw [List.map_cons, List.mem_cons, not_or] at hmem
        rw [ih.1 name hmem.2, hnoted.script name hmem.1]
      · obtain hold | hmem := ih.2 entry hentry
        · obtain hold | heq := hnoted.new entry hold
          · exact .inl hold
          · exact .inr (heq ▸ List.mem_cons_self)
        · exact .inr (List.mem_cons_of_mem _ hmem)

/-- Commands that work pass in turn. -/
theorem passes_of_works (hnames : (front.map Command.name).Nodup)
    (hworks : ∀ command ∈ front, Works request scene command) :
    ∃ last, Passes (run request) request.password front ⟨scene, false⟩ ⟨last, false⟩ := by
  induction front generalizing scene with
  | nil => exact ⟨scene, .nil _⟩
  | cons command front ih =>
      obtain ⟨hname, hrest⟩ := List.nodup_cons.mp hnames
      have hnoted := @executeCommand_noted request command ⟨scene, false⟩
      have hok := executeCommand_fails.mpr (hworks command List.mem_cons_self)
      have hlive : (executeCommand (run request) request.password command ⟨scene, false⟩).2 =
          ⟨(executeCommand (run request) request.password command ⟨scene, false⟩).2.state,
            false⟩ := congrArg (Session.mk _) (attempts_live hok)
      obtain ⟨last, hpass⟩ := @ih
        (executeCommand (run request) request.password command ⟨scene, false⟩).2.state hrest
        fun other hother => by
          have hne : other.name ≠ command.name :=
            fun heq => hname (heq ▸ List.mem_map_of_mem hother)
          rw [Works, hnoted.script _ hne]
          exact hworks other (List.mem_cons_of_mem _ hother)
      exact ⟨last, .cons hok (hlive ▸ hpass)⟩

theorem works_of_passes {session last : Session Scene}
    (hpass : Passes (run request) request.password front session last)
    (hnames : (front.map Command.name).Nodup) :
    ∀ command ∈ front, Works request session.state command := by
  induction hpass with
  | nil => exact fun _ h => absurd h List.not_mem_nil
  | @cons command front session last hok hrest ih =>
      obtain ⟨hname, hnodup⟩ := List.nodup_cons.mp hnames
      intro other hother
      obtain rfl | hother := List.mem_cons.mp hother
      · rw [live_of_ok hok] at hok
        exact executeCommand_fails.mp hok
      · have hne : other.name ≠ command.name :=
          fun heq => hname (heq ▸ List.mem_map_of_mem hother)
        have hworks := ih hnodup other hother
        rwa [Works, (executeCommand_noted session).script _ hne] at hworks

theorem files_of_passes {session last : Session Scene}
    (hpass : Passes (run request) request.password front session last)
    (h : ∀ command ∈ front, ∀ path, effectOf request command ≠ .save path) :
    last.state.files = session.state.files := by
  induction hpass with
  | nil => rfl
  | cons hok hrest ih =>
      exact (ih fun other hother => h other (List.mem_cons_of_mem _ hother)).trans
        (executeCommand_files (h _ List.mem_cons_self) _)

theorem dump_of_passes {session last : Session Scene}
    (hpass : Passes (run request) request.password front session last)
    (h : ∀ command ∈ front, ∀ path, effectOf request command ≠ .load path) :
    last.state.dump = session.state.dump := by
  induction hpass with
  | nil => rfl
  | cons hok hrest ih =>
      exact (ih fun other hother => h other (List.mem_cons_of_mem _ hother)).trans
        (executeCommand_dump (h _ List.mem_cons_self) _)

/-- The dump from before the restore is kept by the copy that passes. -/
theorem saved_of_passes {session last : Session Scene} {rest : List Command}
    (hpass : Passes (run request) request.password
      (dockerStop request "redis-stop-for-restore" ::
        copyOut request "redis-backup-existing-rdb" request.rollbackPath :: rest) session last)
    (h : ∀ command ∈ rest, ∀ path, effectOf request command ≠ .save path) :
    last.state.files request.rollbackPath = session.state.dump := by
  cases hpass with
  | cons hstop hpass =>
      cases hpass with
      | cons hsave hrest =>
          obtain ⟨b, hclean, hworld⟩ := world_of_ok rfl hsave
          rw [effectOf_copyOut] at hworld
          rw [files_of_passes hrest h, hworld.files]
          have hdump := @executeCommand_dump request
            (dockerStop request "redis-stop-for-restore")
            (by
              intro path
              rw [effectOf_dockerStop]
              exact fun h => by cases h) session
          simp [Scene.apply, hclean, hdump]

end Passing

section Failing
variable {request : Request} {scene last : Scene} {command : Command} {commands : List Command}

/-- The commands of a compensation are attempted if and only if the context of the request is live
behind the failed command and the compensation goes on. -/
theorem attempted_iff (hne : commands ≠ []) (hnames : (commands.map Command.name).Nodup)
    (hother : command.name ∉ commands.map Command.name)
    (hscript : last.script command.name = scene.script command.name)
    (hscripts : ∀ other ∈ commands, last.script other.name = scene.script other.name)
    (hentries : ∀ entry ∈ last.attempted, entry.1 ∉ commands.map Command.name) :
    (∀ other ∈ commands, (other.name, true) ∈ (compensate (run request) request.password commands
        (executeCommand (run request) request.password command
          ⟨last, false⟩).2).2.state.attempted) ↔
      ¬ Cancels request command (scene.script command.name) ∧
        ∀ other ∈ commands.dropLast, GoesOn request scene other := by
  have hnoted := @executeCommand_noted request command ⟨last, false⟩
  have hcancels := @executeCommand_cancelled request command last
  rw [hscript] at hcancels
  generalize hrun : executeCommand (run request) request.password command ⟨last, false⟩ = next
    at hnoted hcancels ⊢
  have hfresh : ∀ entry ∈ next.2.state.attempted, entry.1 ∉ commands.map Command.name := by
    intro entry hentry hmem
    obtain hold | heq := hnoted.new entry hentry
    · exact hentries entry hold hmem
    · exact hother (heq ▸ hmem)
  by_cases hdead : next.2.cancelled = true
  · obtain ⟨first, hfirst⟩ := List.exists_mem_of_ne_nil commands hne
    refine iff_of_false (fun hall => ?_) fun h => h.1 (hcancels.mp hdead)
    obtain hmem | hfalse := compensate_dead hdead _ (hall first hfirst)
    · exact hfresh _ hmem (List.mem_map_of_mem hfirst)
    · cases hfalse
  · have hlive : next.2 = ⟨next.2.state, false⟩ :=
      congrArg (Session.mk _) (Bool.not_eq_true _ ▸ hdead)
    rw [hlive, compensate_attempted_iff hnames hfresh]
    have hgoes : ∀ other ∈ commands.dropLast,
        (GoesOn request next.2.state other ↔ GoesOn request scene other) := by
      intro other hmem
      have hmem := List.mem_of_mem_dropLast hmem
      have hne' : other.name ≠ command.name :=
        fun heq => hother (heq ▸ List.mem_map_of_mem hmem)
      rw [GoesOn, GoesOn, hnoted.script _ hne', ← hscripts other hmem]
    rw [and_iff_right (fun h => hdead (hcancels.mpr h))]
    exact forall₂_congr hgoes

end Failing

/-! ## The commands of the restore -/

section Restore
variable {request : Request} {scene last : Scene} {session : Session Scene} {command : Command}

theorem compensations_restart {failed : String} (hfirst : (redisRestart request).matches failed)
    (hsecond : (redisRollback request).matches failed = false) :
    let compensated := executeFailureCompensations (run request) request.password failed
      [redisRestart request, redisRollback request] session
    let compensation := compensate (run request) request.password (redisRestart request).commands
      session
    compensated.1.2 = compensation.1.2 ∧ compensated.2 = compensation.2 := by
  simp [executeFailureCompensations, hfirst, hsecond]

theorem compensations_rollback {failed : String}
    (hfirst : (redisRestart request).matches failed = false)
    (hsecond : (redisRollback request).matches failed) :
    let compensated := executeFailureCompensations (run request) request.password failed
      [redisRestart request, redisRollback request] session
    let compensation := compensate (run request) request.password (redisRollback request).commands
      session
    compensated.1.2 = compensation.1.2 ∧ compensated.2 = compensation.2 := by
  simp [executeFailureCompensations, hfirst, hsecond]

theorem matching_restart {failed : String} (hfirst : (redisRestart request).matches failed)
    (hsecond : (redisRollback request).matches failed = false) :
    matching request failed = (redisRestart request).commands := by
  simp [matching, hfirst, hsecond]

theorem matching_rollback {failed : String}
    (hfirst : (redisRestart request).matches failed = false)
    (hsecond : (redisRollback request).matches failed) :
    matching request failed = (redisRollback request).commands := by
  simp [matching, hfirst, hsecond]

/-- What the failed command is made up for with, and what is asked of it. -/
def UndoneAfter (request : Request) (scene last : Scene) (command : Command) : Prop :=
  let compensated := executeFailureCompensations (run request) request.password command.name
    [redisRestart request, redisRollback request]
    (executeCommand (run request) request.password command ⟨last, false⟩).2
  Undone request scene compensated.2.state command.name compensated.1.2

theorem stop_undone_iff :
    UndoneAfter request scene { scene with attempted := [] }
      (dockerStop request "redis-stop-for-restore") ↔ StopHarmless scene := by
  have hfirst : (redisRestart request).matches "redis-stop-for-restore" = false := by
    simp [redisRestart, Compensation.matches]
  have hsecond : (redisRollback request).matches "redis-stop-for-restore" = false := by
    simp [redisRollback, Compensation.matches]
  have hnone : matching request "redis-stop-for-restore" = [] := by
    simp [matching, hfirst, hsecond]
  have hworld := @world_of_once request
    (dockerStop request "redis-stop-for-restore") rfl { scene with attempted := [] }
  rw [effectOf_dockerStop] at hworld
  have hname : (dockerStop request "redis-stop-for-restore").name = "redis-stop-for-restore" := rfl
  simp only [UndoneAfter, executeFailureCompensations, hname, hfirst, hsecond, Bool.false_eq_true,
    if_false]
  constructor
  · intro h hrunning
    have hkept := (h.untouched hnone).1 hrunning
    rw [hworld.running] at hkept
    simp only [Scene.apply] at hkept
    split at hkept
    · cases hkept
    · rename_i hclean
      exact ⟨Bool.not_eq_true _ ▸ hclean, hkept⟩
  · intro h
    refine ⟨by simp [hnone], fun hne => absurd hnone hne, fun _ => ⟨fun hrunning => ?_, ?_⟩⟩
    · obtain ⟨hclean, hkept⟩ := h hrunning
      rw [hworld.running]
      simp only [Scene.apply]
      have hb : ((scene.script "redis-stop-for-restore").headD {}).clean = false := hclean
      rw [hname, hb]
      exact hkept
    · rw [hworld.dump]
      rfl

/-- A failed command with a compensation is made up for if and only if its compensation is
attempted to the end under a live context. -/
theorem compensated_iff {commands : List Command} {failed : List Result × Option (String × Failure)}
    {after : Session Scene} (hmatching : matching request command.name = commands)
    (hne : commands ≠ []) (hnames : (commands.map Command.name).Nodup)
    (hother : command.name ∉ commands.map Command.name)
    (hscript : ∀ name ∈ command.name :: commands.map Command.name,
      last.script name = scene.script name)
    (hentries : ∀ entry ∈ last.attempted, entry.1 ∉ commands.map Command.name)
    (hcompensated : executeFailureCompensations (run request) request.password command.name
      [redisRestart request, redisRollback request]
      (executeCommand (run request) request.password command ⟨last, false⟩).2 = (failed, after))
    (hcompensation : failed.2 = (compensate (run request) request.password commands
        (executeCommand (run request) request.password command ⟨last, false⟩).2).1.2 ∧
      after = (compensate (run request) request.password commands
        (executeCommand (run request) request.password command ⟨last, false⟩).2).2)
    (hrestored : failed.2 = none → after.state.running = true ∧ after.state.dump = scene.dump) :
    UndoneAfter request scene last command ↔ Compensated request scene command := by
  have hattempted := @attempted_iff request _ _ _ _ hne hnames hother
    (hscript _ List.mem_cons_self)
    (fun other hmem => hscript _ (List.mem_cons_of_mem _ (List.mem_map_of_mem hmem))) hentries
  rw [Compensated, hmatching, ← hattempted, UndoneAfter, hcompensated, ← hcompensation.2]
  constructor
  · intro h
    have hall := h.attempted
    rwa [hmatching] at hall
  · intro hall
    refine ⟨by rwa [hmatching], fun _ => hrestored, fun hnone => ?_⟩
    exact absurd (hmatching.symm.trans hnone) hne

theorem save_undone_iff (hdump : last.dump = scene.dump)
    (hscript : ∀ name, name ≠ "redis-stop-for-restore" → last.script name = scene.script name)
    (hentries : ∀ entry ∈ last.attempted, entry.1 = "redis-stop-for-restore") :
    UndoneAfter request scene last
        (copyOut request "redis-backup-existing-rdb" request.rollbackPath) ↔
      Compensated request scene
        (copyOut request "redis-backup-existing-rdb" request.rollbackPath) := by
  have hfirst : (redisRestart request).matches "redis-backup-existing-rdb" = true := by
    simp [redisRestart, Compensation.matches]
  have hsecond : (redisRollback request).matches "redis-backup-existing-rdb" = false := by
    simp [redisRollback, Compensation.matches]
  have hcompensation := @compensations_restart request (executeCommand (run request)
    request.password (copyOut request "redis-backup-existing-rdb" request.rollbackPath)
    ⟨last, false⟩).2 _ hfirst hsecond
  refine compensated_iff (matching_restart hfirst hsecond) (List.cons_ne_nil _ _) ?_ ?_ ?_ ?_ rfl
    hcompensation fun hok => ?_
  · simp [redisRestart, dockerStart, dockerCommand, healthCheck]
  · simp [redisRestart, dockerStart, dockerCommand, healthCheck, copyOut]
  · intro name hname
    refine hscript name fun heq => ?_
    simp [heq, redisRestart, dockerStart, dockerCommand, healthCheck, copyOut] at hname
  · intro entry hentry
    rw [hentries entry hentry]
    simp [redisRestart, dockerStart, dockerCommand, healthCheck]
  · have hkept := @executeCommand_dump request
      (copyOut request "redis-backup-existing-rdb" request.rollbackPath)
      (fun path => by rw [effectOf_copyOut]; exact Effect.noConfusion) ⟨last, false⟩
    obtain ⟨hrunning, hrestored⟩ := restart_restored (hcompensation.1.symm.trans hok)
    rw [← hcompensation.2] at hrunning hrestored
    exact ⟨hrunning, hrestored.trans (hkept.trans hdump)⟩

/-- Behind the copy that keeps the dump a failed command is made up for by the rollback. -/
theorem load_undone_iff (hsaved : last.files request.rollbackPath = scene.dump)
    (hcommand : command.name ∈ (redisRollback request).triggerCommands)
    (heffect : ∀ path, effectOf request command ≠ .save path)
    (hscript : ∀ name, name ∈ command.name :: (redisRollback request).commands.map Command.name →
      last.script name = scene.script name)
    (hentries : ∀ entry ∈ last.attempted,
      entry.1 ∉ (redisRollback request).commands.map Command.name) :
    UndoneAfter request scene last command ↔ Compensated request scene command := by
  have hfirst : (redisRestart request).matches command.name = false := by
    simp only [redisRollback, List.mem_cons, List.not_mem_nil, or_false] at hcommand
    obtain h | h | h := hcommand <;> simp [redisRestart, Compensation.matches, h]
  have hsecond : (redisRollback request).matches command.name = true := by
    rw [Compensation.matches, List.contains_iff_mem]
    exact hcommand
  have hcompensation := @compensations_rollback request
    (executeCommand (run request) request.password command ⟨last, false⟩).2 _ hfirst hsecond
  refine compensated_iff (matching_rollback hfirst hsecond) (List.cons_ne_nil _ _) ?_ ?_ hscript
    hentries rfl hcompensation fun hok => ?_
  · simp [redisRollback, dockerStop, copyIn, dockerStart, dockerCommand, healthCheck]
  · simp only [redisRollback, List.mem_cons, List.not_mem_nil, or_false] at hcommand
    obtain h | h | h := hcommand <;>
      simp [redisRollback, dockerStop, copyIn, dockerStart, dockerCommand, healthCheck, h]
  · have hkept := executeCommand_files heffect ⟨last, false⟩
    obtain ⟨hrunning, hrestored⟩ := rollback_restored (hcompensation.1.symm.trans hok)
    rw [← hcompensation.2] at hrunning hrestored
    exact ⟨hrunning, hrestored.trans ((congrFun hkept _).trans hsaved)⟩

end Restore

/-- The plan of a restore of Redis. -/
theorem redis_restore_plan {request : Request} {plan : Plan}
    (hredis : normalizeDatabaseBackupType request.type = .ok .redis)
    (hplan : buildDatabaseBackupPlan .restore request = .ok plan) :
    plan.commands = redisRestoreCommands request ∧
      plan.compensations = [redisRestart request, redisRollback request] := by
  rw [buildDatabaseBackupPlan, hredis] at hplan
  simp only [bind, Except.bind, buildRedisBackupPlan] at hplan
  split at hplan
  · cases hplan
  · split at hplan
    · cases hplan
    · split at hplan
      · cases hplan
      · cases hplan
        exact ⟨rfl, rfl⟩

/-! ## The first command that fails -/

section First
variable {request : Request} {scene last : Scene} {command : Command} {front back : List Command}

theorem restore_names :
    (redisRestoreCommands request).map Command.name =
      ["redis-stop-for-restore", "redis-backup-existing-rdb", "redis-restore-copy",
        "redis-start-after-restore", "redis-health-check"] := rfl

theorem restore_nodup : ((redisRestoreCommands request).map Command.name).Nodup := by
  rw [restore_names]
  decide

theorem rollback_names :
    (redisRollback request).commands.map Command.name =
      ["redis-rollback-stop", "redis-rollback-copy", "redis-rollback-start",
        "redis-rollback-health-check"] := rfl

theorem stop_unmatched : matching request "redis-stop-for-restore" = [] := by
  simp [matching, redisRestart, redisRollback, Compensation.matches]

/-- A command behind the copy that keeps the dump. -/
theorem behind_undone_iff {rest : List Command}
    (hpass : Passes (run request) request.password
      (dockerStop request "redis-stop-for-restore" ::
        copyOut request "redis-backup-existing-rdb" request.rollbackPath :: rest)
      ⟨{ scene with attempted := [] }, false⟩ ⟨last, false⟩)
    (hrest : ∀ other ∈ rest, ∀ path, effectOf request other ≠ .save path)
    (hnames : ∀ other ∈ rest, other.name ∈ (redisRollback request).triggerCommands)
    (hcommand : command.name ∈ (redisRollback request).triggerCommands)
    (hnew : command.name ∉ rest.map Command.name)
    (heffect : ∀ path, effectOf request command ≠ .save path) :
    UndoneAfter request scene last command ↔
      if matching request command.name = [] then StopHarmless scene
      else Compensated request scene command := by
  obtain ⟨hscript, hentries⟩ := noted_of_passes hpass
  have htriggers : ∀ name ∈ (redisRollback request).triggerCommands,
      name ∉ (redisRollback request).commands.map Command.name ∧
        name ≠ "redis-stop-for-restore" ∧ name ≠ "redis-backup-existing-rdb" := by
    rw [rollback_names]
    simp [redisRollback]
  have hmatching : matching request command.name ≠ [] := by
    have hfirst : (redisRestart request).matches command.name = false := by
      rw [Compensation.matches]
      simpa [redisRestart] using (htriggers _ hcommand).2.2
    have hsecond : (redisRollback request).matches command.name = true := by
      rw [Compensation.matches, List.contains_iff_mem]
      exact hcommand
    rw [matching_rollback hfirst hsecond]
    exact List.cons_ne_nil _ _
  rw [if_neg hmatching]
  refine load_undone_iff (saved_of_passes hpass hrest) hcommand heffect (fun name hname => ?_)
    fun entry hentry hmem => ?_
  · refine hscript name fun hmem => ?_
    simp only [List.map_cons, List.mem_cons] at hmem
    obtain rfl | hname := List.mem_cons.mp hname
    · obtain heq | heq | hmem := hmem
      · exact (htriggers _ hcommand).2.1 heq
      · exact (htriggers _ hcommand).2.2 heq
      · exact hnew hmem
    · obtain heq | heq | hmem := hmem
      · rw [heq, rollback_names] at hname
        simp [dockerStop, dockerCommand] at hname
      · rw [heq, rollback_names] at hname
        simp [copyOut, dockerCommand] at hname
      · obtain ⟨other, hother, rfl⟩ := List.mem_map.mp hmem
        exact (htriggers _ (hnames other hother)).1 hname
  · obtain hold | hname := hentries entry hentry
    · cases hold
    · simp only [List.map_cons, List.mem_cons] at hname
      obtain heq | heq | hname := hname
      · rw [heq, rollback_names] at hmem
        simp [dockerStop, dockerCommand] at hmem
      · rw [heq, rollback_names] at hmem
        simp [copyOut, dockerCommand] at hmem
      · obtain ⟨other, hother, heq⟩ := List.mem_map.mp hname
        exact (htriggers _ (hnames other hother)).1 (heq ▸ hmem)

theorem first_undone_iff (hsplit : redisRestoreCommands request = front ++ command :: back)
    (hpass : Passes (run request) request.password front
      ⟨{ scene with attempted := [] }, false⟩ ⟨last, false⟩) :
    UndoneAfter request scene last command ↔
      if matching request command.name = [] then StopHarmless scene
      else Compensated request scene command := by
  have hload : ∀ path, effectOf request
      (copyIn request "redis-restore-copy" request.artifactPath) ≠ .save path := by
    intro path
    rw [effectOf_copyIn]
    exact Effect.noConfusion
  have hstart : ∀ path, effectOf request
      (dockerStart request "redis-start-after-restore") ≠ .save path := by
    intro path
    rw [effectOf_dockerStart]
    exact Effect.noConfusion
  have hhealth : ∀ path, effectOf request
      (healthCheck request "redis-health-check") ≠ .save path := by
    intro path
    rw [effectOf_healthCheck]
    exact Effect.noConfusion
  rcases front with _ | ⟨a, _ | ⟨b, _ | ⟨c, _ | ⟨d, _ | ⟨f, front⟩⟩⟩⟩⟩
  · simp only [redisRestoreCommands, List.nil_append, List.cons.injEq] at hsplit
    obtain ⟨rfl, -⟩ := hsplit
    cases hpass
    exact stop_undone_iff.trans (Iff.of_eq (if_pos stop_unmatched).symm)
  · simp only [redisRestoreCommands, List.cons_append, List.nil_append, List.cons.injEq] at hsplit
    obtain ⟨rfl, rfl, -⟩ := hsplit
    obtain ⟨hscript, hentries⟩ := noted_of_passes hpass
    have hdump : last.dump = scene.dump := by
      refine dump_of_passes hpass fun other hother path => ?_
      rw [List.mem_singleton.mp hother, effectOf_dockerStop]
      exact Effect.noConfusion
    have hmatching := @matching_restart request "redis-backup-existing-rdb"
      (by simp [redisRestart, Compensation.matches])
      (by simp [redisRollback, Compensation.matches])
    have hne : matching request
        (copyOut request "redis-backup-existing-rdb" request.rollbackPath).name ≠ [] :=
      hmatching ▸ List.cons_ne_nil _ _
    rw [if_neg hne]
    refine save_undone_iff hdump (fun name hname => hscript name ?_) fun entry hentry => ?_
    · rw [List.map_singleton, List.mem_singleton]
      exact hname
    · obtain hold | hname := hentries entry hentry
      · cases hold
      · exact List.mem_singleton.mp hname
  · simp only [redisRestoreCommands, List.cons_append, List.nil_append, List.cons.injEq] at hsplit
    obtain ⟨rfl, rfl, rfl, -⟩ := hsplit
    exact behind_undone_iff hpass (by simp) (by simp)
      (by simp [redisRollback, copyIn, dockerCommand]) (by simp) hload
  · simp only [redisRestoreCommands, List.cons_append, List.nil_append, List.cons.injEq] at hsplit
    obtain ⟨rfl, rfl, rfl, rfl, -⟩ := hsplit
    exact behind_undone_iff hpass (by simpa using hload)
      (by simp [redisRollback, copyIn, dockerCommand])
      (by simp [redisRollback, dockerStart, dockerCommand])
      (by simp [copyIn, dockerStart, dockerCommand]) hstart
  · simp only [redisRestoreCommands, List.cons_append, List.nil_append, List.cons.injEq] at hsplit
    obtain ⟨rfl, rfl, rfl, rfl, rfl, -⟩ := hsplit
    exact behind_undone_iff hpass (by simpa using ⟨hload, hstart⟩)
      (by simp [redisRollback, copyIn, dockerStart, dockerCommand])
      (by simp [redisRollback, healthCheck])
      (by simp [copyIn, dockerStart, dockerCommand, healthCheck]) hhealth
  · have hlength := congrArg List.length hsplit
    simp [redisRestoreCommands] at hlength

end First

section Run
variable {request : Request} {scene : Scene} {plan : Plan}

theorem live_of_passes {commands : List Command} {session last : Session Scene}
    (hpass : Passes (run request) request.password commands session last)
    (hlive : session.cancelled = false) : last = ⟨last.state, false⟩ := by
  have hlast : last.cancelled = false := by
    induction hpass with
    | nil => exact hlive
    | cons hok hrest ih => exact ih (attempts_live hok)
  rw [← hlast]

/-- Under a context that is done the stop is not started. -/
theorem cancelled_undone (hredis : normalizeDatabaseBackupType request.type = .ok .redis)
    (hplan : buildDatabaseBackupPlan .restore request = .ok plan) :
    RestoreUndone request scene true := by
  obtain ⟨hcommands, hcompensations⟩ := redis_restore_plan hredis hplan
  obtain ⟨hfails, -, hsame, -⟩ := @executeCommand_dead request
    (dockerStop request "redis-stop-for-restore") ⟨{ scene with attempted := [] }, true⟩ rfl
  obtain ⟨hrefusal, hsession⟩ := executeCommands_error
    [redisRestart request, redisRollback request] (redisRestoreCommands request).tail hfails
  have hunmatched : ∀ session : Session Scene, executeFailureCompensations (run request)
      request.password "redis-stop-for-restore"
      [redisRestart request, redisRollback request] session = (([], none), session) := by
    intro session
    simp [executeFailureCompensations, redisRestart, redisRollback, Compensation.matches]
  unfold RestoreUndone perform
  rw [hplan]
  dsimp only
  rw [execute, hcommands, hcompensations]
  intro refusal h
  cases hrefusal.symm.trans h
  refine ⟨by simp [dockerStop, dockerCommand, stop_unmatched],
    fun hne => absurd stop_unmatched hne, fun _ => ?_⟩
  have hstate : (executeCommands (run request) request.password
      [redisRestart request, redisRollback request] (redisRestoreCommands request)
      ⟨{ scene with attempted := [] }, true⟩).2 = _ := hsession.trans
    (congrArg Prod.snd (hunmatched _))
  rw [hstate]
  exact ⟨fun hrunning => hsame.running.trans hrunning, hsame.dump⟩

/-- A restore under a live context is undone if whatever command fails is made up for. -/
theorem undone_iff_failures (hredis : normalizeDatabaseBackupType request.type = .ok .redis)
    (hplan : buildDatabaseBackupPlan .restore request = .ok plan) :
    RestoreUndone request scene false ↔
      ∀ front command back last, redisRestoreCommands request = front ++ command :: back →
        Passes (run request) request.password front
          ⟨{ scene with attempted := [] }, false⟩ ⟨last, false⟩ →
        (executeCommand (run request) request.password command ⟨last, false⟩).1.2 ≠ none →
          UndoneAfter request scene last command := by
  obtain ⟨hcommands, hcompensations⟩ := redis_restore_plan hredis hplan
  unfold RestoreUndone perform
  rw [hplan]
  dsimp only
  rw [execute, hcommands, hcompensations]
  constructor
  · intro h front command back last hsplit hpass hfails
    obtain ⟨e, herror⟩ := Option.ne_none_iff_exists'.mp hfails
    obtain ⟨hrefusal, hsession⟩ := hpass.executeCommands_fails
      [redisRestart request, redisRollback request] back herror
    rw [← hsplit] at hrefusal hsession
    have hall := h _ hrefusal
    rw [hsession] at hall
    exact hall
  · intro h refusal hrefusal
    obtain ⟨last, hpass⟩ | ⟨front, command, back, last, e, hsplit, hpass, herror⟩ :=
      passes_or_fails (run request) request.password (redisRestoreCommands request)
        ⟨{ scene with attempted := [] }, false⟩
    · rw [hpass.executeCommands _] at hrefusal
      cases hrefusal
    · obtain ⟨hfails, hsession⟩ := hpass.executeCommands_fails
        [redisRestart request, redisRollback request] back herror
      have hlast := live_of_passes hpass rfl
      rw [← hsplit] at hfails hsession
      cases hfails.symm.trans hrefusal
      rw [hlast] at hpass herror
      have hundone := h front command back last.state hsplit hpass
        (Option.ne_none_iff_exists'.mpr ⟨e, herror⟩)
      dsimp only
      rw [hsession, hlast]
      exact hundone

/-- In a restore that is undone the first command to fail is made up for. -/
theorem made_up_of_undone (hredis : normalizeDatabaseBackupType request.type = .ok .redis)
    (hplan : buildDatabaseBackupPlan .restore request = .ok plan)
    (hundone : RestoreUndone request scene false) {front back : List Command} {command : Command}
    (hsplit : redisRestoreCommands request = front ++ command :: back)
    (hworks : ∀ earlier ∈ front, Works request scene earlier)
    (hfails : ¬ Works request scene command) :
    if matching request command.name = [] then StopHarmless scene
    else Compensated request scene command := by
  have hnames := @restore_nodup request
  rw [hsplit, List.map_append, List.nodup_append] at hnames
  obtain ⟨last, hpass⟩ := @passes_of_works request front { scene with attempted := [] }
    hnames.1 hworks
  have hscript := (noted_of_passes hpass).1 command.name fun hmem =>
    hnames.2.2 _ hmem _ List.mem_cons_self rfl
  refine (first_undone_iff hsplit hpass).mp
    ((undone_iff_failures hredis hplan).mp hundone front command back last hsplit hpass ?_)
  intro hnone
  have hsucceeds := executeCommand_fails.mp hnone
  rw [hscript] at hsucceeds
  exact hfails hsucceeds

/-- A restore in which the first command to fail is made up for is undone. -/
theorem undone_of_made_up (hredis : normalizeDatabaseBackupType request.type = .ok .redis)
    (hplan : buildDatabaseBackupPlan .restore request = .ok plan)
    (hrecovers : Recovers request scene) : RestoreUndone request scene false := by
  refine (undone_iff_failures hredis hplan).mpr fun front command back last hsplit hpass hfails =>
    (first_undone_iff hsplit hpass).mpr ?_
  have hnames := @restore_nodup request
  rw [hsplit, List.map_append, List.nodup_append] at hnames
  have hscript := (noted_of_passes hpass).1 command.name fun hmem =>
    hnames.2.2 _ hmem _ List.mem_cons_self rfl
  refine hrecovers front command back hsplit (works_of_passes hpass hnames.1) fun hworks =>
    hfails ?_
  rw [Works] at hworks
  rw [executeCommand_fails, hscript]
  exact hworks

/-- There is one first command to fail. -/
theorem recovers_of_first {front back : List Command} {command : Command}
    (hsplit : redisRestoreCommands request = front ++ command :: back)
    (hworks : ∀ earlier ∈ front, Works request scene earlier)
    (hfails : ¬ Works request scene command)
    (hmade : if matching request command.name = [] then StopHarmless scene
      else Compensated request scene command) : Recovers request scene := by
  intro front' command' back' hsplit' hworks' hfails'
  obtain ⟨mid, hfront, hrest⟩ | ⟨mid, hfront, hrest⟩ :=
    List.append_eq_append_iff.mp (hsplit.symm.trans hsplit')
  · cases mid with
    | nil =>
        cases hrest
        exact hmade
    | cons other mid =>
        cases hrest
        exact absurd (hworks' command (hfront ▸ List.mem_append_right _ List.mem_cons_self)) hfails
  · cases mid with
    | nil =>
        cases hrest
        exact hmade
    | cons other mid =>
        cases hrest
        exact absurd (hworks command' (hfront ▸ List.mem_append_right _ List.mem_cons_self)) hfails'

end Run

/-- A failed restore of Redis is undone if and only if its context was done before it began, the
request is refused, or whatever command is the first to fail can be made up for. -/
theorem restore_undone_iff (request : Request) (scene : Scene) (cancelled : Bool)
    (hredis : normalizeDatabaseBackupType request.type = .ok .redis) :
    RestoreUndone request scene cancelled ↔
      cancelled = true ∨ (buildDatabaseBackupPlan .restore request).toOption = none ∨
        Recovers request scene := by
  cases hplan : buildDatabaseBackupPlan .restore request with
  | error text =>
      refine iff_of_true (fun refusal h => ?_) (.inr (.inl rfl))
      rw [perform, hplan] at h ⊢
      cases h
      exact ⟨rfl, rfl, rfl⟩
  | ok plan =>
      cases cancelled with
      | true => exact iff_of_true (cancelled_undone hredis hplan) (.inl rfl)
      | false =>
          have hnone : ¬ ((Except.ok plan : Check Plan).toOption = none) := fun h => by cases h
          rw [or_iff_right Bool.false_ne_true, or_iff_right hnone]
          exact ⟨fun h _ _ _ => made_up_of_undone hredis hplan h, undone_of_made_up hredis hplan⟩

/-- A restore of a running container. -/
def restoreRequest : Request where
  type := bytes "redis"
  containerName := bytes "cache"
  artifactPath := bytes "/b/d.rdb"

/-- The copy of the new dump ends as given, and every other command succeeds as a health check
does. -/
def sceneOfCopy (copy : Behaviour) : Scene where
  running := true
  dump := bytes "old"
  files _ := []
  script name := if name = "redis-restore-copy" then [copy]
    else [{ report := { result := { stdout := bytes "PONG" } } }]

theorem restoreRequest_plan :
    ∃ plan, buildDatabaseBackupPlan .restore restoreRequest = .ok plan := ⟨_, rfl⟩

theorem copy_split : redisRestoreCommands restoreRequest =
    [dockerStop restoreRequest "redis-stop-for-restore",
      copyOut restoreRequest "redis-backup-existing-rdb" restoreRequest.rollbackPath] ++
    copyIn restoreRequest "redis-restore-copy" restoreRequest.artifactPath ::
      [dockerStart restoreRequest "redis-start-after-restore",
        healthCheck restoreRequest "redis-health-check"] := rfl

theorem failed_copy_undone :
    RestoreUndone restoreRequest (sceneOfCopy { report := { result := { exitCode := 1 } } })
      false := by
  refine (restore_undone_iff _ _ _ rfl).mpr (.inr (.inr ?_))
  exact recovers_of_first copy_split (by decide +kernel) (by decide +kernel) (by decide +kernel)

/-- The request is cancelled while the new dump is copied in: the container stays stopped. -/
theorem cancelled_copy_not_undone :
    ¬ RestoreUndone restoreRequest (sceneOfCopy { report := { cancelled := true } }) false := by
  intro h
  obtain ⟨plan, hplan⟩ := restoreRequest_plan
  have hmade := made_up_of_undone rfl hplan h copy_split (by decide +kernel) (by decide +kernel)
  revert hmade
  decide +kernel

end WorkMesh.Backup
