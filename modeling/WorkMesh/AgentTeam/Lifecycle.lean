import WorkMesh.AgentTeam.Ingestion
import WorkMesh.AgentTeam.Lease
import WorkMesh.AgentTeam.Writes

/-!
# The life of a command

A command is queued, handed out, and in the end acknowledged or taken back.
The last two are final. A command is handed out under a lease, stays with its
registration for the visibility timeout, and is acknowledged by the
registration it was handed to.
-/

namespace WorkMesh.AgentTeam

open StateMachine

/-! ## Writes to the command list -/

/-- The actions that take back the commands of their task. -/
def TaskAction.supersedes : TaskAction → Bool
  | .retry | .cancel | .complete => true
  | _ => false

/-- A property of the list that queueing and compaction keep is kept by all writes. -/
theorem keptByWrites_commands {now : Instant} {Q : Nat → List AgentCommand → Prop}
    (htick : ∀ {m n l}, m ≤ n → Q m l → Q n l)
    (happend : ∀ {n l command}, Q n l → command.commandId = teamNewID "command" now (n + 1) →
      command.status = .queued → command.createdAt = now → Q (n + 1) (l ++ [command]))
    (hcompact : ∀ {n l} projectID, Q n l → Q n (compactedCommands projectID l)) :
    KeptByWrites now fun u : TeamState => Q u.idCounter u.agentCommands where
  same := fun hu hsame => hsame.agentCommands ▸ htick hsame.idCounter hu
  move := fun hu _ _ _ => hu
  start := fun _ hu _ _ => happend hu rfl rfl rfl
  other := fun _ _ _ hu _ => happend hu rfl rfl rfl
  compact := fun projectID hu => by simpa only using hcompact projectID hu

/-- A request changes the command list by appending, dropping finished commands,
and four rewrites; three of them belong to one request each. -/
theorem Effect.commands {env : Env} {now : Instant} {s t : TeamState} {request : Request}
    {response : Response} {Q : Nat → List AgentCommand → Prop}
    (h : Effect env now s request t response) (hs : Q s.idCounter s.agentCommands)
    (htick : ∀ {m n l}, m ≤ n → Q m l → Q n l)
    (happend : ∀ {n l command}, Q n l → command.commandId = teamNewID "command" now (n + 1) →
      command.status = .queued → command.createdAt = now → Q (n + 1) (l ++ [command]))
    (hcompact : ∀ {n l} projectID, Q n l → Q n (compactedCommands projectID l))
    (hsupersede : ∀ {n l path action body}, request = .taskAction path action body →
      response.isOk = true → action.supersedes → Q n l →
      Q n (l.map (supersedeTeamCommand now (validTeamID path))))
    (hrequeue : ∀ {body}, request = .register body →
      response = .ok (.runtime (newRuntime s now body)) →
      Q s.idCounter (s.agentCommands.map (requeueTeamCommand
        (newRuntime s now body).projectId (newRuntime s now body).runtimeId)))
    (hpoll : ∀ {project runtime token limit c item n delivered},
      request = .commands project runtime token limit →
      response = .ok (.commands delivered.2) →
      c = ⟨validTeamID project, validTeamID runtime, trimSpace token⟩ →
      leasedRuntime s now c = some item →
      deliverCommands now c.projectID c.runtimeID n 0 s.agentCommands = delivered →
      Q s.idCounter delivered.1)
    (hack : ∀ {body item ids}, request = .commandAck body → response.isOk = true →
      leasedRuntime s now (runtimeCredentials body) = some item →
      Q s.idCounter (s.agentCommands.map (ackTeamCommand now (runtimeCredentials body) ids))) :
    Q t.idCounter t.agentCommands := by
  have hP := keptByWrites_commands (Q := Q) htick happend hcompact
  refine h.writes hP hs ?_ ?_ ?_ ?_ ?_ ?_ ?_
  · intro u p id typ payload task new hu _ _
    exact hu
  · intro task new _ _ _
    exact hs
  · intro path action body task hrequest hfind _ hok
    have hsuperseded : action.supersedes →
        Q s.idCounter (s.agentCommands.map (supersedeTeamCommand now task.taskId)) :=
      fun hsupersedes => (findTeamTaskLocked_some hfind).2 ▸
        hsupersede hrequest hok hsupersedes hs
    cases action with
    | retry =>
        simp only [actedState, prepareTaskAction, replaceTeamTaskLocked_idCounter,
          replaceTeamTaskLocked_agentCommands]
        exact hP.enqueueOther (s := supersedeTeamCommandsLocked s now task.taskId) (by decide)
          (hsuperseded rfl) (List.mem_map_of_mem (findTeamTaskLocked_some hfind).1)
    | cancel => exact hsuperseded rfl
    | complete => exact hsuperseded rfl
    | _ => exact hs
  · intro project body spec _ _ _ _
    exact htick (Nat.le_succ _) hs
  · intro body hrequest hresponse
    exact hrequeue hrequest hresponse
  · intro project runtime token limit c item n delivered hrequest hresponse hc hleased hdelivered
    exact hpoll hrequest hresponse hc hleased hdelivered
  · intro body item ids hrequest hok hleased
    exact hack hrequest hok hleased

/-! ## What a rewrite keeps -/

/-- A rewrite of one command keeps what it is for, and leaves a finished one alone. -/
structure Rewritten (old new : AgentCommand) : Prop where
  commandId : new.commandId = old.commandId
  projectId : new.projectId = old.projectId
  taskId : new.taskId = old.taskId
  createdAt : new.createdAt = old.createdAt
  terminal : teamCommandTerminal old = true → new = old

theorem Rewritten.refl (command : AgentCommand) : Rewritten command command :=
  ⟨rfl, rfl, rfl, rfl, fun _ => rfl⟩

section Rewrites
variable (now : Instant) (command : AgentCommand)

theorem rewritten_supersede (taskID : String) :
    Rewritten command (supersedeTeamCommand now taskID command) := by
  simp only [supersedeTeamCommand]
  split
  · rename_i h
    exact ⟨rfl, rfl, rfl, rfl, fun hterminal => absurd hterminal h.2⟩
  · exact .refl command

theorem rewritten_requeue (projectID runtimeID : String) :
    Rewritten command (requeueTeamCommand projectID runtimeID command) := by
  simp only [requeueTeamCommand]
  split
  · rename_i h
    exact ⟨rfl, rfl, rfl, rfl, fun hterminal => absurd hterminal h.2⟩
  · exact .refl command

theorem rewritten_ack (c : RuntimeCredentials) (ids : List String) :
    Rewritten command (ackTeamCommand now c ids command) := by
  simp only [ackTeamCommand]
  split
  · rename_i h
    simp only [ackedBy, decide_eq_true_eq] at h
    exact ⟨rfl, rfl, rfl, rfl, fun hterminal => by simp [teamCommandTerminal, h.2.2.1] at hterminal⟩
  · exact .refl command

/-- A command that may be handed out is not finished. -/
theorem not_terminal_of_available (h : teamCommandAvailable command now = true) :
    teamCommandTerminal command = false := by
  cases hstatus : command.status <;> simp_all [teamCommandAvailable, teamCommandTerminal]

/-- The runtime may take the command now. -/
def mayDeliver (p r : String) : Prop :=
  command.projectId = p ∧ command.runtimeId = r ∧ teamCommandAvailable command now = true

theorem rewritten_deliver (h : teamCommandAvailable command now = true) :
    Rewritten command (deliverCommand now command) :=
  ⟨rfl, rfl, rfl, rfl, fun hterminal => by
    rw [not_terminal_of_available now command h] at hterminal
    cases hterminal⟩

end Rewrites

section Deliver
variable (now : Instant) (p r : String) (limit : Nat)

/-- A poll rewrites the commands it hands out, in place. -/
theorem deliverCommands_pointwise (count : Nat) (commands : List AgentCommand) :
    List.Forall₂ (fun old new => new = old ∨
        mayDeliver now old p r ∧ new = deliverCommand now old)
      commands (deliverCommands now p r limit count commands).1 := by
  fun_induction deliverCommands now p r limit count commands with
  | case1 => exact .nil
  | case2 count command commands _ _ ih => exact .cons (.inl rfl) ih
  | case3 count command commands hmay _ _ =>
      exact .cons (.inr ⟨by simpa [mayDeliver, not_or] using hmay, rfl⟩)
        (List.forall₂_same.mpr fun _ _ => .inl rfl)
  | case4 count command commands hmay _ _ _ ih =>
      exact .cons (.inr ⟨by simpa [mayDeliver, not_or] using hmay, rfl⟩) ih

/-- What a poll answers with is what it has rewritten. -/
theorem mem_delivered {count : Nat} {commands : List AgentCommand} {d : AgentCommand}
    (h : d ∈ (deliverCommands now p r limit count commands).2) :
    ∃ old ∈ commands, mayDeliver now old p r ∧ d = deliverCommand now old := by
  fun_induction deliverCommands now p r limit count commands with
  | case1 => cases h
  | case2 count command commands _ _ ih =>
      obtain ⟨old, hold, hdeliver⟩ := ih h
      exact ⟨old, List.mem_cons_of_mem _ hold, hdeliver⟩
  | case3 count command commands hmay _ _ =>
      exact ⟨command, List.mem_cons_self, by simpa [mayDeliver, not_or] using hmay,
        List.mem_singleton.mp h⟩
  | case4 count command commands hmay _ _ _ ih =>
      rcases List.mem_cons.mp h with rfl | h
      · exact ⟨command, List.mem_cons_self, by simpa [mayDeliver, not_or] using hmay, rfl⟩
      · obtain ⟨old, hold, hdeliver⟩ := ih h
        exact ⟨old, List.mem_cons_of_mem _ hold, hdeliver⟩

/-- Every command that a poll has changed is in its answer. -/
theorem delivered_of_changed {count : Nat} {commands : List AgentCommand} {new : AgentCommand}
    (h : new ∈ (deliverCommands now p r limit count commands).1) :
    new ∈ commands ∨ new ∈ (deliverCommands now p r limit count commands).2 := by
  fun_induction deliverCommands now p r limit count commands with
  | case1 => exact .inl h
  | case2 count command commands _ _ ih =>
      rcases List.mem_cons.mp h with rfl | h
      · exact .inl List.mem_cons_self
      · exact (ih h).imp_left (List.mem_cons_of_mem _)
  | case3 count command commands _ _ _ =>
      rcases List.mem_cons.mp h with rfl | h
      · exact .inr (List.mem_singleton_self _)
      · exact .inl (List.mem_cons_of_mem _ h)
  | case4 count command commands _ _ _ _ ih =>
      rcases List.mem_cons.mp h with rfl | h
      · exact .inr List.mem_cons_self
      · exact (ih h).imp (List.mem_cons_of_mem _) (List.mem_cons_of_mem _)

end Deliver

theorem rewritten_delivered {now : Instant} {p r : String} {limit count : Nat}
    {commands : List AgentCommand} :
    List.Forall₂ Rewritten commands (deliverCommands now p r limit count commands).1 :=
  (deliverCommands_pointwise now p r limit count commands).imp fun old new h => by
    rcases h with rfl | ⟨hmay, rfl⟩
    · exact .refl _
    · exact rewritten_deliver now old hmay.2.2

/-! ## Identity and age -/

/-- Commands can be told apart, and stand in the order they were created in. -/
structure CommandsWellFormed (now : Instant) (n : Nat) (commands : List AgentCommand) : Prop where
  ids : (commands.map AgentCommand.commandId).Nodup
  issued : ∀ command ∈ commands, Issued n command.commandId
  sorted : (commands.map AgentCommand.createdAt).Pairwise (· ≤ ·)
  past : ∀ command ∈ commands, command.createdAt ≤ now

theorem CommandsWellFormed.mono {now now' : Instant} {m n : Nat} {commands : List AgentCommand}
    (h : CommandsWellFormed now m commands) (hnow : now ≤ now') (hmn : m ≤ n) :
    CommandsWellFormed now' n commands :=
  ⟨h.ids, fun c hc => (h.issued c hc).mono hmn, h.sorted,
    fun c hc => Nat.le_trans (h.past c hc) hnow⟩

theorem CommandsWellFormed.concat {now : Instant} {n : Nat} {commands : List AgentCommand}
    {command : AgentCommand} (h : CommandsWellFormed now n commands)
    (hid : command.commandId = teamNewID "command" now (n + 1))
    (hcreated : command.createdAt = now) :
    CommandsWellFormed now (n + 1) (commands ++ [command]) where
  ids := by
    rw [List.map_append, List.map_singleton]
    refine List.Nodup.append h.ids (List.nodup_singleton _) ?_
    intro id hmem hnew
    obtain ⟨c, hc, rfl⟩ := List.mem_map.mp hmem
    exact (h.issued c hc).ne_teamNewID (Nat.lt_succ_self n)
      ((List.mem_singleton.mp hnew).trans hid)
  issued := by
    intro c hc
    rcases List.mem_append.mp hc with hc | hc
    · exact (h.issued c hc).mono (Nat.le_succ n)
    · rw [List.mem_singleton.mp hc, hid]
      exact issued_teamNewID (Nat.le_refl _)
  sorted := by
    rw [List.map_append, List.pairwise_append]
    refine ⟨h.sorted, List.pairwise_singleton _ _, ?_⟩
    intro old hold new hnew
    obtain ⟨c, hc, rfl⟩ := List.mem_map.mp hold
    obtain rfl : new = now := by simpa [hcreated] using hnew
    exact h.past c hc
  past := by
    intro c hc
    rcases List.mem_append.mp hc with hc | hc
    · exact h.past c hc
    · rw [List.mem_singleton.mp hc, hcreated]

theorem CommandsWellFormed.sublist {now : Instant} {n : Nat} {commands fewer : List AgentCommand}
    (h : CommandsWellFormed now n commands) (hsub : fewer.Sublist commands) :
    CommandsWellFormed now n fewer :=
  ⟨h.ids.sublist (hsub.map _), fun c hc => h.issued c (hsub.subset hc),
    h.sorted.sublist (hsub.map _), fun c hc => h.past c (hsub.subset hc)⟩

/-- A pointwise rewrite keeps every field that each rewrite keeps. -/
theorem map_eq_of_rewritten {γ : Type*} {f : AgentCommand → γ} {old new : List AgentCommand}
    (hf : ∀ c d, Rewritten c d → f d = f c) (h : List.Forall₂ Rewritten old new) :
    new.map f = old.map f := by
  induction h with
  | nil => rfl
  | cons hhead _ ih => simp only [List.map_cons, hf _ _ hhead, ih]

/-- A command after a rewrite was there before it. -/
theorem exists_of_rewritten {R : AgentCommand → AgentCommand → Prop}
    {old new : List AgentCommand} {d : AgentCommand} (h : List.Forall₂ R old new) (hd : d ∈ new) :
    ∃ c ∈ old, R c d := by
  induction h with
  | nil => cases hd
  | cons hhead _ ih =>
      rcases List.mem_cons.mp hd with rfl | hd
      · exact ⟨_, List.mem_cons_self, hhead⟩
      · obtain ⟨c, hc, hrel⟩ := ih hd
        exact ⟨c, List.mem_cons_of_mem _ hc, hrel⟩

theorem exists_rewritten {R : AgentCommand → AgentCommand → Prop} {old new : List AgentCommand}
    {c : AgentCommand} (h : List.Forall₂ R old new) (hc : c ∈ old) : ∃ d ∈ new, R c d := by
  induction h with
  | nil => cases hc
  | cons hhead _ ih =>
      rcases List.mem_cons.mp hc with rfl | hc
      · exact ⟨_, List.mem_cons_self, hhead⟩
      · obtain ⟨d, hd, hrel⟩ := ih hc
        exact ⟨d, List.mem_cons_of_mem _ hd, hrel⟩

theorem CommandsWellFormed.rewrite {now : Instant} {n : Nat} {old new : List AgentCommand}
    (h : CommandsWellFormed now n old) (hnew : List.Forall₂ Rewritten old new) :
    CommandsWellFormed now n new where
  ids := by rw [map_eq_of_rewritten (fun _ _ h => h.commandId) hnew]; exact h.ids
  issued := by
    intro d hd
    obtain ⟨c, hc, hrewrite⟩ := exists_of_rewritten hnew hd
    exact hrewrite.commandId ▸ h.issued c hc
  sorted := by rw [map_eq_of_rewritten (fun _ _ h => h.createdAt) hnew]; exact h.sorted
  past := by
    intro d hd
    obtain ⟨c, hc, hrewrite⟩ := exists_of_rewritten hnew hd
    exact hrewrite.createdAt ▸ h.past c hc

theorem rewritten_map {f : AgentCommand → AgentCommand} (hf : ∀ c, Rewritten c (f c))
    (commands : List AgentCommand) : List.Forall₂ Rewritten commands (commands.map f) := by
  induction commands with
  | nil => exact .nil
  | cons c commands ih => exact .cons (hf c) ih

/-! ## Compaction -/

/-- Compaction drops finished commands up to a point of the list and nothing after it. -/
theorem dropTerminal_split (projectID : String) (n : Nat) (commands : List AgentCommand) :
    ∃ old recent, commands = old ++ recent ∧
      dropTerminal projectID n commands =
        (old.filter fun command => !finishedOf projectID command) ++ recent ∧
      old.countP (finishedOf projectID) = min n (commands.countP (finishedOf projectID)) := by
  fun_induction dropTerminal projectID n commands with
  | case1 commands => exact ⟨[], commands, rfl, rfl, by simp⟩
  | case2 n => exact ⟨[], [], rfl, rfl, by simp⟩
  | case3 n first rest hdrop ih =>
      obtain ⟨old, recent, hsplit, hdropped, hcount⟩ := ih
      have hfirst : finishedOf projectID first = true := by simpa [finishedOf] using hdrop
      refine ⟨first :: old, recent, by rw [hsplit, List.cons_append], ?_, ?_⟩
      · rw [hdropped, List.filter_cons_of_neg (by simp [hfirst])]
      · rw [List.countP_cons_of_pos hfirst, List.countP_cons_of_pos hfirst, hcount]
        omega
  | case4 n first rest hkeep ih =>
      obtain ⟨old, recent, hsplit, hdropped, hcount⟩ := ih
      have hfirst : finishedOf projectID first = false := by simpa [finishedOf] using hkeep
      refine ⟨first :: old, recent, by rw [hsplit, List.cons_append], ?_, ?_⟩
      · rw [hdropped, List.filter_cons_of_pos (by simp [hfirst]), List.cons_append]
      · rw [List.countP_cons_of_neg (by simp [hfirst]), List.countP_cons_of_neg (by simp [hfirst]),
          hcount]

theorem compactedCommands_sublist (projectID : String) (commands : List AgentCommand) :
    (compactedCommands projectID commands).Sublist commands := by
  simp only [compactedCommands]
  generalize _ - teamCommandHistoryLimit = n
  obtain ⟨old, recent, hsplit, hdropped, -⟩ := dropTerminal_split projectID n commands
  rw [hdropped, hsplit]
  exact List.filter_sublist.append (List.Sublist.refl recent)

theorem Effect.commandsWellFormed {env : Env} {now : Instant} {s t : TeamState}
    {request : Request} {response : Response} (h : Effect env now s request t response)
    (hs : CommandsWellFormed now s.idCounter s.agentCommands) :
    CommandsWellFormed now t.idCounter t.agentCommands := by
  apply h.commands (Q := CommandsWellFormed now) hs
  · intro m n l hmn hl
    exact hl.mono (Nat.le_refl now) hmn
  · intro n l command hl hid _ hcreated
    exact hl.concat hid hcreated
  · intro n l projectID hl
    exact hl.sublist (compactedCommands_sublist projectID l)
  · intro n l path action body _ _ _ hl
    exact hl.rewrite (rewritten_map (fun c => rewritten_supersede now c _) l)
  · intro body _ _
    exact hs.rewrite (rewritten_map (fun c => rewritten_requeue c _ _) _)
  · intro project runtime token limit c item n delivered _ _ _ _ hdelivered
    exact hs.rewrite (hdelivered ▸ rewritten_delivered)
  · intro body item ids _ _ _
    exact hs.rewrite (rewritten_map (fun c => rewritten_ack now c _ _) _)

theorem commandsWellFormed_nil (now : Instant) (n : Nat) : CommandsWellFormed now n [] :=
  ⟨List.nodup_nil, by simp, List.Pairwise.nil, by simp⟩

theorem reached_commandsWellFormed (env : Env) (now : Instant) (inputs : List Input) :
    CommandsWellFormed (reached env now inputs).now (reached env now inputs).team.idCounter
      (reached env now inputs).team.agentCommands :=
  run_preserves (P := fun w : World => CommandsWellFormed w.now w.team.idCounter
      w.team.agentCommands)
    (fun w i hw => (next_effect env w i).commandsWellFormed
      (hw.mono (Nat.le_add_right w.now i.advance) (Nat.le_refl _)))
    (commandsWellFormed_nil now 0) inputs

/-! ## Finished commands -/

/-- The command stands as it is, wherever its identifier occurs. -/
def Finished (command : AgentCommand) (n : Nat) (commands : List AgentCommand) : Prop :=
  Issued n command.commandId ∧ ∀ c ∈ commands, c.commandId = command.commandId → c = command

theorem Finished.rewrite {command : AgentCommand} {n : Nat} {old new : List AgentCommand}
    (h : Finished command n old) (hterminal : teamCommandTerminal command = true)
    (hnew : List.Forall₂ Rewritten old new) : Finished command n new := by
  refine ⟨h.1, ?_⟩
  intro d hd hid
  obtain ⟨c, hc, hrewrite⟩ := exists_of_rewritten hnew hd
  obtain rfl := h.2 c hc (hrewrite.commandId.symm.trans hid)
  exact hrewrite.terminal hterminal

theorem Effect.keepsFinished {env : Env} {now : Instant} {s t : TeamState} {request : Request}
    {response : Response} {command : AgentCommand} (h : Effect env now s request t response)
    (hterminal : teamCommandTerminal command = true)
    (hs : Finished command s.idCounter s.agentCommands) :
    Finished command t.idCounter t.agentCommands := by
  apply h.commands (Q := Finished command) hs
  · intro m n l hmn hl
    exact ⟨hl.1.mono hmn, hl.2⟩
  · intro n l new hl hid _ _
    refine ⟨hl.1.mono (Nat.le_succ n), ?_⟩
    intro c hc hcid
    rcases List.mem_append.mp hc with hc | hc
    · exact hl.2 c hc hcid
    · rw [List.mem_singleton.mp hc, hid] at hcid
      exact absurd hcid.symm (hl.1.ne_teamNewID (Nat.lt_succ_self n))
  · intro n l projectID hl
    exact ⟨hl.1, fun c hc => hl.2 c ((compactedCommands_sublist projectID l).subset hc)⟩
  · intro n l path action body _ _ _ hl
    exact hl.rewrite hterminal (rewritten_map (fun c => rewritten_supersede now c _) l)
  · intro body _ _
    exact hs.rewrite hterminal (rewritten_map (fun c => rewritten_requeue c _ _) _)
  · intro project runtime token limit c item n delivered _ _ _ _ hdelivered
    exact hs.rewrite hterminal (hdelivered ▸ rewritten_delivered)
  · intro body item ids _ _ _
    exact hs.rewrite hterminal (rewritten_map (fun c => rewritten_ack now c _ _) _)

/-! ## Handing out -/

/-- The credentials that a poll presents. -/
def pollCredentials : Request → Option RuntimeCredentials
  | .commands project runtime token _ =>
      some ⟨validTeamID project, validTeamID runtime, trimSpace token⟩
  | _ => none

/-- The commands in the answer to a request. -/
def handedOut (env : Env) (w : World) (i : Input) : List AgentCommand :=
  match respond env w i with
  | .ok (.commands items) => items
  | _ => []

theorem Effect.handed {env : Env} {now : Instant} {s t : TeamState} {request : Request}
    {items : List AgentCommand} {d : AgentCommand}
    (h : Effect env now s request t (.ok (.commands items))) (hd : d ∈ items) :
    ∃ c item n, pollCredentials request = some c ∧ leasedRuntime s now c = some item ∧
      deliverCommands now c.projectID c.runtimeID n 0 s.agentCommands =
        (t.agentCommands, items) := by
  cases h with
  | answered reply hreads =>
      cases items with
      | nil => cases hd
      | cons => cases hreads
  | polled c item n delivered hleased hdelivered hc =>
      exact ⟨c, item, n, by rw [hc]; rfl, hleased, hdelivered⟩

/-- A command is handed out to a runtime whose registration is leased, and
stands in the list as it was handed out. -/
theorem handedOut_leased {env : Env} {w : World} {i : Input} {d : AgentCommand}
    (hd : d ∈ handedOut env w i) :
    ∃ c item n, pollCredentials i.request = some c ∧
      leasedRuntime w.team (next env w i).now c = some item ∧
      deliverCommands (next env w i).now c.projectID c.runtimeID n 0 w.team.agentCommands =
        ((next env w i).team.agentCommands, handedOut env w i) := by
  have heffect := next_effect env w i
  simp only [handedOut] at hd ⊢
  generalize respond env w i = response at heffect hd ⊢
  split at hd
  · exact heffect.handed hd
  · cases hd

theorem mem_of_delivered {now : Instant} {p r : String} {limit count : Nat}
    {commands : List AgentCommand} {d : AgentCommand}
    (h : d ∈ (deliverCommands now p r limit count commands).2) :
    d ∈ (deliverCommands now p r limit count commands).1 := by
  fun_induction deliverCommands now p r limit count commands with
  | case1 => cases h
  | case2 count command commands _ _ ih => exact List.mem_cons_of_mem _ (ih h)
  | case3 count command commands _ _ _ =>
      rw [List.mem_singleton.mp h]
      exact List.mem_cons_self
  | case4 count command commands _ _ _ _ ih =>
      rcases List.mem_cons.mp h with rfl | h
      · exact List.mem_cons_self
      · exact List.mem_cons_of_mem _ (ih h)

/-- The lease that lets a runtime take a command: the entry of its
registration, not fenced, with the token that the poll presents. -/
def HoldsLease (s : TeamState) (now : Instant) (c : RuntimeCredentials) : Prop :=
  ∃ item ∈ s.agentRuntimes, item.key = (c.projectID, c.runtimeID) ∧
    item.fencingToken = c.fencing ∧ item.status ≠ .fenced ∧ item.leaseBefore now = false

theorem holdsLease_of_leased {s : TeamState} {now : Instant} {c : RuntimeCredentials}
    {item : AgentRuntime} (h : leasedRuntime s now c = some item) : HoldsLease s now c := by
  obtain ⟨hfind, htoken, hfenced, hlease⟩ := leasedRuntime_some h
  obtain ⟨hmem, hp, hr⟩ := findRuntimeLocked_some hfind
  exact ⟨item, hmem, by simp only [AgentRuntime.key, hp, hr], htoken, hfenced, hlease⟩

/-! ## The registration a command was handed to -/

/-- The registration that an entry stands for. -/
def AgentRuntime.registration (item : AgentRuntime) : (String × String) × String :=
  (item.key, item.fencingToken)

/-- The registration with the credentials has not been replaced. -/
def Registered (c : RuntimeCredentials) (runtimes : List AgentRuntime) : Prop :=
  ((c.projectID, c.runtimeID), c.fencing) ∈ runtimes.map AgentRuntime.registration

theorem HoldsLease.registered {s : TeamState} {now : Instant} {c : RuntimeCredentials}
    (h : HoldsLease s now c) : Registered c s.agentRuntimes := by
  obtain ⟨item, hmem, hkey, htoken, -, -⟩ := h
  exact List.mem_map.mpr ⟨item, hmem, by simp only [AgentRuntime.registration, hkey, htoken]⟩

/-- An entry has one token. -/
theorem Registered.unique {c c' : RuntimeCredentials} {runtimes : List AgentRuntime}
    (h : Registered c runtimes) (h' : Registered c' runtimes)
    (hkeys : (runtimes.map AgentRuntime.key).Nodup) (hp : c.projectID = c'.projectID)
    (hr : c.runtimeID = c'.runtimeID) : c = c' := by
  obtain ⟨item, hitem, hc⟩ := List.mem_map.mp h
  obtain ⟨item', hitem', hc'⟩ := List.mem_map.mp h'
  simp only [AgentRuntime.registration, Prod.mk.injEq] at hc hc'
  obtain rfl := eq_of_mem_of_key hkeys hitem hitem' (by rw [hc.1, hc'.1, hp, hr])
  cases c
  cases c'
  simp_all

/-- An accepted registration of some runtime of a project. -/
def registersIn (projectID : String) : Request → Response → Bool
  | .register body, .ok _ => validTeamID (aiString body ["projectId"]) = projectID
  | _, _ => false

section Register
variable {c : RuntimeCredentials} {runtimes : List AgentRuntime} {new : AgentRuntime}

theorem registered_after (hs : Registered c runtimes) (hne : new.projectId ≠ c.projectID) :
    Registered c (registeredRuntimes runtimes new) := by
  obtain ⟨item, hitem, hc⟩ := List.mem_map.mp hs
  have hkey : item.key = (c.projectID, c.runtimeID) := congrArg Prod.fst hc
  have hproject : item.projectId = c.projectID := congrArg Prod.fst hkey
  have hfence : fenceRuntime new.projectId item = item := by
    simp only [fenceRuntime, hproject, if_neg hne.symm]
  have hkept : item ∈ runtimes.filter fun old => old.key ≠ new.key := by
    refine List.mem_filter.mpr ⟨hitem, ?_⟩
    have hkeys : item.key ≠ new.key := fun heq =>
      hne ((congrArg Prod.fst heq).symm.trans hproject)
    simpa using hkeys
  exact List.mem_map.mpr ⟨item, List.mem_append_left _ (List.mem_map.mpr ⟨item, hkept, hfence⟩), hc⟩

theorem not_registered_after (hkey : new.key = (c.projectID, c.runtimeID))
    (htoken : new.fencingToken ≠ c.fencing) : ¬Registered c (registeredRuntimes runtimes new) := by
  intro hmem
  obtain ⟨item, hitem, heq⟩ := List.mem_map.mp hmem
  rcases List.mem_append.mp hitem with hitem | hitem
  · obtain ⟨old, hold, rfl⟩ := List.mem_map.mp hitem
    have hne : old.key ≠ new.key := by simpa using (List.mem_filter.mp hold).2
    have hsame : (fenceRuntime new.projectId old).key = old.key := by
      simp only [fenceRuntime]
      split <;> rfl
    exact hne (hsame.symm.trans ((congrArg Prod.fst heq).trans hkey.symm))
  · rw [List.mem_singleton.mp hitem] at heq
    exact htoken (congrArg Prod.snd heq)

theorem Registered.replace {item : AgentRuntime} (hs : Registered c runtimes)
    (hfind : lookupKey AgentRuntime.key new.key runtimes = some item)
    (htoken : new.fencingToken = item.fencingToken) :
    Registered c (replaceKey AgentRuntime.key new runtimes) := by
  have hsame : new.registration = item.registration :=
    Prod.ext (lookupKey_some hfind).2.symm htoken
  rw [Registered, map_replaceKey_of_eq hfind hsame]
  exact hs

end Register

/-- A registration stands until its project has another one. -/
theorem Effect.keepsRegistration {env : Env} {now : Instant} {s t : TeamState} {request : Request}
    {response : Response} {c : RuntimeCredentials} (h : Effect env now s request t response)
    (hs : Registered c s.agentRuntimes)
    (hquiet : registersIn c.projectID request response = false) :
    Registered c t.agentRuntimes := by
  apply h.runtimes (P := Registered c) hs
  · rintro body rfl rfl _
    exact registered_after hs (by simpa [registersIn, newRuntime] using hquiet)
  · intro item body _ hfind _
    exact hs.replace (lookupKey_of_findRuntime hfind rfl) rfl
  · intro item body _ _ hfind _
    exact hs.replace (lookupKey_of_findRuntime hfind rfl) rfl
  · intro item body expected _ _ hleased _
    exact hs.replace (lookupKey_of_findRuntime (leasedRuntime_some hleased).1 rfl) rfl
  · obtain ⟨item, hitem, hc⟩ := List.mem_map.mp hs
    refine List.mem_map.mpr ⟨_, List.mem_map_of_mem hitem, ?_⟩
    rw [← hc]
    simp only [afterExpiry]
    split <;> rfl

/-- A replaced registration does not come back: tokens are not issued twice. -/
theorem Effect.keepsReplaced {env : Env} {now : Instant} {s t : TeamState} {request : Request}
    {response : Response} {c : RuntimeCredentials} (h : Effect env now s request t response)
    (hissued : Issued s.idCounter c.fencing) (hs : ¬Registered c s.agentRuntimes) :
    ¬Registered c t.agentRuntimes := by
  have hnone : ∀ item ∈ s.agentRuntimes,
      (item.key, item.fencingToken) ≠ ((c.projectID, c.runtimeID), c.fencing) :=
    fun item hitem heq => hs (List.mem_map.mpr ⟨item, hitem, heq⟩)
  have hkept := h.cursors
    (Q := fun key token _ => (key, token) ≠ ((c.projectID, c.runtimeID), c.fencing)) hnone ?_ ?_
  · intro hmem
    obtain ⟨item, hitem, heq⟩ := List.mem_map.mp hmem
    exact hkept item hitem heq
  · intro body _ _ heq
    exact hissued.ne_teamNewID (Nat.lt_succ_self _) (congrArg Prod.snd heq).symm
  · intro item body expected _ _ hleased _
    exact hnone item (findRuntimeLocked_some (leasedRuntime_some hleased).1).1

theorem registers_newRuntime (key : String × String) (s : TeamState) (now : Instant)
    (body : Fields) (reply : Reply) :
    registers key (.register body) (.ok reply) = true ↔ (newRuntime s now body).key = key := by
  simp only [registers, AgentRuntime.key, newRuntime, decide_eq_true_eq]

/-- An accepted registration replaces the one of its runtime. -/
theorem Effect.replaces {env : Env} {now : Instant} {s t : TeamState} {request : Request}
    {response : Response} {c : RuntimeCredentials} (h : Effect env now s request t response)
    (hissued : Issued s.idCounter c.fencing)
    (hregisters : registers (c.projectID, c.runtimeID) request response = true) :
    ¬Registered c t.agentRuntimes := by
  cases h with
  | registered =>
      rw [registers_newRuntime _ s now] at hregisters
      rw [storeRegistration_agentRuntimes]
      exact not_registered_after hregisters
        (hissued.ne_teamNewID (Nat.lt_succ_self _)).symm
  | answered reply _ hrequest => cases request <;> simp_all [registers, Request.reads]
  | _ => simp [registers] at hregisters

/-! ## Redelivery -/

/-- The command is finished, or delivered at least until the expiry, or
addressed to another runtime of the project. -/
def Holds (c : RuntimeCredentials) (expiry : Instant) (d : AgentCommand) : Prop :=
  d.projectId = c.projectID ∧ (d.runtimeId = c.runtimeID → teamCommandTerminal d = true ∨
    d.status = .delivered ∧ ∃ e, d.deliveryExpiresAt = some e ∧ expiry ≤ e)

/-- While its registration stands, a command stays with it until the expiry. -/
structure HeldUntil (c : RuntimeCredentials) (id : String) (expiry : Instant) (s : TeamState) :
    Prop where
  token : Issued s.idCounter c.fencing
  command : Issued s.idCounter id
  held : Registered c s.agentRuntimes →
    ∀ d ∈ s.agentCommands, d.commandId = id → Holds c expiry d

section Holds
variable {c : RuntimeCredentials} {expiry now : Instant} {d : AgentCommand}

theorem Holds.supersede (h : Holds c expiry d) (taskID : String) :
    Holds c expiry (supersedeTeamCommand now taskID d) := by
  simp only [supersedeTeamCommand]
  split
  · exact ⟨h.1, fun _ => .inl rfl⟩
  · exact h

theorem Holds.ack (h : Holds c expiry d) (c' : RuntimeCredentials) (ids : List String) :
    Holds c expiry (ackTeamCommand now c' ids d) := by
  simp only [ackTeamCommand]
  split
  · exact ⟨h.1, fun _ => .inl rfl⟩
  · exact h

/-- A requeued command goes to the runtime that registers, which is another one. -/
theorem Holds.requeue (h : Holds c expiry d) {p r : String}
    (hne : (p, r) ≠ (c.projectID, c.runtimeID)) :
    Holds c expiry (requeueTeamCommand p r d) := by
  simp only [requeueTeamCommand]
  split
  · rename_i hmine
    refine ⟨h.1, fun hr => absurd ?_ hne⟩
    rw [show r = c.runtimeID from hr, ← hmine.1, h.1]
  · exact h

/-- A held command that may be handed out again has reached its expiry. -/
theorem Holds.expired (h : Holds c expiry d) (hr : d.runtimeId = c.runtimeID)
    (hmay : teamCommandAvailable d now = true) : expiry ≤ now := by
  rcases h.2 hr with hterminal | ⟨hstatus, e, he, hexpiry⟩
  · rw [not_terminal_of_available now d hmay] at hterminal
    cases hterminal
  · have hpassed : e ≤ now := by simpa [teamCommandAvailable, hstatus, he] using hmay
    exact Nat.le_trans hexpiry hpassed

theorem Holds.deliver (h : Holds c expiry d) (hmay : teamCommandAvailable d now = true) :
    Holds c expiry (deliverCommand now d) := by
  refine ⟨h.1, fun hr => .inr ⟨rfl, now + teamCommandVisibility, rfl, ?_⟩⟩
  exact Nat.le_trans (h.expired hr hmay) (Nat.le_add_right now _)

end Holds

theorem Effect.held {env : Env} {now : Instant} {s t : TeamState} {request : Request}
    {response : Response} {c : RuntimeCredentials} {id : String} {expiry : Instant}
    (h : Effect env now s request t response) (hs : HeldUntil c id expiry s) :
    HeldUntil c id expiry t := by
  refine ⟨hs.token.mono h.idCounter_le, hs.command.mono h.idCounter_le, fun hregistered => ?_⟩
  have hbefore : Registered c s.agentRuntimes := by
    by_contra hgone
    exact h.keepsReplaced hs.token hgone hregistered
  have hheld := hs.held hbefore
  refine (h.commands (Q := fun n l => Issued n id ∧
    ∀ d ∈ l, d.commandId = id → Holds c expiry d) ⟨hs.command, hheld⟩ ?_ ?_ ?_ ?_ ?_ ?_ ?_).2
  · intro m n l hmn hl
    exact ⟨hl.1.mono hmn, hl.2⟩
  · intro n l command hl hid _ _
    refine ⟨hl.1.mono (Nat.le_succ n), ?_⟩
    intro d hd hdid
    rcases List.mem_append.mp hd with hd | hd
    · exact hl.2 d hd hdid
    · rw [List.mem_singleton.mp hd, hid] at hdid
      exact absurd hdid.symm (hl.1.ne_teamNewID (Nat.lt_succ_self n))
  · intro n l projectID hl
    exact ⟨hl.1, fun d hd => hl.2 d ((compactedCommands_sublist projectID l).subset hd)⟩
  · intro n l path action body _ _ _ hl
    refine ⟨hl.1, ?_⟩
    intro d hd hid
    obtain ⟨old, hold, rfl⟩ := List.mem_map.mp hd
    exact (hl.2 old hold ((rewritten_supersede now old _).commandId.symm.trans hid)).supersede _
  · intro body hrequest hresponse
    refine ⟨hs.command, ?_⟩
    intro d hd hid
    obtain ⟨old, hold, rfl⟩ := List.mem_map.mp hd
    refine (hheld old hold ((rewritten_requeue old _ _).commandId.symm.trans hid)).requeue ?_
    intro hkey
    refine h.replaces hs.token ?_ hregistered
    rw [hrequest, hresponse, registers_newRuntime _ s now]
    exact hkey
  · intro project runtime token limit c' item n delivered _ _ _ _ hdelivered
    refine ⟨hs.command, ?_⟩
    intro d hd hid
    rw [← hdelivered] at hd
    obtain ⟨old, hold, hsame | ⟨hmay, hnew⟩⟩ :=
      exists_of_rewritten (deliverCommands_pointwise now _ _ _ _ _) hd
    · exact hsame ▸ hheld old hold (hsame ▸ hid)
    · subst hnew
      exact (hheld old hold hid).deliver hmay.2.2
  · intro body item ids _ _ _
    refine ⟨hs.command, ?_⟩
    intro d hd hid
    obtain ⟨old, hold, rfl⟩ := List.mem_map.mp hd
    exact (hheld old hold ((rewritten_ack now old _ _).commandId.symm.trans hid)).ack _ _

/-! ## Acknowledgement -/

/-- A registration leaves no command of its project delivered. -/
theorem not_delivered_of_register {now : Instant} {s : TeamState} {item : AgentRuntime}
    {d : AgentCommand} (hd : d ∈ (storeRegistration s now item).agentCommands)
    (hstatus : d.status = .delivered) : d.projectId ≠ item.projectId := by
  have hP : KeptByWrites now fun u : TeamState => ∀ d ∈ u.agentCommands,
      d.status = .delivered → d.projectId ≠ item.projectId :=
    keptByWrites_commands
      (Q := fun _ l => ∀ d ∈ l, d.status = .delivered → d.projectId ≠ item.projectId)
      (fun _ hl => hl) ?_ (fun projectID hl d hd =>
        hl d ((compactedCommands_sublist projectID _).subset hd))
  · refine (hP.register ?_ : ∀ d ∈ (storeRegistration s now item).agentCommands, _) d hd hstatus
    intro d hd hstatus hproject
    obtain ⟨old, hold, rfl⟩ := List.mem_map.mp hd
    simp only [requeueTeamCommand] at hstatus hproject
    split at hstatus
    · cases hstatus
    · rename_i hother
      rw [if_neg hother] at hproject
      exact hother ⟨hproject, by simp [teamCommandTerminal, hstatus]⟩
  · intro n l command hl _ hqueued _ d hd hstatus
    rcases List.mem_append.mp hd with hd | hd
    · exact hl d hd hstatus
    · rw [List.mem_singleton.mp hd, hqueued] at hstatus
      cases hstatus

/-- Where a command of the new list comes from: it is an old one, or was queued,
taken back, handed out or acknowledged by the request. -/
inductive Origin (s : TeamState) (now : Instant) (request : Request) (response : Response)
    (d : AgentCommand) : Prop
  | kept (hold : d ∈ s.agentCommands)
  | queued (hstatus : d.status = .queued)
  | superseded (hstatus : d.status = .superseded)
  | handed (items) (hresponse : response = .ok (.commands items)) (hmem : d ∈ items)
      (hstatus : d.status = .delivered)
  | acked (body ids item old) (hrequest : request = .commandAck body)
      (hleased : leasedRuntime s now (runtimeCredentials body) = some item)
      (hold : old ∈ s.agentCommands) (hid : old.commandId = d.commandId)
      (hacked : ackedBy (runtimeCredentials body) ids old = true) (hstatus : d.status = .acked)

theorem Effect.origin {env : Env} {now : Instant} {s t : TeamState} {request : Request}
    {response : Response} (h : Effect env now s request t response) :
    ∀ d ∈ t.agentCommands, Origin s now request response d := by
  apply h.commands (Q := fun _ l => ∀ d ∈ l, Origin s now request response d)
  · intro d hd
    exact .kept hd
  · intro m n l _ hl
    exact hl
  · intro n l command hl _ hqueued _ d hd
    rcases List.mem_append.mp hd with hd | hd
    · exact hl d hd
    · exact .queued (List.mem_singleton.mp hd ▸ hqueued)
  · intro n l projectID hl d hd
    exact hl d ((compactedCommands_sublist projectID l).subset hd)
  · intro n l path action body _ _ _ hl d hd
    obtain ⟨old, hold, rfl⟩ := List.mem_map.mp hd
    simp only [supersedeTeamCommand]
    split
    · exact .superseded rfl
    · exact hl old hold
  · intro body _ _ d hd
    obtain ⟨old, hold, rfl⟩ := List.mem_map.mp hd
    simp only [requeueTeamCommand]
    split
    · exact .queued rfl
    · exact .kept hold
  · intro project runtime token limit c item n delivered _ hresponse _ _ hdelivered d hd
    subst hdelivered
    rcases delivered_of_changed now _ _ _ hd with hold | hnew
    · exact .kept hold
    · obtain ⟨old, -, -, hd⟩ := mem_delivered now _ _ _ hnew
      exact .handed _ hresponse hnew (by rw [hd]; rfl)
  · intro body item ids hrequest _ hleased d hd
    obtain ⟨old, hold, rfl⟩ := List.mem_map.mp hd
    by_cases hacked : ackedBy (runtimeCredentials body) ids old = true
    · refine .acked body ids item old hrequest hleased hold
        (rewritten_ack now old _ _).commandId.symm hacked ?_
      simp only [ackTeamCommand, if_pos hacked]
    · simp only [ackTeamCommand, if_neg hacked]
      exact .kept hold

theorem registersIn_newRuntime (projectID : String) (s : TeamState) (now : Instant)
    (body : Fields) (reply : Reply) :
    registersIn projectID (.register body) (.ok reply) = true ↔
      (newRuntime s now body).projectId = projectID := by
  simp only [registersIn, newRuntime, decide_eq_true_eq]

/-- A command that stays delivered does so because its project is not registered anew. -/
theorem Effect.not_registersIn {env : Env} {now : Instant} {s t : TeamState} {request : Request}
    {response : Response} {d : AgentCommand} (h : Effect env now s request t response)
    (hd : d ∈ t.agentCommands) (hstatus : d.status = .delivered) :
    registersIn d.projectId request response = false := by
  rw [← Bool.not_eq_true]
  intro hregister
  cases h with
  | registered =>
      rw [registersIn_newRuntime _ s now] at hregister
      exact not_delivered_of_register hd hstatus hregister.symm
  | answered reply _ hrequest => cases request <;> simp_all [registersIn, Request.reads]
  | _ => simp [registersIn] at hregister

/-- The commands that a step hands to the registration with the credentials. -/
def handedTo (env : Env) (c : RuntimeCredentials) (w : World) (i : Input) : List AgentCommand :=
  if pollCredentials i.request = some c then handedOut env w i else []

/-- The commands that a run has handed to the registration with the credentials. -/
def handedCommands (env : Env) (c : RuntimeCredentials) (now : Instant) (inputs : List Input) :
    List AgentCommand :=
  outputs (next env) (handedTo env c) (.start now) inputs

theorem reached_concat (env : Env) (now : Instant) (inputs : List Input) (i : Input) :
    reached env now (inputs ++ [i]) = next env (reached env now inputs) i :=
  reached_append ..

/-- A delivered command was handed to the registration that its runtime still has. -/
theorem delivered_handed (env : Env) (now : Instant) (inputs : List Input) :
    ∀ d ∈ (reached env now inputs).team.agentCommands, d.status = .delivered →
      ∃ c : RuntimeCredentials, c.projectID = d.projectId ∧ c.runtimeID = d.runtimeId ∧
        Registered c (reached env now inputs).team.agentRuntimes ∧
        d ∈ handedCommands env c now inputs := by
  induction inputs using List.reverseRecOn with
  | nil => simp [reached, World.start, TeamState.empty]
  | append_singleton inputs i ih =>
      intro d hd hstatus
      have happended : ∀ c, handedCommands env c now (inputs ++ [i]) =
          handedCommands env c now inputs ++ handedTo env c (reached env now inputs) i := by
        intro c
        simp only [handedCommands, outputs_append, outputs, List.append_nil, reached]
      rw [reached_concat] at hd ⊢
      have heffect := next_effect env (reached env now inputs) i
      cases heffect.origin d hd with
      | kept hold =>
          obtain ⟨c, hp, hr, hregistered, hmem⟩ := ih d hold hstatus
          refine ⟨c, hp, hr, heffect.keepsRegistration hregistered ?_, ?_⟩
          · rw [hp]
            exact heffect.not_registersIn hd hstatus
          · rw [happended]
            exact List.mem_append_left _ hmem
      | queued hqueued => rw [hqueued] at hstatus; cases hstatus
      | superseded hsuperseded => rw [hsuperseded] at hstatus; cases hstatus
      | handed items hresponse hmem _ =>
          have hhanded : d ∈ handedOut env (reached env now inputs) i := by
            simpa only [handedOut, hresponse] using hmem
          obtain ⟨c, item, n, hpoll, hleased, hdelivered⟩ := handedOut_leased hhanded
          obtain ⟨old, -, hmay, hnew⟩ := mem_delivered _ _ _ _ (by rw [hdelivered]; exact hhanded)
          have hproject : d.projectId = c.projectID := by rw [hnew]; exact hmay.1
          have hruntime : d.runtimeId = c.runtimeID := by rw [hnew]; exact hmay.2.1
          refine ⟨c, hproject.symm, hruntime.symm, ?_, ?_⟩
          · refine heffect.keepsRegistration (holdsLease_of_leased hleased).registered ?_
            rw [← hproject]
            exact heffect.not_registersIn hd hstatus
          · rw [happended]
            refine List.mem_append_right _ ?_
            simpa only [handedTo, if_pos hpoll] using hhanded
      | acked body ids item old _ _ _ _ _ hacked => rw [hacked] at hstatus; cases hstatus

/-! ## Unfinished commands -/

/-- The request acknowledges the command or takes back the commands of its task. -/
def finishes (c : AgentCommand) : Request → Prop
  | .commandAck body => ∃ ids, ackedBy (runtimeCredentials body) ids c = true
  | .taskAction path action _ => action.supersedes ∧ validTeamID path = c.taskId
  | _ => False

/-- The command is in the list and not finished. -/
def Pending (c : AgentCommand) (commands : List AgentCommand) : Prop :=
  ∃ d ∈ commands, Rewritten c d ∧ teamCommandTerminal d = false

theorem Pending.append {c : AgentCommand} {commands : List AgentCommand}
    (h : Pending c commands) (new : AgentCommand) : Pending c (commands ++ [new]) := by
  obtain ⟨d, hd, hpending⟩ := h
  exact ⟨d, List.mem_append_left _ hd, hpending⟩

/-- Compaction drops no unfinished command. -/
theorem mem_compactedCommands {c : AgentCommand} {commands : List AgentCommand}
    (hc : c ∈ commands) (hpending : teamCommandTerminal c = false) (projectID : String) :
    c ∈ compactedCommands projectID commands := by
  obtain ⟨old, recent, rfl, hdropped, -⟩ := dropTerminal_split projectID
    (commands.countP (finishedOf projectID) - teamCommandHistoryLimit) commands
  rw [compactedCommands, hdropped]
  rcases List.mem_append.mp hc with hc | hc
  · exact List.mem_append_left _ (List.mem_filter.mpr ⟨hc, by simp [finishedOf, hpending]⟩)
  · exact List.mem_append_right _ hc

theorem Pending.compact {c : AgentCommand} {commands : List AgentCommand}
    (h : Pending c commands) (projectID : String) :
    Pending c (compactedCommands projectID commands) := by
  obtain ⟨d, hd, hsame, hpending⟩ := h
  exact ⟨d, mem_compactedCommands hd hpending projectID, hsame, hpending⟩

theorem Effect.keepsPending {env : Env} {now : Instant} {s t : TeamState} {request : Request}
    {response : Response} {c : AgentCommand} (h : Effect env now s request t response)
    (hc : c ∈ s.agentCommands) (hpending : teamCommandTerminal c = false)
    (hkeep : ¬finishes c request) : Pending c t.agentCommands := by
  have hs : Pending c s.agentCommands := ⟨c, hc, .refl c, hpending⟩
  apply h.commands (Q := fun _ => Pending c) hs
  · intro m n l _ hl
    exact hl
  · intro n l command hl _ _ _
    exact hl.append command
  · intro n l projectID hl
    exact hl.compact projectID
  · intro n l path action body hrequest _ hsupersedes hl
    obtain ⟨d, hd, hsame, hd'⟩ := hl
    have hother : d.taskId ≠ validTeamID path := by
      intro heq
      rw [hrequest] at hkeep
      exact hkeep ⟨hsupersedes, heq.symm.trans hsame.taskId⟩
    have hunchanged : supersedeTeamCommand now (validTeamID path) d = d := by
      simp only [supersedeTeamCommand, hother, false_and, if_false]
    exact ⟨d, List.mem_map.mpr ⟨d, hd, hunchanged⟩, hsame, hd'⟩
  · intro body _ _
    refine ⟨_, List.mem_map_of_mem hc, rewritten_requeue c _ _, ?_⟩
    simp only [requeueTeamCommand]
    split
    · rfl
    · exact hpending
  · intro project runtime token limit c' item n delivered _ _ _ _ hdelivered
    subst hdelivered
    obtain ⟨d, hd, hsame | ⟨hmay, hnew⟩⟩ :=
      exists_rewritten (deliverCommands_pointwise now c'.projectID c'.runtimeID n 0 _) hc
    · exact ⟨d, hd, hsame ▸ .refl c, hsame ▸ hpending⟩
    · exact ⟨d, hd, hnew ▸ rewritten_deliver now c hmay.2.2, hnew ▸ rfl⟩
  · intro body item ids hrequest _ _
    have hunacked : ¬ackedBy (runtimeCredentials body) ids c = true := by
      intro hacked
      rw [hrequest] at hkeep
      exact hkeep ⟨ids, hacked⟩
    have hunchanged : ackTeamCommand now (runtimeCredentials body) ids c = c := by
      simp only [ackTeamCommand, if_neg hunacked]
    exact ⟨c, List.mem_map.mpr ⟨c, hc, hunchanged⟩, .refl c, hpending⟩

/-! ## The life of a command -/

section Run
variable (env : Env) (now : Instant)

theorem reached_settled {first : List Input} {c : AgentCommand}
    (hc : c ∈ (reached env now first).team.agentCommands)
    (hterminal : teamCommandTerminal c = true) (rest : List Input) :
    Finished c (reached env now (first ++ rest)).team.idCounter
      (reached env now (first ++ rest)).team.agentCommands := by
  have hwf := reached_commandsWellFormed env now first
  rw [reached_append]
  refine run_preserves (P := fun w : World => Finished c w.team.idCounter w.team.agentCommands)
    (fun w i hw => (next_effect env w i).keepsFinished hterminal hw) ⟨hwf.issued c hc, ?_⟩ rest
  exact fun d hd hid => eq_of_mem_of_key hwf.ids hd hc hid

/-- What a registration was handed stays with it for the visibility timeout. -/
theorem reached_held {first : List Input} {i : Input} {c : RuntimeCredentials} {d : AgentCommand}
    (hpoll : pollCredentials i.request = some c)
    (hd : d ∈ handedOut env (reached env now first) i) (rest : List Input) :
    HeldUntil c d.commandId
      ((next env (reached env now first) i).now + teamCommandVisibility)
      (reached env now (first ++ i :: rest)).team := by
  obtain ⟨c', item, n, hpoll', hleased, hdelivered⟩ := handedOut_leased hd
  obtain rfl : c = c' := Option.some.inj (hpoll.symm.trans hpoll')
  obtain ⟨old, hold, hmay, hnew⟩ := mem_delivered _ _ _ _ (by rw [hdelivered]; exact hd)
  have heffect := next_effect env (reached env now first) i
  have hmem : d ∈ (next env (reached env now first) i).team.agentCommands := by
    have := mem_of_delivered (d := d) (by rw [hdelivered]; exact hd)
    rwa [hdelivered] at this
  have hwf := reached_commandsWellFormed env now (first ++ [i])
  rw [reached_concat] at hwf
  have htoken : Issued (reached env now first).team.idCounter c.fencing := by
    obtain ⟨item, hitem, htoken⟩ := List.mem_map.mp (holdsLease_of_leased hleased).registered
    have hissued := (reached_wellFormed env now first).runtimes.issued item.fencingToken
      (List.mem_map_of_mem hitem)
    rwa [show item.fencingToken = c.fencing from congrArg Prod.snd htoken] at hissued
  have hheld : HeldUntil c d.commandId
      ((next env (reached env now first) i).now + teamCommandVisibility)
      (next env (reached env now first) i).team := by
    refine ⟨htoken.mono heffect.idCounter_le, hwf.issued d hmem, fun _ e he hid => ?_⟩
    obtain rfl := eq_of_mem_of_key hwf.ids he hmem hid
    rw [hnew]
    exact ⟨hmay.1, fun _ => .inr ⟨rfl, _, rfl, Nat.le_refl _⟩⟩
  rw [show first ++ i :: rest = (first ++ [i]) ++ rest by simp, reached_append, reached_concat]
  exact run_preserves (P := fun w : World => HeldUntil c d.commandId _ w.team)
    (fun w i hw => (next_effect env w i).held hw) hheld rest

end Run

/-- Acknowledged and superseded commands are final; a command is handed out
under the lease of its runtime and stays with that registration for the
visibility timeout; it is acknowledged by the registration it was handed to;
and compaction drops finished commands, the oldest ones. -/
theorem command_lifecycle (env : Env) (now : Instant) :
    (∀ first rest, ∀ c ∈ (reached env now first).team.agentCommands,
      c.status = .acked ∨ c.status = .superseded →
        (∀ d ∈ (reached env now (first ++ rest)).team.agentCommands,
          d.commandId = c.commandId → d = c) ∧
        ∀ i, ∀ d ∈ handedOut env (reached env now (first ++ rest)) i,
          d.commandId ≠ c.commandId) ∧
    (∀ inputs i, ∀ d ∈ handedOut env (reached env now inputs) i,
      ∃ c, pollCredentials i.request = some c ∧ d.projectId = c.projectID ∧
        d.runtimeId = c.runtimeID ∧
        HoldsLease (reached env now inputs).team (next env (reached env now inputs) i).now c) ∧
    (∀ first rest i j c, pollCredentials i.request = some c → pollCredentials j.request = some c →
      ∀ d ∈ handedOut env (reached env now first) i,
        ∀ e ∈ handedOut env (reached env now (first ++ i :: rest)) j,
          e.commandId = d.commandId →
            (next env (reached env now first) i).now + teamCommandVisibility ≤
              (next env (reached env now (first ++ i :: rest)) j).now) ∧
    (∀ inputs i, ∀ c ∈ (reached env now inputs).team.agentCommands, c.status ≠ .acked →
      ∀ d ∈ (next env (reached env now inputs) i).team.agentCommands,
        d.commandId = c.commandId → d.status = .acked →
          ∃ body, i.request = .commandAck body ∧ c.status = .delivered ∧
            c ∈ handedCommands env (runtimeCredentials body) now inputs) ∧
    (∀ (s : TeamState) projectID, ∃ old recent, s.agentCommands = old ++ recent ∧
      (compactTeamCommandsLocked s projectID).agentCommands =
        (old.filter fun c => !finishedOf projectID c) ++ recent ∧
      old.countP (finishedOf projectID) =
        s.agentCommands.countP (finishedOf projectID) - teamCommandHistoryLimit) ∧
    (∀ inputs, ((reached env now inputs).team.agentCommands.map AgentCommand.createdAt).Pairwise
      (· ≤ ·)) ∧
    (∀ inputs i, ∀ c ∈ (reached env now inputs).team.agentCommands,
      (∀ d ∈ (next env (reached env now inputs) i).team.agentCommands,
        d.commandId ≠ c.commandId) →
      c.status = .acked ∨ c.status = .superseded ∨ finishes c i.request) := by
  refine ⟨?_, ?_, ?_, ?_, ?_, ?_, ?_⟩
  · intro first rest c hc hfinal
    have hterminal : teamCommandTerminal c = true := by simpa [teamCommandTerminal] using hfinal
    have hsettled := (reached_settled env now hc hterminal rest).2
    refine ⟨hsettled, ?_⟩
    intro i d hd hid
    obtain ⟨c', item, n, -, -, hdelivered⟩ := handedOut_leased hd
    obtain ⟨old, hold, hmay, rfl⟩ := mem_delivered _ _ _ _ (by rw [hdelivered]; exact hd)
    obtain rfl := hsettled old hold hid
    rw [not_terminal_of_available _ _ hmay.2.2] at hterminal
    cases hterminal
  · intro inputs i d hd
    obtain ⟨c, item, n, hpoll, hleased, hdelivered⟩ := handedOut_leased hd
    obtain ⟨old, -, hmay, rfl⟩ := mem_delivered _ _ _ _ (by rw [hdelivered]; exact hd)
    exact ⟨c, hpoll, hmay.1, hmay.2.1, holdsLease_of_leased hleased⟩
  · intro first rest i j c hi hj d hd e he hid
    have hheld := reached_held env now hi hd rest
    obtain ⟨c', item, n, hj', hleased, hdelivered⟩ := handedOut_leased he
    obtain rfl : c = c' := Option.some.inj (hj.symm.trans hj')
    obtain ⟨old, hold, hmay, rfl⟩ := mem_delivered _ _ _ _ (by rw [hdelivered]; exact he)
    exact (hheld.held (holdsLease_of_leased hleased).registered old hold hid).expired hmay.2.1
      hmay.2.2
  · intro inputs i c hc hstatus d hd hid hacked
    have hwf := reached_commandsWellFormed env now inputs
    cases (next_effect env (reached env now inputs) i).origin d hd with
    | kept hold =>
        obtain rfl := eq_of_mem_of_key hwf.ids hold hc hid
        exact absurd hacked hstatus
    | queued h => rw [h] at hacked; cases hacked
    | superseded h => rw [h] at hacked; cases hacked
    | handed items _ _ h => rw [h] at hacked; cases hacked
    | acked body ids item old hrequest hleased hold hid' hby _ =>
        obtain rfl := eq_of_mem_of_key hwf.ids hold hc (hid'.trans hid)
        simp only [ackedBy, decide_eq_true_eq] at hby
        obtain ⟨c, hp, hr, hregistered, hmem⟩ :=
          delivered_handed env now inputs old hold hby.2.2.1
        obtain rfl : c = runtimeCredentials body :=
          hregistered.unique (holdsLease_of_leased hleased).registered
            (reached_wellFormed env now inputs).runtimes.keys (hp.trans hby.1) (hr.trans hby.2.1)
        exact ⟨body, hrequest, hby.2.2.1, hmem⟩
  · intro s projectID
    rw [compactTeamCommandsLocked_agentCommands]
    obtain ⟨old, recent, hsplit, hdropped, hcount⟩ := dropTerminal_split projectID
      (s.agentCommands.countP (finishedOf projectID) - teamCommandHistoryLimit) s.agentCommands
    refine ⟨old, recent, hsplit, by rw [compactedCommands, hdropped], ?_⟩
    rw [hcount]
    exact Nat.min_eq_left (Nat.sub_le _ _)
  · intro inputs
    exact (reached_commandsWellFormed env now inputs).sorted
  · intro inputs i c hc hgone
    by_contra hnot
    simp only [not_or] at hnot
    have hpending : teamCommandTerminal c = false := by
      simp [teamCommandTerminal, hnot.1, hnot.2.1]
    obtain ⟨d, hd, hsame, -⟩ :=
      (next_effect env (reached env now inputs) i).keepsPending hc hpending hnot.2.2
    exact hgone d hd hsame.commandId

end WorkMesh.AgentTeam
