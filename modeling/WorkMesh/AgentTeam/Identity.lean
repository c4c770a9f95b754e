import WorkMesh.AgentTeam.Effects

/-!
# Identifiers and records

Identifiers carry the counter they were made with, so a new one differs from
all that are stored. From this follow the facts about records that every other
invariant rests on: tasks and runtimes have distinct identifiers, tokens are
distinct, and a task depends on other tasks of its own project.
-/

namespace WorkMesh.AgentTeam

open StateMachine

/-! ## Identifiers -/

/-- Reading back the decimal at the end of an identifier. -/
theorem takeWhile_teamNewID (word : String) (now : Instant) (n : Nat) :
    (teamNewID word now n).toList.reverse.takeWhile (fun c => c ≠ '-') =
      (Nat.toDigits 10 n).reverse := by
  have hdigits : ∀ c ∈ (Nat.toDigits 10 n).reverse, decide (c ≠ '-') = true := by
    intro c hc
    have hdigit := Nat.isDigit_of_mem_toDigits (by omega) (by omega) (List.mem_reverse.mp hc)
    have hne : c ≠ '-' := by
      rintro rfl
      exact absurd hdigit (by decide)
    simpa using hne
  have hlist : (teamNewID word now n).toList.reverse =
      (Nat.toDigits 10 n).reverse ++ '-' :: (word ++ "-" ++ toString now).toList.reverse := by
    simp [teamNewID]
  rw [hlist, List.takeWhile_append_of_pos hdigits]
  simp

/-- An identifier determines the counter it was made with. -/
theorem teamNewID_inj {word word' : String} {now now' : Instant} {m n : Nat}
    (h : teamNewID word now m = teamNewID word' now' n) : m = n := by
  have hdigits := takeWhile_teamNewID word now m
  rw [h, takeWhile_teamNewID] at hdigits
  have hvalue := congrArg (fun l => Nat.ofDigitChars 10 l 0) (List.reverse_injective hdigits)
  simpa [Nat.ofDigitChars_ten_toDigits] using hvalue.symm

/-- The identifier was made with a value of the counter up to `n`. -/
def Issued (n : Nat) (id : String) : Prop := ∃ word now k, k ≤ n ∧ id = teamNewID word now k

theorem Issued.mono {m n : Nat} {id : String} (h : Issued m id) (hmn : m ≤ n) : Issued n id := by
  obtain ⟨word, now, k, hk, rfl⟩ := h
  exact ⟨word, now, k, Nat.le_trans hk hmn, rfl⟩

theorem issued_teamNewID {word : String} {now : Instant} {k n : Nat} (h : k ≤ n) :
    Issued n (teamNewID word now k) := ⟨word, now, k, h, rfl⟩

/-- A new identifier differs from every issued one. -/
theorem Issued.ne_teamNewID {n k : Nat} {id word : String} {now : Instant} (h : Issued n id)
    (hk : n < k) : id ≠ teamNewID word now k := by
  obtain ⟨word', now', m, hm, rfl⟩ := h
  intro heq
  have := teamNewID_inj heq
  omega

/-! ## Tasks -/

def TeamState.assignments (s : TeamState) : List Assignment := s.teamTasks.map TeamTask.assignment

/-- The tasks can be told apart, and their dependencies are other tasks of the
same project. -/
structure AssignmentsWellFormed (n : Nat) (assignments : List Assignment) : Prop where
  nodup : (assignments.map Assignment.taskId).Nodup
  issued : ∀ a ∈ assignments, Issued n a.taskId
  dependencies : ∀ a ∈ assignments, ∀ id ∈ a.dependencyTaskIds,
    id ≠ a.taskId ∧ ∃ b ∈ assignments, b.taskId = id ∧ b.projectId = a.projectId

theorem AssignmentsWellFormed.mono {m n : Nat} {assignments : List Assignment}
    (h : AssignmentsWellFormed m assignments) (hmn : m ≤ n) :
    AssignmentsWellFormed n assignments :=
  ⟨h.nodup, fun a ha => (h.issued a ha).mono hmn, h.dependencies⟩

/-- A new task may depend on the stored ones. -/
theorem AssignmentsWellFormed.concat {n k : Nat} {assignments : List Assignment}
    {a : Assignment} {word : String} {now : Instant}
    (h : AssignmentsWellFormed n assignments) (hk : n < k) (hid : a.taskId = teamNewID word now k)
    (hdeps : ∀ id ∈ a.dependencyTaskIds,
      id ≠ a.taskId ∧ ∃ b ∈ assignments, b.taskId = id ∧ b.projectId = a.projectId) :
    AssignmentsWellFormed k (assignments ++ [a]) where
  nodup := by
    simp only [List.map_append, List.map_cons, List.map_nil]
    refine List.Nodup.append h.nodup (List.nodup_singleton _) ?_
    intro id hmem ha
    obtain ⟨b, hb, rfl⟩ := List.mem_map.mp hmem
    exact (h.issued b hb).ne_teamNewID hk ((List.mem_singleton.mp ha).trans hid)
  issued := by
    intro b hb
    rcases List.mem_append.mp hb with hb | hb
    · exact (h.issued b hb).mono (Nat.le_of_lt hk)
    · rw [List.mem_singleton.mp hb, hid]
      exact issued_teamNewID (Nat.le_refl k)
  dependencies := by
    have hweaken : ∀ b ∈ assignments, b ∈ assignments ++ [a] := fun b hb =>
      List.mem_append_left _ hb
    intro b hb id hmem
    rcases List.mem_append.mp hb with hb | hb
    · obtain ⟨hne, c, hc, hcid, hcp⟩ := h.dependencies b hb id hmem
      exact ⟨hne, c, hweaken c hc, hcid, hcp⟩
    · obtain rfl := List.mem_singleton.mp hb
      obtain ⟨hne, c, hc, hcid, hcp⟩ := hdeps id hmem
      exact ⟨hne, c, hweaken c hc, hcid, hcp⟩

theorem validateTeamDependenciesLocked_none {s : TeamState} {projectID taskID : String}
    {dependencies : List String}
    (h : validateTeamDependenciesLocked s projectID taskID dependencies = none) :
    ∀ id ∈ dependencies, id ≠ taskID ∧
      ∃ a ∈ s.assignments, a.taskId = id ∧ a.projectId = projectID := by
  induction dependencies with
  | nil => simp
  | cons first dependencies ih =>
      simp only [validateTeamDependenciesLocked] at h
      split_ifs at h with hself hfound
      simp only [Option.any_eq_true, decide_eq_true_eq] at hfound
      obtain ⟨dependency, hfind, hproject⟩ := hfound
      obtain ⟨hmem, hid⟩ := findTeamTaskLocked_some hfind
      intro id hid'
      rcases List.mem_cons.mp hid' with rfl | hid'
      · exact ⟨hself, dependency.assignment, List.mem_map_of_mem hmem, hid, hproject⟩
      · exact ih h id hid'

/-- Only a creation adds to the assignments. -/
theorem Effect.assignments_kept {env : Env} {now : Instant} {s t : TeamState} {request : Request}
    {response : Response} (h : Effect env now s request t response)
    (hrequest : ∀ project body, request ≠ .taskCreate project body) :
    t.assignments = s.assignments := by
  apply h.tasks (P := fun tasks => tasks.map TeamTask.assignment = s.assignments) rfl
  · intro s projectID i task t hs hget _ _ hmove
    obtain ⟨status, -, -, htasks⟩ := hmove.teamTasks
    rw [htasks, map_set_of_eq (a := scheduledTask now task status) hget rfl]
    exact hs
  · intro s projectID taskID typ payload task new hs hopen hwrite
    have hfind := lookupKey_of_find (openTask_some hopen).1
      (congrArg Assignment.taskId hwrite.assignment)
    rw [map_replaceKey_of_eq hfind hwrite.assignment]
    exact hs
  · intro task new hfind hassignment _
    exact map_replaceKey_of_eq hfind hassignment
  · intro task path action body _ hfind _ _
    have hassignment := actedTask_assignment env (prepareTaskAction s now task action) now task
      body action
    exact map_replaceKey_of_eq
      (lookupKey_of_find hfind (congrArg Assignment.taskId hassignment)) hassignment
  · rintro project spec ⟨path, body, hcreate⟩
    exact absurd hcreate (hrequest path body)

theorem storeNewTask_assignments (s : TeamState) (now : Instant) (projectID : String)
    (task : TeamTask) :
    (storeNewTask s now projectID task).1.assignments = s.assignments ++ [task.assignment] := by
  simp only [storeNewTask]
  split
  · simp [TeamState.assignments]
  · simp [TeamState.assignments]

/-- A creation leaves the assignments as they are, or appends that of the new task. -/
theorem Effect.assignments_created {env : Env} {now : Instant} {s t : TeamState}
    {project : String} {body : Fields} {response : Response}
    (h : Effect env now s (.taskCreate project body) t response) :
    t.assignments = s.assignments ∨ ∃ spec, taskSpec body = .ok spec ∧
      s.idCounter < t.idCounter ∧
      validateTeamDependenciesLocked s (validTeamID project)
        (newTeamTask env s now (validTeamID project) spec).taskId spec.dependencies = none ∧
      t.assignments =
        s.assignments ++ [(newTeamTask env s now (validTeamID project) spec).assignment] := by
  cases h with
  | refused | answered | recreated => exact .inl rfl
  | created spec reply hspec hdeps =>
      have hassignments := storeNewTask_assignments s now (validTeamID project)
        (newTeamTask env s now (validTeamID project) spec)
      exact .inr ⟨spec, hspec, lt_storeNewTask_idCounter .., hdeps, hassignments⟩

theorem Effect.assignments {env : Env} {now : Instant} {s t : TeamState} {request : Request}
    {response : Response} (h : Effect env now s request t response)
    (hs : AssignmentsWellFormed s.idCounter s.assignments) :
    AssignmentsWellFormed t.idCounter t.assignments := by
  by_cases hrequest : ∃ project body, request = .taskCreate project body
  · obtain ⟨project, body, rfl⟩ := hrequest
    rcases h.assignments_created with hsame | ⟨spec, -, hcounter, hdeps, hnew⟩
    · exact hsame ▸ hs.mono h.idCounter_le
    · generalize validTeamID project = projectID at hdeps hnew
      have hid : (newTeamTask env s now projectID spec).assignment.taskId =
          teamNewID "task" now (s.idCounter + 1) := rfl
      have hgrown := hs.concat (Nat.lt_succ_self _) hid (validateTeamDependenciesLocked_none hdeps)
      rw [hnew]
      exact hgrown.mono hcounter
  · rw [h.assignments_kept fun project body hcreate => hrequest ⟨project, body, hcreate⟩]
    exact hs.mono h.idCounter_le

/-- No task goes beyond the last attempt. -/
theorem Effect.attempts {env : Env} {now : Instant} {s t : TeamState} {request : Request}
    {response : Response} (h : Effect env now s request t response)
    (hs : ∀ task ∈ s.teamTasks, task.attempt ≤ teamAttemptLimit) :
    ∀ task ∈ t.teamTasks, task.attempt ≤ teamAttemptLimit := by
  have hreplace : ∀ (tasks : List TeamTask) (new : TeamTask),
      (∀ task ∈ tasks, task.attempt ≤ teamAttemptLimit) → new.attempt ≤ teamAttemptLimit →
      ∀ task ∈ replaceKey TeamTask.taskId new tasks, task.attempt ≤ teamAttemptLimit := by
    intro tasks new htasks hnew task hmem
    rcases mem_replaceKey hmem with rfl | hmem
    · exact hnew
    · exact htasks task hmem
  apply h.tasks (P := fun tasks => ∀ task ∈ tasks, task.attempt ≤ teamAttemptLimit) hs
  · intro s projectID i task t hs hget _ _ hmove
    obtain ⟨status, -, -, htasks⟩ := hmove.teamTasks
    rw [htasks]
    intro new hmem
    rcases List.mem_or_eq_of_mem_set hmem with hmem | rfl
    · exact hs new hmem
    · exact hs task (List.mem_of_getElem? hget)
  · intro s projectID taskID typ payload task new hs hopen hwrite
    have hmem := (findTeamTaskLocked_some (openTask_some hopen).1).1
    exact hreplace _ new hs (hwrite.attempt ▸ hs task hmem)
  · intro task new hfind _ hprogress
    have hattempt : new.attempt = task.attempt := congrArg Progress.attempt hprogress
    exact hreplace _ new hs (hattempt ▸ hs task (lookupKey_some hfind).1)
  · intro task path action body _ hfind hrefusal _
    have hmem := (findTeamTaskLocked_some hfind).1
    apply hreplace _ _ hs
    cases action with
    | retry => exact attempt_of_retry hrefusal
    | _ => exact hs task hmem
  · intro project spec _ _ _ task hmem
    rcases List.mem_append.mp hmem with hmem | hmem
    · exact hs task hmem
    · rw [List.mem_singleton.mp hmem]
      exact (by decide : 1 ≤ teamAttemptLimit)

/-! ## Runtimes -/

/-- The entries can be told apart by key and by token. -/
structure RuntimesWellFormed (n : Nat) (runtimes : List AgentRuntime) : Prop where
  keys : (runtimes.map AgentRuntime.key).Nodup
  tokens : (runtimes.map AgentRuntime.fencingToken).Nodup
  issued : ∀ token ∈ runtimes.map AgentRuntime.fencingToken, Issued n token
  sequences : ∀ item ∈ runtimes, item.lastSequence ≤ 2 ^ 60

theorem RuntimesWellFormed.mono {m n : Nat} {runtimes : List AgentRuntime}
    (h : RuntimesWellFormed m runtimes) (hmn : m ≤ n) : RuntimesWellFormed n runtimes :=
  ⟨h.keys, h.tokens, fun token hmem => (h.issued token hmem).mono hmn, h.sequences⟩

/-- Rewriting an entry without its key and token. -/
theorem RuntimesWellFormed.replace {n : Nat} {runtimes : List AgentRuntime}
    {item new : AgentRuntime} (h : RuntimesWellFormed n runtimes)
    (hfind : lookupKey AgentRuntime.key new.key runtimes = some item)
    (htoken : new.fencingToken = item.fencingToken) (hsequence : new.lastSequence ≤ 2 ^ 60) :
    RuntimesWellFormed n (replaceKey AgentRuntime.key new runtimes) where
  keys := by simpa using h.keys
  tokens := by rw [map_replaceKey_of_eq hfind htoken]; exact h.tokens
  issued := by rw [map_replaceKey_of_eq hfind htoken]; exact h.issued
  sequences := by
    intro old hmem
    rcases mem_replaceKey hmem with rfl | hmem
    · exact hsequence
    · exact h.sequences old hmem

/-- Rewriting all entries without their keys and tokens. -/
theorem RuntimesWellFormed.map {n : Nat} {runtimes : List AgentRuntime}
    {f : AgentRuntime → AgentRuntime} (h : RuntimesWellFormed n runtimes)
    (hkey : ∀ item, (f item).key = item.key)
    (htoken : ∀ item, (f item).fencingToken = item.fencingToken)
    (hsequence : ∀ item, (f item).lastSequence = item.lastSequence) :
    RuntimesWellFormed n (runtimes.map f) := by
  have hkeys : (runtimes.map f).map AgentRuntime.key = runtimes.map AgentRuntime.key := by
    simp [List.map_map, Function.comp_def, hkey]
  have htokens : (runtimes.map f).map AgentRuntime.fencingToken =
      runtimes.map AgentRuntime.fencingToken := by
    simp [List.map_map, Function.comp_def, htoken]
  refine ⟨hkeys ▸ h.keys, htokens ▸ h.tokens, htokens ▸ h.issued, ?_⟩
  intro item hmem
  obtain ⟨old, hold, rfl⟩ := List.mem_map.mp hmem
  rw [hsequence]
  exact h.sequences old hold

/-- A registration drops one entry, rewrites the rest and adds one with a new token. -/
theorem RuntimesWellFormed.register {s : TeamState} {now : Instant} {body : Fields}
    (h : RuntimesWellFormed s.idCounter s.agentRuntimes) :
    RuntimesWellFormed (s.idCounter + 1)
      (registeredRuntimes s.agentRuntimes (newRuntime s now body)) := by
  generalize hnew : newRuntime s now body = item
  have htoken : item.fencingToken = teamNewID "fence" now (s.idCounter + 1) := by
    rw [← hnew]; rfl
  have hsequence : item.lastSequence = 0 := by rw [← hnew]; rfl
  have hkept : RuntimesWellFormed s.idCounter
      (s.agentRuntimes.filter fun old => old.key ≠ item.key) :=
    ⟨h.keys.sublist (List.filter_sublist.map _), h.tokens.sublist (List.filter_sublist.map _),
      fun token hmem => h.issued token ((List.filter_sublist.map _).subset hmem),
      fun old hmem => h.sequences old (List.mem_of_mem_filter hmem)⟩
  have hfenced := hkept.map (f := fenceRuntime item.projectId)
    (fun old => by simp only [fenceRuntime]; split <;> rfl)
    (fun old => by simp only [fenceRuntime]; split <;> rfl)
    (fun old => by simp only [fenceRuntime]; split <;> rfl)
  refine ⟨?_, ?_, ?_, ?_⟩
  · simp only [registeredRuntimes, List.map_append, List.map_singleton]
    refine List.Nodup.append hfenced.keys (List.nodup_singleton _) ?_
    intro key hmem hitem
    obtain ⟨fenced, hfencedMem, rfl⟩ := List.mem_map.mp hmem
    obtain ⟨old, hold, rfl⟩ := List.mem_map.mp hfencedMem
    have hkey : (fenceRuntime item.projectId old).key = old.key := by
      simp only [fenceRuntime]; split <;> rfl
    rw [hkey, List.mem_singleton] at hitem
    simpa [hitem] using (List.mem_filter.mp hold).2
  · simp only [registeredRuntimes, List.map_append, List.map_singleton]
    refine List.Nodup.append hfenced.tokens (List.nodup_singleton _) ?_
    intro token hmem hitem
    exact (hfenced.issued token hmem).ne_teamNewID (Nat.lt_succ_self _)
      ((List.mem_singleton.mp hitem).trans htoken)
  · simp only [registeredRuntimes, List.map_append, List.map_singleton]
    intro token hmem
    rcases List.mem_append.mp hmem with hmem | hmem
    · exact (hfenced.issued token hmem).mono (Nat.le_succ _)
    · rw [List.mem_singleton.mp hmem, htoken]
      exact issued_teamNewID (Nat.le_refl _)
  · intro old hmem
    rcases List.mem_append.mp hmem with hmem | hmem
    · exact hfenced.sequences old hmem
    · rw [List.mem_singleton.mp hmem, hsequence]
      exact Nat.zero_le _

theorem lastFresh_le {last : Nat} (hlast : last ≤ 2 ^ 60) (events : List Fields) :
    lastFresh last events ≤ 2 ^ 60 := by
  have hmem : lastFresh last events = last ∨
      lastFresh last events ∈ (freshEvents last events).map eventSequence := by
    rw [lastFresh, List.getLastD_eq_getLast?]
    cases h : ((freshEvents last events).map eventSequence).getLast? with
    | none => exact .inl rfl
    | some sequence => exact .inr (List.mem_of_getLast? h)
  rcases hmem with h | h
  · omega
  · obtain ⟨event, -, heq⟩ := List.mem_map.mp h
    rw [← heq]
    exact boundedInt_le (Nat.zero_le _)

theorem Effect.runtimesWellFormed {env : Env} {now : Instant} {s t : TeamState}
    {request : Request} {response : Response} (h : Effect env now s request t response)
    (hs : RuntimesWellFormed s.idCounter s.agentRuntimes) :
    RuntimesWellFormed t.idCounter t.agentRuntimes := by
  have hkept : RuntimesWellFormed t.idCounter s.agentRuntimes := hs.mono h.idCounter_le
  apply h.runtimes hkept
  · intro body _ _ hcounter
    exact hs.register.mono (by omega)
  · intro item body _ hfind _
    exact hkept.replace (lookupKey_of_findRuntime hfind rfl) rfl
      (hs.sequences item (findRuntimeLocked_some hfind).1)
  · intro item body _ _ hfind _
    exact hkept.replace (lookupKey_of_findRuntime hfind rfl) rfl
      (hs.sequences item (findRuntimeLocked_some hfind).1)
  · intro item body expected _ _ hleased _
    exact hkept.replace (lookupKey_of_findRuntime (leasedRuntime_some hleased).1 rfl) rfl
      (lastFresh_le (Nat.min_le_right _ _) _)
  · refine hkept.map ?_ ?_ ?_ <;> intro item <;> simp only [afterExpiry] <;> split <;> rfl

/-- The facts about records that hold in every reachable state. -/
structure WellFormed (s : TeamState) : Prop where
  assignments : AssignmentsWellFormed s.idCounter s.assignments
  attempts : ∀ task ∈ s.teamTasks, task.attempt ≤ teamAttemptLimit
  runtimes : RuntimesWellFormed s.idCounter s.agentRuntimes

/-- Tasks have distinct identifiers. -/
theorem WellFormed.taskIds {s : TeamState} (h : WellFormed s) :
    (s.teamTasks.map TeamTask.taskId).Nodup := by
  have hnd := h.assignments.nodup
  rw [TeamState.assignments, List.map_map] at hnd
  exact hnd

theorem WellFormed.issued {s : TeamState} (h : WellFormed s) {task : TeamTask}
    (hmem : task ∈ s.teamTasks) : Issued s.idCounter task.taskId :=
  h.assignments.issued task.assignment (List.mem_map_of_mem hmem)

theorem wellFormed_empty : WellFormed .empty := by
  refine ⟨⟨?_, ?_, ?_⟩, ?_, ⟨?_, ?_, ?_, ?_⟩⟩ <;> simp [TeamState.empty, TeamState.assignments]

theorem Effect.wellFormed {env : Env} {now : Instant} {s t : TeamState} {request : Request}
    {response : Response} (h : Effect env now s request t response) (hs : WellFormed s) :
    WellFormed t :=
  ⟨h.assignments hs.assignments, h.attempts hs.attempts, h.runtimesWellFormed hs.runtimes⟩

theorem next_wellFormed {env : Env} {w : World} {i : Input} (h : WellFormed w.team) :
    WellFormed (next env w i).team := (next_effect env w i).wellFormed h

theorem run_wellFormed {env : Env} {w : World} (h : WellFormed w.team) (inputs : List Input) :
    WellFormed (run (next env) w inputs).team :=
  run_preserves (P := fun w : World => WellFormed w.team) (fun _ _ h => next_wellFormed h) h
    inputs

theorem reached_wellFormed (env : Env) (now : Instant) (inputs : List Input) :
    WellFormed (reached env now inputs).team := run_wellFormed wellFormed_empty inputs

end WorkMesh.AgentTeam
