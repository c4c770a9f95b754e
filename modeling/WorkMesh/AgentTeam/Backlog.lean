import WorkMesh.AgentTeam.Lifecycle

/-!
# The backlog of a project

Creation, input, cancellation, completion and retry test the number of
unfinished commands before they queue one. The scheduler and a registration
queue starts without a test. What they can add is bounded by the tasks that
wait and by the accepted tasks without a start.
-/

namespace WorkMesh.AgentTeam

open StateMachine

/-! ## Commands belong to tasks -/

/-- Every command belongs to a task of its project. -/
def OwnedCommands (s : TeamState) : Prop :=
  ∀ c ∈ s.agentCommands, ∃ a ∈ s.teamTasks.map TeamTask.assignment,
    a.taskId = c.taskId ∧ a.projectId = c.projectId

theorem OwnedCommands.of_sublists {s t : TeamState} (h : OwnedCommands s)
    (htasks : s.teamTasks.map TeamTask.assignment ⊆ t.teamTasks.map TeamTask.assignment)
    (hcommands : ∀ d ∈ t.agentCommands, ∃ c ∈ s.agentCommands, Rewritten c d) :
    OwnedCommands t := by
  intro d hd
  obtain ⟨c, hc, hsame⟩ := hcommands d hd
  obtain ⟨a, ha, hid, hproject⟩ := h c hc
  exact ⟨a, htasks ha, hid.trans hsame.taskId.symm, hproject.trans hsame.projectId.symm⟩

theorem OwnedCommands.append {s : TeamState} (h : OwnedCommands s) (now : Instant)
    (runtime : AgentRuntime) {task : TeamTask} (kind : CommandKind) (payload : Fields)
    (hmem : task.assignment ∈ s.teamTasks.map TeamTask.assignment) :
    OwnedCommands (appendCommand s (newTeamCommand s now runtime task kind payload)) := by
  intro d hd
  rcases List.mem_append.mp hd with hd | hd
  · exact h d hd
  · rw [List.mem_singleton.mp hd]
    exact ⟨task.assignment, hmem, rfl, rfl⟩

theorem keptByWrites_ownedCommands (now : Instant) : KeptByWrites now OwnedCommands where
  same := fun hs hsame => by
    simpa only [OwnedCommands, hsame.agentCommands, hsame.teamTasks] using hs
  move := fun {s i task status} hs hget _ _ => by
    have hsame := map_set_of_eq (f := TeamTask.assignment) (a := scheduledTask now task status)
      hget rfl
    simpa only [OwnedCommands, hsame] using hs
  start := fun runtime hs hmem _ => hs.append now runtime _ _ (List.mem_map_of_mem hmem)
  other := fun runtime payload _ hs hmem => hs.append now runtime _ payload hmem
  compact := fun projectID hs => hs.of_sublists (List.Subset.refl _) fun d hd =>
    ⟨d, (compactedCommands_sublist projectID _).subset hd, .refl d⟩

theorem OwnedCommands.replace {s : TeamState} (h : OwnedCommands s) {task new : TeamTask}
    (hfind : lookupKey TeamTask.taskId new.taskId s.teamTasks = some task)
    (hassignment : new.assignment = task.assignment) :
    OwnedCommands (replaceTeamTaskLocked s new) := by
  have hsame := map_replaceKey_of_eq (f := TeamTask.assignment) hfind hassignment
  simpa only [OwnedCommands, replaceTeamTaskLocked_teamTasks, hsame,
    replaceTeamTaskLocked_agentCommands] using h

theorem Effect.ownedCommands {env : Env} {now : Instant} {s t : TeamState} {request : Request}
    {response : Response} (h : Effect env now s request t response) (hs : OwnedCommands s) :
    OwnedCommands t := by
  have hP := keptByWrites_ownedCommands now
  have hrewrite : ∀ commands, List.Forall₂ Rewritten s.agentCommands commands →
      OwnedCommands { s with agentCommands := commands } :=
    fun commands hcommands => hs.of_sublists (List.Subset.refl _) fun d hd =>
      exists_of_rewritten hcommands hd
  refine h.writes hP hs ?_ ?_ ?_ ?_ ?_ ?_ ?_
  · intro u p id typ payload task new hu hopen hwrite
    exact hu.replace (lookupKey_of_find (openTask_some hopen).1
      (congrArg Assignment.taskId hwrite.assignment)) hwrite.assignment
  · intro task new hfind hassignment _
    exact hs.replace hfind hassignment
  · intro path action body task _ hfind _ _
    have hmem := List.mem_map_of_mem (f := TeamTask.assignment) (findTeamTaskLocked_some hfind).1
    have hprepared : OwnedCommands (prepareTaskAction s now task action) := by
      cases action with
      | retry =>
          exact hP.enqueueOther (s := supersedeTeamCommandsLocked s now task.taskId) (by decide)
            (hrewrite _ (rewritten_map (fun c => rewritten_supersede now c _) _)) hmem
      | _ => exact hs
    have hreplaced : ∀ new : TeamTask, new.assignment = task.assignment →
        OwnedCommands (replaceTeamTaskLocked (prepareTaskAction s now task action) new) := by
      intro new hnew
      have hfound : lookupKey TeamTask.taskId new.taskId
          (prepareTaskAction s now task action).teamTasks = some task := by
        rw [prepareTaskAction_teamTasks]
        exact lookupKey_of_find hfind (congrArg Assignment.taskId hnew)
      exact hprepared.replace hfound hnew
    have hacted := hreplaced _ (actedTask_assignment env (prepareTaskAction s now task action) now
      task body action)
    have hsuperseded : ∀ u : TeamState, OwnedCommands u →
        OwnedCommands (supersedeTeamCommandsLocked u now task.taskId) :=
      fun u hu => hu.of_sublists (List.Subset.refl _) fun d hd =>
        exists_of_rewritten (rewritten_map (fun c => rewritten_supersede now c _) _) hd
    cases action with
    | cancel => exact hsuperseded _ hacted
    | complete => exact hsuperseded _ hacted
    | _ => exact hacted
  · intro project body spec _ _ _ _
    refine hs.of_sublists ?_ fun d hd => ⟨d, hd, .refl d⟩
    rw [List.map_append]
    exact List.subset_append_left _ _
  · intro body _ _
    exact hrewrite _ (rewritten_map (fun c => rewritten_requeue c _ _) _)
  · intro project runtime token limit c item n delivered _ _ _ _ hdelivered
    exact hrewrite _ (hdelivered ▸ rewritten_delivered)
  · intro body item ids _ _ _
    exact hrewrite _ (rewritten_map (fun c => rewritten_ack now c _ _) _)

/-- The commands of a stored task are commands of its project. -/
theorem OwnedCommands.project {s : TeamState} (h : OwnedCommands s)
    (htasks : (s.teamTasks.map TeamTask.taskId).Nodup) {task : TeamTask}
    (hmem : task ∈ s.teamTasks) :
    ∀ c ∈ s.agentCommands, c.taskId = task.taskId → c.projectId = task.projectId := by
  intro c hc hid
  obtain ⟨a, ha, haid, hap⟩ := h c hc
  obtain ⟨task', htask', rfl⟩ := List.mem_map.mp ha
  obtain rfl := eq_of_mem_of_key htasks htask' hmem (haid.trans hid)
  exact hap.symm

/-! ## Counting -/

/-- The tasks of a project that the scheduler may still move. -/
def waitingTasks (s : TeamState) (projectID : String) : Nat :=
  s.teamTasks.countP fun task => task.projectId = projectID ∧ task.status.waits

/-- What a project has pending or may be made to queue by the scheduler. -/
def obligations (s : TeamState) (projectID : String) : Nat :=
  pendingTeamCommandsLocked s projectID + waitingTasks s projectID

/-- An unfinished command of the project. -/
def pendingOf (projectID : String) (command : AgentCommand) : Bool :=
  command.projectId = projectID ∧ ¬teamCommandTerminal command

theorem pendingTeamCommandsLocked_eq (s : TeamState) (projectID : String) :
    pendingTeamCommandsLocked s projectID = s.agentCommands.countP (pendingOf projectID) := rfl

section Pending
variable (s : TeamState) (now : Instant) (p : String)

theorem pending_compact (q : String) :
    pendingTeamCommandsLocked (compactTeamCommandsLocked s q) p = pendingTeamCommandsLocked s p := by
  rw [pendingTeamCommandsLocked_eq, compactTeamCommandsLocked_agentCommands, compactedCommands,
    pendingTeamCommandsLocked_eq]
  generalize s.agentCommands.countP (finishedOf q) - teamCommandHistoryLimit = n
  obtain ⟨old, recent, hsplit, hdropped, -⟩ := dropTerminal_split q n s.agentCommands
  have hkept : ∀ c, (pendingOf p c && !finishedOf q c) = pendingOf p c := by
    intro c
    by_cases hterminal : teamCommandTerminal c = true
    · simp [pendingOf, hterminal]
    · simp [finishedOf, hterminal]
  rw [hdropped, hsplit, List.countP_append, List.countP_append, List.countP_filter]
  simp only [hkept]

/-- Queueing adds one unfinished command to the project, or nothing. -/
theorem pending_enqueue_le (task : TeamTask) (kind : CommandKind) (payload : Fields) :
    pendingTeamCommandsLocked (enqueueTaskCommandLocked s now task kind payload).1 p ≤
      pendingTeamCommandsLocked s p + if task.projectId = p then 1 else 0 := by
  obtain ⟨h, -⟩ | ⟨runtime, -, -, h⟩ := enqueueTaskCommandLocked_cases s now task kind payload
  · rw [h]; exact Nat.le_add_right _ _
  · rw [h, pending_compact]
    simp only [pendingTeamCommandsLocked, List.countP_append, List.countP_singleton,
      newTeamCommand, teamCommandTerminal]
    split <;> simp_all

/-- A rewrite finishes commands and brings none back. -/
theorem pending_rewrite_le {old new : List AgentCommand} (h : List.Forall₂ Rewritten old new) :
    new.countP (pendingOf p) ≤ old.countP (pendingOf p) := by
  induction h with
  | nil => exact Nat.le_refl _
  | @cons c d _ _ hhead _ ih =>
      have hpending : pendingOf p d = true → pendingOf p c = true := by
        intro hd
        simp only [pendingOf, decide_eq_true_eq] at hd ⊢
        refine ⟨hhead.projectId ▸ hd.1, fun hterminal => ?_⟩
        rw [hhead.terminal hterminal] at hd
        exact hd.2 hterminal
      simp only [List.countP_cons]
      cases hd : pendingOf p d with
      | false => simp only [Bool.false_eq_true, if_false]; omega
      | true => simp only [hpending hd, if_true]; omega

theorem pending_supersede_le (taskID : String) :
    pendingTeamCommandsLocked (supersedeTeamCommandsLocked s now taskID) p ≤
      pendingTeamCommandsLocked s p :=
  pending_rewrite_le p (rewritten_map (fun c => rewritten_supersede now c taskID) _)

/-- Taking back the commands of a task takes them out of the count of its project. -/
theorem pending_supersede {taskID : String}
    (hown : ∀ c ∈ s.agentCommands, c.taskId = taskID → c.projectId = p) :
    pendingTeamCommandsLocked (supersedeTeamCommandsLocked s now taskID) p +
      pendingTeamTaskCommandsLocked s taskID = pendingTeamCommandsLocked s p := by
  rw [pendingTeamCommandsLocked_eq, pendingTeamCommandsLocked_eq, pendingTeamTaskCommandsLocked,
    supersedeTeamCommandsLocked_agentCommands]
  generalize s.agentCommands = commands at hown
  induction commands with
  | nil => rfl
  | cons c commands ih =>
      have ih := ih fun d hd => hown d (List.mem_cons_of_mem _ hd)
      have hc := hown c List.mem_cons_self
      simp only [List.map_cons, List.countP_cons]
      by_cases hmine : c.taskId = taskID ∧ ¬teamCommandTerminal c = true
      · have htaken : pendingOf p (supersedeTeamCommand now taskID c) = false := by
          simp only [supersedeTeamCommand, if_pos hmine]
          simp [pendingOf, teamCommandTerminal]
        have hpending : pendingOf p c = true := by
          simp only [pendingOf, decide_eq_true_eq]
          exact ⟨hc hmine.1, hmine.2⟩
        simp only [htaken, hpending, decide_eq_true hmine, if_true, Bool.false_eq_true, if_false]
        omega
      · simp only [supersedeTeamCommand, if_neg hmine, decide_eq_false hmine, Bool.false_eq_true,
          if_false]
        omega

end Pending

section Scheduler
variable {env : Env} {now : Instant} {s t : TeamState} {p q : String}

/-- A move of the scheduler turns a waiting task into at most one command. -/
theorem Scheduled.obligations_le {i : Nat} {task : TeamTask}
    (h : Scheduled env now q s i task t) (hget : s.teamTasks[i]? = some task)
    (hwaits : task.status.waits) : obligations t p ≤ obligations s p := by
  have hstored : ∀ status typ payload,
      obligations (storeScheduled now s i task status typ payload) p +
        (if task.projectId = p ∧ status.waits = false then 1 else 0) = obligations s p := by
    intro status typ payload
    have hcount := countP_set (a := scheduledTask now task status)
      (fun task : TeamTask => decide (task.projectId = p ∧ task.status.waits)) hget
    have hproject : (scheduledTask now task status).projectId = task.projectId := rfl
    have hstatus : (scheduledTask now task status).status = status := rfl
    have htasks : obligations (storeScheduled now s i task status typ payload) p =
        pendingTeamCommandsLocked s p + (s.teamTasks.set i (scheduledTask now task status)).countP
          (fun task : TeamTask => decide (task.projectId = p ∧ task.status.waits)) := rfl
    rw [htasks]
    simp only [hproject, hstatus, hwaits, decide_eq_true_eq] at hcount
    simp only [obligations, waitingTasks]
    by_cases hp : task.projectId = p <;> cases hw : status.waits <;> simp_all
    all_goals omega
  cases h with
  | waitsForUnits typ payload => exact Nat.le.intro (hstored _ typ payload)
  | blocked typ payload => exact Nat.le.intro (hstored _ typ payload)
  | accepted typ payload =>
      have hmoved := hstored .accepted typ payload
      have hqueued := pending_enqueue_le (storeScheduled now s i task .accepted typ payload) now p
        (scheduledTask now task .accepted) .taskStart (startPayload (scheduledTask now task .accepted))
      have hsame : waitingTasks (enqueueTeamCommandLocked
          (storeScheduled now s i task .accepted typ payload) now
          (scheduledTask now task .accepted)).1 p =
          waitingTasks (storeScheduled now s i task .accepted typ payload) p := by
        simp only [waitingTasks, enqueueTeamCommandLocked_teamTasks]
      have hproject : (scheduledTask now task .accepted).projectId = task.projectId := rfl
      have hwaits : TaskStatus.accepted.waits = false := rfl
      simp only [obligations, hsame] at hmoved ⊢
      simp only [enqueueTeamCommandLocked, hproject] at hqueued ⊢
      simp only [hwaits, and_true] at hmoved
      omega

theorem obligations_activate (s : TeamState) :
    obligations (activateReadyTeamTasksLocked env s now q) p ≤ obligations s p :=
  activateReady_preserves (P := fun u => obligations u p ≤ obligations s p)
    (fun _ _ _ _ hu hget _ hwaits hmove => Nat.le_trans (hmove.obligations_le hget hwaits) hu)
    (Nat.le_refl _)

end Scheduler

/-! ## Event batches -/

/-- An event after which the scheduler may run. -/
def wakesTasks (event : Fields) : Bool :=
  endsTask (eventType event) || eventType event = "task.completion_report"

section Events
variable {env : Env} {now : Instant} {p q r : String}

theorem pending_activate_other (hne : q ≠ p) (s : TeamState) :
    pendingTeamCommandsLocked (activateReadyTeamTasksLocked env s now q) p ≤
      pendingTeamCommandsLocked s p := by
  refine activateReady_preserves (P := fun u => pendingTeamCommandsLocked u p ≤
    pendingTeamCommandsLocked s p) ?_ (Nat.le_refl _)
  intro u i task t hu _ hproject _ hmove
  refine Nat.le_trans ?_ hu
  cases hmove with
  | waitsForUnits => exact Nat.le_refl _
  | blocked => exact Nat.le_refl _
  | accepted typ payload =>
      refine Nat.le_trans (pending_enqueue_le _ now p (scheduledTask now task .accepted) _ _) ?_
      rw [if_neg (show ¬(scheduledTask now task .accepted).projectId = p from hproject ▸ hne)]
      exact Nat.le_refl _

theorem unstarted_of_waits {status : TaskStatus} (h : status.waits = true) :
    status.unstarted = true := by
  cases status <;> first | rfl | cases h

theorem obligations_write (s : TeamState) {id typ : String} {payload : Fields}
    {task new : TeamTask} (hopen : openTask s q id = some task)
    (hwrite : AgentWrite typ payload task new) :
    obligations (replaceTeamTaskLocked s new) p ≤ obligations s p := by
  refine Nat.add_le_add_left (countP_replaceKey_le (lookupKey_of_find (openTask_some hopen).1
    (congrArg Assignment.taskId hwrite.assignment)) ?_) _
  have hproject : new.projectId = task.projectId := congrArg Assignment.projectId hwrite.assignment
  have hstatus := hwrite.status
  simp only [decide_eq_true_eq, hproject]
  rintro ⟨hp, hwaits⟩
  refine ⟨hp, ?_⟩
  have hunstarted := unstarted_of_waits hwaits
  rw [hstatus] at hunstarted hwaits
  rwa [reportedStatus_of_unstarted hunstarted] at hwaits

theorem obligations_ingest (s : TeamState) (event : Fields) :
    obligations (ingestTeamEvent env now q r s event) p ≤ obligations s p := by
  refine ingestTeamEvent_preserves (P := fun u => obligations u p ≤ obligations s p) ?_ ?_ ?_
    (Nat.le_refl _)
  · intro u hu
    exact hu
  · intro u task new hu hopen hwrite
    exact Nat.le_trans (obligations_write u hopen hwrite) hu
  · intro u hu
    exact Nat.le_trans (obligations_activate u) hu

theorem pending_ingest_other (hne : q ≠ p) (s : TeamState) (event : Fields) :
    pendingTeamCommandsLocked (ingestTeamEvent env now q r s event) p ≤
      pendingTeamCommandsLocked s p :=
  ingestTeamEvent_preserves
    (P := fun u => pendingTeamCommandsLocked u p ≤ pendingTeamCommandsLocked s p)
    (fun _ hu => hu) (fun _ _ _ hu _ _ => hu)
    (fun u hu => Nat.le_trans (pending_activate_other hne u) hu) (Nat.le_refl _)

/-- An event that wakes no task leaves the commands alone. -/
theorem ingestTeamEvent_agentCommands {event : Fields} (h : wakesTasks event = false)
    (s : TeamState) :
    (ingestTeamEvent env now q r s event).agentCommands = s.agentCommands := by
  simp only [wakesTasks, Bool.or_eq_false_iff, decide_eq_false_iff_not] at h
  have hupdate : ∀ (u : TeamState) id typ payload,
      (updateTeamTaskFromEventLocked u now q id typ payload).agentCommands = u.agentCommands := by
    intro u id typ payload
    simp only [updateTeamTaskFromEventLocked]
    split
    · rfl
    · split <;> rfl
  have happly : ∀ (u : TeamState) id payload, (applyTeamCollaborationEventLocked env u now q id
      (eventType event) payload).agentCommands = u.agentCommands := by
    intro u id payload
    simp only [applyTeamCollaborationEventLocked, if_neg h.2]
    split
    · rfl
    · split
      · rfl
      · split <;> rfl
  simp only [ingestTeamEvent, h.1, Bool.false_eq_true, if_false]
  split
  · rfl
  · rw [happly, hupdate]
    rfl

theorem mem_freshEvents {last : Nat} {events : List Fields} {event : Fields}
    (h : event ∈ freshEvents last events) : event ∈ events := by
  induction events generalizing last with
  | nil => exact h
  | cons first events ih =>
      simp only [freshEvents] at h
      split at h
      · exact List.mem_cons_of_mem _ (ih h)
      · rcases List.mem_cons.mp h with rfl | h
        · exact List.mem_cons_self
        · exact List.mem_cons_of_mem _ (ih h)

theorem pending_batch_le (s : TeamState) (c : RuntimeCredentials) (item : AgentRuntime)
    (events : List Fields) {n : Nat} (hn : pendingTeamCommandsLocked s p ≤ n)
    (hroom : c.projectID = p → events.any wakesTasks = true → obligations s p ≤ n) :
    pendingTeamCommandsLocked (storeEventBatch env now s c item events) p ≤ n := by
  by_cases hp : c.projectID = p
  · cases hwakes : events.any wakesTasks with
    | true =>
        refine Nat.le_trans (Nat.le_add_right _ (waitingTasks _ p)) (?_ : obligations _ p ≤ n)
        exact storeEventBatch_preserves (P := fun u => obligations u p ≤ n) (fun _ _ hu => hu)
          (fun u event hu => Nat.le_trans (obligations_ingest u event) hu) (hroom hp hwakes)
    | false =>
        have hquiet : ∀ event ∈ events, wakesTasks event = false := by simpa using hwakes
        have hcommands : ((freshEvents (lastAccepted item) events).foldl
            (ingestTeamEvent env now c.projectID c.runtimeID) s).agentCommands = s.agentCommands :=
          List.foldlRecOn (motive := fun u : TeamState => u.agentCommands = s.agentCommands) _ _ rfl
            fun u hu event hmem => by
              rw [ingestTeamEvent_agentCommands (hquiet event (mem_freshEvents hmem)), hu]
        rw [pendingTeamCommandsLocked_eq] at hn ⊢
        rw [storeEventBatch, replaceRuntimeLocked_agentCommands, hcommands]
        exact hn
  · exact storeEventBatch_preserves (P := fun u => pendingTeamCommandsLocked u p ≤ n)
      (fun _ _ hu => hu) (fun u event hu => Nat.le_trans (pending_ingest_other hp u event) hu) hn

end Events

/-! ## Registrations -/

/-- A start of the task is queued or delivered. -/
def hasPendingStart (commands : List AgentCommand) (taskID : String) : Bool :=
  commands.any fun command =>
    command.taskId = taskID ∧ command.kind = .taskStart ∧ ¬teamCommandTerminal command

/-- An accepted task of the project without an unfinished start. -/
def undispatched (commands : List AgentCommand) (projectID : String) (task : TeamTask) : Bool :=
  task.projectId = projectID ∧ task.status = .accepted ∧ ¬hasPendingStart commands task.taskId

section Register
variable {now : Instant} {p q : String}

theorem hasPendingStart_iff {commands : List AgentCommand} {taskID : String} :
    hasPendingStart commands taskID = true ↔
      ∃ c ∈ commands, c.taskId = taskID ∧ c.kind = .taskStart ∧ teamCommandTerminal c = false := by
  simp [hasPendingStart]

theorem hasPendingStart_redispatch {s : TeamState} {task : TeamTask} {taskID : String}
    (h : hasPendingStart s.agentCommands taskID = true) :
    hasPendingStart (redispatchTeamTask now q s task).agentCommands taskID = true := by
  obtain ⟨c, hc, hid, hkind, hpending⟩ := hasPendingStart_iff.mp h
  refine hasPendingStart_iff.mpr ⟨c, ?_, hid, hkind, hpending⟩
  rcases redispatchTeamTask_cases s now q task with hsame | ⟨-, -, -, henqueue⟩
  · rw [hsame]; exact hc
  · rw [henqueue, enqueueTeamCommandLocked]
    obtain ⟨h, -⟩ | ⟨runtime, -, -, h⟩ :=
      enqueueTaskCommandLocked_cases s now task .taskStart (startPayload task)
    · rw [h]; exact hc
    · rw [h, compactTeamCommandsLocked_agentCommands]
      exact mem_compactedCommands (List.mem_append_left _ hc) hpending _

/-- The loop of a registration queues at most one start for each accepted task
without one. -/
theorem pending_redispatch_le (tasks : List TeamTask) {s : TeamState}
    {commands : List AgentCommand}
    (hstarts : ∀ id, hasPendingStart commands id = true → hasPendingStart s.agentCommands id = true) :
    pendingTeamCommandsLocked (tasks.foldl (redispatchTeamTask now q) s) p ≤
      pendingTeamCommandsLocked s p +
        if q = p then tasks.countP (undispatched commands p) else 0 := by
  induction tasks generalizing s with
  | nil => exact Nat.le_add_right _ _
  | cons task tasks ih =>
      have hnext := ih (s := redispatchTeamTask now q s task) fun id hid =>
        hasPendingStart_redispatch (hstarts id hid)
      have htask : pendingTeamCommandsLocked (redispatchTeamTask now q s task) p ≤
          pendingTeamCommandsLocked s p +
            if q = p ∧ undispatched commands p task = true then 1 else 0 := by
        rcases redispatchTeamTask_cases s now q task with h | ⟨hproject, haccepted, hnone, h⟩
        · rw [h]; exact Nat.le_add_right _ _
        · rw [h]
          refine Nat.le_trans (pending_enqueue_le s now p task _ _) (Nat.add_le_add_left ?_ _)
          by_cases hp : task.projectId = p
          · have hstart : hasPendingStart commands task.taskId = false := by
              rw [← Bool.not_eq_true]
              intro hstart
              obtain ⟨c, hc, hid, hkind, hpending⟩ :=
                hasPendingStart_iff.mp (hstarts _ hstart)
              rw [hnone c hc hid hkind] at hpending
              cases hpending
            have hundispatched : undispatched commands p task = true := by
              simp [undispatched, hp, haccepted, hstart]
            rw [if_pos hp, if_pos ⟨hproject.symm.trans hp, hundispatched⟩]
          · rw [if_neg hp]
            exact Nat.zero_le _
      simp only [List.foldl_cons, List.countP_cons]
      by_cases hq : q = p <;> simp only [hq, if_true, if_false, true_and, false_and] at hnext htask ⊢
      all_goals omega

theorem pending_register_le (s : TeamState) (item : AgentRuntime) :
    pendingTeamCommandsLocked (storeRegistration s now item) p ≤ pendingTeamCommandsLocked s p +
      if item.projectId = p then s.teamTasks.countP (undispatched s.agentCommands p) else 0 := by
  have hrequeued := pending_rewrite_le p (rewritten_map
    (fun c => rewritten_requeue c item.projectId item.runtimeId) s.agentCommands)
  have hstarts : ∀ id, hasPendingStart s.agentCommands id = true → hasPendingStart
      (s.agentCommands.map (requeueTeamCommand item.projectId item.runtimeId)) id = true := by
    intro id h
    obtain ⟨c, hc, hid, hkind, hpending⟩ := hasPendingStart_iff.mp h
    refine hasPendingStart_iff.mpr ⟨_, List.mem_map_of_mem hc, ?_⟩
    simp only [requeueTeamCommand]
    split
    · exact ⟨hid, hkind, rfl⟩
    · exact ⟨hid, hkind, hpending⟩
  exact Nat.le_trans (pending_redispatch_le s.teamTasks hstarts)
    (Nat.add_le_add_right hrequeued _)

end Register

/-! ## Actions -/

/-- The waiting tasks of a task's project, itself left out. -/
def waitingBeside (s : TeamState) (task : TeamTask) : Nat :=
  waitingTasks s task.projectId - if task.status.waits then 1 else 0

/-- The commands that an action leaves pending, its own and those of the tasks
it may wake, stay within the limit. -/
def roomForAction (s : TeamState) (task : TeamTask) : TaskAction → Bool
  | .cancel | .complete => waitingBeside s task = 0 ∨
      pendingTeamCommandsLocked s task.projectId + waitingBeside s task + 1 ≤
        teamPendingCommandLimit + pendingTeamTaskCommandsLocked s task.taskId
  | .reject =>
      pendingTeamCommandsLocked s task.projectId + waitingBeside s task ≤ teamPendingCommandLimit
  | _ => true

section Action
variable {env : Env} {now : Instant} {s : TeamState} {task : TeamTask} {body : Fields}
variable {action : TaskAction} {p : String}

theorem waitingTasks_acted {id : String} (hfind : findTeamTaskLocked s id = some task)
    {new : TeamTask} (hassignment : new.assignment = task.assignment)
    (hstatus : new.status.waits = false) :
    (replaceKey TeamTask.taskId new s.teamTasks).countP
        (fun t => decide (t.projectId = task.projectId ∧ t.status.waits)) =
      waitingBeside s task := by
  have hcount := countP_replaceKey
    (fun t : TeamTask => decide (t.projectId = task.projectId ∧ t.status.waits))
    (lookupKey_of_find hfind (congrArg Assignment.taskId hassignment))
  have hproject : new.projectId = task.projectId := congrArg Assignment.projectId hassignment
  simp only [hproject, hstatus, true_and, Bool.false_eq_true, decide_false, if_false,
    decide_eq_true_eq] at hcount
  simp only [waitingBeside, waitingTasks]
  omega

/-- What is pending in another project stays so. -/
theorem pending_perform_other (hne : task.projectId ≠ p) :
    pendingTeamCommandsLocked (performTaskAction env s now task action body) p ≤
      pendingTeamCommandsLocked s p := by
  have henqueue : ∀ (u : TeamState) new kind payload, new.projectId = task.projectId →
      pendingTeamCommandsLocked (enqueueTaskCommandLocked u now new kind payload).1 p ≤
        pendingTeamCommandsLocked u p := by
    intro u new kind payload hnew
    have hle := pending_enqueue_le u now p new kind payload
    rwa [hnew, if_neg hne] at hle
  have hactivate : ∀ u : TeamState, pendingTeamCommandsLocked
      (activateReadyTeamTasksLocked env u now task.projectId) p ≤ pendingTeamCommandsLocked u p :=
    fun u => pending_activate_other hne u
  simp only [performTaskAction]
  have hprepared : pendingTeamCommandsLocked (prepareTaskAction s now task action) p ≤
      pendingTeamCommandsLocked s p := by
    cases action with
    | retry => exact Nat.le_trans (henqueue _ task _ _ rfl) (pending_supersede_le s now p _)
    | _ => exact Nat.le_refl _
  generalize prepareTaskAction s now task action = prepared at hprepared ⊢
  generalize hnew : actedTask env prepared now task body action = acted
  have hproject : acted.projectId = task.projectId :=
    congrArg Assignment.projectId (hnew ▸ actedTask_assignment ..)
  generalize hlogged : appendTeamEventLocked (replaceTeamTaskLocked prepared acted) now
    task.projectId action.eventType task.taskId "" _ = logged
  have hkept : pendingTeamCommandsLocked logged p ≤ pendingTeamCommandsLocked s p := by
    rw [← hlogged]
    exact hprepared
  cases action with
  | input => exact Nat.le_trans (henqueue _ acted _ _ hproject) hkept
  | approve => exact hkept
  | reject =>
      simp only [followTaskAction, hproject]
      exact Nat.le_trans (hactivate _) hkept
  | retry =>
      simp only [followTaskAction]
      split
      · exact Nat.le_trans (henqueue _ acted _ _ hproject) hkept
      · exact hkept
  | cancel =>
      simp only [followTaskAction, hproject]
      exact Nat.le_trans (henqueue _ acted _ _ hproject) (Nat.le_trans (hactivate _)
        (Nat.le_trans (pending_supersede_le _ now p _) hkept))
  | complete =>
      simp only [followTaskAction, hproject]
      exact Nat.le_trans (hactivate _) (Nat.le_trans (henqueue _ acted _ _ hproject)
        (Nat.le_trans (pending_supersede_le _ now p _) hkept))

/-- A refusal tests the room for what an action queues itself. -/
theorem room_of_refusal (h : taskActionRefusal s task action body = none) :
    (action = .input → pendingTeamCommandsLocked s task.projectId < teamPendingCommandLimit) ∧
    (action = .retry → pendingTeamCommandsLocked s task.projectId + 2 ≤
      teamPendingCommandLimit + pendingTeamTaskCommandsLocked s task.taskId) ∧
    (action = .cancel ∨ action = .complete →
      pendingTeamCommandsLocked s task.projectId < teamPendingCommandLimit ∨
        0 < pendingTeamTaskCommandsLocked s task.taskId) := by
  have hpending : hasPendingTeamCommandLocked s task.taskId = true →
      0 < pendingTeamTaskCommandsLocked s task.taskId := by
    intro h
    simp only [hasPendingTeamCommandLocked, List.any_eq_true] at h
    obtain ⟨c, hc, hmine⟩ := h
    exact List.countP_pos_iff.mpr ⟨c, hc, hmine⟩
  simp only [taskActionRefusal] at h
  refine ⟨?_, ?_, ?_⟩
  · rintro rfl
    grind
  · rintro rfl
    grind
  · rintro (rfl | rfl) <;> grind

/-- A task that is ended takes its commands and itself out of the count. -/
theorem pending_ended {id : String} (now : Instant) (hfind : findTeamTaskLocked s id = some task)
    (hown : ∀ c ∈ s.agentCommands, c.taskId = task.taskId → c.projectId = task.projectId)
    {acted : TeamTask} {logged : TeamState} (hacted : acted.assignment = task.assignment)
    (hstatus : acted.status.waits = false) (hcommands : logged.agentCommands = s.agentCommands)
    (htasks : logged.teamTasks = replaceKey TeamTask.taskId acted s.teamTasks) :
    pendingTeamCommandsLocked (supersedeTeamCommandsLocked logged now task.taskId)
        task.projectId + pendingTeamTaskCommandsLocked s task.taskId =
      pendingTeamCommandsLocked s task.projectId ∧
    waitingTasks (supersedeTeamCommandsLocked logged now task.taskId) task.projectId =
      waitingBeside s task := by
  have hlogged : ∀ c ∈ logged.agentCommands, c.taskId = task.taskId →
      c.projectId = task.projectId := by rwa [hcommands]
  have htaken := pending_supersede logged now task.projectId hlogged
  refine ⟨?_, ?_⟩
  · simpa only [pendingTeamCommandsLocked, pendingTeamTaskCommandsLocked, hcommands,
      supersedeTeamCommandsLocked_agentCommands] using htaken
  · rw [waitingTasks, supersedeTeamCommandsLocked_teamTasks, htasks]
    exact waitingTasks_acted hfind hacted hstatus

theorem pending_enqueue_succ (u : TeamState) (now : Instant) {new : TeamTask}
    (hnew : new.projectId = p) (kind : CommandKind) (payload : Fields) :
    pendingTeamCommandsLocked (enqueueTaskCommandLocked u now new kind payload).1 p ≤
      pendingTeamCommandsLocked u p + 1 := by
  have hle := pending_enqueue_le u now p new kind payload
  rwa [if_pos hnew] at hle

theorem pending_activate_le (env : Env) (u : TeamState) (now : Instant) :
    pendingTeamCommandsLocked (activateReadyTeamTasksLocked env u now p) p ≤ obligations u p :=
  Nat.le_trans (Nat.le_add_right _ _) (obligations_activate u)

theorem pending_reject_le {id : String} (hfind : findTeamTaskLocked s id = some task)
    (hroom : pendingTeamCommandsLocked s task.projectId + waitingBeside s task ≤
      teamPendingCommandLimit) :
    pendingTeamCommandsLocked (performTaskAction env s now task .reject body) task.projectId ≤
      teamPendingCommandLimit := by
  simp only [performTaskAction, followTaskAction, prepareTaskAction]
  generalize hnew : actedTask env s now task body .reject = acted
  have hacted : acted.assignment = task.assignment := hnew ▸ actedTask_assignment ..
  have hwaiting := waitingTasks_acted hfind hacted (by rw [← hnew]; rfl)
  have hproject : acted.projectId = task.projectId := congrArg Assignment.projectId hacted
  rw [hproject]
  refine Nat.le_trans (pending_activate_le env _ now) ?_
  rw [← hwaiting] at hroom
  exact hroom

/-- A retry queues a cancellation and a start, and supersedes what is unfinished of the task. -/
theorem pending_retry_le
    (hown : ∀ c ∈ s.agentCommands, c.taskId = task.taskId → c.projectId = task.projectId)
    (hroom : pendingTeamCommandsLocked s task.projectId + 2 ≤
      teamPendingCommandLimit + pendingTeamTaskCommandsLocked s task.taskId) :
    pendingTeamCommandsLocked (performTaskAction env s now task .retry body) task.projectId ≤
      teamPendingCommandLimit := by
  have htaken := pending_supersede s now task.projectId hown
  have hcancel := pending_enqueue_succ (supersedeTeamCommandsLocked s now task.taskId) now
    (rfl : task.projectId = task.projectId) .taskCancel
    [("attempt", .int (teamTaskAttempt task)), ("reason", .str "retry")]
  simp only [performTaskAction, prepareTaskAction]
  generalize (enqueueTaskCommandLocked (supersedeTeamCommandsLocked s now task.taskId) now task
    .taskCancel _).1 = prepared at hcancel ⊢
  generalize hnew : actedTask env prepared now task body .retry = acted
  have hproject : acted.projectId = task.projectId :=
    congrArg Assignment.projectId (hnew ▸ actedTask_assignment ..)
  simp only [followTaskAction]
  generalize hlogged : appendTeamEventLocked (replaceTeamTaskLocked prepared acted) now
    task.projectId TaskAction.retry.eventType task.taskId "" _ = logged
  have hsame : pendingTeamCommandsLocked logged task.projectId =
      pendingTeamCommandsLocked prepared task.projectId := by rw [← hlogged]; rfl
  have hstart := pending_enqueue_succ logged now hproject .taskStart (startPayload acted)
  split
  · simp only [enqueueTeamCommandLocked]
    omega
  · omega

section Ended
variable {id : String} {acted : TeamTask} {logged : TeamState} {fields : Fields}

/-- The cancelled task is out of the count when those that wait are woken. -/
theorem pending_cancelled_le (hproject : acted.projectId = task.projectId)
    (hended : pendingTeamCommandsLocked logged task.projectId +
        pendingTeamTaskCommandsLocked s task.taskId = pendingTeamCommandsLocked s task.projectId ∧
      waitingTasks logged task.projectId = waitingBeside s task)
    (hends : pendingTeamCommandsLocked s task.projectId < teamPendingCommandLimit ∨
      0 < pendingTeamTaskCommandsLocked s task.taskId)
    (hbound : pendingTeamCommandsLocked s task.projectId ≤ teamPendingCommandLimit)
    (hroom : waitingBeside s task = 0 ∨
      pendingTeamCommandsLocked s task.projectId + waitingBeside s task + 1 ≤
        teamPendingCommandLimit + pendingTeamTaskCommandsLocked s task.taskId) :
    pendingTeamCommandsLocked (enqueueTaskCommandLocked
        (activateReadyTeamTasksLocked env logged now task.projectId) now acted .taskCancel
        fields).1 task.projectId ≤ teamPendingCommandLimit := by
  obtain ⟨htaken, hwaiting⟩ := hended
  have hwoken := pending_activate_le (p := task.projectId) env logged now
  have hqueued := pending_enqueue_succ
    (activateReadyTeamTasksLocked env logged now task.projectId) now hproject .taskCancel fields
  simp only [obligations, hwaiting] at hwoken
  omega

/-- The cancellation of a completed task is queued before those that wait are woken. -/
theorem pending_completed_le (hproject : acted.projectId = task.projectId)
    (hended : pendingTeamCommandsLocked logged task.projectId +
        pendingTeamTaskCommandsLocked s task.taskId = pendingTeamCommandsLocked s task.projectId ∧
      waitingTasks logged task.projectId = waitingBeside s task)
    (hends : pendingTeamCommandsLocked s task.projectId < teamPendingCommandLimit ∨
      0 < pendingTeamTaskCommandsLocked s task.taskId)
    (hbound : pendingTeamCommandsLocked s task.projectId ≤ teamPendingCommandLimit)
    (hroom : waitingBeside s task = 0 ∨
      pendingTeamCommandsLocked s task.projectId + waitingBeside s task + 1 ≤
        teamPendingCommandLimit + pendingTeamTaskCommandsLocked s task.taskId) :
    pendingTeamCommandsLocked (activateReadyTeamTasksLocked env
        (enqueueTaskCommandLocked logged now acted .taskCancel fields).1 now task.projectId)
        task.projectId ≤ teamPendingCommandLimit := by
  obtain ⟨htaken, hwaiting⟩ := hended
  have hqueued := pending_enqueue_succ logged now hproject .taskCancel fields
  have hsame := congrArg
    (List.countP fun t : TeamTask => decide (t.projectId = task.projectId ∧ t.status.waits))
    (enqueueTaskCommandLocked_teamTasks logged now acted .taskCancel fields)
  refine Nat.le_trans (pending_activate_le env _ now) ?_
  simp only [obligations, waitingTasks, hsame] at hwaiting ⊢
  omega

end Ended

/-- With room for it, an action keeps the backlog of its project within the limit. -/
theorem pending_perform_le {id : String} (hfind : findTeamTaskLocked s id = some task)
    (hown : ∀ c ∈ s.agentCommands, c.taskId = task.taskId → c.projectId = task.projectId)
    (hrefusal : taskActionRefusal s task action body = none)
    (hbound : pendingTeamCommandsLocked s task.projectId ≤ teamPendingCommandLimit)
    (hroom : roomForAction s task action = true) :
    pendingTeamCommandsLocked (performTaskAction env s now task action body) task.projectId ≤
      teamPendingCommandLimit := by
  obtain ⟨hinput, hretry, hends⟩ := room_of_refusal hrefusal
  have hassignment : (actedTask env s now task body action).assignment = task.assignment :=
    actedTask_assignment env s now task body action
  have hproject : (actedTask env s now task body action).projectId = task.projectId :=
    congrArg Assignment.projectId hassignment
  have hid : (actedTask env s now task body action).taskId = task.taskId :=
    congrArg Assignment.taskId hassignment
  cases action with
  | input =>
      simp only [performTaskAction, followTaskAction]
      exact Nat.le_trans (pending_enqueue_succ _ now rfl _ _) (hinput rfl)
  | approve => exact hbound
  | reject =>
      simp only [roomForAction, decide_eq_true_eq] at hroom
      exact pending_reject_le hfind hroom
  | retry => exact pending_retry_le hown (hretry rfl)
  | cancel =>
      simp only [roomForAction, decide_eq_true_eq] at hroom
      simp only [performTaskAction, followTaskAction, prepareTaskAction, hproject, hid]
      refine pending_cancelled_le hproject ?_ (hends (.inl rfl)) hbound hroom
      exact pending_ended now hfind hown hassignment rfl rfl rfl
  | complete =>
      simp only [roomForAction, decide_eq_true_eq] at hroom
      simp only [performTaskAction, followTaskAction, prepareTaskAction, hproject, hid]
      refine pending_completed_le hproject ?_ (hends (.inr rfl)) hbound hroom
      exact pending_ended now hfind hown hassignment rfl rfl rfl

end Action

/-! ## Runs -/

/-- What a request may make the scheduler or a registration queue has room in
the backlog. -/
def hasRoom (now : Instant) (s : TeamState) : Request → Bool
  | .register body =>
      let item := newRuntime s now body
      item.incomplete || registrationBlocked s now item ||
        pendingTeamCommandsLocked s item.projectId +
          s.teamTasks.countP (undispatched s.agentCommands item.projectId) ≤ teamPendingCommandLimit
  | .events body =>
      let c := runtimeCredentials body
      (leasedRuntime s now c).isNone || !(eventObjects (bodyList body "events")).any wakesTasks ||
        obligations s c.projectID ≤ teamPendingCommandLimit
  | .taskAction path action body =>
      (findTeamTaskLocked s (validTeamID path)).all fun task =>
        (taskActionRefusal s task action body).isSome || roomForAction s task action
  | _ => true

section Bounded

attribute [local irreducible] safeName

/-- The backlog of every project is within the limit. -/
structure Bounded (s : TeamState) : Prop where
  wellFormed : WellFormed s
  owned : OwnedCommands s
  pending : ∀ p, pendingTeamCommandsLocked s p ≤ teamPendingCommandLimit

theorem Effect.bounded {env : Env} {now : Instant} {s t : TeamState} {request : Request}
    {response : Response} (h : Effect env now s request t response) (hs : Bounded s)
    (hroom : response.isOk = true → hasRoom now s request = true) : Bounded t := by
  refine ⟨h.wellFormed hs.wellFormed, h.ownedCommands hs.owned, fun p => ?_⟩
  have hbound := hs.pending p
  cases h with
  | refused => exact hbound
  | answered => exact hbound
  | recreated => exact hbound
  | repeated => exact hbound
  | inputUnsaved => exact hbound
  | @registered body hcomplete hfree =>
      have hroom := hroom rfl
      simp only [hasRoom, hcomplete, hfree, Bool.false_or, decide_eq_true_eq] at hroom
      refine Nat.le_trans (pending_register_le s _) ?_
      split
      · rename_i hp
        exact hp ▸ hroom
      · exact hbound
  | renewed => exact hbound
  | unregistered => exact hbound
  | @ingested body item expected hcomplete hleased hchecked =>
      have hroom := hroom rfl
      refine pending_batch_le s _ item _ hbound fun hp hwakes => ?_
      simp only [hasRoom, hleased, hwakes, Option.isNone_some, Bool.not_true, Bool.false_or,
        decide_eq_true_eq] at hroom
      exact hp ▸ hroom
  | polled c item n delivered hleased hdelivered =>
      exact Nat.le_trans (pending_rewrite_le p (hdelivered ▸ rewritten_delivered)) hbound
  | @acked body item ids count hleased =>
      rw [pending_compact]
      exact Nat.le_trans (pending_rewrite_le p
        (rewritten_map (fun c => rewritten_ack now c (runtimeCredentials body) ids) _)) hbound
  | expired =>
      rw [pendingTeamCommandsLocked_eq, expireRuntimeLeasesLocked_agentCommands]
      exact hbound
  | @created project body spec reply hspec hdeps hcapacity =>
      generalize htask : newTeamTask env s now (validTeamID project) spec = task
      have hproject : task.projectId = validTeamID project := by rw [← htask]; rfl
      rw [← hproject] at hcapacity
      have hlogged : ∀ q typ payload, pendingTeamCommandsLocked (appendTeamEventLocked
          { s.tick with teamTasks := s.teamTasks ++ [task] } now q typ task.taskId "" payload) p =
          pendingTeamCommandsLocked s p := fun _ _ _ => rfl
      simp only [storeNewTask]
      split
      · refine Nat.le_trans (pending_enqueue_le _ now p task _ _) ?_
        rw [hlogged]
        split
        · rename_i hp
          rw [hp] at hcapacity
          exact hcapacity
        · exact hbound
      · rw [hlogged]
        exact hbound
  | @acted path action body task hfind hrefusal =>
      by_cases hp : task.projectId = p
      · have hroom := hroom rfl
        simp only [hasRoom, hfind, hrefusal, Option.all_some, Option.isSome_none,
          Bool.false_or] at hroom
        exact hp ▸ pending_perform_le hfind
          (hs.owned.project hs.wellFormed.taskIds (findTeamTaskLocked_some hfind).1) hrefusal
          (hs.pending task.projectId) hroom
      · exact Nat.le_trans (pending_perform_other hp) hbound
  | uploaded => exact hbound

end Bounded

/-- A saved request leaves room for what it makes the scheduler or a
registration queue. -/
def KeepsRoom (w : World) (i : Input) : Prop :=
  i.failure = none → hasRoom (w.now + i.advance) w.team i.request = true

instance (w : World) (i : Input) : Decidable (KeepsRoom w i) :=
  inferInstanceAs (Decidable (_ → _))

/-- While every request leaves room for the starts it makes due, no project has
more unfinished commands than the limit. -/
theorem backlog_bounded (env : Env) (now : Instant) (inputs : List Input)
    (h : Meets (next env) KeepsRoom (.start now) inputs) (projectID : String) :
    pendingTeamCommandsLocked (reached env now inputs).team projectID ≤
      teamPendingCommandLimit := by
  have hstart : Bounded (World.start now).team :=
    ⟨wellFormed_empty, by simp [OwnedCommands, World.start, TeamState.empty],
      fun _ => Nat.zero_le _⟩
  exact (run_invariant (P := fun w : World => Bounded w.team)
    (fun _ _ hw hroom => next_keeps (C := fun now s request _ => hasRoom now s request = true)
      (fun heffect hs hroom => heffect.bounded hs hroom) hw hroom) hstart h).pending projectID

/-! ## A registration beyond the limit -/

/-- A task is created, and its start is handed out and acknowledged. -/
def acknowledgedStart : List Input :=
  [.after 0 (registerRequest "p" "a"), .after 0 (createRequest "p" "small" []),
    .after 0 (.commands "p" "a" (teamNewID "fence" 0 1) ""),
    .after 0 (.commandAck (credentialFields "p" "a" (teamNewID "fence" 0 1) ++
      [("commandIds", .arr [.str (teamNewID "command" 0 6)])]))]

def inputRequest : Request := .taskAction (teamNewID "task" 0 4) .input [("input", .str "x")]

/-- The queue is filled with inputs up to the limit; then the runtime registers anew. -/
def overfullBacklog : List Input :=
  acknowledgedStart ++ List.replicate 1000 (Input.after 0 inputRequest) ++
    [Input.after 0 (registerRequest "p" "a")]

/-- The accepted task has no unfinished start, and `k` inputs are queued. -/
structure Filling (k : Nat) (w : World) : Prop where
  now : w.now = 0
  runtimes : w.team.agentRuntimes = (reached .default 0 acknowledgedStart).team.agentRuntimes
  tasks : w.team.teamTasks.map (fun t => (t.taskId, t.projectId, t.status, t.dependencyTaskIds)) =
    [(teamNewID "task" 0 4, "p", .accepted, [])]
  pending : pendingTeamCommandsLocked w.team "p" = k
  starts : hasPendingStart w.team.agentCommands (teamNewID "task" 0 4) = false

theorem filling_start : Filling 0 (reached .default 0 acknowledgedStart) where
  now := rfl
  runtimes := rfl
  tasks := by decide +kernel
  pending := by decide +kernel
  starts := by decide +kernel

theorem Filling.task {k : Nat} {w : World} (h : Filling k w) :
    ∃ t, w.team.teamTasks = [t] ∧ t.taskId = teamNewID "task" 0 4 ∧ t.projectId = "p" ∧
      t.status = .accepted ∧ t.dependencyTaskIds = [] := by
  obtain ⟨t, htasks, ht⟩ := List.map_eq_singleton_iff.mp h.tasks
  simp only [Prod.mk.injEq] at ht
  exact ⟨t, htasks, ht.1, ht.2.1, ht.2.2.1, ht.2.2.2⟩

/-- Queueing for a leased runtime adds exactly one unfinished command. -/
theorem pending_enqueue {s : TeamState} {now : Instant} {task : TeamTask} (kind : CommandKind)
    (payload : Fields) (hruntime : (commandRuntime s now task.projectId).isSome)
    (hdeps : kind = .taskStart → teamDependencyStatusLocked s task.dependencyTaskIds = .accepted) :
    pendingTeamCommandsLocked (enqueueTaskCommandLocked s now task kind payload).1
      task.projectId = pendingTeamCommandsLocked s task.projectId + 1 := by
  obtain ⟨-, ⟨hkind, hblocked⟩ | hnone⟩ | ⟨runtime, -, -, h⟩ :=
    enqueueTaskCommandLocked_cases s now task kind payload
  · exact absurd (hdeps hkind) hblocked
  · simp [hnone] at hruntime
  · rw [h, pending_compact]
    simp [pendingTeamCommandsLocked, newTeamCommand, teamCommandTerminal]

theorem hasPendingStart_enqueueOther {s : TeamState} {now : Instant} {task : TeamTask}
    {kind : CommandKind} {payload : Fields} {id : String} (hkind : kind ≠ .taskStart)
    (h : hasPendingStart s.agentCommands id = false) :
    hasPendingStart (enqueueTaskCommandLocked s now task kind payload).1.agentCommands id =
      false := by
  rw [← Bool.not_eq_true] at h ⊢
  intro hstart
  obtain ⟨c, hc, hid, hstart, hpending⟩ := hasPendingStart_iff.mp hstart
  rcases mem_enqueueTaskCommandLocked hc with hc | ⟨runtime, rfl⟩
  · exact h (hasPendingStart_iff.mpr ⟨c, hc, hid, hstart, hpending⟩)
  · exact hkind hstart

/-- An action that is not refused and saved. -/
theorem handle_acted {env : Env} {now : Instant} {s : TeamState} {path : String}
    {task : TeamTask} {action : TaskAction} {body : Fields}
    (hfind : findTeamTaskLocked s (validTeamID path) = some task)
    (hrefusal : taskActionRefusal s task action body = none) :
    (handle env now none s (.taskAction path action body)).1 =
      performTaskAction env s now task action body := by
  simp only [handle, handleDevTaskAction, hfind, hrefusal]
  rfl

theorem filling_input {k : Nat} {w : World} (h : Filling k w) (hk : k < teamPendingCommandLimit) :
    Filling (k + 1) (next .default w (.after 0 inputRequest)) := by
  obtain ⟨t, htasks, hid, hproject, hstatus, hdeps⟩ := h.task
  have hfind : findTeamTaskLocked w.team (validTeamID (teamNewID "task" 0 4)) = some t := by
    have hvalid : validTeamID (teamNewID "task" 0 4) = teamNewID "task" 0 4 := by decide +kernel
    simp [findTeamTaskLocked, lookupKey, htasks, hvalid, hid]
  have hrefusal : taskActionRefusal w.team t .input [("input", .str "x")] = none := by
    have hpending : ¬teamPendingCommandLimit ≤ pendingTeamCommandsLocked w.team "p" := by
      rw [h.pending]
      exact Nat.not_le_of_lt hk
    have htext : inputText [("input", .str "x")] ≠ "" := by decide +kernel
    simp [taskActionRefusal, hstatus, hproject, hpending, htext]
  have hteam : (next .default w (.after 0 inputRequest)).team =
      performTaskAction .default w.team 0 t .input [("input", .str "x")] := by
    rw [← handle_acted hfind hrefusal, next, answer, h.now]
    rfl
  have hruntime : (commandRuntime w.team 0 "p").isSome = true := by
    rw [commandRuntime, h.runtimes]
    decide +kernel
  generalize hnew : next .default w (.after 0 inputRequest) = new at hteam ⊢
  have hnow : new.now = 0 := by rw [← hnew, next_now, h.now]; rfl
  simp only [performTaskAction, prepareTaskAction, followTaskAction, actedTask] at hteam
  generalize boundedPayload (some (.obj [("input", .str "x")])) = payload at hteam
  generalize hacted : ({ t with updatedAt := 0 } : TeamTask) = acted at hteam
  have hp : acted.projectId = "p" := by rw [← hacted]; exact hproject
  have hkey : acted.taskId = t.taskId := by rw [← hacted]
  generalize hlogged : appendTeamEventLocked (replaceTeamTaskLocked w.team acted) 0 t.projectId _
    t.taskId "" payload = logged at hteam
  have hloggedTasks : logged.teamTasks = [acted] := by
    rw [← hlogged]
    simp [htasks, replaceKey, hkey]
  have hloggedCommands : logged.agentCommands = w.team.agentCommands := by rw [← hlogged]; rfl
  have hloggedRuntimes : logged.agentRuntimes = w.team.agentRuntimes := by rw [← hlogged]; rfl
  refine ⟨hnow, ?_, ?_, ?_, ?_⟩
  · rw [hteam, enqueueTaskCommandLocked_agentRuntimes, hloggedRuntimes, h.runtimes]
  · rw [hteam, enqueueTaskCommandLocked_teamTasks, hloggedTasks, ← hacted]
    simp [hid, hproject, hstatus, hdeps]
  · have hserved : (commandRuntime logged 0 acted.projectId).isSome := by
      simpa only [commandRuntime, hloggedRuntimes, hp] using hruntime
    have hqueued := pending_enqueue .taskInput
      (putField payload "attempt" (.int (teamTaskAttempt acted))) hserved (by simp)
    have hsame : pendingTeamCommandsLocked logged "p" = k := by
      rw [pendingTeamCommandsLocked, hloggedCommands]
      exact h.pending
    rw [hp, hsame] at hqueued
    rw [hteam]
    exact hqueued
  · rw [hteam]
    exact hasPendingStart_enqueueOther (by decide) (hloggedCommands ▸ h.starts)

theorem filling_inputs {k : Nat} (hk : k ≤ teamPendingCommandLimit) :
    Filling k (reached .default 0
      (acknowledgedStart ++ List.replicate k (.after 0 inputRequest))) := by
  induction k with
  | zero => rw [List.replicate_zero, List.append_nil]; exact filling_start
  | succ k ih =>
      rw [List.replicate_succ', ← List.append_assoc, reached_concat]
      exact filling_input (ih (Nat.le_of_succ_le hk)) hk

theorem requeue_pending (q r : String) (c : AgentCommand) :
    teamCommandTerminal (requeueTeamCommand q r c) = teamCommandTerminal c := by
  simp only [requeueTeamCommand]
  split
  · rename_i h
    rw [Bool.eq_false_iff.mpr h.2]
    rfl
  · rfl

/-- Requeued commands count as before. -/
theorem pending_requeue (q r p : String) (commands : List AgentCommand) :
    (commands.map (requeueTeamCommand q r)).countP (pendingOf p) = commands.countP (pendingOf p) := by
  rw [List.countP_map]
  refine List.countP_congr fun c _ => ?_
  simp only [Function.comp_apply, pendingOf, requeue_pending, (rewritten_requeue c q r).projectId]

theorem hasPendingStart_requeue (q r id : String) (commands : List AgentCommand) :
    hasPendingStart (commands.map (requeueTeamCommand q r)) id = hasPendingStart commands id := by
  have hkind : ∀ c, (requeueTeamCommand q r c).kind = c.kind := by
    intro c
    simp only [requeueTeamCommand]
    split <;> rfl
  simp only [hasPendingStart, List.any_map]
  congr 1
  funext c
  simp only [Function.comp_apply, requeue_pending, hkind, (rewritten_requeue c q r).taskId]

/-- A registration queues the start of an accepted task without one, however
long the queue is. -/
theorem pending_register {s : TeamState} {item : AgentRuntime} {t : TeamTask} {now : Instant}
    (htasks : s.teamTasks = [t]) (hproject : t.projectId = item.projectId)
    (hstatus : t.status = .accepted) (hdeps : t.dependencyTaskIds = [])
    (hstarts : hasPendingStart s.agentCommands t.taskId = false)
    (hfenced : item.status ≠ .fenced) (hleased : item.leaseAfter now = true) :
    pendingTeamCommandsLocked (storeRegistration s now item) item.projectId =
      pendingTeamCommandsLocked s item.projectId + 1 := by
  have hruntime : ((registeredRuntimes s.agentRuntimes item).find? fun r =>
      r.projectId = item.projectId ∧ r.status ≠ .fenced ∧ r.leaseAfter now).isSome := by
    rw [List.find?_isSome]
    exact ⟨item, List.mem_append_right _ (List.mem_singleton_self item), by simp [hfenced, hleased]⟩
  simp only [storeRegistration, htasks, List.foldl_cons, List.foldl_nil]
  generalize hregistered : ({ s.tick.tick with
    agentRuntimes := registeredRuntimes s.agentRuntimes item
    agentCommands := s.agentCommands.map (requeueTeamCommand item.projectId item.runtimeId) } :
    TeamState) = registered
  have hcommands : registered.agentCommands =
      s.agentCommands.map (requeueTeamCommand item.projectId item.runtimeId) := by
    rw [← hregistered]
  have hserved : (commandRuntime registered now t.projectId).isSome := by
    rw [hproject, ← hregistered]
    exact hruntime
  have hqueued := pending_enqueue .taskStart (startPayload t) hserved
    (by simp [hdeps, teamDependencyStatusLocked])
  have hredispatch : redispatchTeamTask now item.projectId registered t =
      (enqueueTeamCommandLocked registered now t).1 := by
    have hnone := (hasPendingStart_requeue item.projectId item.runtimeId t.taskId
      s.agentCommands).trans hstarts
    simp only [hasPendingStart, ← hcommands] at hnone
    simp only [redispatchTeamTask, hproject, hstatus, hnone, ne_eq, not_true_eq_false, or_self,
      Bool.false_eq_true, if_false]
  rw [hredispatch, enqueueTeamCommandLocked, ← hproject]
  refine hqueued.trans ?_
  rw [pendingTeamCommandsLocked_eq, hcommands, pending_requeue]
  rfl

/-- The entry that a registration of runtime `a` for project `p` asks for. -/
theorem newRuntime_registerBody (s : TeamState) :
    (newRuntime s 0 (registerBody "p" "a")).projectId = "p" ∧
      (newRuntime s 0 (registerBody "p" "a")).runtimeId = "a" ∧
      (newRuntime s 0 (registerBody "p" "a")).incomplete = false := by
  have hproject : validTeamID (aiString (registerBody "p" "a") ["projectId"]) = "p" := by
    decide +kernel
  have hruntime : validTeamID (aiString (registerBody "p" "a") ["runtimeId"]) = "a" := by
    decide +kernel
  have hinstance : validTeamID (aiString (registerBody "p" "a") ["instanceId"]) = "a" := by
    decide +kernel
  have hmember : validTeamID (aiString (registerBody "p" "a") ["memberId"]) = "member" := by
    decide +kernel
  simp only [AgentRuntime.incomplete, newRuntime, hproject, hruntime, hinstance, hmember,
    true_and]
  simp

theorem leaseAfter_of_pos {r : AgentRuntime} {now : Instant} {d : Nat}
    (h : r.leaseExpiresAt = some (now + d)) (hd : 0 < d) : r.leaseAfter now = true := by
  rw [AgentRuntime.leaseAfter, h]
  exact decide_eq_true (Nat.lt_add_of_pos_right hd)

theorem newRuntime_serves (s : TeamState) (now : Instant) (body : Fields) :
    (newRuntime s now body).status ≠ .fenced ∧ (newRuntime s now body).leaseAfter now = true := by
  have hexpires : (newRuntime s now body).leaseExpiresAt = some (now + teamLeaseDuration) := by
    rw [newRuntime]
  have hpos : 0 < teamLeaseDuration := Nat.mul_pos (by decide) (Nat.pow_pos (by decide))
  have hstatus : (newRuntime s now body).status = .online := by rw [newRuntime]
  exact ⟨by rw [hstatus]; decide, leaseAfter_of_pos hexpires hpos⟩

theorem pending_registration {k : Nat} {w : World} (h : Filling k w) :
    pendingTeamCommandsLocked (next .default w (.after 0 (registerRequest "p" "a"))).team "p" =
      k + 1 := by
  obtain ⟨t, htasks, hid, hproject, hstatus, hdeps⟩ := h.task
  obtain ⟨hp, hr, hcomplete⟩ := newRuntime_registerBody w.team
  obtain ⟨hfenced, hleased⟩ := newRuntime_serves w.team 0 (registerBody "p" "a")
  have hblocked : registrationBlocked w.team 0 (newRuntime w.team 0 (registerBody "p" "a")) =
      false := by
    simp only [registrationBlocked, currentRuntime, h.runtimes, hp, hr]
    decide +kernel
  have hteam : (next .default w (.after 0 (registerRequest "p" "a"))).team =
      storeRegistration w.team 0 (newRuntime w.team 0 (registerBody "p" "a")) := by
    simp only [next, answer, handle, Input.after, registerRequest, h.now,
      handleAgentRuntimeRegister, Nat.zero_mul, Nat.add_zero, hcomplete, hblocked,
      Bool.false_eq_true, if_false, commitTeamState, saveTeamStateLocked]
  generalize newRuntime w.team 0 (registerBody "p" "a") = item at hp hfenced hleased hteam
  have hqueued := pending_register htasks (hproject.trans hp.symm) hstatus hdeps
    (hid ▸ h.starts) hfenced hleased
  rw [hp, h.pending] at hqueued
  rw [hteam]
  exact hqueued

/-- The queue holds more unfinished commands than the limit. -/
theorem backlog_exceeded :
    ¬pendingTeamCommandsLocked (reached .default 0 overfullBacklog).team "p" ≤
      teamPendingCommandLimit := by
  rw [overfullBacklog, reached_concat,
    pending_registration (filling_inputs (k := 1000) (Nat.le_refl _))]
  decide

/-- The same run without the registration at its end. -/
theorem backlog_bounded_acknowledged :
    pendingTeamCommandsLocked (reached .default 0 acknowledgedStart).team "p" ≤
      teamPendingCommandLimit :=
  backlog_bounded .default 0 acknowledgedStart (by decide +kernel) "p"

end WorkMesh.AgentTeam