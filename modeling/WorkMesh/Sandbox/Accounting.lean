import WorkMesh.Sandbox.Slots
import WorkMesh.Sandbox.Lifecycle

/-!
# Slots and running tasks

A handler that has taken a slot gives it back when its start fails, and the
handlers that end a running task give its slot back after that. The slots are
right as long as nobody gives back a slot that a running task or another start
goes by, and no state is written past the slots: by an inspection, by a
`Destroy` that keeps the slot, or by the start of a process.
-/

namespace WorkMesh.Sandbox

open Encoding StateMachine

namespace Stage

/-- The task that a handler works on. -/
def task : Stage → Bytes
  | .creating spec => spec.taskID
  | .persisting id | .removing id | .starting id _ | .working _ id _ _ | .saving id
  | .compensating id | .releasing id => id

/-- A start that goes by the slot of its task. -/
def starts : Stage → Bool
  | .starting _ _ | .working .start _ _ _ => true
  | _ => false

/-- A handler that gives the slot of its task back, or does so if its start fails. -/
def owes : Stage → Bool
  | .starting _ acquired | .working .start _ _ acquired => acquired
  | .releasing _ => true
  | _ => false

/-- A handler that waits for the backend. -/
def called : Stage → Bool
  | .working _ _ _ _ => true
  | _ => false

end Stage

/-- What an event does to the slots. -/
structure SlotsSound (c : SlotSystem) (e : SlotEvent) : Prop where
  /-- A running task has its slot. -/
  covered : ∀ id, (c.step e).shared.provider.stateOf id = some .running →
    id ∈ (c.step e).shared.aiJobs
  /-- A task that no handler works on has a slot exactly while it is running. -/
  exact : ∀ id, (∀ stage ∈ (c.step e).waiting, stage.task ≠ id) →
    ((c.step e).shared.provider.stateOf id = some .running ↔ id ∈ (c.step e).shared.aiJobs)
  /-- The elements of the channel are the slots, and those that are being given back. -/
  pool : (c.step e).shared.channel = (c.step e).shared.aiJobs.card + (c.step e).shared.draining
  /-- A slot is granted below the limit in force, which comes from the newest policy. -/
  granted : ∀ id, id ∉ c.shared.aiJobs → id ∈ (c.step e).shared.aiJobs →
    c.shared.aiJobs.card < c.shared.limit ∧ c.shared.limit ≤ c.shared.capacity ∧
      ∀ revision ∈ c.shared.applied, revision ≤ c.shared.limits.policyRevision

/-- The condition on a section. -/
def Stage.Orderly (c : SlotSystem) (a : Answer) : Stage → Prop
  | .releasing id =>
      id ∈ c.shared.aiJobs → c.shared.granting = none →
        c.shared.provider.stateOf id ≠ some .running ∧
          ∀ stage ∈ c.waiting, stage.starts = true → stage.task ≠ id
  | .working .destroy id h owes =>
      h.state = .awaitingHuman ∨ a.error = none →
        (h.workspaceRef ≠ [] ∧ a.cleanup ≠ none) ∨ owes = false →
          c.shared.provider.stateOf id ≠ some .running
  | .working .recover id _ _ =>
      a.error = none →
        (c.shared.provider.stateOf id = some .running → a.inspection.recovered = .running) ∧
          (a.inspection.recovered = .running → id ∈ c.shared.aiJobs)
  | _ => True

/-- The condition on an event. A slot that is given back is not that of a running task or of
another start, no state is written past the slots, and no policy lowers the limit between the
look at it and a grant. -/
def Orderly (c : SlotSystem) : SlotEvent → Prop
  | .turn (.resume i a) => ∀ stage ∈ c.waiting[i]?, stage.Orderly c a
  | .policy policy revision =>
      c.shared.granting ≠ none → c.shared.limit ≤ (c.shared.applyPolicy policy revision).limit
  | .restart saved => ∀ s ∈ saved, s.usable = true →
      (c.shared.provider.restored s.handle s.answer).state ≠ .running
  | _ => True

instance (c : SlotSystem) (a : Answer) : DecidablePred (Stage.Orderly c a) := fun
  | .releasing id => inferInstanceAs (Decidable (
      id ∈ c.shared.aiJobs → c.shared.granting = none →
        c.shared.provider.stateOf id ≠ some .running ∧
          ∀ stage ∈ c.waiting, stage.starts = true → stage.task ≠ id))
  | .working .destroy id h owes => inferInstanceAs (Decidable (
      h.state = .awaitingHuman ∨ a.error = none →
        (h.workspaceRef ≠ [] ∧ a.cleanup ≠ none) ∨ owes = false →
          c.shared.provider.stateOf id ≠ some .running))
  | .working .recover id _ _ => inferInstanceAs (Decidable (
      a.error = none →
        (c.shared.provider.stateOf id = some .running → a.inspection.recovered = .running) ∧
          (a.inspection.recovered = .running → id ∈ c.shared.aiJobs)))
  | .working .start _ _ _ | .working .cancel _ _ _ | .working .collect _ _ _ | .creating _
  | .persisting _ | .removing _ | .starting _ _ | .saving _ | .compensating _ => .isTrue trivial

instance (c : SlotSystem) : DecidablePred (Orderly c) := fun
  | .turn (.resume i a) =>
      inferInstanceAs (Decidable (∀ stage ∈ c.waiting[i]?, stage.Orderly c a))
  | .policy policy revision => inferInstanceAs (Decidable (
      c.shared.granting ≠ none →
        c.shared.limit ≤ (c.shared.applyPolicy policy revision).limit))
  | .restart saved => inferInstanceAs (Decidable (∀ s ∈ saved, s.usable = true →
      (c.shared.provider.restored s.handle s.answer).state ≠ .running))
  | .turn (.arrive _) | .grant | .drain => .isTrue trivial

/-! ## The invariant -/

/-- The tasks, the slots and the handlers. -/
structure Linked (p : TaskProvider) (jobs : Finset Bytes) (waiting : List Stage) : Prop where
  running : ∀ id, p.stateOf id = some .running → id ∈ jobs
  held : ∀ id ∈ jobs, p.stateOf id = some .running ∨
    ∃ stage ∈ waiting, stage.owes = true ∧ stage.task = id
  begun : ∀ stage ∈ waiting, stage.starts = true → stage.task ∈ jobs
  there : ∀ stage ∈ waiting, stage.called = true → stage.task ∈ p.tasks

/-- The slots and the channel. -/
structure Pooled (w : SlotWorld) : Prop where
  pool : w.channel = w.aiJobs.card + w.draining
  granting : ∀ id, w.granting = some id → id ∉ w.aiJobs ∧ w.channel < w.limit
  newest : ∀ revision ∈ w.applied, revision ≤ w.limits.policyRevision

structure SlotInv (c : SlotSystem) : Prop where
  linked : Linked c.shared.provider c.shared.aiJobs c.waiting
  pooled : Pooled c.shared

variable {p next : TaskProvider} {jobs : Finset Bytes} {waiting : List Stage} {stage : Stage}
  {i : ℕ} {later : Option Stage}

/-- A handler is added that owes nothing. -/
theorem Linked.add (h : Linked p jobs waiting)
    (hbegun : ∀ s ∈ later, s.starts = true → s.task ∈ jobs)
    (hthere : ∀ s ∈ later, s.called = true → s.task ∈ p.tasks) :
    Linked p jobs (later.toList ++ waiting) where
  running := h.running
  held id hid := by
    rcases h.held id hid with hrunning | ⟨s, hs, howes⟩
    · exact .inl hrunning
    · exact .inr ⟨s, List.mem_append_right _ hs, howes⟩
  begun s hs := by
    rcases List.mem_append.mp hs with hnew | hold
    · exact hbegun s (Option.mem_toList.mp hnew)
    · exact h.begun s hold
  there s hs := by
    rcases List.mem_append.mp hs with hnew | hold
    · exact hthere s (Option.mem_toList.mp hnew)
    · exact h.there s hold

/-- A handler goes from one stage to the next. The tasks may change their states: none runs
without a slot, and for a slot of a task that ran or that the handler owed somebody is left. -/
theorem Linked.move (h : Linked p jobs waiting) (hstage : waiting[i]? = some stage)
    (htasks : ∀ id ∈ p.tasks, id ∈ next.tasks)
    (hrunning : ∀ id, next.stateOf id = some .running →
      p.stateOf id = some .running ∨ id ∈ jobs)
    (howed : ∀ id ∈ jobs,
      p.stateOf id = some .running ∨ stage.owes = true ∧ stage.task = id →
        next.stateOf id = some .running ∨ ∃ s ∈ later, s.owes = true ∧ s.task = id)
    (hbegun : ∀ s ∈ later, s.starts = true → s.task ∈ jobs)
    (hthere : ∀ s ∈ later, s.called = true → s.task ∈ next.tasks) :
    Linked next jobs (later.toList ++ waiting.eraseIdx i) where
  running id hid := by
    rcases hrunning id hid with hbefore | hslot
    · exact h.running id hbefore
    · exact hslot
  held id hid := by
    have hleft : p.stateOf id = some .running ∨ stage.owes = true ∧ stage.task = id →
        next.stateOf id = some .running ∨
          ∃ s ∈ later.toList ++ waiting.eraseIdx i, s.owes = true ∧ s.task = id := by
      intro hcause
      rcases howed id hid hcause with hstill | ⟨s, hs, howes⟩
      · exact .inl hstill
      · exact .inr ⟨s, List.mem_append_left _ (Option.mem_toList.mpr hs), howes⟩
    rcases h.held id hid with hran | ⟨s, hs, howes⟩
    · exact hleft (.inl hran)
    · by_cases heq : s = stage
      · subst heq
        exact hleft (.inr howes)
      · exact .inr ⟨s, List.mem_append_right _ (mem_eraseIdx_of_ne hstage hs heq), howes⟩
  begun s hs := by
    rcases List.mem_append.mp hs with hnew | hold
    · exact hbegun s (Option.mem_toList.mp hnew)
    · exact h.begun s (List.mem_of_mem_eraseIdx hold)
  there s hs := by
    rcases List.mem_append.mp hs with hnew | hold
    · exact hthere s (Option.mem_toList.mp hnew)
    · intro hcalled
      exact htasks _ (h.there s (List.mem_of_mem_eraseIdx hold) hcalled)

/-- A handler goes on without a look at the tasks. -/
theorem Linked.pass (h : Linked p jobs waiting) (hstage : waiting[i]? = some stage)
    (howed : stage.owes = true → ∃ s ∈ later, s.owes = true ∧ s.task = stage.task)
    (hbegun : ∀ s ∈ later, s.starts = true → s.task ∈ jobs)
    (hthere : ∀ s ∈ later, s.called = true → s.task ∈ p.tasks) :
    Linked p jobs (later.toList ++ waiting.eraseIdx i) := by
  refine h.move hstage (fun _ hid => hid) (fun _ hid => .inl hid) ?_ hbegun hthere
  rintro id - (hrunning | ⟨howes, rfl⟩)
  · exact .inl hrunning
  · exact .inr (howed howes)

/-- The first section of an operation that a handler goes on with. -/
theorem SlotInv.call {c : SlotSystem} {op : Operation} {id : Bytes} {owes : Bool}
    {otherwise : Option Stage} (hc : SlotInv c)
    (hstage : c.waiting[i]? = some stage) (htask : stage.task = id)
    (howed : stage.owes = true → op = .start ∧ owes = true ∧
      ∃ s ∈ otherwise, s.owes = true ∧ s.task = id)
    (hstart : op = .start → stage.starts = true)
    (hplain : ∀ s ∈ otherwise, s.starts = false ∧ s.called = false) :
    SlotInv ⟨(c.shared.call op id owes otherwise).1,
      (c.shared.call op id owes otherwise).2.toList ++ c.waiting.eraseIdx i⟩ := by
  rw [SlotWorld.call]
  cases hbegin : op.begin c.shared.provider id with
  | error e =>
      refine ⟨hc.linked.pass hstage ?_ ?_ ?_, hc.pooled⟩
      · intro howes
        rw [htask]
        exact (howed howes).2.2
      · intro s hs hstarts
        exact absurd hstarts (by simp [(hplain s hs).1])
      · intro s hs hcalled
        exact absurd hcalled (by simp [(hplain s hs).2])
  | ok handle =>
      have hmem : id ∈ c.shared.provider.tasks :=
        TaskProvider.mem_of_stateOf (TaskProvider.stateOf_eq (begin_ok hbegin).1)
      refine ⟨hc.linked.pass hstage ?_ ?_ ?_, hc.pooled⟩
      · intro howes
        obtain ⟨rfl, rfl, -⟩ := howed howes
        exact ⟨_, rfl, rfl, htask.symm⟩
      · intro s hs hstarts
        obtain rfl := Option.some.inj hs
        cases op with
        | start =>
            have hslot := hc.linked.begun _ (List.mem_of_getElem? hstage) (hstart rfl)
            rwa [htask] at hslot
        | cancel => cases hstarts
        | collect => cases hstarts
        | destroy => cases hstarts
        | recover => cases hstarts
      · intro s hs _
        obtain rfl := Option.some.inj hs
        exact hmem

theorem proceed_some {op : Operation} {id : Bytes} {h : TaskHandle} {owes : Bool} {a : Answer}
    {s : Stage} (hs : s ∈ SlotWorld.proceed op id h owes a) :
    s.starts = false ∧ s.called = false := by
  have hcases : s = .saving id ∨ s = .releasing id := by
    cases op with
    | start =>
        rw [SlotWorld.proceed] at hs
        split at hs
        · exact .inl (Option.some.inj hs).symm
        · split at hs
          · exact .inr (Option.some.inj hs).symm
          · cases hs
    | cancel =>
        rw [SlotWorld.proceed] at hs
        split at hs
        · exact .inr (Option.some.inj hs).symm
        · cases hs
    | collect =>
        rw [SlotWorld.proceed] at hs
        split at hs
        · exact .inr (Option.some.inj hs).symm
        · cases hs
    | destroy =>
        rw [SlotWorld.proceed] at hs
        split at hs
        · exact .inr (Option.some.inj hs).symm
        · cases hs
    | recover => cases hs
  rcases hcases with rfl | rfl
  · exact ⟨rfl, rfl⟩
  · exact ⟨rfl, rfl⟩

section Finish

variable {op : Operation} {id : Bytes} {handle : TaskHandle} {owes : Bool} {a : Answer}
  {c : SlotSystem}

/-- A last section that leads a task to running leads one there that has a slot. -/
theorem finish_running (h : Linked c.shared.provider c.shared.aiJobs c.waiting)
    (hstage : c.waiting[i]? = some (.working op id handle owes))
    (horderly : Stage.Orderly c a (.working op id handle owes)) {other : Bytes}
    (hrun : (op.finish c.shared.provider id handle a).stateOf other = some .running) :
    c.shared.provider.stateOf other = some .running ∨ other ∈ c.shared.aiJobs := by
  by_cases heq : other = id
  · subst heq
    rcases op.finish_cases c.shared.provider other handle a with hsame | ⟨hset, -, -, herror⟩
    · rw [hsame] at hrun
      exact .inl hrun
    · rw [hset, TaskProvider.stateOf_setState, if_pos rfl] at hrun
      obtain ⟨-, -, htarget⟩ := Option.map_eq_some_iff.mp hrun
      cases op with
      | start => exact .inr (h.begun _ (List.mem_of_getElem? hstage) rfl)
      | cancel => cases htarget
      | collect => cases htarget
      | destroy =>
          rw [Operation.target] at htarget
          split at htarget
          · cases htarget
          · cases htarget
      | recover => exact .inr ((horderly (herror (by simp))).2 htarget)
  · rw [op.finish_other _ _ _ _ heq] at hrun
    exact .inl hrun

/-- For a slot of a task that ran, or that a start owed, somebody is left. -/
theorem finish_owed (h : Linked c.shared.provider c.shared.aiJobs c.waiting)
    (hstage : c.waiting[i]? = some (.working op id handle owes))
    (horderly : Stage.Orderly c a (.working op id handle owes)) {other : Bytes}
    (hcause : c.shared.provider.stateOf other = some .running ∨
      (Stage.working op id handle owes).owes = true ∧ id = other) :
    (op.finish c.shared.provider id handle a).stateOf other = some .running ∨
      ∃ s ∈ SlotWorld.proceed op id handle owes a, s.owes = true ∧ s.task = other := by
  by_cases heq : other = id
  · subst heq
    have hthere : other ∈ c.shared.provider.tasks := h.there _ (List.mem_of_getElem? hstage) rfl
    obtain ⟨found, hfound⟩ := Option.isSome_iff_exists.mp (AList.lookup_isSome.mpr hthere)
    have hstate := TaskProvider.stateOf_eq hfound
    cases op with
    | start =>
        cases herror : a.error with
        | none =>
            left
            simp only [Operation.finish, TaskProvider.transitionEnd, herror]
            rw [TaskProvider.stateOf_setState, if_pos rfl, hstate, Option.map_some]
        | some e =>
            rcases hcause with hrunning | ⟨howes, -⟩
            · left
              simp only [Operation.finish, TaskProvider.transitionEnd, herror]
              exact hrunning
            · right
              obtain rfl : owes = true := howes
              exact ⟨.releasing other, by simp [SlotWorld.proceed, herror], rfl, rfl⟩
    | cancel =>
        cases herror : a.error with
        | none => exact .inr ⟨.releasing other, by simp [SlotWorld.proceed, herror], rfl, rfl⟩
        | some e =>
            left
            simp only [Operation.finish, TaskProvider.transitionEnd, herror]
            exact hcause.resolve_right (by simp [Stage.owes])
    | collect =>
        cases herror : a.error with
        | none => exact .inr ⟨.releasing other, by simp [SlotWorld.proceed, herror], rfl, rfl⟩
        | some e =>
            left
            simp only [Operation.finish, TaskProvider.collectEnd, herror]
            exact hcause.resolve_right (by simp [Stage.owes])
    | destroy =>
        have hrunning := hcause.resolve_right (by simp [Stage.owes])
        by_cases hdone : handle.state = .awaitingHuman ∨ a.error = none
        · have hgives : ¬ ((handle.workspaceRef ≠ [] ∧ a.cleanup ≠ none) ∨ owes = false) :=
            fun hkeeps => horderly hdone hkeeps hrunning
          rw [not_or, Bool.not_eq_false] at hgives
          right
          exact ⟨.releasing other, by
            rw [SlotWorld.proceed, if_pos ⟨hdone, hgives.1, hgives.2⟩]; rfl, rfl, rfl⟩
        · left
          rcases Operation.finish_cases .destroy c.shared.provider other handle a with
            hsame | ⟨-, -, hdestroy, -⟩
          · rw [hsame]
            exact hrunning
          · exact absurd (hdestroy rfl) hdone
    | recover =>
        have hrunning := hcause.resolve_right (by simp [Stage.owes])
        left
        rcases Operation.finish_cases .recover c.shared.provider other handle a with
          hsame | ⟨hset, -, -, herror⟩
        · rw [hsame]
          exact hrunning
        · have htarget := (horderly (herror (by simp))).1 hrunning
          rw [hset, TaskProvider.stateOf_setState, if_pos rfl, hstate, Option.map_some]
          exact congrArg some htarget
  · left
    rw [op.finish_other _ _ _ _ heq]
    exact hcause.resolve_right fun hboth => heq hboth.2.symm

theorem Linked.finish (h : Linked c.shared.provider c.shared.aiJobs c.waiting)
    (hstage : c.waiting[i]? = some (.working op id handle owes))
    (horderly : Stage.Orderly c a (.working op id handle owes)) :
    Linked (op.finish c.shared.provider id handle a) c.shared.aiJobs
      ((SlotWorld.proceed op id handle owes a).toList ++ c.waiting.eraseIdx i) := by
  refine h.move hstage (fun other hother => (op.finish_tasks _ _ _ _ other).mpr hother)
    (fun other => finish_running h hstage horderly) (fun other _ => finish_owed h hstage horderly)
    ?_ ?_
  · intro s hs hstarts
    exact absurd hstarts (by simp [(proceed_some hs).1])
  · intro s hs hcalled
    exact absurd hcalled (by simp [(proceed_some hs).2])

end Finish

/-! ## Sections -/

variable {c : SlotSystem} {a : Answer}

theorem Pooled.withProvider {w : SlotWorld} (h : Pooled w) (provider : TaskProvider) :
    Pooled { w with provider } :=
  ⟨h.pool, h.granting, h.newest⟩

/-- A slot is given back. -/
theorem SlotInv.release {id : Bytes} (hc : SlotInv c)
    (hstage : c.waiting[i]? = some (.releasing id))
    (horderly : Stage.Orderly c a (.releasing id)) :
    SlotInv ⟨(c.shared.release id).1,
      (c.shared.release id).2.toList ++ c.waiting.eraseIdx i⟩ := by
  rw [SlotWorld.release]
  split
  · refine ⟨hc.linked.pass hstage (fun _ => ⟨_, rfl, rfl, rfl⟩) ?_ ?_, hc.pooled⟩
    · intro s hs hstarts
      obtain rfl := Option.some.inj hs
      cases hstarts
    · intro s hs hcalled
      obtain rfl := Option.some.inj hs
      cases hcalled
  · rename_i hlock
    have hfree : c.shared.granting = none := Option.not_isSome_iff_eq_none.mp hlock
    split
    · rename_i hslot
      obtain ⟨hidle, hnone⟩ := horderly hslot hfree
      refine ⟨⟨?_, ?_, ?_, ?_⟩, ?_, ?_, hc.pooled.newest⟩
      · intro other hrunning
        refine Finset.mem_erase.mpr ⟨?_, hc.linked.running other hrunning⟩
        rintro rfl
        exact hidle hrunning
      · intro other hother
        obtain ⟨hne, hmem⟩ := Finset.mem_erase.mp hother
        rcases hc.linked.held other hmem with hrunning | ⟨s, hs, howes, htask⟩
        · exact .inl hrunning
        · refine .inr ⟨s, mem_eraseIdx_of_ne hstage hs ?_, howes, htask⟩
          rintro rfl
          exact hne htask.symm
      · intro s hs hstarts
        have hold := List.mem_of_mem_eraseIdx hs
        exact Finset.mem_erase.mpr ⟨hnone s hold hstarts, hc.linked.begun s hold hstarts⟩
      · intro s hs hcalled
        exact hc.linked.there s (List.mem_of_mem_eraseIdx hs) hcalled
      · have hcard := Finset.card_erase_of_mem hslot
        have hpos : 0 < c.shared.aiJobs.card := Finset.card_pos.mpr ⟨id, hslot⟩
        have hpool := hc.pooled.pool
        simp only
        omega
      · intro other hgranting
        simp only [hfree] at hgranting
        cases hgranting
    · rename_i hslot
      refine ⟨hc.linked.move hstage (fun _ hid => hid) (fun _ hid => .inl hid) ?_ ?_ ?_, hc.pooled⟩
      · rintro other hmem (hrunning | ⟨-, rfl⟩)
        · exact .inl hrunning
        · exact absurd hmem hslot
      · intro s hs
        cases hs
      · intro s hs
        cases hs

/-- A new task does not run, and the others stay. -/
theorem Linked.create {spec : TaskSpec} (h : Linked p jobs waiting)
    (hstage : waiting[i]? = some (.creating spec)) {out : TaskProvider}
    {result : Except TaskError TaskHandle} (hout : p.createEnd spec a.created = (out, result))
    {later : Option Stage} (hlater : ∀ s ∈ later, s.starts = false ∧ s.called = false) :
    Linked out jobs (later.toList ++ waiting.eraseIdx i) := by
  have hcases : out = p ∨ spec.taskID ∉ p.tasks ∧ ∃ handle : TaskHandle,
      handle.state = .created ∧
        out = { p with tasks := p.tasks.insert spec.taskID handle } := by
    simp only [TaskProvider.createEnd] at hout
    split at hout
    · exact .inl (Prod.mk.inj hout).1.symm
    · rename_i hnew
      split at hout
      · exact .inl (Prod.mk.inj hout).1.symm
      · exact .inr ⟨hnew, _, rfl, (Prod.mk.inj hout).1.symm⟩
  have hstates : (∀ id ∈ p.tasks, id ∈ out.tasks) ∧ ∀ id,
      out.stateOf id = some .running ↔ p.stateOf id = some .running := by
    rcases hcases with rfl | ⟨hnew, handle, hcreated, rfl⟩
    · exact ⟨fun _ hid => hid, fun _ => Iff.rfl⟩
    · refine ⟨fun id hid => (AList.mem_insert _).mpr (.inr hid), fun id => ?_⟩
      by_cases heq : id = spec.taskID
      · have hbefore : p.stateOf id = none := by
          rw [TaskProvider.stateOf, AList.lookup_eq_none.mpr (heq ▸ hnew), Option.map_none]
        rw [TaskProvider.stateOf, heq, AList.lookup_insert, ← heq, hbefore, Option.map_some,
          hcreated]
        simp
      · rw [TaskProvider.stateOf, AList.lookup_insert_ne heq, TaskProvider.stateOf]
  refine h.move hstage hstates.1 (fun id hid => .inl ((hstates.2 id).mp hid)) ?_ ?_ ?_
  · rintro id - (hrunning | ⟨howes, -⟩)
    · exact .inl ((hstates.2 id).mpr hrunning)
    · cases howes
  · intro s hs hstarts
    exact absurd hstarts (by simp [(hlater s hs).1])
  · intro s hs hcalled
    exact absurd hcalled (by simp [(hlater s hs).2])

/-- A handler that owes nothing goes on to a stage without a slot. -/
theorem SlotInv.pass (hc : SlotInv c) (hstage : c.waiting[i]? = some stage)
    (howes : stage.owes = false) (hlater : ∀ s ∈ later, s.starts = false ∧ s.called = false) :
    SlotInv ⟨c.shared, later.toList ++ c.waiting.eraseIdx i⟩ := by
  refine ⟨hc.linked.pass hstage (fun h => ?_) (fun s hs hstarts => ?_) fun s hs hcalled => ?_,
    hc.pooled⟩
  · simp [howes] at h
  · simp [(hlater s hs).1] at hstarts
  · simp [(hlater s hs).2] at hcalled

theorem slotInv_resume (hc : SlotInv c) (hstage : c.waiting[i]? = some stage)
    (horderly : stage.Orderly c a) :
    SlotInv ⟨(stage.resume c.shared a).1,
      (stage.resume c.shared a).2.toList ++ c.waiting.eraseIdx i⟩ := by
  cases stage with
  | creating spec =>
      simp only [Stage.resume]
      split
      · rename_i provider e hout
        refine ⟨hc.linked.create hstage hout ?_, hc.pooled.withProvider provider⟩
        intro s hs
        cases hs
      · rename_i provider handle hout
        refine ⟨hc.linked.create hstage hout ?_, hc.pooled.withProvider provider⟩
        intro s hs
        obtain rfl := Option.some.inj hs
        exact ⟨rfl, rfl⟩
  | persisting id =>
      refine hc.pass hstage rfl fun s hs => ?_
      simp only [Stage.resume] at hs
      split at hs
      · cases hs
      · obtain rfl := Option.some.inj hs
        exact ⟨rfl, rfl⟩
  | saving id =>
      refine hc.pass hstage rfl fun s hs => ?_
      simp only [Stage.resume] at hs
      split at hs
      · cases hs
      · obtain rfl := Option.some.inj hs
        exact ⟨rfl, rfl⟩
  | removing id =>
      refine hc.call hstage rfl (fun howes => ?_) (fun hop => ?_) fun s hs => ?_
      · cases howes
      · cases hop
      · cases hs
  | compensating id =>
      refine hc.call hstage rfl (fun howes => ?_) (fun hop => ?_) fun s hs => ?_
      · cases howes
      · cases hop
      · cases hs
  | starting id acquired =>
      refine hc.call hstage rfl (fun howes => ?_) (fun _ => rfl) fun s hs => ?_
      · obtain rfl : acquired = true := howes
        exact ⟨rfl, rfl, _, rfl, rfl, rfl⟩
      · split at hs
        · obtain rfl := Option.some.inj hs
          exact ⟨rfl, rfl⟩
        · cases hs
  | working op id handle owes =>
      exact ⟨hc.linked.finish hstage horderly, hc.pooled.withProvider _⟩
  | releasing id => exact hc.release hstage horderly

theorem slotInv_arrive (hc : SlotInv c) (request : Request) :
    SlotInv ⟨(slotSections.arrive c.shared request).1,
      (slotSections.arrive c.shared request).2.toList ++ c.waiting⟩ := by
  have hcall : ∀ op id, op ≠ .start →
      SlotInv ⟨(c.shared.call op id true none).1,
        (c.shared.call op id true none).2.toList ++ c.waiting⟩ := by
    intro op id hop
    rw [SlotWorld.call]
    cases hbegin : op.begin c.shared.provider id with
    | error e => exact hc
    | ok handle =>
        refine ⟨hc.linked.add (fun s hs hstarts => ?_) fun s hs _ => ?_, hc.pooled⟩
        · obtain rfl := Option.some.inj hs
          cases op with
          | start => exact absurd rfl hop
          | cancel => cases hstarts
          | collect => cases hstarts
          | destroy => cases hstarts
          | recover => cases hstarts
        · obtain rfl := Option.some.inj hs
          exact TaskProvider.mem_of_stateOf (TaskProvider.stateOf_eq (begin_ok hbegin).1)
  cases request with
  | create host capabilities spec =>
      simp only [slotSections]
      split
      · exact hc
      · refine ⟨hc.linked.add (fun s hs hstarts => ?_) fun s hs hcalled => ?_, hc.pooled⟩
        · obtain rfl := Option.some.inj hs
          cases hstarts
        · obtain rfl := Option.some.inj hs
          cases hcalled
  | operate op id =>
      cases op with
      | start =>
          simp only [slotSections, SlotWorld.acquire]
          split
          · exact hc
          · rename_i hlock
            split
            · rename_i hslot
              refine ⟨hc.linked.add (fun s hs _ => ?_) fun s hs hcalled => ?_, hc.pooled⟩
              · obtain rfl := Option.some.inj hs
                exact hslot
              · obtain rfl := Option.some.inj hs
                cases hcalled
            · rename_i hslot
              split
              · exact hc
              · rename_i hroom
                refine ⟨hc.linked, hc.pooled.pool, ?_, hc.pooled.newest⟩
                intro other hother
                obtain rfl := Option.some.inj hother
                have hpos : 0 < c.shared.limit :=
                  RuntimeLimitState.effectiveRuntimeLimit_pos .aiJobs
                refine ⟨hslot, ?_⟩
                by_contra hfull
                exact hroom ⟨hpos, not_lt.mp hfull⟩
      | cancel => exact hcall .cancel id (by simp)
      | collect => exact hcall .collect id (by simp)
      | destroy => exact hcall .destroy id (by simp)
      | recover => exact hcall .recover id (by simp)

/-! ## The other events -/

theorem slotInv_grant (hc : SlotInv c) : SlotInv c.grant := by
  rw [SlotSystem.grant]
  split
  · exact hc
  · rename_i id hgranting
    obtain ⟨hnew, hroom⟩ := hc.pooled.granting id hgranting
    split
    · refine ⟨⟨?_, ?_, ?_, ?_⟩, ?_, ?_, hc.pooled.newest⟩
      · intro other hrunning
        exact Finset.mem_insert_of_mem (hc.linked.running other hrunning)
      · intro other hother
        rcases Finset.mem_insert.mp hother with rfl | hold
        · exact .inr ⟨_, List.mem_cons_self, rfl, rfl⟩
        · exact (hc.linked.held other hold).imp_right fun ⟨s, hs, howes⟩ =>
            ⟨s, List.mem_cons_of_mem _ hs, howes⟩
      · intro s hs hstarts
        rcases List.mem_cons.mp hs with rfl | hold
        · exact Finset.mem_insert_self _ _
        · exact Finset.mem_insert_of_mem (hc.linked.begun s hold hstarts)
      · intro s hs hcalled
        rcases List.mem_cons.mp hs with rfl | hold
        · cases hcalled
        · exact hc.linked.there s hold hcalled
      · have hcard := Finset.card_insert_of_notMem hnew
        have hpool := hc.pooled.pool
        simp only
        omega
      · intro other hother
        cases hother
    · refine ⟨hc.linked, hc.pooled.pool, ?_, hc.pooled.newest⟩
      intro other hother
      cases hother

theorem slotInv_drain (hc : SlotInv c) : SlotInv c.drain := by
  rw [SlotSystem.drain]
  split
  · have hpool := hc.pooled.pool
    refine ⟨hc.linked, ?_, ?_, hc.pooled.newest⟩
    · simp only
      omega
    · intro id hgranting
      obtain ⟨hnew, hroom⟩ := hc.pooled.granting id hgranting
      refine ⟨hnew, ?_⟩
      change ((c.shared.channel - 1 : ℕ) : ℤ) < c.shared.limit
      omega
  · exact hc

theorem Pooled.applyPolicy {w : SlotWorld} (h : Pooled w) {policy : ResourcePolicy}
    {revision : ℤ} (hlimit : w.granting ≠ none → w.limit ≤ (w.applyPolicy policy revision).limit) :
    Pooled (w.applyPolicy policy revision) := by
  rw [SlotWorld.applyPolicy] at hlimit ⊢
  cases happly : w.limits.applyRemoteResourcePolicy policy revision with
  | error e => exact h
  | ok next =>
      rw [happly] at hlimit
      obtain ⟨-, hkept, hrevision⟩ := RuntimeLimitState.apply_ok happly
      refine ⟨h.pool, fun id hgranting => ?_, fun other hother => ?_⟩
      · obtain ⟨hnew, hroom⟩ := h.granting id hgranting
        have hlocked : w.granting = some id := hgranting
        exact ⟨hnew, lt_of_lt_of_le hroom (hlimit (by simp [hlocked]))⟩
      · rcases List.mem_cons.mp hother with rfl | hold
        · exact hrevision
        · exact le_trans (h.newest other hold) hkept

theorem slotInv_step (hc : SlotInv c) {e : SlotEvent} (horderly : Orderly c e) :
    SlotInv (c.step e) := by
  cases e with
  | turn turn =>
      cases turn with
      | arrive request => exact slotInv_arrive hc request
      | resume i a =>
          simp only [SlotSystem.step, Sections.step]
          cases hstage : c.waiting[i]? with
          | none => exact hc
          | some stage => exact slotInv_resume hc hstage (horderly stage hstage)
  | grant => exact slotInv_grant hc
  | drain => exact slotInv_drain hc
  | policy policy revision =>
      have hsame : (c.shared.applyPolicy policy revision).provider = c.shared.provider ∧
          (c.shared.applyPolicy policy revision).aiJobs = c.shared.aiJobs := by
        rw [SlotWorld.applyPolicy]
        split
        · exact ⟨rfl, rfl⟩
        · exact ⟨rfl, rfl⟩
      refine ⟨?_, hc.pooled.applyPolicy horderly⟩
      change Linked (c.shared.applyPolicy policy revision).provider
        (c.shared.applyPolicy policy revision).aiJobs c.waiting
      rw [hsame.1, hsame.2]
      exact hc.linked
  | restart saved =>
      refine ⟨⟨?_, ?_, ?_, ?_⟩, ?_, ?_, ?_⟩
      · intro id hrunning
        obtain ⟨h, hlookup, hstate⟩ := Option.map_eq_some_iff.mp hrunning
        rcases TaskProvider.restore_lookup hlookup with hnone | ⟨s, hs, husable, -, rfl⟩
        · cases hnone
        · exact absurd hstate (horderly s hs husable)
      · intro id hid
        cases hid
      · intro s hs
        cases hs
      · intro s hs
        cases hs
      · rfl
      · intro id hgranting
        cases hgranting
      · intro revision hrevision
        cases hrevision

/-! ## Runs -/

theorem call_aiJobs (w : SlotWorld) (op : Operation) (id : Bytes) (owes : Bool)
    (otherwise : Option Stage) : (w.call op id owes otherwise).1.aiJobs = w.aiJobs := by
  rw [SlotWorld.call]
  split
  · rfl
  · rfl

theorem resume_aiJobs (w : SlotWorld) (stage : Stage) (a : Answer) :
    (stage.resume w a).1.aiJobs ⊆ w.aiJobs := by
  cases stage with
  | creating spec =>
      simp only [Stage.resume]
      split
      · exact Finset.Subset.refl _
      · exact Finset.Subset.refl _
  | persisting id => exact Finset.Subset.refl _
  | removing id => exact (call_aiJobs w .destroy id false none).subset
  | starting id acquired => exact (call_aiJobs w .start id acquired _).subset
  | working op id h owes => exact Finset.Subset.refl _
  | saving id => exact Finset.Subset.refl _
  | compensating id => exact (call_aiJobs w .cancel id true none).subset
  | releasing id =>
      simp only [Stage.resume, SlotWorld.release]
      split
      · exact Finset.Subset.refl _
      · split
        · exact Finset.erase_subset _ _
        · exact Finset.Subset.refl _

theorem arrive_aiJobs (w : SlotWorld) (request : Request) :
    (slotSections.arrive w request).1.aiJobs = w.aiJobs := by
  cases request with
  | create host capabilities spec =>
      simp only [slotSections]
      split
      · rfl
      · rfl
  | operate op id =>
      cases op with
      | start =>
          simp only [slotSections, SlotWorld.acquire]
          split
          · rfl
          · split
            · rfl
            · split
              · rfl
              · rfl
      | cancel => exact call_aiJobs w .cancel id true none
      | collect => exact call_aiJobs w .collect id true none
      | destroy => exact call_aiJobs w .destroy id true none
      | recover => exact call_aiJobs w .recover id true none

/-- Only a grant adds a slot. -/
theorem step_aiJobs {e : SlotEvent} (he : e ≠ .grant) :
    (c.step e).shared.aiJobs ⊆ c.shared.aiJobs := by
  cases e with
  | turn turn =>
      cases turn with
      | arrive request => exact (arrive_aiJobs c.shared request).subset
      | resume i a =>
          simp only [SlotSystem.step, Sections.step]
          split
          · exact Finset.Subset.refl _
          · exact resume_aiJobs _ _ _
  | grant => exact absurd rfl he
  | drain =>
      simp only [SlotSystem.step, SlotSystem.drain]
      split
      · exact Finset.Subset.refl _
      · exact Finset.Subset.refl _
  | policy policy revision =>
      simp only [SlotSystem.step, SlotWorld.applyPolicy]
      split
      · exact Finset.Subset.refl _
      · exact Finset.Subset.refl _
  | restart saved => exact Finset.empty_subset _

/-- A grant is made below the limit in force. -/
theorem granted_below (hc : SlotInv c) {id : Bytes} (hnew : id ∉ c.shared.aiJobs)
    (hslot : id ∈ c.grant.shared.aiJobs) : c.shared.aiJobs.card < c.shared.limit := by
  have hpool := hc.pooled.pool
  rw [SlotSystem.grant] at hslot
  split at hslot
  · exact absurd hslot hnew
  · rename_i other hgranting
    have hroom := (hc.pooled.granting other hgranting).2
    omega

theorem slotsSound_step (hc : SlotInv c) {e : SlotEvent} (horderly : Orderly c e) :
    SlotsSound c e := by
  have hnext := slotInv_step hc horderly
  refine ⟨hnext.linked.running, fun id hnone => ?_, hnext.pooled.pool, fun id hnew hslot => ?_⟩
  · constructor
    · exact hnext.linked.running id
    · intro hslot
      rcases hnext.linked.held id hslot with hrunning | ⟨s, hs, -, htask⟩
      · exact hrunning
      · exact absurd htask (hnone s hs)
  · refine ⟨?_, RuntimeLimitState.effectiveRuntimeLimit_le .aiJobs, hc.pooled.newest⟩
    by_cases he : e = .grant
    · subst he
      exact granted_below hc hnew hslot
    · exact absurd (step_aiJobs he hslot) hnew

theorem slotInv_start (limits : RuntimeLimitState) (requireCapabilities inspects : Bool) :
    SlotInv (SlotSystem.start limits requireCapabilities inspects) := by
  refine ⟨⟨?_, ?_, ?_, ?_⟩, rfl, ?_, ?_⟩
  · intro id hrunning
    cases hrunning
  · intro id hid
    cases hid
  · intro s hs
    cases hs
  · intro s hs
    cases hs
  · intro id hgranting
    cases hgranting
  · intro revision hrevision
    cases hrevision

/-- In every run whose events are all orderly, every event leaves the slots right. -/
theorem slots_sound (limits : RuntimeLimitState) (requireCapabilities inspects : Bool)
    (events : List SlotEvent)
    (hrun : Meets SlotSystem.step Orderly
      (SlotSystem.start limits requireCapabilities inspects) events) :
    Meets SlotSystem.step SlotsSound
      (SlotSystem.start limits requireCapabilities inspects) events := by
  have hboth := hrun.with_invariant (P := SlotInv)
    (fun _ _ hc horderly => slotInv_step hc horderly)
    (slotInv_start limits requireCapabilities inspects)
  exact hboth.mono fun c e h => slotsSound_step h.2 h.1

def slotRequest (op : Operation) : SlotEvent := .turn (.arrive (.operate op (bytes "t")))

def slotAnswer (i : ℕ) (a : Answer) : SlotEvent := .turn (.resume i a)

/-- A task is started under a policy and cancelled. -/
theorem slots_sound_cancel :
    Meets SlotSystem.step SlotsSound (SlotSystem.start defaultRuntimeLimits false true)
      [.restart [createdTask], .policy { mode := "enforce", maxAIJobs := 1 } 1,
        slotRequest .start, .grant, slotAnswer 0 {}, slotAnswer 0 {}, slotAnswer 0 {},
        slotRequest .cancel, slotAnswer 0 {}, slotAnswer 0 {}, .drain] :=
  slots_sound defaultRuntimeLimits false true _ (by decide +kernel)

/-- Two starts of a task overlap. The backend starts it for the second one, the first one is
refused and gives the slot back, and the task runs without a slot. -/
theorem slot_given_back_while_running :
    ¬ Meets SlotSystem.step SlotsSound (SlotSystem.start defaultRuntimeLimits false true)
      [.restart [createdTask], slotRequest .start, .grant, slotRequest .start,
        slotAnswer 0 {}, slotAnswer 1 {}, slotAnswer 1 {},
        slotAnswer 1 { error := some "sandbox is running" }, slotAnswer 0 {}] := by
  intro h
  have hslot := h.2.2.2.2.2.2.2.2.1.covered (bytes "t") (by decide +kernel)
  revert hslot
  decide +kernel

end WorkMesh.Sandbox
