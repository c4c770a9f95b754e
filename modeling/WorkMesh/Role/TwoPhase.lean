import WorkMesh.Role.Fencing

/-!
# Prepared, then committed or aborted

What the server of the link acknowledges over a run. A commit reads what is
pending, switches the role without the lock and clears it afterwards, so an
abort or a new preparation can come in between. Where none does, only what
stands prepared is applied, and it is dropped by its own commit or abort.
-/

namespace WorkMesh.Role

open StateMachine

/-! ## What the log has to say -/

/-- A request of a commit names the operation or none. -/
def Own (request : Transition) (p : Prepared) : Prop :=
  request.operationID = "" ∨ request.operationID = p.operationID

/-- An abort of the operation, or another transition prepared under it. -/
def Revokes (p : Prepared) : Event → Prop
  | .aborted request dropped =>
      request.operationID = p.operationID ∨ dropped.operationID = p.operationID
  | .prepared q => q.operationID = p.operationID ∧ q.transition ≠ p.transition
  | _ => False

/-- It was prepared, and nothing since then has revoked it. -/
def Standing (p : Prepared) (log : List Event) : Prop :=
  ∃ later earlier, log = later ++ .prepared p :: earlier ∧ ∀ e ∈ later, ¬Revokes p e

/-- What is pending after the events of a log. -/
def replay : List Event → Prepared
  | [] => .zero
  | .prepared p :: _ => p
  | .aborted _ _ :: _ => .zero
  | .applied _ _ _ :: earlier => replay earlier
  | .committed _ _ _ :: _ => .zero

/-- The transition takes the manager from one state to the other. -/
structure Performs (t : Transition) (before after : State) : Prop where
  epoch : t.expectedEpoch = before.roleEpoch
  valid : validRole t.toRole = true
  result : after = if t.toRole = before.role then before else before.changed t.toRole

/-- What the server promises of an event: it prepares over nothing or the same operation,
it applies what stands prepared, and a commit that succeeds has applied what it names and
drops nothing else. -/
def Right : Event → List Event → Prop
  | .prepared p, earlier =>
      (replay earlier).operationID = "" ∨ (replay earlier).operationID = p.operationID
  | .aborted request dropped, earlier => dropped = replay earlier ∧
      (request.operationID = "" ∨ dropped.operationID = "" ∨
        request.operationID = dropped.operationID)
  | .applied p before after, earlier => Standing p earlier ∧ Performs p.transition before after
  | .committed request p answer, earlier => Own request p ∧
      (∃ before, .applied p before answer ∈ earlier) ∧
      ((replay earlier).operationID = "" ∨ (replay earlier).transition = p.transition)

/-- Every event is right, and what is pending is what the events have left. -/
structure TwoPhase (s : System) : Prop where
  right : EachRight Right s.shared.log
  pending : s.shared.pending = replay s.shared.log

/-- While a commit is between its sections, no abort of its operation is acknowledged
before the switch, and nothing else is prepared before the end. -/
def Apart (s : System) : Turn Call Conditions → Prop
  | .arrive (.fencingAbort request) =>
      (request.operationID = "" ∨ s.shared.pending.operationID = "" ∨
        request.operationID = s.shared.pending.operationID) →
      ∀ r p, .fencingCommit r p ∈ s.waiting →
        request.operationID ≠ p.operationID ∧ s.shared.pending.operationID ≠ p.operationID
  | .resume i _ => ∀ request, s.waiting[i]? = some (.fencingPrepare request) →
      (s.shared.pending.operationID = "" ∨
        s.shared.pending.operationID = request.operationID) →
      (∀ r p, .fencingCommit r p ∈ s.waiting → p.transition = request) ∧
        ∀ r p answer, .fencingClear r p answer ∈ s.waiting → p.transition = request
  | _ => True

/-! ## The invariant -/

/-- What is pending is empty or the same transition. -/
def Leaves (pending p : Prepared) : Prop :=
  pending.operationID = "" ∨ pending.transition = p.transition

structure Logged (s : Shared) : Prop where
  right : EachRight Right s.log
  pending : s.pending = replay s.log
  standing : s.pending.operationID ≠ "" → Standing s.pending s.log

/-- What a handler of the server relies on between its sections. -/
def Relies (s : Shared) : Handler → Prop
  | .fencingCommit request p => Standing p s.log ∧ Own request p ∧ Leaves s.pending p
  | .fencingClear request p answer =>
      Own request p ∧ (∃ before, .applied p before answer ∈ s.log) ∧ Leaves s.pending p
  | _ => True

section Standing
variable {p : Prepared} {e : Event} {log : List Event}

theorem standing_prepared (p : Prepared) (log : List Event) : Standing p (.prepared p :: log) :=
  ⟨[], log, rfl, by simp⟩

theorem Standing.cons (h : Standing p log) (he : ¬Revokes p e) : Standing p (e :: log) := by
  obtain ⟨later, earlier, rfl, hlater⟩ := h
  exact ⟨e :: later, earlier, rfl, List.forall_mem_cons.mpr ⟨he, hlater⟩⟩

end Standing

theorem leaves_zero (p : Prepared) : Leaves .zero p := .inl rfl

section Sections
variable {s : System}

theorem keeps_orEnd (h : Holds Logged Relies s) {result : Except String (Shared × Option Handler)}
    (hok : ∀ next, result = .ok next → Keeps Logged Relies s next) :
    Keeps Logged Relies s (orEnd s.shared result) := by
  cases result with
  | error err => exact h.ends
  | ok next => exact hok next rfl

/-- The other handlers keep what they rely on if the log grows, what stands for a commit
still stands, and what is pending leaves room for it. -/
theorem keeps_others {after : Shared} (hlog : s.shared.log ⊆ after.log)
    (hcommits : ∀ r p, .fencingCommit r p ∈ s.waiting → Standing p s.shared.log →
      Leaves s.shared.pending p → Standing p after.log ∧ Leaves after.pending p)
    (hclears : ∀ r p answer, .fencingClear r p answer ∈ s.waiting →
      Leaves s.shared.pending p → Leaves after.pending p) :
    ∀ handler ∈ s.waiting, Relies s.shared handler → Relies after handler := by
  intro handler hmem hrelies
  cases handler with
  | fencingCommit r p =>
      obtain ⟨hstanding, hown, hleaves⟩ := hrelies
      obtain ⟨hstanding', hleaves'⟩ := hcommits r p hmem hstanding hleaves
      exact ⟨hstanding', hown, hleaves'⟩
  | fencingClear r p answer =>
      obtain ⟨hown, ⟨before, hbefore⟩, hleaves⟩ := hrelies
      exact ⟨hown, ⟨before, hlog hbefore⟩, hclears r p answer hmem hleaves⟩
  | fencingPrepare r => trivial
  | prepare r => trivial
  | commit r => trivial
  | clear r => trivial

/-- A section of the controller does not touch what the server has. -/
theorem keeps_controller (h : Holds Logged Relies s) {after : Shared} {next : Option Handler}
    (hlog : after.log = s.shared.log) (hpending : after.pending = s.shared.pending)
    (hnext : ∀ handler, next = some handler → Relies after handler) :
    Keeps Logged Relies s (after, next) := by
  refine ⟨⟨?_, ?_, ?_⟩, hnext, keeps_others ?_ ?_ ?_⟩
  · rw [hlog]
    exact h.shared.right
  · rw [hlog, hpending]
    exact h.shared.pending
  · rw [hlog, hpending]
    exact h.shared.standing
  · rw [hlog]
    exact List.Subset.refl _
  · rw [hlog, hpending]
    exact fun _ _ _ hstanding hleaves => ⟨hstanding, hleaves⟩
  · rw [hpending]
    exact fun _ _ _ _ hleaves => hleaves

theorem keeps_fencingPrepare (h : Holds Logged Relies s) (request : Transition) :
    Keeps Logged Relies s (orEnd s.shared (fencingPrepare s.shared request)) := by
  refine keeps_orEnd h fun next hnext => ?_
  simp only [fencingPrepare] at hnext
  cases hvalid : validateTransition s.shared.manager.state request true with
  | error err =>
      rw [hvalid] at hnext
      cases hnext
  | ok u =>
      rw [hvalid] at hnext
      obtain rfl := Except.ok.inj hnext
      exact h.waits trivial

theorem keeps_fencingPrepareLocked (h : Holds Logged Relies s) {request : Transition}
    (hapart : s.shared.pending.operationID = "" ∨
      s.shared.pending.operationID = request.operationID →
        (∀ r p, .fencingCommit r p ∈ s.waiting → p.transition = request) ∧
          ∀ r p answer, .fencingClear r p answer ∈ s.waiting → p.transition = request) :
    Keeps Logged Relies s (orEnd s.shared (fencingPrepareLocked s.shared request)) := by
  refine keeps_orEnd h fun next hnext => ?_
  by_cases hbusy : s.shared.pending.operationID ≠ "" ∧
      s.shared.pending.operationID ≠ request.operationID
  · rw [fencingPrepareLocked, if_pos hbusy] at hnext
    cases hnext
  · rw [fencingPrepareLocked, if_neg hbusy] at hnext
    obtain rfl := Except.ok.inj hnext
    have hfree : s.shared.pending.operationID = "" ∨
        s.shared.pending.operationID = request.operationID := by tauto
    obtain ⟨hcommits, hclears⟩ := hapart hfree
    refine ⟨⟨⟨?_, h.shared.right⟩, rfl, fun _ => standing_prepared _ _⟩,
      fun _ hnone => (by cases hnone), keeps_others (List.subset_cons_self _ _) ?_ ?_⟩
    · rw [Right, ← h.shared.pending]
      exact hfree
    · intro r p hmem hstanding _
      have hsame := hcommits r p hmem
      exact ⟨hstanding.cons fun hrevokes => hrevokes.2 hsame.symm, .inr hsame.symm⟩
    · intro r p answer hmem _
      exact .inr (hclears r p answer hmem).symm

theorem keeps_fencingCommit (h : Holds Logged Relies s) (request : Transition) :
    Keeps Logged Relies s (orEnd s.shared (fencingCommit s.shared request)) := by
  refine keeps_orEnd h fun next hnext => ?_
  simp only [fencingCommit] at hnext
  split at hnext
  · cases hnext
  · rename_i hown
    split at hnext
    · cases hnext
    · rename_i hpending
      obtain rfl := Except.ok.inj hnext
      refine h.waits ⟨h.shared.standing hpending, ?_, .inr rfl⟩
      rw [Own]
      tauto

/-- A switch that succeeds has performed its transition. -/
theorem performs_switch {m : Manager} {disk : Disk} {conditions : Conditions} {t : Transition}
    {state : State} (h : (m.switch disk conditions.cancelled conditions.failure t.expectedEpoch
      t.toRole).answer = .ok state) : Performs t m.state state := by
  have houtcome :=
    switch_outcome m disk conditions.cancelled conditions.failure t.expectedEpoch t.toRole
  generalize m.switch disk conditions.cancelled conditions.failure t.expectedEpoch t.toRole =
    switched at h houtcome
  cases houtcome with
  | refused err => cases h
  | kept hepoch hrole hvalid =>
      obtain rfl := Except.ok.inj h
      exact ⟨hepoch, hvalid, by rw [if_pos hrole]⟩
  | changed hepoch hrole hvalid hsaved =>
      obtain rfl := Except.ok.inj h
      exact ⟨hepoch, hvalid, by rw [if_neg hrole]⟩

theorem keeps_fencingCommitSwitch (h : Holds Logged Relies s) {request : Transition}
    {pending : Prepared} (hmem : .fencingCommit request pending ∈ s.waiting)
    (conditions : Conditions) :
    Keeps Logged Relies s
      (orEnd s.shared (fencingCommitSwitch s.shared request pending conditions)) := by
  refine keeps_orEnd h fun next hnext => ?_
  obtain ⟨hstanding, hown, hleaves⟩ := h.waiting _ hmem
  simp only [fencingCommitSwitch] at hnext
  cases hanswer : (s.shared.manager.switch s.shared.disk conditions.cancelled conditions.failure
      pending.transition.expectedEpoch pending.transition.toRole).answer with
  | error err =>
      rw [hanswer] at hnext
      cases hnext
  | ok state =>
      rw [hanswer] at hnext
      obtain rfl := Except.ok.inj hnext
      refine ⟨⟨⟨⟨hstanding, performs_switch hanswer⟩, h.shared.right⟩, h.shared.pending,
        fun hpending => (h.shared.standing hpending).cons id⟩, fun handler hhandler => ?_,
        keeps_others (List.subset_cons_self _ _) ?_ ?_⟩
      · obtain rfl := Option.some.inj hhandler
        exact ⟨hown, ⟨_, List.mem_cons_self⟩, hleaves⟩
      · exact fun _ _ _ hstanding hleaves => ⟨hstanding.cons id, hleaves⟩
      · exact fun _ _ _ _ hleaves => hleaves

theorem keeps_fencingCommitClear (h : Holds Logged Relies s) {request : Transition}
    {pending : Prepared} {answer : State}
    (hmem : .fencingClear request pending answer ∈ s.waiting) :
    Keeps Logged Relies s (fencingCommitClear s.shared request pending answer) := by
  obtain ⟨hown, happlied, hleaves⟩ := h.waiting _ hmem
  refine ⟨⟨⟨⟨hown, happlied, ?_⟩, h.shared.right⟩, rfl, fun hzero => absurd rfl hzero⟩,
    fun _ hnone => (by cases hnone), keeps_others (List.subset_cons_self _ _) ?_ ?_⟩
  · rw [← h.shared.pending]
    exact hleaves
  · exact fun _ p _ hstanding _ => ⟨hstanding.cons id, leaves_zero p⟩
  · exact fun _ p _ _ _ => leaves_zero p

theorem keeps_fencingAbort (h : Holds Logged Relies s) {request : Transition}
    (hapart : (request.operationID = "" ∨ s.shared.pending.operationID = "" ∨
      request.operationID = s.shared.pending.operationID) →
        ∀ r p, .fencingCommit r p ∈ s.waiting →
          request.operationID ≠ p.operationID ∧ s.shared.pending.operationID ≠ p.operationID) :
    Keeps Logged Relies s (orEnd s.shared (fencingAbort s.shared request)) := by
  refine keeps_orEnd h fun next hnext => ?_
  simp only [fencingAbort] at hnext
  split at hnext
  · cases hnext
  · rename_i hnames
    obtain rfl := Except.ok.inj hnext
    have hacknowledged : request.operationID = "" ∨ s.shared.pending.operationID = "" ∨
        request.operationID = s.shared.pending.operationID := by tauto
    refine ⟨⟨⟨⟨h.shared.pending, hacknowledged⟩, h.shared.right⟩, rfl,
      fun hzero => absurd rfl hzero⟩, fun _ hnone => (by cases hnone),
      keeps_others (List.subset_cons_self _ _) ?_ ?_⟩
    · intro r p hmem hstanding _
      obtain ⟨hname, hdropped⟩ := hapart hacknowledged r p hmem
      exact ⟨hstanding.cons fun hrevokes => hrevokes.elim hname hdropped, leaves_zero p⟩
    · exact fun _ p _ _ _ => leaves_zero p

/-- The handlers of the controller. -/
theorem keeps_prepare (h : Holds Logged Relies s) (request : Transition) :
    Keeps Logged Relies s (orEnd s.shared (prepare s.shared request)) := by
  refine keeps_orEnd h fun next hnext => ?_
  simp only [prepare] at hnext
  split at hnext
  · cases hnext
  · split at hnext
    · cases hnext
    · obtain rfl := Except.ok.inj hnext
      exact h.waits trivial

theorem keeps_commit (h : Holds Logged Relies s) :
    Keeps Logged Relies s (orEnd s.shared (commit s.shared)) := by
  refine keeps_orEnd h fun next hnext => ?_
  simp only [commit] at hnext
  split at hnext
  · cases hnext
  · obtain rfl := Except.ok.inj hnext
    exact h.waits trivial

theorem keeps_commitSwitch (h : Holds Logged Relies s) (request : Prepared)
    (conditions : Conditions) :
    Keeps Logged Relies s (orEnd s.shared (commitSwitch s.shared request conditions)) := by
  refine keeps_orEnd h fun next hnext => ?_
  simp only [commitSwitch] at hnext
  generalize (s.shared.manager.switch s.shared.disk conditions.cancelled conditions.failure
    request.transition.expectedEpoch request.transition.toRole) = switched at hnext
  cases hanswer : switched.answer with
  | error err =>
      rw [hanswer] at hnext
      cases hnext
  | ok state =>
      rw [hanswer] at hnext
      obtain rfl := Except.ok.inj hnext
      refine keeps_controller h rfl rfl fun handler hhandler => ?_
      obtain rfl := Option.some.inj hhandler
      trivial

end Sections

/-! ## Runs -/

theorem holds_step {s : System} (h : Holds Logged Relies s) {turn : Turn Call Conditions}
    (hapart : Apart s turn) : Holds Logged Relies (s.step turn) := by
  have hnone : ∀ {after : Shared} handler, (none : Option Handler) = some handler →
      Relies after handler := fun _ hnone => by cases hnone
  refine h.step ?_ ?_
  · rintro request rfl
    cases request with
    | fencingPrepare request => exact keeps_fencingPrepare h request
    | fencingCommit request => exact keeps_fencingCommit h request
    | fencingAbort request => exact keeps_fencingAbort h hapart
    | prepare request => exact keeps_prepare h request
    | commit => exact keeps_commit h
    | abort => exact keeps_controller h rfl rfl hnone
  · rintro i conditions handler rfl hmem hhandler
    cases handler with
    | fencingPrepare request => exact keeps_fencingPrepareLocked h (hapart request hhandler)
    | fencingCommit request pending => exact keeps_fencingCommitSwitch h hmem conditions
    | fencingClear request pending answer => exact keeps_fencingCommitClear h hmem
    | prepare request => exact keeps_controller h rfl rfl hnone
    | commit request => exact keeps_commitSwitch h request conditions
    | clear request => exact keeps_controller h rfl rfl hnone

/-- While commits are kept apart from aborts of their operation and from preparations, an
aborted operation is not applied, a commit applies what it names, and what is prepared is
dropped by its own commit or abort. -/
theorem prepared_then_settled (manager : Manager) (disk : Disk)
    (turns : List (Turn Call Conditions))
    (h : Meets System.step Apart (System.start manager disk) turns) :
    TwoPhase (run System.step (System.start manager disk) turns) := by
  have hstart : Holds Logged Relies (System.start manager disk) :=
    ⟨⟨trivial, rfl, fun hzero => absurd rfl hzero⟩, fun _ hmem => (by cases hmem)⟩
  have hholds : Holds Logged Relies (run System.step (System.start manager disk) turns) :=
    run_invariant (P := Holds Logged Relies) (fun _ _ hs hapart => holds_step hs hapart) hstart h
  exact ⟨hholds.shared.right, hholds.shared.pending⟩

/-- An operation that is prepared and committed without anything in between. -/
theorem prepared_then_settled_commit :
    TwoPhase (run System.step (System.start primaryManager emptyDisk)
      [.arrive (.fencingPrepare toSecondary), .resume 0 undisturbed,
        .arrive (.fencingCommit toSecondary), .resume 0 undisturbed, .resume 0 undisturbed]) := by
  refine prepared_then_settled primaryManager emptyDisk _ ⟨trivial, ?_, trivial, ?_, ?_, trivial⟩
  · rintro request hhandler -
    have hwaiting : ((System.start primaryManager emptyDisk).step
        (.arrive (.fencingPrepare toSecondary))).waiting = [.fencingPrepare toSecondary] := by
      decide +kernel
    rw [hwaiting]
    simp
  · intro request hhandler
    have hwaiting : (run System.step (System.start primaryManager emptyDisk)
        [.arrive (.fencingPrepare toSecondary), .resume 0 undisturbed,
          .arrive (.fencingCommit toSecondary)]).waiting[0]? =
        some (.fencingCommit toSecondary ⟨toSecondary, 1⟩) := by decide +kernel
    exact absurd (hwaiting.symm.trans hhandler) (by simp)
  · intro request hhandler
    have hwaiting : (run System.step (System.start primaryManager emptyDisk)
        [.arrive (.fencingPrepare toSecondary), .resume 0 undisturbed,
          .arrive (.fencingCommit toSecondary), .resume 0 undisturbed]).waiting[0]? =
        some (.fencingClear toSecondary ⟨toSecondary, 1⟩ ⟨"node-a", secondary, 2⟩) := by
      decide +kernel
    exact absurd (hwaiting.symm.trans hhandler) (by simp)

/-- The abort is acknowledged while the commit waits for the manager, and the role is
switched afterwards. -/
theorem aborted_then_applied :
    ¬TwoPhase (run System.step (System.start primaryManager emptyDisk)
      [.arrive (.fencingPrepare toSecondary), .resume 0 undisturbed,
        .arrive (.fencingCommit toSecondary), .arrive (.fencingAbort toSecondary),
        .resume 0 undisturbed]) := by
  have hlog : (run System.step (System.start primaryManager emptyDisk)
      [.arrive (.fencingPrepare toSecondary), .resume 0 undisturbed,
        .arrive (.fencingCommit toSecondary), .arrive (.fencingAbort toSecondary),
        .resume 0 undisturbed]).shared.log =
      [.applied ⟨toSecondary, 1⟩ ⟨"node-a", primary, 1⟩ ⟨"node-a", secondary, 2⟩,
        .aborted toSecondary ⟨toSecondary, 1⟩, .prepared ⟨toSecondary, 1⟩] := by
    decide +kernel
  intro h
  have hright := h.right
  rw [hlog] at hright
  obtain ⟨later, earlier, hsplit, hstands⟩ := hright.1.1
  cases later with
  | nil => cases hsplit
  | cons latest later =>
      obtain ⟨rfl, -⟩ := List.cons.inj hsplit
      exact hstands _ List.mem_cons_self (.inl rfl)

end WorkMesh.Role
