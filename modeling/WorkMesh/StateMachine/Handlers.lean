import WorkMesh.StateMachine.Run

/-!
# Handlers that run in sections

Handlers share a state and run in sections, each of which is one step: a
critical section under a lock, or the return of a remote call. Between two
sections of one handler any other handler may run. An invariant of such a
system has two parts, one about the shared state and one about each handler
that waits for its next section.
-/

namespace StateMachine

variable {σ η ρ ε : Type*}

/-- A shared state with the handlers that wait for their next section. -/
structure Concurrent (σ η : Type*) where
  shared : σ
  waiting : List η

/-- A request arrives, or a waiting handler runs its next section. -/
inductive Turn (ρ ε : Type*) where
  | arrive (request : ρ)
  | resume (i : Nat) (outcome : ε)

/-- The first section of each request and the later ones of its handler. A section
leaves the shared state and, unless the handler ends, what waits. -/
structure Sections (σ η ρ ε : Type*) where
  arrive : σ → ρ → σ × Option η
  resume : σ → η → ε → σ × Option η

def Sections.step (p : Sections σ η ρ ε) (c : Concurrent σ η) : Turn ρ ε → Concurrent σ η
  | .arrive request =>
      let (shared, next) := p.arrive c.shared request
      ⟨shared, next.toList ++ c.waiting⟩
  | .resume i outcome =>
      match c.waiting[i]? with
      | none => c
      | some handler =>
          let (shared, next) := p.resume c.shared handler outcome
          ⟨shared, next.toList ++ c.waiting.eraseIdx i⟩

/-- The shared part holds, and the part of each waiting handler. -/
structure Holds (I : σ → Prop) (L : σ → η → Prop) (c : Concurrent σ η) : Prop where
  shared : I c.shared
  waiting : ∀ handler ∈ c.waiting, L c.shared handler

/-- What a section has to show for the invariant: the shared part, the part of what it
leaves waiting, and that the others keep theirs. -/
structure Keeps (I : σ → Prop) (L : σ → η → Prop) (c : Concurrent σ η) (result : σ × Option η) :
    Prop where
  shared : I result.1
  next : ∀ handler, result.2 = some handler → L result.1 handler
  others : ∀ handler ∈ c.waiting, L c.shared handler → L result.1 handler

variable {I : σ → Prop} {L : σ → η → Prop} {p : Sections σ η ρ ε} {c : Concurrent σ η}

/-- A section that leaves the shared state and ends its handler. -/
theorem Holds.ends (h : Holds I L c) : Keeps I L c (c.shared, none) := by
  refine ⟨h.shared, fun _ hnext => ?_, fun _ _ hlocal => hlocal⟩
  cases hnext

/-- A section that leaves the shared state and waits. -/
theorem Holds.waits (h : Holds I L c) {handler : η} (hlocal : L c.shared handler) :
    Keeps I L c (c.shared, some handler) := by
  refine ⟨h.shared, fun _ hnext => ?_, fun _ _ hlocal => hlocal⟩
  obtain rfl := Option.some.inj hnext
  exact hlocal

theorem Keeps.holds {result : σ × Option η} (h : Keeps I L c result) (hc : Holds I L c)
    {rest : List η} (hrest : ∀ handler ∈ rest, handler ∈ c.waiting) :
    Holds I L ⟨result.1, result.2.toList ++ rest⟩ := by
  refine ⟨h.shared, fun handler hmem => ?_⟩
  cases List.mem_append.mp hmem with
  | inl hnext => exact h.next handler (Option.mem_toList.mp hnext)
  | inr hold => exact h.others handler (hrest handler hold) (hc.waiting handler (hrest handler hold))

/-- The invariant holds after a turn if every section that the turn can run keeps it. -/
theorem Holds.step (h : Holds I L c) {turn : Turn ρ ε}
    (harrive : ∀ request, turn = .arrive request → Keeps I L c (p.arrive c.shared request))
    (hresume : ∀ i outcome handler, turn = .resume i outcome → handler ∈ c.waiting →
      c.waiting[i]? = some handler → Keeps I L c (p.resume c.shared handler outcome)) :
    Holds I L (p.step c turn) := by
  cases turn with
  | arrive request => exact (harrive request rfl).holds h fun _ hmem => hmem
  | resume i outcome =>
      simp only [Sections.step]
      cases hhandler : c.waiting[i]? with
      | none => exact h
      | some handler =>
          have hmem := List.mem_of_getElem? hhandler
          exact (hresume i outcome handler rfl hmem hhandler).holds h
            fun _ hrest => List.mem_of_mem_eraseIdx hrest

/-- The handlers that do not run still wait. -/
theorem mem_eraseIdx_of_ne {waiting : List η} {i : Nat} {handler other : η}
    (hhandler : waiting[i]? = some handler) (hmem : other ∈ waiting) (hne : other ≠ handler) :
    other ∈ waiting.eraseIdx i := by
  obtain ⟨j, hj⟩ := List.mem_iff_getElem?.mp hmem
  refine List.mem_eraseIdx_iff_getElem?.mpr ⟨j, fun heq => ?_, hj⟩
  subst heq
  exact hne (Option.some.inj (hj.symm.trans hhandler))

section Log
variable {α : Type*} {P : α → List α → Prop}

/-- Every entry of a log, the latest first, is right in view of the earlier ones. -/
def EachRight (P : α → List α → Prop) : List α → Prop
  | [] => True
  | entry :: earlier => P entry earlier ∧ EachRight P earlier

theorem EachRight.entry {entry : α} {later earlier : List α}
    (h : EachRight P (later ++ entry :: earlier)) : P entry earlier := by
  induction later with
  | nil => exact h.1
  | cons latest later ih => exact ih h.2

end Log

end StateMachine
