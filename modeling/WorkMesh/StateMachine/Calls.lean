import Mathlib.Data.Nat.Notation
import Mathlib.Tactic.Common

/-!
# Programs of calls that may fail

A program makes calls to a system. A schedule says which of them fail by themselves; the system
may refuse others. A call that fails changes nothing. The states between the calls are recorded,
since a program that is stopped leaves one of them.
-/

namespace StateMachine

/-- A system between two calls: its state, the states before, and the calls that are to fail. -/
structure Called (σ : Type) where
  state : σ
  past : List σ := []
  made : ℕ := 0
  fails : ℕ → Bool

/-- The programs over a system. -/
abbrev Calls (σ : Type) := StateM (Called σ)

namespace Calls

variable {σ α β : Type}

/-- One call. It gives nothing when it fails or is refused. -/
def call (f : σ → Option (α × σ)) : Calls σ (Option α) := fun s =>
  let after := { s with past := s.past ++ [s.state], made := s.made + 1 }
  if s.fails s.made then (none, after)
  else
    match f s.state with
    | none => (none, after)
    | some (a, t) => (some a, { after with state := t })

/-- A call that reads. -/
def ask (f : σ → α) : Calls σ (Option α) := call fun s => some (f s, s)

/-- A call that answers whether it went well. -/
def order (f : σ → Option σ) : Calls σ Bool := do
  return (← call fun s => (f s).map fun t => ((), t)).isSome

/-! ## What holds between the calls -/

/-- From a state with the property `P` the program gives an answer and a state with the property
`Q`, and all states that it leaves behind have the property `I`. -/
def Holds (I P : σ → Prop) (m : Calls σ α) (Q : α → σ → Prop) : Prop :=
  ∀ s : Called σ, P s.state →
    (∃ left, (m s).2.past = s.past ++ left ∧ ∀ t ∈ left, I t) ∧ Q (m s).1 (m s).2.state

section Rules
variable {I J P P' : σ → Prop} {Q Q' : α → σ → Prop} {R : β → σ → Prop} {m : Calls σ α}

theorem Holds.weaken (h : Holds I P m Q) (hP : ∀ s, P' s → P s) (hQ : ∀ a s, Q a s → Q' a s) :
    Holds I P' m Q' := by
  intro s hs
  obtain ⟨hseen, hlast⟩ := h s (hP s.state hs)
  exact ⟨hseen, hQ _ _ hlast⟩

theorem Holds.widen (h : Holds I P m Q) (hI : ∀ s, I s → J s) : Holds J P m Q := by
  intro s hs
  obtain ⟨⟨left, hpast, hleft⟩, hlast⟩ := h s hs
  exact ⟨⟨left, hpast, fun t ht => hI t (hleft t ht)⟩, hlast⟩

theorem holds_pure {a : α} (h : ∀ s, P s → Q a s) : Holds I P (pure a : Calls σ α) Q := by
  intro s hs
  exact ⟨⟨[], (List.append_nil _).symm, List.forall_mem_nil _⟩, h s.state hs⟩

theorem Holds.bind {f : α → Calls σ β} (hm : Holds I P m Q) (hf : ∀ a, Holds I (Q a) (f a) R) :
    Holds I P (m >>= f) R := by
  intro s hs
  obtain ⟨⟨first, hpast, hfirst⟩, hmid⟩ := hm s hs
  obtain ⟨⟨second, hthen, hsecond⟩, hlast⟩ := hf _ _ hmid
  refine ⟨⟨first ++ second, ?_, ?_⟩, hlast⟩
  · rw [← List.append_assoc, ← hpast]
    exact hthen
  · intro t ht
    exact (List.mem_append.mp ht).elim (hfirst t) (hsecond t)

/-- A call leaves behind the state that it found. -/
theorem holds_call {f : σ → Option (α × σ)} {Q : Option α → σ → Prop} (hI : ∀ s, P s → I s)
    (hfailed : ∀ s, P s → Q none s) (hdone : ∀ s a t, P s → f s = some (a, t) → Q (some a) t) :
    Holds I P (call f) Q := by
  intro s hs
  have hleft : ∀ t ∈ [s.state], I t := fun t ht => List.mem_singleton.mp ht ▸ hI s.state hs
  unfold call
  dsimp only
  split
  · exact ⟨⟨_, rfl, hleft⟩, hfailed s.state hs⟩
  · split
    · exact ⟨⟨_, rfl, hleft⟩, hfailed s.state hs⟩
    · rename_i a t hcall
      exact ⟨⟨_, rfl, hleft⟩, hdone s.state a t hs hcall⟩

theorem holds_ask {f : σ → α} {Q : Option α → σ → Prop} (hI : ∀ s, P s → I s)
    (hfailed : ∀ s, P s → Q none s) (hdone : ∀ s, P s → Q (some (f s)) s) :
    Holds I P (ask f) Q := by
  apply holds_call hI hfailed
  intro s a t hs hcall
  obtain ⟨rfl, rfl⟩ := Prod.mk.inj (Option.some.inj hcall)
  exact hdone s hs

theorem holds_order {f : σ → Option σ} {Q : Bool → σ → Prop} (hI : ∀ s, P s → I s)
    (hfailed : ∀ s, P s → Q false s) (hdone : ∀ s t, P s → f s = some t → Q true t) :
    Holds I P (order f) Q := by
  refine Holds.bind (Q := fun a s => Q a.isSome s) ?_ fun a => holds_pure fun s hs => hs
  apply holds_call hI hfailed
  intro s a t hs hcall
  obtain ⟨u, hu, hpair⟩ := Option.map_eq_some_iff.mp hcall
  rw [← (Prod.mk.inj hpair).2]
  exact hdone s u hs hu

/-- What the first states tell without their help may be assumed. -/
theorem holds_of {φ : Prop} (h : ∀ s, P s → φ) (hm : φ → Holds I P m Q) : Holds I P m Q := by
  intro s hs
  exact hm (h s.state hs) s hs

/-- Both ways on from an answer. -/
theorem holds_ite {b : Bool} {f g : Calls σ α} (ht : b = true → Holds I P f Q)
    (hf : b = false → Holds I P g Q) : Holds I P (if b then f else g) Q := by
  cases b with
  | true => exact ht rfl
  | false => exact hf rfl

end Rules

/-- The states that a program passes through from a state, and the one that it ends in. -/
def passed (m : Calls σ α) (fails : ℕ → Bool) (s : σ) : List σ :=
  let end_ := (m { state := s, fails := fails }).2
  end_.past ++ [end_.state]

/-- What a program answers. -/
def answered (m : Calls σ α) (fails : ℕ → Bool) (s : σ) : α × σ :=
  let ended := m { state := s, fails := fails }
  (ended.1, ended.2.state)

/-- The rules tell what a program answers and what it passes through, whatever calls fail. -/
theorem Holds.run {I P : σ → Prop} {m : Calls σ α} {Q : α → σ → Prop} (h : Holds I P m Q)
    (hI : ∀ a s, Q a s → I s) {s : σ} (hs : P s) (fails : ℕ → Bool) :
    (∀ t ∈ passed m fails s, I t) ∧ Q (answered m fails s).1 (answered m fails s).2 := by
  obtain ⟨⟨left, hpast, hleft⟩, hlast⟩ := h { state := s, fails := fails } hs
  refine ⟨?_, hlast⟩
  intro t ht
  rw [passed, hpast] at ht
  rcases List.mem_append.mp ht with ht | ht
  · exact hleft t ht
  · rw [List.mem_singleton.mp ht]
    exact hI _ _ hlast

end Calls

end StateMachine
