import WorkMesh.StateMachine.Run

/-!
# Versioned maps

A map that gives every key a value with a version. A write names the version it
expects and succeeds against that version alone. A write that is behind but
repeats the present value counts as done.
-/

namespace StateMachine

variable {κ β : Type*} [DecidableEq κ] [DecidableEq β]

/-- Every key has a version and a value. Version 0 has not been written. -/
abbrev VersionedMap (κ β : Type*) := κ → Nat × β

inductive Verdict where
  | stored
  | repeated
  | conflict
deriving DecidableEq

/-- A write of a value against an expected version. -/
structure Write (κ β : Type*) where
  key : κ
  expected : Nat
  value : β

def VersionedMap.verdict (m : VersionedMap κ β) (w : Write κ β) : Verdict :=
  if w.expected = (m w.key).1 then .stored
  else if w.expected < (m w.key).1 ∧ w.value = (m w.key).2 then .repeated
  else .conflict

def VersionedMap.write (m : VersionedMap κ β) (w : Write κ β) : VersionedMap κ β :=
  match m.verdict w with
  | .stored => Function.update m w.key ((m w.key).1 + 1, w.value)
  | _ => m

/-- Nothing is written, and every key has the same value. -/
def VersionedMap.empty (value : β) : VersionedMap κ β := fun _ => (0, value)

/-- The write as it is accepted by the map, if it is. -/
def VersionedMap.accepted (m : VersionedMap κ β) (w : Write κ β) : List (κ × β) :=
  if m.verdict w = .stored then [(w.key, w.value)] else []

section Lemmas
variable {m : VersionedMap κ β} {w : Write κ β}

theorem VersionedMap.write_of_stored (h : m.verdict w = .stored) :
    m.write w = Function.update m w.key ((m w.key).1 + 1, w.value) := by
  rw [VersionedMap.write, h]

theorem VersionedMap.write_of_not_stored (h : m.verdict w ≠ .stored) : m.write w = m := by
  rw [VersionedMap.write]
  cases hverdict : m.verdict w with
  | stored => exact absurd hverdict h
  | repeated => rfl
  | conflict => rfl

/-- The values that were accepted for a key, in the order of their writes. -/
def valuesOf (k : κ) (writes : List (κ × β)) : List β :=
  (writes.filter fun entry => entry.1 = k).map Prod.snd

/-- The version of a key is the number of its accepted writes, its value the last of them. -/
def Counts (initial : β) (m : VersionedMap κ β) (writes : List (κ × β)) : Prop :=
  ∀ k, m k = ((valuesOf k writes).length, ((valuesOf k writes).getLast?).getD initial)

omit [DecidableEq β] in
theorem counts_empty (initial : β) : Counts initial (.empty initial : VersionedMap κ β) [] :=
  fun _ => rfl

theorem Counts.write {initial : β} {writes : List (κ × β)} (h : Counts initial m writes)
    (w : Write κ β) : Counts initial (m.write w) (writes ++ m.accepted w) := by
  intro k
  by_cases hstored : m.verdict w = .stored
  · have hvalues : valuesOf k (writes ++ m.accepted w) =
        valuesOf k writes ++ if w.key = k then [w.value] else [] := by
      rw [VersionedMap.accepted, if_pos hstored, valuesOf, List.filter_append, List.map_append,
        valuesOf]
      by_cases hkey : w.key = k
      · simp [hkey]
      · simp [hkey]
    rw [VersionedMap.write_of_stored hstored, hvalues]
    by_cases hkey : w.key = k
    · subst hkey
      rw [Function.update_self, h w.key]
      simp
    · rw [Function.update_of_ne (Ne.symm hkey), if_neg hkey, List.append_nil]
      exact h k
  · rw [VersionedMap.write_of_not_stored hstored, VersionedMap.accepted, if_neg hstored,
      List.append_nil]
    exact h k

end Lemmas

end StateMachine
