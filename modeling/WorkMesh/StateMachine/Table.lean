import Mathlib.Data.List.AList

/-!
# Tables

A table is a map kept as a list of entries without repeated keys. Mathlib has
insertion, removal and lookup; this module adds updates of all values at once.
-/

namespace StateMachine

variable {κ α : Type*} [DecidableEq κ]

/-- A map from keys to values. -/
abbrev Table (κ α : Type*) := AList fun _ : κ => α

namespace Table

/-- Update every value. -/
def mapValues (f : α → α) (t : Table κ α) : Table κ α where
  entries := t.entries.map fun entry => ⟨entry.1, f entry.2⟩
  nodupKeys := by
    have hkeys : (t.entries.map fun entry => (⟨entry.1, f entry.2⟩ : (_ : κ) × α)).keys =
        t.entries.keys := by
      simp only [List.keys, List.map_map]
      rfl
    rw [List.NodupKeys, hkeys]
    exact t.nodupKeys

@[simp] theorem lookup_mapValues (f : α → α) (t : Table κ α) (k : κ) :
    (mapValues f t).lookup k = (t.lookup k).map f := by
  have hmap := List.dlookup_map₂ (l := t.entries) (f := fun _ : κ => f) k
  exact hmap

/-- The values, in the order of the entries. -/
def values (t : Table κ α) : List α := t.entries.map Sigma.snd

theorem mem_values {t : Table κ α} {a : α} : a ∈ t.values ↔ ∃ k, t.lookup k = some a := by
  constructor
  · intro h
    obtain ⟨entry, hentry, rfl⟩ := List.mem_map.mp h
    exact ⟨entry.1, List.mem_dlookup t.nodupKeys hentry⟩
  · rintro ⟨k, hk⟩
    exact List.mem_map.mpr ⟨⟨k, a⟩, List.of_mem_dlookup hk, rfl⟩

theorem lookup_insert (t : Table κ α) (k l : κ) (a : α) :
    (t.insert l a).lookup k = if k = l then some a else t.lookup k := by
  by_cases h : k = l
  · subst h
    simp
  · rw [if_neg h, AList.lookup_insert_ne h]

/-- Writing an entry shows nowhere exactly if it was there. -/
theorem lookup_insert_eq_iff {t : Table κ α} {l : κ} {a : α} :
    (∀ k, (t.insert l a).lookup k = t.lookup k) ↔ t.lookup l = some a := by
  constructor
  · intro h
    rw [← h l, AList.lookup_insert]
  · intro h k
    rw [lookup_insert]
    split_ifs with hk
    · rw [hk, h]
    · rfl

theorem lookup_singleton (k l : κ) (a : α) :
    (AList.singleton l a : Table κ α).lookup k = if k = l then some a else none := by
  rw [← AList.insert_empty, lookup_insert, AList.lookup_empty]

theorem lookup_erase (t : Table κ α) (k l : κ) :
    (t.erase l).lookup k = if k = l then none else t.lookup k := by
  by_cases h : k = l
  · subst h
    simp
  · rw [if_neg h, AList.lookup_erase_ne h]

end Table

end StateMachine
