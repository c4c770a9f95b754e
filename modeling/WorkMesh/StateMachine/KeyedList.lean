import Mathlib

/-!
# Lists of records with a key

A collection is a list searched and updated by the key of its records. The
lemmas say what an update in place does to membership, to lookups and to sums
when keys are not repeated.
-/

namespace StateMachine

variable {α κ : Type*} [DecidableEq κ] (key : α → κ)

/-- The first record with a key. -/
def lookupKey (k : κ) (l : List α) : Option α := l.find? fun b => key b = k

/-- Replace the first record with the key of `a`, if there is one. -/
def replaceKey (a : α) : List α → List α
  | [] => []
  | b :: l => if key b = key a then a :: l else b :: replaceKey a l

variable {key} {a b : α} {k : κ} {l : List α}

theorem lookupKey_some (h : lookupKey key k l = some b) : b ∈ l ∧ key b = k :=
  ⟨List.mem_of_find?_eq_some h, by simpa using List.find?_some h⟩

theorem lookupKey_eq_none : lookupKey key k l = none ↔ ∀ b ∈ l, key b ≠ k := by
  simp [lookupKey]

/-- Without repeated keys, a record is found under its own key. -/
theorem lookupKey_of_mem (hnd : (l.map key).Nodup) (hb : b ∈ l) :
    lookupKey key (key b) l = some b := by
  induction l with
  | nil => simp at hb
  | cons c l ih =>
      simp only [List.map_cons, List.nodup_cons, List.mem_map, not_exists, not_and] at hnd
      rcases List.mem_cons.mp hb with rfl | hb
      · simp [lookupKey]
      · have hne : key c ≠ key b := fun h => hnd.1 b hb h.symm
        simpa [lookupKey, hne] using ih hnd.2 hb

theorem eq_of_mem_of_key (hnd : (l.map key).Nodup) (ha : a ∈ l) (hb : b ∈ l)
    (h : key a = key b) : a = b := by
  have hfound := lookupKey_of_mem hnd ha
  rw [h, lookupKey_of_mem hnd hb] at hfound
  exact (Option.some.inj hfound).symm

theorem lookupKey_append_singleton (hk : ∀ c ∈ l, key c ≠ key b) :
    lookupKey key k (l ++ [b]) = if key b = k then some b else lookupKey key k l := by
  simp only [lookupKey, List.find?_append, List.find?_singleton, decide_eq_true_eq]
  split
  · rename_i h
    have : l.find? (fun c => decide (key c = k)) = none := by
      simpa using fun c hc => h ▸ hk c hc
    simp [this]
  · simp

/-- A view that the update does not change, the list does not change. -/
theorem map_replaceKey_of_eq {γ : Type*} {f : α → γ} (hfind : lookupKey key (key a) l = some b)
    (h : f a = f b) : (replaceKey key a l).map f = l.map f := by
  induction l with
  | nil => rfl
  | cons c l ih =>
      by_cases hc : key c = key a
      · obtain rfl : c = b := by simpa [lookupKey, hc] using hfind
        simp [replaceKey, hc, h]
      · have hfind : lookupKey key (key a) l = some b := by simpa [lookupKey, hc] using hfind
        simp [replaceKey, hc, ih hfind]

/-- The same for an update at a position. -/
theorem map_set_of_eq {γ : Type*} {f : α → γ} {i : Nat} (hget : l[i]? = some b)
    (h : f a = f b) : (l.set i a).map f = l.map f := by
  obtain ⟨hi, rfl⟩ := List.getElem?_eq_some_iff.mp hget
  rw [List.map_set, h, ← List.getElem_map f (h := by simpa using hi)]
  exact List.set_getElem_self _

/-- An update exchanges the replaced record's share of a count for its own. -/
theorem countP_replaceKey (p : α → Bool) (hfind : lookupKey key (key a) l = some b) :
    (replaceKey key a l).countP p + (if p b then 1 else 0) =
      l.countP p + if p a then 1 else 0 := by
  induction l with
  | nil => simp [lookupKey] at hfind
  | cons c l ih =>
      by_cases hc : key c = key a
      · obtain rfl : c = b := by simpa [lookupKey, hc] using hfind
        simp only [replaceKey, hc, if_true, List.countP_cons]
        omega
      · have ih := ih (by simpa [lookupKey, hc] using hfind)
        simp only [replaceKey, hc, if_false, List.countP_cons]
        omega

/-- The same for an update at a position. -/
theorem countP_set (p : α → Bool) {i : Nat} (hget : l[i]? = some b) :
    (l.set i a).countP p + (if p b then 1 else 0) = l.countP p + if p a then 1 else 0 := by
  induction l generalizing i with
  | nil => simp at hget
  | cons c l ih =>
      cases i with
      | zero =>
          obtain rfl : c = b := by simpa using hget
          simp only [List.set_cons_zero, List.countP_cons]
          omega
      | succ i =>
          have ih := ih (by simpa using hget)
          simp only [List.set_cons_succ, List.countP_cons]
          omega

/-- An update that satisfies a predicate only if the record it replaces does
counts no more of them. -/
theorem countP_replaceKey_le {p : α → Bool} (hfind : lookupKey key (key a) l = some b)
    (h : p a = true → p b = true) : (replaceKey key a l).countP p ≤ l.countP p := by
  have hcount := countP_replaceKey p hfind
  by_cases ha : p a = true
  · simp only [ha, h ha, if_true] at hcount
    omega
  · simp only [ha, Bool.false_eq_true, if_false] at hcount
    omega

@[simp] theorem map_key_replaceKey : (replaceKey key a l).map key = l.map key := by
  induction l with
  | nil => rfl
  | cons b l ih =>
      simp only [replaceKey]
      split
      · rename_i h; simp [h]
      · simp [ih]

@[simp] theorem length_replaceKey : (replaceKey key a l).length = l.length := by
  induction l with
  | nil => rfl
  | cons b l ih =>
      simp only [replaceKey]
      split <;> simp [ih]

theorem mem_replaceKey (h : b ∈ replaceKey key a l) : b = a ∨ b ∈ l := by
  induction l with
  | nil => simp [replaceKey] at h
  | cons c l ih =>
      simp only [replaceKey] at h
      split at h
      · rcases List.mem_cons.mp h with rfl | h
        · exact .inl rfl
        · exact .inr (List.mem_cons_of_mem _ h)
      · rcases List.mem_cons.mp h with rfl | h
        · exact .inr List.mem_cons_self
        · exact (ih h).imp_right (List.mem_cons_of_mem _)

theorem mem_replaceKey_self (h : lookupKey key (key a) l = some b) : a ∈ replaceKey key a l := by
  induction l with
  | nil => simp [lookupKey] at h
  | cons c l ih =>
      simp only [replaceKey]
      split
      · exact List.mem_cons_self
      · rename_i hc
        exact List.mem_cons_of_mem _ (ih (by simpa [lookupKey, hc] using h))

/-- Without repeated keys, an update replaces exactly the record of its key. -/
theorem mem_replaceKey_of_nodup (hnd : (l.map key).Nodup) (h : b ∈ replaceKey key a l) :
    b = a ∨ b ∈ l ∧ key b ≠ key a := by
  by_cases hk : key b = key a
  · rcases mem_replaceKey h with hb | hb
    · exact .inl hb
    · have hnd' : ((replaceKey key a l).map key).Nodup := by simpa using hnd
      have hmem : a ∈ replaceKey key a l := by
        clear hnd hnd' h
        induction l with
        | nil => simp at hb
        | cons c l ih =>
            simp only [replaceKey]
            split
            · exact List.mem_cons_self
            · rename_i hc
              rcases List.mem_cons.mp hb with rfl | hb
              · exact absurd hk hc
              · exact List.mem_cons_of_mem _ (ih hb)
      exact .inl (eq_of_mem_of_key hnd' h hmem hk)
  · exact (mem_replaceKey h).imp_right fun hb => ⟨hb, hk⟩

/-- Looking up the updated key finds the update; any other lookup is as before. -/
theorem lookupKey_replaceKey :
    lookupKey key k (replaceKey key a l) =
      if key a = k then (lookupKey key k l).map fun _ => a else lookupKey key k l := by
  induction l with
  | nil => simp [replaceKey, lookupKey]
  | cons c l ih =>
      simp only [lookupKey, replaceKey] at ih ⊢
      by_cases hc : key c = key a
      · by_cases hk : key a = k <;> simp [hc, hk]
      · by_cases hk : key a = k
        · have hck : key c ≠ k := fun h => hc (h.trans hk.symm)
          simpa [hc, hck, hk] using ih
        · by_cases hck : key c = k
          · simp only [if_neg hc, if_neg hk]
            simp [hck]
          · simpa [hc, hck, hk] using ih

/-- Writing a record of the same key at a position is the update by key. -/
theorem set_eq_replaceKey (hnd : (l.map key).Nodup) {i : Nat} (hi : l[i]? = some b)
    (hk : key a = key b) : l.set i a = replaceKey key a l := by
  induction l generalizing i with
  | nil => simp at hi
  | cons c l ih =>
      simp only [List.map_cons, List.nodup_cons, List.mem_map, not_exists, not_and] at hnd
      cases i with
      | zero =>
          obtain rfl : c = b := by simpa using hi
          simp [replaceKey, hk]
      | succ i =>
          have hi' : l[i]? = some b := by simpa using hi
          have hne : key c ≠ key a := fun h =>
            hnd.1 b (List.mem_of_getElem? hi') (hk.symm.trans h.symm)
          simp [replaceKey, hne, ih hnd.2 hi']

/-- A sum over the records loses the replaced one and gains the update. -/
theorem sum_replaceKey (f : α → Nat) (h : lookupKey key (key a) l = some b) :
    ((replaceKey key a l).map f).sum + f b = (l.map f).sum + f a := by
  induction l with
  | nil => simp [lookupKey] at h
  | cons c l ih =>
      by_cases hc : key c = key a
      · obtain rfl : c = b := by simpa [lookupKey, hc] using h
        simp only [replaceKey, hc, if_true, List.map_cons, List.sum_cons]
        omega
      · have ih := ih (by simpa [lookupKey, hc] using h)
        simp only [replaceKey, hc, if_false, List.map_cons, List.sum_cons]
        omega

/-- The same at a position. -/
theorem sum_set (f : α → Nat) {i : Nat} (h : l[i]? = some b) :
    ((l.set i a).map f).sum + f b = (l.map f).sum + f a := by
  induction l generalizing i with
  | nil => simp at h
  | cons c l ih =>
      cases i with
      | zero =>
          obtain rfl : c = b := by simpa using h
          simp only [List.set_cons_zero, List.map_cons, List.sum_cons]
          omega
      | succ i =>
          have ih := ih (by simpa using h)
          simp only [List.set_cons_succ, List.map_cons, List.sum_cons]
          omega

/-- Without repeated keys, leaving out a key leaves out its record's share of a sum. -/
theorem sum_filter_key_ne (f : α → Nat) (hnd : (l.map key).Nodup)
    (h : lookupKey key k l = some b) :
    ((l.filter fun c => key c ≠ k).map f).sum + f b = (l.map f).sum := by
  induction l with
  | nil => simp [lookupKey] at h
  | cons c l ih =>
      simp only [List.map_cons, List.nodup_cons, List.mem_map, not_exists, not_and] at hnd
      by_cases hc : key c = k
      · obtain rfl : c = b := by simpa [lookupKey, hc] using h
        have hrest : (l.filter fun d => key d ≠ k) = l := by
          rw [List.filter_eq_self]
          intro d hd
          have hne : key d ≠ k := fun heq => hnd.1 d hd (heq.trans hc.symm)
          simpa using hne
        rw [List.filter_cons_of_neg (by simp [hc]), hrest]
        simp only [List.map_cons, List.sum_cons]
        omega
      · have ih := ih hnd.2 (by simpa [lookupKey, hc] using h)
        rw [List.filter_cons_of_pos (by simp [hc])]
        simp only [List.map_cons, List.sum_cons]
        omega

end StateMachine
