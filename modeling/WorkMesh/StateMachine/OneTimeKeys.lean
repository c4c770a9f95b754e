import Mathlib

/-!
# One-time keys

A table that remembers the keys it has admitted until they expire. A key is
refused while the table holds a live entry for it. Entries are only dropped
when a key is presented, at the reading of the clock that comes with it, so an
admitted key is refused until some reading is past its expiry.
-/

namespace StateMachine

variable {P K T : Type*} [DecidableEq K]

/-- Drops the expired entries, refuses a key that still has one, and enters any other key. -/
def admitKey (alive : T → T → Bool) (now : T) (key : K) (expires : T) (table : List (K × T)) :
    List (K × T) × Bool :=
  let kept := table.filter fun entry => alive entry.2 now
  match kept.lookup key with
  | some held => if alive held now then (kept, false) else ((key, expires) :: kept, true)
  | none => ((key, expires) :: kept, true)

section Table
variable {alive : T → T → Bool} {now expires held : T} {key other : K} {table : List (K × T)}

/-- Every live entry is kept. -/
theorem mem_admitKey (h : (other, held) ∈ table) (halive : alive held now = true) :
    (other, held) ∈ (admitKey alive now key expires table).1 := by
  have hkept : (other, held) ∈ table.filter fun entry => alive entry.2 now :=
    List.mem_filter.mpr ⟨h, halive⟩
  simp only [admitKey]
  split
  · split
    · exact hkept
    · exact List.mem_cons_of_mem _ hkept
  · exact List.mem_cons_of_mem _ hkept

theorem mem_of_mem_admitKey (h : (other, held) ∈ (admitKey alive now key expires table).1) :
    (other, held) ∈ table ∨ (other, held) = (key, expires) := by
  have hkept : ∀ {entry}, entry ∈ table.filter (fun entry => alive entry.2 now) → entry ∈ table :=
    fun hin => (List.mem_filter.mp hin).1
  simp only [admitKey] at h
  split at h
  · split at h
    · exact .inl (hkept h)
    · exact (List.mem_cons.mp h).symm.imp_left hkept
  · exact (List.mem_cons.mp h).symm.imp_left hkept

theorem mem_admitKey_self (h : (admitKey alive now key expires table).2 = true) :
    (key, expires) ∈ (admitKey alive now key expires table).1 := by
  simp only [admitKey] at h ⊢
  split at h
  · split at h
    · cases h
    · rename_i hdead
      simp only [hdead]
      exact List.mem_cons_self
  · exact List.mem_cons_self

/-- A key is refused exactly while the table holds a live entry for it. -/
theorem admitKey_refused_iff :
    (admitKey alive now key expires table).2 = false ↔
      ∃ held, (key, held) ∈ table ∧ alive held now = true := by
  have hlive : ∀ {held}, (table.filter fun entry => alive entry.2 now).lookup key = some held →
      (key, held) ∈ table ∧ alive held now = true := by
    intro held hheld
    obtain ⟨before, after, hsplit, -⟩ := List.lookup_eq_some_iff.mp hheld
    have hmem : (key, held) ∈ table.filter fun entry => alive entry.2 now := by
      rw [hsplit]
      exact List.mem_append_right _ List.mem_cons_self
    exact List.mem_filter.mp hmem
  constructor
  · intro h
    simp only [admitKey] at h
    split at h
    · rename_i held hheld
      exact ⟨held, hlive hheld⟩
    · cases h
  · rintro ⟨held, hmem, halive⟩
    have hkept : (key, held) ∈ table.filter fun entry => alive entry.2 now :=
      List.mem_filter.mpr ⟨hmem, halive⟩
    cases hlookup : (table.filter fun entry => alive entry.2 now).lookup key with
    | none =>
        have hother := List.lookup_eq_none_iff.mp hlookup _ hkept
        simp at hother
    | some found => simp only [admitKey, hlookup, (hlive hlookup).2, if_true]

/-- The entry of a key that was just admitted is its only one. -/
theorem eq_of_mem_admitKey (h : (admitKey alive now key expires table).2 = true)
    (hmem : (key, held) ∈ (admitKey alive now key expires table).1) : held = expires := by
  have hnone : ∀ held, (key, held) ∈ table → alive held now = false := by
    intro held hheld
    by_contra halive
    have hrefused : (admitKey alive now key expires table).2 = false :=
      admitKey_refused_iff.mpr ⟨held, hheld, by simpa using halive⟩
    rw [hrefused] at h
    cases h
  have hkept : (key, held) ∉ table.filter fun entry => alive entry.2 now := by
    intro hin
    have hlive := List.mem_filter.mp hin
    rw [hnone held hlive.1] at hlive
    cases hlive.2
  simp only [admitKey] at h hmem
  split at hmem
  · rename_i found hfound
    split at hmem
    · exact absurd hmem hkept
    · exact (List.mem_cons.mp hmem).elim (fun heq => (Prod.mk.inj heq).2) (absurd · hkept)
  · exact (List.mem_cons.mp hmem).elim (fun heq => (Prod.mk.inj heq).2) (absurd · hkept)

end Table

/-! ## Presentations -/

/-- What is presented comes with a key, a reading of the clock and the expiry of its entry. -/
structure Presentation (P K T : Type*) where
  key : P → K
  now : P → T
  expires : P → T

variable (alive : T → T → Bool) (p : Presentation P K T)

/-- Presents to the table, and puts what was presented in front of the list with the verdict. -/
def Presentation.enter (x : P) (table : List (K × T)) : List (K × T) × Bool :=
  admitKey alive (p.now x) (p.key x) (p.expires x) table

/-- Each admitted key is in the table, unless a reading since is past its expiry.
The latest presentation stands first. -/
def Guarded (table : List (K × T)) (presented : List (P × Bool)) : Prop :=
  ∀ later first earlier, presented = later ++ (first, true) :: earlier →
    (p.key first, p.expires first) ∈ table ∨
      ∃ x ∈ later, alive (p.expires first) (p.now x.1) = false

variable {alive} {p} {table : List (K × T)} {presented : List (P × Bool)}

omit [DecidableEq K] in
theorem guarded_nil : Guarded alive p table [] := by
  intro later first earlier h
  simp at h

theorem Guarded.enter (h : Guarded alive p table presented) (x : P) :
    Guarded alive p (p.enter alive x table).1 ((x, (p.enter alive x table).2) :: presented) := by
  intro later first earlier hsplit
  cases later with
  | nil =>
      obtain ⟨hfirst, -⟩ := List.cons.inj hsplit
      obtain ⟨rfl, hadmitted⟩ := Prod.mk.inj hfirst
      exact .inl (mem_admitKey_self hadmitted)
  | cons y later =>
      obtain ⟨rfl, hrest⟩ := List.cons.inj hsplit
      rcases h later first earlier hrest with hmem | ⟨z, hz, hdead⟩
      · by_cases halive : alive (p.expires first) (p.now x) = true
        · exact .inl (mem_admitKey hmem halive)
        · exact .inr ⟨_, List.mem_cons_self, Bool.eq_false_iff.mpr halive⟩
      · exact .inr ⟨z, List.mem_cons_of_mem _ hz, hdead⟩

/-- A key that was admitted is refused as long as no reading is past its expiry. -/
theorem Guarded.refused (h : Guarded alive p table presented) {x first : P}
    {later earlier : List (P × Bool)} (hsplit : presented = later ++ (first, true) :: earlier)
    (hkey : p.key x = p.key first) (hnow : alive (p.expires first) (p.now x) = true)
    (hsince : ∀ y ∈ later, alive (p.expires first) (p.now y.1) = true) :
    (p.enter alive x table).2 = false := by
  rcases h later first earlier hsplit with hmem | ⟨y, hy, hdead⟩
  · exact admitKey_refused_iff.mpr ⟨_, hkey ▸ hmem, hnow⟩
  · rw [hsince y hy] at hdead
    cases hdead

/-- The tags of what was admitted. -/
def admittedTags {β : Type*} (tag : P → β) (presented : List (P × Bool)) : List β :=
  (presented.filter Prod.snd).map fun x => tag x.1

/-- No tag is admitted twice, as long as what repeats a tag also repeats its key
before a reading is past the expiry. -/
theorem Guarded.admit_once (h : Guarded alive p table presented) {β : Type*} {tag : P → β} {x : P}
    (hrepeat : ∀ first later earlier, presented = later ++ (first, true) :: earlier →
      tag x = tag first → p.key x = p.key first ∧
        ∀ y ∈ x :: later.map Prod.fst, alive (p.expires first) (p.now y) = true)
    (hnodup : (admittedTags tag presented).Nodup) :
    (admittedTags tag ((x, (p.enter alive x table).2) :: presented)).Nodup := by
  cases hadmitted : (p.enter alive x table).2 with
  | false => exact hnodup
  | true =>
      refine List.nodup_cons.mpr ⟨fun hmem => ?_, hnodup⟩
      obtain ⟨⟨first, verdict⟩, hfirst, htag⟩ := List.mem_map.mp hmem
      obtain ⟨hmem, hverdict⟩ := List.mem_filter.mp hfirst
      obtain rfl : verdict = true := hverdict
      obtain ⟨later, earlier, hsplit⟩ := List.append_of_mem hmem
      obtain ⟨hkey, halive⟩ := hrepeat first later earlier hsplit htag.symm
      have hrefused := h.refused hsplit hkey (halive x List.mem_cons_self) fun y hy =>
        halive y.1 (List.mem_cons_of_mem _ (List.mem_map_of_mem hy))
      rw [hrefused] at hadmitted
      cases hadmitted

end StateMachine
