import WorkMesh.Runtime.ExtensionRemoval

/-!
# A removal loses nothing

Between the calls of a removal the files of the extension stand at their places or aside, and
`php.ini` and `.env` have their old or their edited content. Only the last step removes what was
moved aside.
-/

namespace WorkMesh.Runtime

open Encoding StateMachine Calls

/-! ## What a removal holds on to -/

/-- A path below the root that is no target and stood empty, which new files may take. -/
def Spare (t : Targets) (base : Disk) (p : Path) : Prop := t.root <+: p ∧ p ∉ t.all ∧ p ∉ base

/-- The two edited files have the given contents, some files of the extension are moved aside, and
all else is as it was. -/
structure Held (t : Targets) (base : Disk) (texts : Path → Option Bytes)
    (moved : List (Path × Path)) (disk : Disk) : Prop where
  originals : (moved.map Prod.fst).Nodup
  backups : (moved.map Prod.snd).Nodup
  targets : ∀ m ∈ moved, m.1 ∈ [t.module, t.ini] ∧ m.1 ∈ base
  spare : ∀ m ∈ moved, Spare t base m.2
  staged : ∀ m ∈ moved, disk.lookup m.1 = none ∧ disk.lookup m.2 = base.lookup m.1
  kept : ∀ p, p ∉ moved.map Prod.fst → p ∉ [t.phpINI, t.env] → ¬Spare t base p →
    disk.lookup p = base.lookup p
  texts : ∀ p ∈ [t.phpINI, t.env], contentAt disk p = texts p

section Held
variable {t : Targets} {base disk after : Disk} {texts : Path → Option Bytes}
variable {moved rest : List (Path × Path)} {p b : Path} {m : Path × Path}

theorem contentAt_congr (h : after.lookup p = disk.lookup p) :
    contentAt after p = contentAt disk p := by
  rw [contentAt, contentAt, h]

theorem Targets.mem_all_of_staged (h : p ∈ [t.module, t.ini]) : p ∈ t.all := by
  simp only [Targets.all, List.mem_cons, List.not_mem_nil, or_false] at h ⊢
  tauto

theorem Targets.mem_all_of_edited (h : p ∈ [t.phpINI, t.env]) : p ∈ t.all := by
  simp only [Targets.all, List.mem_cons, List.not_mem_nil, or_false] at h ⊢
  tauto

theorem Targets.WellPlaced.not_edited (h : t.WellPlaced) (hp : p ∈ [t.module, t.ini]) :
    p ∉ [t.phpINI, t.env] := by
  have hd := h.distinct
  simp only [Targets.all, List.nodup_cons, List.mem_cons, List.not_mem_nil, or_false] at hd hp ⊢
  rcases hp with rfl | rfl <;> tauto

theorem Held.originals_ne (h : Held t base texts moved disk) (hm : m ∈ moved)
    (hb : Spare t base b) : m.1 ≠ b :=
  fun heq => hb.2.1 (heq ▸ Targets.mem_all_of_staged (h.targets m hm).1)

theorem Held.backups_ne (h : Held t base texts moved disk) (hm : m ∈ moved)
    (hp : p ∈ t.all) : m.2 ≠ p := fun heq => (h.spare m hm).2.1 (heq ▸ hp)

/-- A file that is new may come and go. -/
theorem Held.touch (h : Held t base texts moved disk) (hb : Spare t base b)
    (hfree : b ∉ moved.map Prod.snd) (hsame : ∀ q, q ≠ b → after.lookup q = disk.lookup q) :
    Held t base texts moved after := by
  refine ⟨h.originals, h.backups, h.targets, h.spare, ?_, ?_, ?_⟩
  · intro m hm
    have hother : m.2 ≠ b := fun heq => hfree (heq ▸ List.mem_map_of_mem hm)
    rw [hsame _ (h.originals_ne hm hb), hsame _ hother]
    exact h.staged m hm
  · intro q hq hedited hspare
    rw [hsame q fun heq => hspare (heq ▸ hb)]
    exact h.kept q hq hedited hspare
  · intro q hq
    have hne : q ≠ b := fun heq => hb.2.1 (heq ▸ Targets.mem_all_of_edited hq)
    exact (contentAt_congr (hsame q hne)).trans (h.texts q hq)

/-- A new file takes the place of an edited one. -/
theorem Held.write (h : Held t base texts moved disk) (hplaced : t.WellPlaced)
    (hp : p ∈ [t.phpINI, t.env]) (hb : Spare t base b) (hfree : b ∉ moved.map Prod.snd)
    {content : Bytes} {mode : ℕ} (hnew : after.lookup p = some (.file content mode))
    (hsame : ∀ q, q ≠ p → q ≠ b → after.lookup q = disk.lookup q) :
    Held t base (Function.update texts p (some content)) moved after := by
  refine ⟨h.originals, h.backups, h.targets, h.spare, ?_, ?_, ?_⟩
  · intro m hm
    have hother : m.2 ≠ b := fun heq => hfree (heq ▸ List.mem_map_of_mem hm)
    have hedited : m.1 ≠ p := fun heq => hplaced.not_edited (h.targets m hm).1 (heq ▸ hp)
    rw [hsame _ hedited (h.originals_ne hm hb),
      hsame _ (h.backups_ne hm (Targets.mem_all_of_edited hp)) hother]
    exact h.staged m hm
  · intro q hq hedited hspare
    rw [hsame q (fun heq => hedited (heq ▸ hp)) fun heq => hspare (heq ▸ hb)]
    exact h.kept q hq hedited hspare
  · intro q hq
    by_cases hqp : q = p
    · rw [hqp, Function.update_self, contentAt, hnew]
    · have hne : q ≠ b := fun heq => hb.2.1 (heq ▸ Targets.mem_all_of_edited hq)
      rw [Function.update_of_ne hqp]
      exact (contentAt_congr (hsame q hqp hne)).trans (h.texts q hq)

/-- A file of the extension is moved aside. -/
theorem Held.stage (h : Held t base texts moved disk) (hplaced : t.WellPlaced)
    (hp : p ∈ [t.module, t.ini]) (hfirst : p ∉ moved.map Prod.fst) (hb : Spare t base b)
    (hfree : b ∉ moved.map Prod.snd) (hin : p ∈ disk) (hgone : after.lookup p = none)
    (hheld : after.lookup b = disk.lookup p)
    (hsame : ∀ q, q ≠ p → q ≠ b → after.lookup q = disk.lookup q) :
    Held t base texts (moved ++ [(p, b)]) after := by
  have hnotSpare : ¬Spare t base p := fun hspare => hspare.2.1 (Targets.mem_all_of_staged hp)
  have hold := h.kept p hfirst (hplaced.not_edited hp) hnotSpare
  have hbase : p ∈ base := by
    rw [← Finmap.lookup_isSome, ← hold, Finmap.lookup_isSome]
    exact hin
  refine ⟨?_, ?_, ?_, ?_, ?_, ?_, ?_⟩
  · rw [List.map_append]
    exact List.nodup_append_comm.mp (List.nodup_cons.mpr ⟨hfirst, h.originals⟩)
  · rw [List.map_append]
    exact List.nodup_append_comm.mp (List.nodup_cons.mpr ⟨hfree, h.backups⟩)
  · intro m hm
    rcases List.mem_append.mp hm with hm | hm
    · exact h.targets m hm
    · rw [List.mem_singleton.mp hm]
      exact ⟨hp, hbase⟩
  · intro m hm
    rcases List.mem_append.mp hm with hm | hm
    · exact h.spare m hm
    · rw [List.mem_singleton.mp hm]
      exact hb
  · intro m hm
    rcases List.mem_append.mp hm with hm | hm
    · have hone : m.1 ≠ p := fun heq => hfirst (heq ▸ List.mem_map_of_mem hm)
      have hother : m.2 ≠ b := fun heq => hfree (heq ▸ List.mem_map_of_mem hm)
      rw [hsame _ hone (h.originals_ne hm hb),
        hsame _ (h.backups_ne hm (Targets.mem_all_of_staged hp)) hother]
      exact h.staged m hm
    · rw [List.mem_singleton.mp hm]
      exact ⟨hgone, hheld.trans hold⟩
  · intro q hq hedited hspare
    rw [List.map_append, List.mem_append, not_or] at hq
    have hqp : q ≠ p := fun heq => hq.2 (heq ▸ List.mem_singleton_self p)
    rw [hsame q hqp fun heq => hspare (heq ▸ hb)]
    exact h.kept q hq.1 hedited hspare
  · intro q hq
    have hqp : q ≠ p := fun heq => hplaced.not_edited hp (heq ▸ hq)
    have hqb : q ≠ b := fun heq => hb.2.1 (heq ▸ Targets.mem_all_of_edited hq)
    exact (contentAt_congr (hsame q hqp hqb)).trans (h.texts q hq)

/-- A file of the extension is moved back. -/
theorem Held.unstage (h : Held t base texts (m :: rest) disk) (hplaced : t.WellPlaced)
    (hback : after.lookup m.1 = disk.lookup m.2)
    (hsame : ∀ q, q ≠ m.1 → q ≠ m.2 → after.lookup q = disk.lookup q) :
    Held t base texts rest after := by
  have htarget := (h.targets m List.mem_cons_self).1
  have hspare := h.spare m List.mem_cons_self
  have horiginals := List.nodup_cons.mp h.originals
  have hbackups := List.nodup_cons.mp h.backups
  have hrest : ∀ k ∈ rest, k ∈ m :: rest := fun _ hk => List.mem_cons_of_mem _ hk
  refine ⟨horiginals.2, hbackups.2, fun k hk => h.targets k (hrest k hk),
    fun k hk => h.spare k (hrest k hk), ?_, ?_, ?_⟩
  · intro k hk
    have hone : k.1 ≠ m.1 := fun heq => horiginals.1 (heq ▸ List.mem_map_of_mem hk)
    have hother : k.2 ≠ m.2 := fun heq => hbackups.1 (heq ▸ List.mem_map_of_mem hk)
    rw [hsame _ hone (h.originals_ne (hrest k hk) hspare),
      hsame _ (h.backups_ne (hrest k hk) (Targets.mem_all_of_staged htarget)) hother]
    exact h.staged k (hrest k hk)
  · intro q hq hedited hnot
    by_cases hqm : q = m.1
    · rw [hqm, hback, (h.staged m List.mem_cons_self).2]
    · have hout : q ∉ (m :: rest).map Prod.fst := by
        rw [List.map_cons, List.mem_cons, not_or]
        exact ⟨hqm, hq⟩
      rw [hsame q hqm fun heq => hnot (heq ▸ hspare)]
      exact h.kept q hout hedited hnot
  · intro q hq
    have hqm : q ≠ m.1 := fun heq => hplaced.not_edited htarget (heq ▸ hq)
    have hqb : q ≠ m.2 := fun heq => hspare.2.1 (heq ▸ Targets.mem_all_of_edited hq)
    exact (contentAt_congr (hsame q hqm hqb)).trans (h.texts q hq)

theorem Held.perm (h : Held t base texts moved disk) (hperm : moved.Perm rest) :
    Held t base texts rest disk where
  originals := (hperm.map Prod.fst).nodup_iff.mp h.originals
  backups := (hperm.map Prod.snd).nodup_iff.mp h.backups
  targets := fun m hm => h.targets m (hperm.mem_iff.mpr hm)
  spare := fun m hm => h.spare m (hperm.mem_iff.mpr hm)
  staged := fun m hm => h.staged m (hperm.mem_iff.mpr hm)
  kept := fun q hq => h.kept q fun hin => hq ((hperm.map Prod.fst).mem_iff.mp hin)
  texts := h.texts

theorem held_base (t : Targets) (base : Disk) : Held t base (contentAt base) [] base where
  originals := List.nodup_nil
  backups := List.nodup_nil
  targets := fun _ hm => absurd hm List.not_mem_nil
  spare := fun _ hm => absurd hm List.not_mem_nil
  staged := fun _ hm => absurd hm List.not_mem_nil
  kept := fun _ _ _ _ => rfl
  texts := fun _ _ => rfl

end Held

/-! ## Calls on new files -/

/-- A spare path that no file is kept at. -/
def Fresh (t : Targets) (base : Disk) (moved : List (Path × Path)) (b : Path) : Prop :=
  Spare t base b ∧ b ∉ moved.map Prod.snd

section NewFiles
variable {fs : FileSystem} {t : Targets} {base : Disk} {texts : Path → Option Bytes}
variable {moved : List (Path × Path)} {I : Disk → Prop} {p b : Path}

theorem holds_attend {P : Disk → Prop} (hI : ∀ disk, P disk → I disk) :
    Holds I P attend fun _ => P := by
  apply holds_order hI
  · exact fun _ h => h
  · intro disk after h hsame
    rw [← Option.some.inj hsame]
    exact h

/-- The name of a new file is free. -/
theorem spare_createTemp (hplaced : t.WellPlaced) {disk : Disk}
    (h : Held t base texts moved disk) (hp : p ∈ t.all) (pattern : Bytes)
    (hfree : p.dropLast ++ [pattern ++ fs.digits disk p.dropLast pattern] ∉ disk) :
    Fresh t base moved (p.dropLast ++ [pattern ++ fs.digits disk p.dropLast pattern]) := by
  obtain ⟨hne, hdigits⟩ := fs.digits_spec disk p.dropLast pattern
  generalize fs.digits disk p.dropLast pattern = digits at hfree hne hdigits ⊢
  generalize hb : p.dropLast ++ [pattern ++ digits] = b at hfree ⊢
  have hroot : t.root <+: b := by
    obtain ⟨dir, name, c, hpath, hdir, -⟩ := hplaced.placed p hp
    rw [← hb, hpath, List.dropLast_concat]
    exact hdir.trans (List.prefix_append _ _)
  have htarget : b ∉ t.all := by
    intro hin
    obtain ⟨dir, name, c, hpath, -, hc⟩ := hplaced.placed b hin
    rw [← hb] at hpath
    have hname := List.append_inj_right' hpath rfl
    obtain ⟨front, d, rfl⟩ : ∃ front d, digits = front ++ [d] :=
      ⟨_, _, (List.dropLast_append_getLast hne).symm⟩
    rw [← List.append_assoc] at hname
    have hlast := List.append_inj_right' (List.singleton_inj.mp hname) rfl
    rw [← List.singleton_inj.mp hlast] at hc
    exact hc (hdigits d (List.mem_append_right _ (List.mem_singleton_self d)))
  have hbase : b ∉ base := by
    intro hin
    have hmoved : b ∉ moved.map Prod.fst := by
      intro hmem
      obtain ⟨m, hm, rfl⟩ := List.mem_map.mp hmem
      exact htarget (Targets.mem_all_of_staged (h.targets m hm).1)
    have hkept := h.kept b hmoved (fun hmem => htarget (Targets.mem_all_of_edited hmem))
      fun hspare => hspare.2.2 hin
    rw [Finmap.lookup_eq_none.mpr hfree] at hkept
    exact Finmap.lookup_eq_none.mp hkept.symm hin
  refine ⟨⟨hroot, htarget, hbase⟩, ?_⟩
  intro hmem
  obtain ⟨m, hm, rfl⟩ := List.mem_map.mp hmem
  have hheld := (h.staged m hm).2
  rw [Finmap.lookup_eq_none.mpr hfree] at hheld
  exact Finmap.lookup_eq_none.mp hheld.symm (h.targets m hm).2

theorem holds_createTemp (hplaced : t.WellPlaced)
    (hI : ∀ disk, Held t base texts moved disk → I disk) (hp : p ∈ t.all) (pattern : Bytes) :
    Holds I (Held t base texts moved) (createTemp fs p.dropLast pattern) fun r disk =>
      Held t base texts moved disk ∧ ∀ b ∈ r, Fresh t base moved b := by
  apply holds_call hI
  · intro disk h
    exact ⟨h, fun b hb => by cases hb⟩
  · intro disk path after h hcall
    dsimp only at hcall
    split_ifs at hcall with htaken
    obtain ⟨rfl, rfl⟩ := Prod.mk.inj (Option.some.inj hcall)
    have hfresh := spare_createTemp hplaced h hp pattern htaken
    refine ⟨h.touch hfresh.1 hfresh.2 fun q hq => Finmap.lookup_insert_of_ne _ hq, ?_⟩
    intro b hb
    rw [← Option.some.inj hb]
    exact hfresh

theorem holds_onFile (hI : ∀ disk, Held t base texts moved disk → I disk)
    (hb : Fresh t base moved b) (f : Bytes → ℕ → Entry) :
    Holds I (Held t base texts moved) (onFile b f) fun ok disk =>
      Held t base texts moved disk ∧
        (ok = true → ∃ old mode, disk.lookup b = some (f old mode)) := by
  apply holds_order hI
  · exact fun disk h => ⟨h, fun hfalse => by cases hfalse⟩
  · intro disk after h hcall
    split at hcall
    · rename_i old mode hlookup
      rw [← Option.some.inj hcall]
      refine ⟨h.touch hb.1 hb.2 fun q hq => Finmap.lookup_insert_of_ne _ hq, fun _ => ?_⟩
      exact ⟨old, mode, Finmap.lookup_insert _⟩
    · cases hcall

theorem holds_remove (hI : ∀ disk, Held t base texts moved disk → I disk)
    (hb : Fresh t base moved b) :
    Holds I (Held t base texts moved) (remove b) fun _ => Held t base texts moved := by
  apply holds_order hI
  · exact fun disk h => h
  · intro disk after h hcall
    split_ifs at hcall
    rw [← Option.some.inj hcall]
    exact h.touch hb.1 hb.2 fun q hq => Finmap.lookup_erase_ne hq

theorem renamed_some {old new : Path} {disk after : Disk} (hne : old ≠ new)
    (h : renamed old new disk = some after) :
    ∃ entry, disk.lookup old = some entry ∧ after.lookup new = some entry ∧
      after.lookup old = none ∧ ∀ q, q ≠ old → q ≠ new → after.lookup q = disk.lookup q := by
  unfold renamed at h
  cases hentry : disk.lookup old with
  | none => rw [hentry] at h; cases h
  | some entry =>
      rw [hentry] at h
      dsimp only at h
      split_ifs at h
      rw [← Option.some.inj h]
      refine ⟨entry, rfl, Finmap.lookup_insert _, ?_, ?_⟩
      · rw [Finmap.lookup_insert_of_ne _ hne]
        exact Finmap.lookup_eq_none.mpr Finmap.notMem_erase_self
      · intro q hold hnew
        rw [Finmap.lookup_insert_of_ne _ hnew, Finmap.lookup_erase_ne hold]

/-- A new file that is filled has the content. -/
theorem holds_fill (hI : ∀ disk, Held t base texts moved disk → I disk)
    (hb : Fresh t base moved b) (content : Bytes) :
    Holds I (Held t base texts moved) (fill b content) fun ok disk =>
      Held t base texts moved disk ∧
        (ok = true → ∃ mode, disk.lookup b = some (.file content mode)) := by
  have hleave : Holds I (Held t base texts moved) (attend >>= fun _ => pure false)
      fun ok disk => Held t base texts moved disk ∧
        (ok = true → ∃ mode, disk.lookup b = some (.file content mode)) :=
    (holds_attend hI).bind fun _ => holds_pure fun _ h => ⟨h, fun hfalse => by cases hfalse⟩
  unfold fill
  refine (holds_onFile hI hb _).bind fun changed => ?_
  apply holds_ite
  · intro _
    refine ((holds_onFile hI hb _).weaken (fun _ h => h.1) fun _ _ h => h).bind fun written => ?_
    apply holds_ite
    · rintro rfl
      refine (holds_attend fun disk h => hI disk h.1).bind fun synced => ?_
      apply holds_ite
      · intro _
        refine (holds_attend fun disk h => hI disk h.1).weaken (fun _ h => h) ?_
        rintro closed disk ⟨h, hwritten⟩
        obtain ⟨old, mode, hfile⟩ := hwritten rfl
        exact ⟨h, fun _ => ⟨mode, hfile⟩⟩
      · exact fun _ => hleave.weaken (fun _ h => h.1) fun _ _ h => h
    · exact fun _ => hleave.weaken (fun _ h => h.1) fun _ _ h => h
  · exact fun _ => hleave.weaken (fun _ h => h.1) fun _ _ h => h

end NewFiles

/-! ## Editing and moving aside -/

/-- The contents when one was written, or not. -/
def overwritten (texts : Path → Option Bytes) (p : Path) (content : Bytes) (ok : Bool) :
    Path → Option Bytes :=
  if ok then Function.update texts p (some content) else texts

/-- What `stageFile` leaves: all as it was, or the file aside unless there was none. -/
def Staged (t : Targets) (base : Disk) (texts : Path → Option Bytes) (moved : List (Path × Path))
    (p : Path) : Option (List (Path × Path)) → Disk → Prop
  | none, disk => Held t base texts moved disk
  | some added, disk => Held t base texts (moved ++ added) disk ∧
      (∀ m ∈ added, m.1 = p) ∧ (p ∈ added.map Prod.fst ∨ p ∉ base)

section Editing
variable {fs : FileSystem} {t : Targets} {base : Disk} {texts : Path → Option Bytes}
variable {moved : List (Path × Path)} {I : Disk → Prop} {p b : Path}

theorem holds_replaceBy (hplaced : t.WellPlaced) (hp : p ∈ [t.phpINI, t.env]) (content : Bytes)
    (hI : ∀ disk, Held t base texts moved disk → I disk) (hb : Fresh t base moved b) :
    Holds I (Held t base texts moved) (replaceBy b p content) fun ok =>
      Held t base (overwritten texts p content ok) moved := by
  unfold replaceBy
  refine (holds_fill hI hb content).bind fun filled => ?_
  apply holds_ite
  · rintro rfl
    apply holds_order fun disk h => hI disk h.1
    · exact fun disk h => h.1
    · rintro disk after ⟨h, hfilled⟩ hcall
      have hne : b ≠ p := fun heq => hb.1.2.1 (heq ▸ Targets.mem_all_of_edited hp)
      obtain ⟨entry, hentry, hnew, -, hsame⟩ := renamed_some hne hcall
      obtain ⟨mode, hfile⟩ := hfilled rfl
      rw [hentry] at hfile
      rw [Option.some.inj hfile] at hnew
      exact h.write hplaced hp hb.1 hb.2 hnew fun q hqp hqb => hsame q hqb hqp
  · exact fun _ => holds_pure fun disk h => h.1

/-- The file has the new content or, if the write fails, the old one. -/
theorem holds_writeServiceFileAtomic (hplaced : t.WellPlaced) (hp : p ∈ [t.phpINI, t.env])
    (content : Bytes)
    (hI : ∀ ok disk, Held t base (overwritten texts p content ok) moved disk → I disk) :
    Holds I (Held t base texts moved) (writeServiceFileAtomic fs p content) fun ok =>
      Held t base (overwritten texts p content ok) moved := by
  unfold writeServiceFileAtomic
  refine (holds_createTemp hplaced (hI false) (Targets.mem_all_of_edited hp) _).bind
    fun created => ?_
  cases created with
  | none => exact holds_pure fun disk h => h.1
  | some b =>
      refine holds_of (fun disk h => h.2 b rfl) fun hb => ?_
      refine ((holds_replaceBy hplaced hp content (hI false) hb).weaken (fun _ h => h.1)
        fun _ _ h => h).bind fun replaced => ?_
      exact (holds_remove (hI replaced) hb).bind fun _ => holds_pure fun _ h => h

/-- The file is moved to the path, which is free by now. -/
theorem holds_moveAside (hplaced : t.WellPlaced) (hp : p ∈ [t.module, t.ini])
    (hfirst : p ∉ moved.map Prod.fst) (hI : ∀ disk, Held t base texts moved disk → I disk)
    (hb : Fresh t base moved b) :
    Holds I (Held t base texts moved)
      (do if ← rename p b then return some [(p, b)] else return none)
      (Staged t base texts moved p) := by
  refine Holds.bind (Q := fun ok => Held t base texts (if ok then moved ++ [(p, b)] else moved))
    ?_ fun ok => ?_
  · apply holds_order hI
    · exact fun disk h => h
    · intro disk after h hcall
      have hne : p ≠ b := fun heq => hb.1.2.1 (heq ▸ Targets.mem_all_of_staged hp)
      obtain ⟨entry, hentry, hnew, hgone, hsame⟩ := renamed_some hne hcall
      exact h.stage hplaced hp hfirst hb.1 hb.2 (Finmap.mem_of_lookup_eq_some hentry) hgone
        (hnew.trans hentry.symm) hsame
  · apply holds_ite
    · rintro rfl
      apply holds_pure
      intro disk h
      refine ⟨h, ?_, .inl (List.mem_singleton_self p)⟩
      intro m hm
      rw [List.mem_singleton.mp hm]
    · rintro rfl
      exact holds_pure fun disk h => h

/-- A file of the extension is moved aside, if there is one, or all is left as it is. -/
theorem holds_stageFile (hplaced : t.WellPlaced) (hp : p ∈ [t.module, t.ini])
    (hfirst : p ∉ moved.map Prod.fst) (hI : ∀ disk, Held t base texts moved disk → I disk) :
    Holds I (Held t base texts moved) (stageFile fs p) (Staged t base texts moved p) := by
  have hp' := Targets.mem_all_of_staged hp
  unfold stageFile lstat
  refine Holds.bind (Q := fun r disk => Held t base texts moved disk ∧
    (r = some none → p ∉ base)) ?_ fun found => ?_
  · apply holds_ask hI
    · exact fun disk h => ⟨h, fun hnone => by cases hnone⟩
    · intro disk h
      refine ⟨h, fun hnone => ?_⟩
      have hkept := h.kept p hfirst (hplaced.not_edited hp) fun hspare => hspare.2.1 hp'
      rw [Option.some.inj hnone] at hkept
      exact Finmap.lookup_eq_none.mp hkept.symm
  · cases found with
    | none => exact holds_pure fun disk h => h.1
    | some found =>
      cases found with
      | none =>
          apply holds_pure
          intro disk h
          refine ⟨?_, fun m hm => absurd hm List.not_mem_nil, .inr (h.2 rfl)⟩
          rw [List.append_nil]
          exact h.1
      | some entry =>
        cases entry with
        | other => exact holds_pure fun disk h => h.1
        | file old mode =>
          refine ((holds_createTemp hplaced hI hp' _).weaken (fun _ h => h.1)
            fun _ _ h => h).bind fun created => ?_
          cases created with
          | none => exact holds_pure fun disk h => h.1
          | some b =>
            refine holds_of (fun disk h => h.2 b rfl) fun hb => ?_
            refine ((holds_attend hI).weaken (fun _ h => h.1) fun _ _ h => h).bind
              fun closed => ?_
            apply holds_ite
            · intro _
              refine (holds_remove hI hb).bind fun cleared => ?_
              apply holds_ite
              · exact fun _ => holds_moveAside hplaced hp hfirst hI hb
              · exact fun _ => holds_pure fun _ h => h
            · exact fun _ => (holds_remove hI hb).bind fun _ => holds_pure fun _ h => h

end Editing

/-! ## The transaction -/

/-- What the edited files hold after the removal. -/
def edits (spec : PHPExtensionRemoval) (t : Targets) (base : Disk) (p : Path) : Option Bytes :=
  if p = t.phpINI then
    (contentAt base p).map fun text => removePHPExtensionReference text spec.moduleFile
  else
    (contentAt base p).map fun text =>
      updateDotEnvValue text (bytes "PHP_EXTENSIONS") (joinExtensions spec.extensions)

/-- Each edited file has its old or its edited content. -/
def OldOrEdited (spec : PHPExtensionRemoval) (t : Targets) (base : Disk)
    (texts : Path → Option Bytes) : Prop :=
  ∀ p ∈ [t.phpINI, t.env], texts p = contentAt base p ∨ texts p = edits spec t base p

/-- Nothing is lost: the files of the extension are at their places or aside. -/
def Recoverable (spec : PHPExtensionRemoval) (t : Targets) (base disk : Disk) : Prop :=
  ∃ texts moved, OldOrEdited spec t base texts ∧ Held t base texts moved disk

/-- The extension is removed, apart from files aside. -/
structure Removed (spec : PHPExtensionRemoval) (t : Targets) (base disk : Disk) : Prop where
  gone : ∀ p ∈ [t.module, t.ini], p ∉ disk
  texts : ∀ p ∈ [t.phpINI, t.env], contentAt disk p = edits spec t base p
  kept : ∀ p, p ∉ t.all → ¬Spare t base p → disk.lookup p = base.lookup p

/-- All is as it was. -/
def Untouched (t : Targets) (base disk : Disk) : Prop := Held t base (contentAt base) [] disk

/-- A transaction with the old contents of the edited files. -/
structure Remembers (t : Targets) (base : Disk) (tx : PHPExtensionRemovalTransaction) :
    Prop where
  targets : tx.targets = t
  phpINI : contentAt base t.phpINI = some tx.phpINI
  env : contentAt base t.env = some tx.env

/-- All that has to be done before the restart is done. -/
structure Prepared (spec : PHPExtensionRemoval) (t : Targets) (base : Disk)
    (tx : PHPExtensionRemovalTransaction) (disk : Disk) : Prop where
  held : Held t base (edits spec t base) tx.moved disk
  aside : ∀ p ∈ [t.module, t.ini], p ∈ tx.moved.map Prod.fst ∨ p ∉ base
  remembers : Remembers t base tx

section Transaction
variable {fs : FileSystem} {spec : PHPExtensionRemoval} {t : Targets} {base disk : Disk}
variable {texts other : Path → Option Bytes} {moved : List (Path × Path)} {p : Path}
variable {tx : PHPExtensionRemovalTransaction}

theorem Held.congr (h : Held t base texts moved disk)
    (hsame : ∀ p ∈ [t.phpINI, t.env], other p = texts p) : Held t base other moved disk :=
  { h with texts := fun p hp => (h.texts p hp).trans (hsame p hp).symm }

/-- The loop moves files back and leaves those aside that it cannot move. -/
theorem holds_putBack (hplaced : t.WellPlaced)
    (htexts : OldOrEdited spec t base texts) (rest done : List (Path × Path)) :
    Holds (Recoverable spec t base) (Held t base texts (done ++ rest)) (putBack rest)
      fun failures disk => ∃ left, Held t base texts left disk ∧ (failures = 0 → left = done) := by
  induction rest generalizing done with
  | nil =>
      apply holds_pure
      intro disk h
      rw [List.append_nil] at h
      exact ⟨done, h, fun _ => rfl⟩
  | cons m rest ih =>
      refine Holds.bind (Q := fun ok => Held t base texts
        (if ok then done ++ rest else (done ++ [m]) ++ rest)) ?_ fun ok => ?_
      · apply holds_order fun disk h => ⟨texts, _, htexts, h⟩
        · intro disk h
          rw [if_neg Bool.false_ne_true, List.append_assoc]
          exact h
        · intro disk after h hcall
          have h := h.perm List.perm_middle
          have htarget := (h.targets m List.mem_cons_self).1
          have hne : m.2 ≠ m.1 :=
            h.backups_ne List.mem_cons_self (Targets.mem_all_of_staged htarget)
          obtain ⟨entry, hentry, hnew, -, hsame⟩ := renamed_some hne hcall
          exact h.unstage hplaced (hnew.trans hentry.symm) fun q hone hother =>
            hsame q hother hone
      · cases ok with
        | true => exact (ih done).bind fun failures => holds_pure fun disk h => h
        | false =>
            refine (ih (done ++ [m])).bind fun failures => holds_pure ?_
            rintro disk ⟨left, h, -⟩
            exact ⟨left, h, fun hzero => by cases hzero⟩

theorem OldOrEdited.overwritten {content : Bytes} (htexts : OldOrEdited spec t base texts)
    (hcontent : some content = contentAt base p ∨ some content = edits spec t base p)
    (ok : Bool) : OldOrEdited spec t base (overwritten texts p content ok) := by
  intro q hq
  cases ok with
  | false => exact htexts q hq
  | true =>
      rw [Runtime.overwritten, if_pos rfl]
      by_cases hqp : q = p
      · rw [hqp, Function.update_self]
        exact hcontent
      · rw [Function.update_of_ne hqp]
        exact htexts q hq

/-- Both files have been written. -/
theorem overwritten_both {first second : Bytes} {other : Path → Option Bytes}
    (hfirst : some first = other t.phpINI) (hsecond : some second = other t.env) :
    ∀ p ∈ [t.phpINI, t.env], other p =
      overwritten (overwritten texts t.phpINI first true) t.env second true p := by
  intro p hp
  rw [overwritten, if_pos rfl, overwritten, if_pos rfl]
  simp only [List.mem_cons, List.not_mem_nil, or_false] at hp
  by_cases hpe : p = t.env
  · rw [hpe, Function.update_self, hsecond]
  · rw [Function.update_of_ne hpe, hp.resolve_right hpe, Function.update_self, hfirst]

/-- A rollback loses nothing, and it has restored all if it says so. -/
theorem holds_rollback (hplaced : t.WellPlaced) (htx : Remembers t base tx)
    (htexts : OldOrEdited spec t base texts) :
    Holds (Recoverable spec t base) (Held t base texts tx.moved) (rollback fs tx)
      fun ok disk => Recoverable spec t base disk ∧ (ok = true → Untouched t base disk) := by
  unfold rollback
  rw [htx.targets]
  have hini : t.phpINI ∈ [t.phpINI, t.env] := List.mem_cons_self
  have henv : t.env ∈ [t.phpINI, t.env] := List.mem_cons_of_mem _ List.mem_cons_self
  have hfirst := htexts.overwritten (.inl htx.phpINI.symm)
  refine (holds_writeServiceFileAtomic hplaced hini tx.phpINI fun ok disk h =>
    ⟨_, _, hfirst ok, h⟩).bind fun first => ?_
  have hsecond := (hfirst first).overwritten (.inl htx.env.symm)
  refine (holds_writeServiceFileAtomic hplaced henv tx.env fun ok disk h =>
    ⟨_, _, hsecond ok, h⟩).bind fun second => ?_
  refine ((holds_putBack hplaced (hsecond second) tx.moved.reverse []).weaken
    (fun disk h => h.perm (List.reverse_perm _).symm) fun _ _ h => h).bind fun failures => ?_
  apply holds_pure
  rintro disk ⟨left, h, hleft⟩
  refine ⟨⟨_, left, hsecond second, h⟩, ?_⟩
  intro hok
  simp only [Bool.and_eq_true, decide_eq_true_eq] at hok
  obtain ⟨⟨rfl, rfl⟩, hzero⟩ := hok
  rw [hleft hzero] at h
  exact h.congr (overwritten_both htx.phpINI.symm htx.env.symm)

/-- What a preparation leaves. -/
def PreparedOr (spec : PHPExtensionRemoval) (t : Targets) (base : Disk) :
    Option PHPExtensionRemovalTransaction → Disk → Prop
  | none, disk => Recoverable spec t base disk
  | some tx, disk => Prepared spec t base tx disk

theorem oldOrEdited_base : OldOrEdited spec t base (contentAt base) := fun _ _ => .inl rfl

theorem Held.recoverable (h : Held t base texts moved disk)
    (htexts : OldOrEdited spec t base texts) : Recoverable spec t base disk :=
  ⟨texts, moved, htexts, h⟩

/-- A rollback after a step that failed. -/
theorem holds_giveUp (hplaced : t.WellPlaced) (htx : Remembers t base tx)
    (htexts : OldOrEdited spec t base texts) :
    Holds (Recoverable spec t base) (Held t base texts tx.moved)
      (do let _ ← rollback fs tx; return none) (PreparedOr spec t base) :=
  (holds_rollback hplaced htx htexts).bind fun _ => holds_pure fun _ h => h.1

theorem holds_stageAndEdit (hplaced : t.WellPlaced) {phpINI env : Bytes}
    (hini : contentAt base t.phpINI = some phpINI) (henv : contentAt base t.env = some env) :
    Holds (Recoverable spec t base) (Untouched t base) (stageAndEdit fs spec t phpINI env)
      (PreparedOr spec t base) := by
  have hremembers : ∀ moved, Remembers t base ⟨t, phpINI, env, moved⟩ :=
    fun _ => ⟨rfl, hini, henv⟩
  have hdistinct : t.module ≠ t.ini ∧ t.env ≠ t.phpINI := by
    have hnodup := hplaced.distinct
    simp only [Targets.all, List.nodup_cons, List.mem_cons, List.not_mem_nil, or_false,
      not_or] at hnodup
    exact ⟨hnodup.1.1, fun heq => hnodup.2.2.1 heq.symm⟩
  have hnewini : some (removePHPExtensionReference phpINI spec.moduleFile) =
      edits spec t base t.phpINI := by
    rw [edits, if_pos rfl, hini]
    rfl
  have hnewenv : some (updateDotEnvValue env (bytes "PHP_EXTENSIONS")
      (joinExtensions spec.extensions)) = edits spec t base t.env := by
    rw [edits, if_neg hdistinct.2, henv]
    rfl
  unfold stageAndEdit
  refine (holds_stageFile hplaced List.mem_cons_self List.not_mem_nil fun disk h =>
    h.recoverable oldOrEdited_base).bind fun first => ?_
  cases first with
  | none => exact holds_giveUp hplaced (hremembers []) oldOrEdited_base
  | some first =>
      refine holds_of (fun disk h => h.2) fun hfirst => ?_
      have hother : t.ini ∉ first.map Prod.fst := by
        intro hin
        obtain ⟨m, hm, hini⟩ := List.mem_map.mp hin
        exact hdistinct.1 ((hfirst.1 m hm).symm.trans hini)
      refine ((holds_stageFile hplaced (List.mem_cons_of_mem _ List.mem_cons_self)
        hother fun disk h => h.recoverable oldOrEdited_base).weaken (fun _ h => h.1)
          fun _ _ h => h).bind fun second => ?_
      cases second with
      | none => exact holds_giveUp hplaced (hremembers first) oldOrEdited_base
      | some second =>
          refine holds_of (fun disk h => h.2) fun hsecond => ?_
          have hwritten := oldOrEdited_base.overwritten (.inr hnewini)
          refine ((holds_writeServiceFileAtomic hplaced List.mem_cons_self _ fun ok disk h =>
            h.recoverable (hwritten ok)).weaken (fun _ h => h.1) fun _ _ h => h).bind
              fun edited => ?_
          apply holds_ite
          · rintro rfl
            have hboth := (hwritten true).overwritten (.inr hnewenv)
            refine (holds_writeServiceFileAtomic hplaced
              (List.mem_cons_of_mem _ List.mem_cons_self) _ fun ok disk h =>
                h.recoverable (hboth ok)).bind fun edited => ?_
            apply holds_ite
            · rintro rfl
              apply holds_pure
              intro disk h
              refine ⟨h.congr (overwritten_both hnewini hnewenv), ?_, hremembers _⟩
              intro p hp
              rw [List.map_append, List.mem_append]
              simp only [List.mem_cons, List.not_mem_nil, or_false] at hp
              rcases hp with rfl | rfl
              · exact hfirst.2.imp_left .inl
              · exact hsecond.2.imp_left .inr
            · rintro rfl
              exact holds_giveUp hplaced (hremembers _) (hboth false)
          · rintro rfl
            exact holds_giveUp hplaced (hremembers _) (hwritten false)

/-- A file that is read has the content that it had. -/
theorem holds_readRegularFileLimited {P I : Disk → Prop} (hI : ∀ disk, P disk → I disk)
    (hread : ∀ disk, P disk → contentAt disk p = contentAt base p) :
    Holds I P (readRegularFileLimited p) fun r disk =>
      P disk ∧ ∀ content ∈ r, contentAt base p = some content := by
  have hnone : ∀ disk, P disk →
      P disk ∧ ∀ content ∈ (none : Option Bytes), contentAt base p = some content :=
    fun disk h => ⟨h, fun content hc => by cases hc⟩
  unfold readRegularFileLimited lstat
  refine (holds_ask (Q := fun _ => P) hI (fun _ h => h) fun _ h => h).bind fun found => ?_
  split
  · split
    · exact holds_pure hnone
    · apply holds_call hI hnone
      intro disk content after h hcall
      obtain ⟨read, hcontent, hpair⟩ := Option.map_eq_some_iff.mp hcall
      obtain ⟨rfl, rfl⟩ := Prod.mk.inj hpair
      refine ⟨h, fun other hother => ?_⟩
      rw [← Option.some.inj hother, ← hread disk h, hcontent]
  · exact holds_pure hnone

theorem holds_prepare (h : findTargets fs spec = .ok t) :
    Holds (Recoverable spec t base) (Untouched t base) (preparePHPExtensionRemoval fs spec)
      (PreparedOr spec t base) := by
  have hplaced := wellPlaced_findTargets h
  have hI : ∀ disk, Untouched t base disk → Recoverable spec t base disk :=
    fun disk h => Held.recoverable h oldOrEdited_base
  unfold preparePHPExtensionRemoval
  rw [h]
  refine (holds_readRegularFileLimited hI fun disk h =>
    h.texts _ List.mem_cons_self).bind fun phpINI => ?_
  cases phpINI with
  | none => exact holds_pure fun disk h => hI disk h.1
  | some phpINI =>
      refine holds_of (fun disk h => h.2 phpINI rfl) fun hini => ?_
      refine ((holds_readRegularFileLimited hI fun disk h => h.texts _
        (List.mem_cons_of_mem _ List.mem_cons_self)).weaken (fun _ h => h.1)
          fun _ _ h => h).bind fun env => ?_
      cases env with
      | none => exact holds_pure fun disk h => hI disk h.1
      | some env =>
          refine holds_of (fun disk h => h.2 env rfl) fun henv => ?_
          exact (holds_stageAndEdit hplaced hini henv).weaken (fun _ h => h.1) fun _ _ h => h

theorem Prepared.recoverable (h : Prepared spec t base tx disk) : Recoverable spec t base disk :=
  h.held.recoverable fun _ _ => .inr rfl

/-- With the files aside the extension is removed already. -/
theorem Prepared.removed (h : Prepared spec t base tx disk) (hplaced : t.WellPlaced) :
    Removed spec t base disk := by
  refine ⟨?_, h.held.texts, ?_⟩
  · intro p hp
    apply Finmap.lookup_eq_none.mp
    by_cases hin : p ∈ tx.moved.map Prod.fst
    · obtain ⟨m, hm, rfl⟩ := List.mem_map.mp hin
      exact (h.held.staged m hm).1
    · rw [h.held.kept p hin (hplaced.not_edited hp) fun hspare =>
        hspare.2.1 (Targets.mem_all_of_staged hp)]
      exact Finmap.lookup_eq_none.mpr ((h.aside p hp).resolve_left hin)
  · intro p hp hspare
    refine h.held.kept p ?_ (fun hin => hp (Targets.mem_all_of_edited hin)) hspare
    intro hin
    obtain ⟨m, hm, rfl⟩ := List.mem_map.mp hin
    exact hp (Targets.mem_all_of_staged (h.held.targets m hm).1)

/-- The files aside are removed for good. -/
theorem holds_commit (hspare : ∀ m ∈ moved, Spare t base m.2) :
    Holds (Removed spec t base) (Removed spec t base) (commit moved)
      fun _ => Removed spec t base := by
  induction moved with
  | nil => exact holds_pure fun _ h => h
  | cons m moved ih =>
      refine Holds.bind (Q := fun _ => Removed spec t base) ?_ fun _ =>
        ih fun k hk => hspare k (List.mem_cons_of_mem _ hk)
      have hm := hspare m List.mem_cons_self
      apply holds_order fun _ h => h
      · exact fun _ h => h
      · intro disk after h hcall
        split_ifs at hcall
        rw [← Option.some.inj hcall]
        refine ⟨?_, ?_, ?_⟩
        · exact fun p hp hin => h.gone p hp (Finmap.mem_erase.mp hin).2
        · intro p hp
          have hne : p ≠ m.2 := fun heq => hm.2.1 (heq ▸ Targets.mem_all_of_edited hp)
          exact (contentAt_congr (Finmap.lookup_erase_ne hne)).trans (h.texts p hp)
        · intro p hp hnot
          have hne : p ≠ m.2 := fun heq => hnot (heq ▸ hm)
          rw [Finmap.lookup_erase_ne hne]
          exact h.kept p hp hnot

/-- What each answer tells of the files. -/
def Tells (spec : PHPExtensionRemoval) (t : Targets) (base : Disk) : Uninstalled → Disk → Prop
  | .notPrepared, disk => Recoverable spec t base disk
  | .restored, disk => Untouched t base disk
  | .notRestored, disk => Recoverable spec t base disk
  | .done, disk => Removed spec t base disk

theorem holds_restartRuntimeContainer {I P : Disk → Prop} (hI : ∀ disk, P disk → I disk) :
    Holds I P restartRuntimeContainer fun _ => P := by
  refine (holds_attend hI).bind fun down => ?_
  apply holds_ite
  · exact fun _ => holds_attend hI
  · exact fun _ => holds_pure fun _ h => h

theorem holds_uninstall (h : findTargets fs spec = .ok t) :
    Holds (fun disk => Recoverable spec t base disk ∨ Removed spec t base disk)
      (Untouched t base) (uninstallPHPExtension fs spec) (Tells spec t base) := by
  have hplaced := wellPlaced_findTargets h
  unfold uninstallPHPExtension
  refine ((holds_prepare h).widen fun _ h => .inl h).bind fun prepared => ?_
  cases prepared with
  | none => exact holds_pure fun _ h => h
  | some tx =>
      refine (holds_restartRuntimeContainer fun disk h =>
        .inl (Prepared.recoverable h)).bind fun restarted => ?_
      apply holds_ite
      · intro _
        refine holds_of (fun disk h => (Prepared.held h).spare) fun hspare => ?_
        refine (((holds_commit hspare).weaken (fun disk h => Prepared.removed h hplaced)
          fun _ _ h => h).widen fun _ h => .inr h).bind fun _ => holds_pure fun _ h => h
      · intro _
        refine holds_of (fun disk h => Prepared.remembers h) fun htx => ?_
        refine (((holds_rollback hplaced htx fun _ _ => .inr rfl).weaken
          (fun disk h => Prepared.held h) fun _ _ h => h).widen fun _ h => .inl h).bind
            fun restored => ?_
        refine (holds_restartRuntimeContainer fun disk h => .inl h.1).bind fun _ => ?_
        cases restored with
        | true => exact holds_pure fun disk h => h.2 rfl
        | false => exact holds_pure fun disk h => h.1

/-- Whatever calls fail, and wherever the removal is stopped: the files of the extension stand at
their places or aside and the edited files have their old or their edited content, or the
extension is removed. The answer tells which it is, and all other files are as they were. -/
theorem uninstallPHPExtension_safe (h : findTargets fs spec = .ok t) (base : Disk)
    (fails : ℕ → Bool) :
    (∀ disk ∈ passed (uninstallPHPExtension fs spec) fails base,
        Recoverable spec t base disk ∨ Removed spec t base disk) ∧
      Tells spec t base (answered (uninstallPHPExtension fs spec) fails base).1
        (answered (uninstallPHPExtension fs spec) fails base).2 := by
  refine (holds_uninstall h).run ?_ (held_base t base) fails
  intro answer disk htells
  cases answer with
  | notPrepared => exact .inl htells
  | restored => exact .inl (Held.recoverable htells oldOrEdited_base)
  | notRestored => exact .inl htells
  | done => exact .inr htells

end Transaction

/-! ## A runtime -/

/-- A file system without links, where all temporary files want the same digit. -/
def plainFileSystem : FileSystem where
  resolvedDirectory := some
  evalSymlinks := some
  digits := fun _ _ _ => [49]
  digits_spec := by
    intro _ _ _
    refine ⟨List.cons_ne_nil _ _, fun c hc => ?_⟩
    rw [List.mem_singleton.mp hc]
    decide

def redisRemoval : PHPExtensionRemoval where
  runtimeDir := [bytes "php"]
  extensionDir := [bytes "php", bytes "extensions"]
  name := bytes "redis"
  moduleFile := bytes "redis.so"
  extensions := [bytes "gd"]

def redisTargets : Targets where
  root := [bytes "php"]
  module := [bytes "php", bytes "extensions", bytes "redis.so"]
  ini := [bytes "php", bytes "conf", bytes "conf.d", bytes "docker-php-ext-redis.ini"]
  phpINI := [bytes "php", bytes "conf", bytes "php.ini"]
  env := [bytes "php", bytes ".env"]

def redisDisk : Disk :=
  (((∅ : Disk).insert redisTargets.module (.file (bytes "code") 0o644)).insert redisTargets.phpINI
    (.file (bytes "extension=redis.so\nprecision=14") 0o644)).insert redisTargets.env
      (.file (bytes "PHP_EXTENSIONS=gd,redis\n") 0o600)

/-- The first restart fails. -/
theorem redisRemoval_safe :
    let removal := uninstallPHPExtension plainFileSystem redisRemoval
    let fails := fun n => n = 24
    (∀ disk ∈ passed removal fails redisDisk,
        Recoverable redisRemoval redisTargets redisDisk disk ∨
          Removed redisRemoval redisTargets redisDisk disk) ∧
      Tells redisRemoval redisTargets redisDisk (answered removal fails redisDisk).1
        (answered removal fails redisDisk).2 :=
  uninstallPHPExtension_safe (by decide +kernel) redisDisk _

end WorkMesh.Runtime
