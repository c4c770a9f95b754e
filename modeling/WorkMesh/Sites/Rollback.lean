import WorkMesh.Sites.Updates

/-!
# The way back to a snapshot

Until an update rolls back it only writes files of the firewall and makes
directories for them. From any tree that has grown so, the restoration of the
snapshot gives every file the content that it had.
-/

namespace WorkMesh.Sites

open Encoding StateMachine Fallible FileTree

/-- A tree after writes to some paths: directories stay directories and files stay files. -/
structure Grown (W : List Path) (base t : Files) : Prop where
  dirs : ∀ p, base.node p = some .dir → t.node p = some .dir
  files : ∀ p d, base.node p = some (.file d) → ∃ d', t.node p = some (.file d')
  rest : ∀ p, p ∉ W → t.content p = base.content p

section Grown
variable {W : List Path} {base t u : Files} {p : Path} {d : Document}

theorem Grown.refl (W : List Path) (t : Files) : Grown W t t :=
  ⟨fun _ h => h, fun _ d h => ⟨d, h⟩, fun _ _ => rfl⟩

theorem Grown.isSome (h : Grown W base t) (hp : (base.node p).isSome) : (t.node p).isSome := by
  match hnode : base.node p with
  | none => rw [hnode] at hp; cases hp
  | some .dir => rw [h.dirs p hnode]; rfl
  | some (.file d) =>
      obtain ⟨d', hd'⟩ := h.files p d hnode
      rw [hd']
      rfl

theorem Grown.mkdirAll (h : Grown W base t) (ht : t.mkdirAll p = some u) : Grown W base u := by
  have hnone := mkdirAll_isSome.mp (ht ▸ rfl : (t.mkdirAll p).isSome)
  refine ⟨fun q hq => ?_, fun q d hq => ?_, fun q hq => ?_⟩
  · rw [node_mkdirAll ht, h.dirs q hq, ite_self]
  · obtain ⟨d', hd'⟩ := h.files q d hq
    have hqp : ¬ q <+: p := by
      intro hcon
      have := hnone q hcon
      rw [content_eq_some.mpr hd'] at this
      cases this
    exact ⟨d', by rw [node_mkdirAll ht, if_neg hqp, hd']⟩
  · rw [content_mkdirAll ht, h.rest q hq]

theorem Grown.put (h : Grown W base t) (hp : p ∈ W) (ht : t.put p d = some u) :
    Grown W base u := by
  have hok := put_isSome.mp (ht ▸ rfl : (t.put p d).isSome)
  refine ⟨fun q hq => ?_, fun q d' hq => ?_, fun q hq => ?_⟩
  · have hqp : q ≠ p := by
      rintro rfl
      exact hok.1 (h.dirs q hq)
    rw [node_put ht, if_neg hqp, h.dirs q hq]
  · rw [node_put ht]
    split
    · exact ⟨d, rfl⟩
    · exact h.files q d' hq
  · have hqp : q ≠ p := fun hqp => hq (hqp ▸ hp)
    rw [content_put ht, if_neg hqp, h.rest q hq]

/-- A path where the base has nothing may be cleared. -/
theorem Grown.remove (h : Grown W base t) (hp : p ∈ W) (hbase : base.node p = none)
    (hnil : p ≠ []) (ht : t.remove p = some u) : Grown W base u := by
  have hne : ∀ q, (base.node q).isSome → q ≠ p := by
    rintro q hq rfl
    rw [hbase] at hq
    cases hq
  refine ⟨fun q hq => ?_, fun q d hq => ?_, fun q hq => ?_⟩
  · rw [node_remove ht hnil, if_neg (hne q (by rw [hq]; rfl)), h.dirs q hq]
  · rw [node_remove ht hnil, if_neg (hne q (by rw [hq]; rfl))]
    exact h.files q d hq
  · have hqp : q ≠ p := fun hqp => hq (hqp ▸ hp)
    rw [content_congr (u := t) (by rw [node_remove ht hnil, if_neg hqp]), h.rest q hq]

end Grown

/-! ## The invariant of an update -/

/-- A world with this memory whose files have grown out of these. -/
def GrownFrom (W : List Path) (base : Files) (m : Memory) (w : World) : Prop :=
  w.memory = m ∧ Grown W base w.files

/-- What a backup holds of the files. -/
structure WafFileBackup.Of (backup : WafFileBackup) (files : Files) : Prop where
  passable : files.passable backup.path = true
  notDir : files.isDir backup.path = false
  data : backup.data = files.content backup.path

theorem WafFileBackup.Of.node_none {backup : WafFileBackup} {files : Files}
    (h : backup.Of files) (hdata : backup.data = none) : files.node backup.path = none := by
  have hcontent := h.data.symm.trans hdata
  have hdir := h.notDir
  unfold FileTree.content at hcontent
  unfold FileTree.isDir at hdir
  match hnode : files.node backup.path with
  | none => rfl
  | some .dir => simp [hnode] at hdir
  | some (.file d) => simp [hnode] at hcontent

section Invariant
variable {W : List Path} {base : Files} {m : Memory} {p : Path} {d : Document}

theorem outcome_alter (f : Files → Option Files) (s : Strained World) :
    outcome (alter f) s =
      match outcome (step Failure.broken) s with
      | (.error e, t) => (.error e, t)
      | (.ok (), t) =>
          match f t.state.files with
          | some files => (.ok (), { t with state := { t.state with files } })
          | none => (.error .broken, t) := by
  rw [alter, outcome_bind]
  match outcome (step Failure.broken) s with
  | (.error e, t) => rfl
  | (.ok (), t) =>
      dsimp only
      rw [outcome_look_bind]
      cases f t.state.files <;> rfl

theorem outcome_alter_calm (f : Files → Option Files) (w : World) :
    outcome (alter f) ⟨w, none⟩ =
      match f w.files with
      | some files => (.ok (), ⟨{ w with files }, none⟩)
      | none => (.error .broken, ⟨w, none⟩) := outcome_alter f ⟨w, none⟩

theorem keeps_alter {P : World → Prop} {f : Files → Option Files}
    (h : ∀ w t, P w → f w.files = some t → P { w with files := t }) : Keeps P (alter f) := by
  intro s hs
  have hstep := step_state Failure.broken s
  rw [outcome_alter]
  split
  · rename_i e t heq
    rw [heq] at hstep
    rwa [hstep]
  · rename_i t heq
    rw [heq] at hstep
    rw [hstep]
    cases hf : f s.state.files with
    | none => rwa [hstep]
    | some files => exact h s.state files hs hf

theorem keeps_atomicWriteFile (hp : p ∈ W) : Keeps (GrownFrom W base m) (atomicWriteFile p d) :=
  (keeps_alter fun _ _ hw ht => ⟨hw.1, hw.2.mkdirAll ht⟩).bind fun _ =>
    keeps_alter fun _ _ hw ht => ⟨hw.1, hw.2.put hp ht⟩

theorem keeps_removeFile (hp : p ∈ W) (hbase : base.node p = none) (hnil : p ≠ []) :
    Keeps (GrownFrom W base m) (removeFile p) := by
  refine keeps_look_bind fun w hw => ?_
  split
  · exact keeps_throw _
  · split
    · exact keeps_pure ()
    · exact keeps_alter fun _ _ hw ht => ⟨hw.1, hw.2.remove hp hbase hnil ht⟩

theorem keeps_ask {P : World → Prop}
    (h : ∀ w, P w → P { w with answers := w.answers.tail }) : Keeps P ask := by
  refine keeps_look_bind fun w _ => (keeps_change h).bind fun _ => ?_
  split
  · exact keeps_throw _
  · exact keeps_pure ()

theorem keeps_verify {P : World → Prop} (h : Host)
    (hask : ∀ w, P w → P { w with answers := w.answers.tail }) :
    Keeps P (verifyWAFRuntimeLoaded h) := by
  refine keeps_look_bind fun w _ => ?_
  split
  · exact keeps_ask hask
  · exact keeps_throw _

theorem keeps_reload {P : World → Prop} (h : Host)
    (hask : ∀ w, P w → P { w with answers := w.answers.tail }) :
    Keeps P (reloadWAFRuntime h) :=
  (keeps_ask hask).bind fun _ => (keeps_verify h hask).bind fun _ => keeps_ask hask

end Invariant

/-! ## Reading -/

section Reading
variable {P : World → Prop} {s t : Strained World}

theorem keeps_readFile (path : Path) : Keeps P (readFile path) := by
  refine (keeps_step _).bind fun _ => keeps_look_bind fun w _ => ?_
  split
  · exact keeps_pure _
  · exact keeps_throw _

theorem keeps_readBackups (paths : List Path) : Keeps P (readBackups paths) := by
  induction paths with
  | nil => exact keeps_pure []
  | cons path paths ih =>
      exact (keeps_readFile path).bind fun _ => ih.bind fun _ => keeps_pure _

theorem keeps_snapshot (h : Host) : Keeps P (snapshotWAFRuntime h) :=
  keeps_look_bind fun _ _ => keeps_readBackups _

/-- A file of the firewall can be read, or found missing. -/
def Readable (files : Files) (path : Path) : Prop :=
  files.passable path = true ∧ files.isDir path = false

instance (files : Files) (path : Path) : Decidable (Readable files path) :=
  inferInstanceAs (Decidable (_ ∧ _))

theorem readFile_ok {path : Path} {data : Option Document}
    (h : outcome (readFile path) s = (.ok data, t)) :
    Readable s.state.files path ∧ data = s.state.files.content path ∧ t.state = s.state := by
  have hstep := step_state Failure.broken s
  rw [readFile, outcome_bind] at h
  match hout : outcome (step Failure.broken) s with
  | (.error e, u) =>
      rw [hout] at h
      cases h
  | (.ok (), u) =>
      rw [hout] at h hstep
      dsimp only at h hstep
      rw [outcome_look_bind] at h
      split at h
      · rename_i hread
        rw [outcome_pure] at h
        cases h
        exact ⟨hstep ▸ hread, by rw [hstep], hstep⟩
      · cases h

theorem readBackups_ok {paths : List Path} {backups : List WafFileBackup}
    (h : outcome (readBackups paths) s = (.ok backups, t)) :
    backups.map WafFileBackup.path = paths ∧ (∀ b ∈ backups, b.Of s.state.files) ∧
      t.state = s.state := by
  induction paths generalizing s t backups with
  | nil =>
      cases h
      exact ⟨rfl, by simp, rfl⟩
  | cons path paths ih =>
      rw [readBackups, outcome_bind] at h
      match hread : outcome (readFile path) s with
      | (.error e, u) =>
          rw [hread] at h
          cases h
      | (.ok data, u) =>
          obtain ⟨hok, hdata, hu⟩ := readFile_ok hread
          rw [hread] at h
          dsimp only at h
          rw [outcome_bind] at h
          match hrest : outcome (readBackups paths) u with
          | (.error e, v) =>
              rw [hrest] at h
              cases h
          | (.ok rest, v) =>
              obtain ⟨hpaths, hof, hv⟩ := ih hrest
              rw [hrest] at h
              cases h
              refine ⟨by rw [List.map_cons, hpaths], fun b hb => ?_, hv.trans hu⟩
              rcases List.mem_cons.mp hb with rfl | hb
              · exact ⟨hok.1, hok.2, hdata⟩
              · exact hu ▸ hof b hb

theorem snapshot_ok {h : Host} {backups : List WafFileBackup}
    (hout : outcome (snapshotWAFRuntime h) s = (.ok backups, t)) :
    backups.map WafFileBackup.path = h.runtimePaths s.state.memory.websites ∧
      (∀ b ∈ backups, b.Of s.state.files) ∧ t.state = s.state :=
  readBackups_ok (s := s) hout

/-- Every file read is a step. -/
theorem readBackups_counted {w : World} {paths : List Path}
    (hread : ∀ p ∈ paths, Readable w.files p) (fault : Option ℕ) :
    ∃ backups, outcome (readBackups paths) ⟨w, fault.map (· + paths.length)⟩ =
      (.ok backups, ⟨w, fault⟩) := by
  induction paths with
  | nil => exact ⟨[], by cases fault <;> rfl⟩
  | cons path paths ih =>
      obtain ⟨backups, hrest⟩ := ih fun p hp => hread p (List.mem_cons_of_mem _ hp)
      have hlater : fault.map (· + (path :: paths).length) =
          (fault.map (· + paths.length)).map (· + 1) := by
        cases fault <;> rfl
      have hfirst : outcome (readFile path) ⟨w, fault.map (· + (path :: paths).length)⟩ =
          (.ok (w.files.content path), ⟨w, fault.map (· + paths.length)⟩) := by
        rw [hlater, readFile, outcome_bind_ok (outcome_step_later _ _ _), outcome_look_bind]
        split
        · rfl
        · rename_i hcon
          exact absurd (hread path List.mem_cons_self) hcon
      exact ⟨_, by rw [readBackups, outcome_bind_ok hfirst, outcome_bind_ok hrest]; rfl⟩

theorem snapshot_counted {h : Host} {w : World}
    (hread : ∀ p ∈ h.runtimePaths w.memory.websites, Readable w.files p) (fault : Option ℕ) :
    ∃ backups, outcome (snapshotWAFRuntime h)
      ⟨w, fault.map (· + (h.runtimePaths w.memory.websites).length)⟩ =
        (.ok backups, ⟨w, fault⟩) :=
  readBackups_counted hread fault

theorem runtimePaths_ne_nil (h : Host) (websites : List Website) :
    h.runtimePaths websites ≠ [] := by
  have hmem : h.globalFile ∈ h.runtimePaths websites := by
    rw [Host.runtimePaths, List.mem_eraseDups]
    simp
  exact List.ne_nil_of_mem hmem

theorem snapshot_broken (h : Host) (w : World) :
    outcome (snapshotWAFRuntime h) ⟨w, some 0⟩ = (.error .broken, ⟨w, none⟩) := by
  rw [snapshotWAFRuntime, outcome_look_bind]
  obtain ⟨path, paths, hpaths⟩ := List.exists_cons_of_ne_nil (runtimePaths_ne_nil h w.memory.websites)
  dsimp only
  rw [hpaths, readBackups, readFile]
  rfl

end Reading

/-! ## Rolling back -/

/-- Backups of files that may be written, none of them missing a file of the base. -/
def Backs (W : List Path) (base : Files) (backups : List WafFileBackup) : Prop :=
  ∀ b ∈ backups, b.path ∈ W ∧ b.path ≠ [] ∧ (b.data = none → base.node b.path = none)

section Rollback
variable {W : List Path} {base : Files} {m : Memory} {backups : List WafFileBackup}

theorem keeps_restoreFile {b : WafFileBackup} (hp : b.path ∈ W) (hnil : b.path ≠ [])
    (hbase : b.data = none → base.node b.path = none) :
    Keeps (GrownFrom W base m) (restoreFile b) := by
  unfold restoreFile
  split
  · exact keeps_atomicWriteFile hp
  · rename_i hdata
    exact keeps_removeFile hp (hbase hdata) hnil

theorem keeps_restore (hb : Backs W base backups) :
    Keeps (GrownFrom W base m) (restoreWAFRuntime backups) := by
  induction backups with
  | nil => exact keeps_pure []
  | cons b backups ih =>
      obtain ⟨hp, hnil, hbase⟩ := hb b List.mem_cons_self
      have hrest := ih fun c hc => hb c (List.mem_cons_of_mem _ hc)
      refine (keeps_restoreFile hp hnil hbase).attempt.bind fun restored => hrest.bind fun rest => ?_
      split
      · exact keeps_pure _
      · exact keeps_pure _

theorem keeps_rollback (h : Host) (hb : Backs W base backups) :
    Keeps (GrownFrom W base m) (rollbackWAFRuntime h backups) := by
  refine (keeps_restore hb).bind fun failures => ?_
  split
  · refine (keeps_reload h fun _ hw => hw).attempt.bind fun r => ?_
    split
    · exact keeps_pure _
    · exact keeps_pure _
  · exact keeps_pure _

theorem keeps_orRollback (h : Host) (hb : Backs W base backups) {body : Op Unit}
    (hbody : Keeps (GrownFrom W base m) body) :
    Keeps (GrownFrom W base m) (orRollback h backups id body) := by
  refine hbody.attempt.bind fun r => ?_
  split
  · exact keeps_pure ()
  · exact (keeps_change fun _ hw => hw).bind fun _ =>
      (keeps_rollback h hb).bind fun _ => keeps_throw _

end Rollback

/-! ## The files that are written -/

section Paths
variable (h : Host) {websites : List Website}

theorem ne_nil_of_mem_runtimePaths {p : Path} (hp : p ∈ h.runtimePaths websites) : p ≠ [] := by
  rw [Host.runtimePaths, List.mem_eraseDups] at hp
  rcases List.mem_append.mp hp with hp | hp
  · simp only [Host.generatedFiles, List.mem_append, List.mem_cons, List.not_mem_nil,
      or_false] at hp
    rcases hp with (rfl | rfl | rfl | rfl | rfl) | rfl | rfl | rfl | rfl <;>
      exact List.append_ne_nil_of_right_ne_nil _ (List.cons_ne_nil _ _)
  · obtain ⟨site, -, hp⟩ := List.mem_flatMap.mp hp
    simp only [List.mem_cons, List.not_mem_nil, or_false] at hp
    rcases hp with rfl | rfl <;>
      exact List.append_ne_nil_of_right_ne_nil _ (List.cons_ne_nil _ _)

theorem mem_runtimePaths_of_common {p : Path}
    (hp : p ∈ [h.globalFile, h.listsFile, h.defaultRulesFile, h.customRulesFile, h.runtimeFile] ++
      h.generatedFiles) : p ∈ h.runtimePaths websites := by
  rw [Host.runtimePaths, List.mem_eraseDups]
  exact List.mem_append_left _ hp

theorem mem_runtimePaths_of_generated {p : Path} (hp : p ∈ h.generatedFiles) :
    p ∈ h.runtimePaths websites :=
  mem_runtimePaths_of_common h (List.mem_append_right _ hp)

theorem mem_runtimePaths_of_site {id : ℕ} {website : Website}
    (hget : getWebsite websites id = some website) :
    configFile (h.sitePath website .waf) ∈ h.runtimePaths websites ∧
      rulesFile (h.sitePath website .waf) ∈ h.runtimePaths websites := by
  obtain ⟨hmem, hid⟩ := getWebsite_some hget
  have hdomain : domainForWebsite websites website.id = website.primaryDomain := by
    rw [domainForWebsite, hid, hget]
    rfl
  have hsite : ({ website with primaryDomain := domainForWebsite websites website.id } : Website) =
      website := by rw [hdomain]
  have hin : ∀ p ∈ [configFile (h.sitePath website .waf), rulesFile (h.sitePath website .waf)],
      p ∈ h.runtimePaths websites := by
    intro p hp
    rw [Host.runtimePaths, List.mem_eraseDups]
    refine List.mem_append_right _ (List.mem_flatMap.mpr ⟨website, hmem, ?_⟩)
    rw [hsite]
    exact hp
  exact ⟨hin _ (by simp), hin _ (by simp)⟩

end Paths

/-! ## Writing the settings out -/

section Persist
variable (h : Host) {base : Files} {m : Memory}

/-- The invariant of the two functions that write the settings out. -/
abbrev Writes (base : Files) (m : Memory) : World → Prop :=
  GrownFrom (h.runtimePaths m.websites) base m

theorem yields_snapshot :
    Yields (Writes h base m) (snapshotWAFRuntime h)
      (Backs (h.runtimePaths m.websites) base) := by
  intro s backups t hs hout b hb
  obtain ⟨hpaths, hof, -⟩ := snapshot_ok hout
  have hmem : b.path ∈ h.runtimePaths m.websites := by
    rw [← hs.1, ← hpaths]
    exact List.mem_map_of_mem hb
  refine ⟨hmem, ne_nil_of_mem_runtimePaths h hmem, fun hdata => ?_⟩
  have hnone := (hof b hb).node_none hdata
  by_contra hcon
  have hsome := hs.2.isSome (Option.isSome_iff_ne_none.mpr hcon)
  rw [hnone] at hsome
  cases hsome

theorem keeps_writeGenerated : Keeps (Writes h base m) (writeWAFGeneratedConfig h) := by
  refine keeps_look_bind fun w _ => ?_
  have hwrite : ∀ p ∈ h.generatedFiles, ∀ d, Keeps (Writes h base m) (atomicWriteFile p d) :=
    fun p hp d => keeps_atomicWriteFile (mem_runtimePaths_of_generated h hp)
  have hmem : ∀ {p}, p ∈ [h.engineModeFile, h.hostRulesFile, h.standardRulesFile,
      h.globalRulesFile] → p ∈ h.generatedFiles := fun hp => hp
  exact (hwrite _ (hmem (by simp)) _).bind fun _ => (hwrite _ (hmem (by simp)) _).bind fun _ =>
    (hwrite _ (hmem (by simp)) _).bind fun _ => hwrite _ (hmem (by simp)) _

theorem keeps_persistRuntime : Keeps (Writes h base m) (persistWAFRuntime h) := by
  refine (keeps_writeGenerated h).bind fun _ => ?_
  split
  · refine (keeps_reload h fun _ hw => hw).bind fun _ =>
      (keeps_verify h fun _ hw => hw).bind fun _ => ?_
    refine ((keeps_snapshot h).bind fun _ => keeps_pure _).bind fun hashed =>
      (keeps_look _).bind fun now => ?_
    exact keeps_atomicWriteFile (mem_runtimePaths_of_common h (by simp))
  · exact keeps_pure ()

theorem keeps_nextOrder {P : World → Prop} (keys : Finset ℕ)
    (horders : ∀ w, P w → P { w with orders := w.orders.tail }) : Keeps P (nextOrder keys) :=
  (keeps_look _).bind fun _ => (keeps_change horders).bind fun _ => keeps_pure _

theorem keeps_persistSite {backups : List WafFileBackup} {websiteID : ℕ}
    (hb : Backs (h.runtimePaths m.websites) base backups) :
    Keeps (Writes h base m) (persistWAFSite h backups websiteID) := by
  refine keeps_look_bind fun w hw => ?_
  refine keeps_demand_bind fun site _ => keeps_demand_bind fun website hget => ?_
  rw [hw.1] at hget
  obtain ⟨hconfig, hrules⟩ := mem_runtimePaths_of_site h hget
  exact (keeps_orRollback h hb (keeps_atomicWriteFile hconfig)).bind fun _ =>
    keeps_orRollback h hb (keeps_atomicWriteFile hrules)

theorem keeps_persistSites : Keeps (Writes h base m) (persistWAFSites h) := by
  refine (keeps_snapshot h).bind_of (yields_snapshot h) fun backups hb => ?_
  refine keeps_look_bind fun w _ => (keeps_nextOrder _ fun _ hw => hw).bind fun ids => ?_
  exact (keeps_forM fun websiteID _ => keeps_persistSite h hb).bind fun _ =>
    keeps_orRollback h hb (keeps_persistRuntime h)

end Persist

/-! ## What the way back gives -/

section Calm
variable {W : List Path} {base : Files} {w : World} {p : Path} {d : Document}

theorem readable_of_content {files : Files} (hfile : (files.content p).isSome) :
    Readable files p := by
  obtain ⟨d', hd'⟩ := Option.isSome_iff_exists.mp hfile
  have hnode := content_eq_some.mp hd'
  refine ⟨passable_of_isSome (by rw [hnode]; rfl), ?_⟩
  rw [isDir, hnode]

/-- A file that can be read can be written. -/
theorem atomicWriteFile_calm (hnil : p ≠ []) (hread : Readable w.files p) :
    ∃ t, outcome (atomicWriteFile p d) ⟨w, none⟩ = (.ok (), ⟨{ w with files := t }, none⟩) ∧
      ∀ q, t.content q = if q = p then some d else w.files.content q := by
  have hbelow : ∀ q, q <+: p.dropLast → q ≠ p := by
    rintro q hq rfl
    have hlen := hq.length_le
    rw [List.length_dropLast] at hlen
    have := List.length_pos_iff.mpr hnil
    omega
  have habove : ∀ q, q <+: p.dropLast → w.files.content q = none := fun q hq =>
    passable_iff.mp hread.1 q (hq.trans (List.dropLast_prefix p)) (hbelow q hq)
  obtain ⟨t, ht⟩ := Option.isSome_iff_exists.mp (mkdirAll_isSome.mpr habove)
  have hparent : t.node p.dropLast = some .dir := by
    rw [node_mkdirAll ht, if_pos (List.prefix_refl _)]
  have hplace : t.node p ≠ some .dir := by
    rw [node_mkdirAll ht, if_neg fun hp => hbelow p hp rfl, Ne, ← isDir_iff, hread.2]
    exact Bool.false_ne_true
  obtain ⟨u, hu⟩ := Option.isSome_iff_exists.mp (put_isSome (d := d).mpr ⟨hplace, hparent⟩)
  refine ⟨u, ?_, fun q => ?_⟩
  · have hfirst : outcome (alter (·.mkdirAll p.dropLast)) ⟨w, none⟩ =
        (.ok (), ⟨{ w with files := t }, none⟩) := by
      rw [outcome_alter_calm, ht]
    rw [atomicWriteFile, outcome_bind_ok hfirst, outcome_alter_calm]
    dsimp only
    rw [hu]
  · rw [content_put hu, content_mkdirAll ht]

theorem removeFile_calm (hnil : p ≠ []) :
    ∃ r t, outcome (removeFile p) ⟨w, none⟩ = (r, ⟨{ w with files := t }, none⟩) ∧
      t.content p = none ∧ ∀ q, q ≠ p → t.content q = w.files.content q := by
  unfold removeFile
  rw [outcome_look_bind]
  split
  · rename_i hpass
    refine ⟨_, w.files, rfl, ?_, fun _ _ => rfl⟩
    by_contra hcon
    have hsome : (w.files.node p).isSome := by
      obtain ⟨d, hd⟩ := Option.ne_none_iff_exists'.mp hcon
      rw [content_eq_some.mp hd]
      rfl
    rw [passable_of_isSome hsome] at hpass
    cases hpass
  · split
    · rename_i hnone
      refine ⟨_, w.files, rfl, ?_, fun _ _ => rfl⟩
      rw [content, Option.isNone_iff_eq_none.mp hnone]
    · rw [outcome_alter_calm]
      cases ht : w.files.remove p with
      | some t =>
          refine ⟨_, t, rfl, ?_, fun q hq => content_congr ?_⟩
          · rw [content, node_remove ht hnil, if_pos rfl]
          · rw [node_remove ht hnil, if_neg hq]
      | none =>
          refine ⟨_, w.files, rfl, ?_, fun _ _ => rfl⟩
          -- What cannot be removed is a directory: below a file there is nothing.
          by_contra hcon
          obtain ⟨d, hd⟩ := Option.ne_none_iff_exists'.mp hcon
          have hempty : w.files.occupied p = false := by
            refine occupied_eq_false.mpr fun q hq hne => ?_
            by_contra hq'
            have := node_above (Option.isSome_iff_ne_none.mpr hq') hq hne.symm
            rw [content_of_dir this] at hd
            cases hd
          simp [FileTree.remove, hempty] at ht

theorem restoreFile_calm {b : WafFileBackup} (hw : Grown W base w.files) (hof : b.Of base)
    (hnil : b.path ≠ []) :
    ∃ r t, outcome (restoreFile b) ⟨w, none⟩ = (r, ⟨{ w with files := t }, none⟩) ∧
      t.content b.path = base.content b.path ∧
      ∀ q, q ≠ b.path → t.content q = w.files.content q := by
  unfold restoreFile
  split
  · rename_i d hdata
    have hbase := hof.data.symm.trans hdata
    obtain ⟨d', hd'⟩ := hw.files _ d (content_eq_some.mp hbase)
    have hsome : (w.files.content b.path).isSome := by
      rw [content_eq_some.mpr hd']
      rfl
    obtain ⟨t, hout, ht⟩ := atomicWriteFile_calm (d := d) hnil (readable_of_content hsome)
    exact ⟨_, t, hout, by rw [ht, if_pos rfl, hbase], fun q hq => by rw [ht, if_neg hq]⟩
  · rename_i hdata
    obtain ⟨r, t, hout, hp, hrest⟩ := removeFile_calm (w := w) hnil
    exact ⟨r, t, hout, by rw [hp, ← hof.data, hdata], hrest⟩

theorem restoreWAFRuntime_calm {backups : List WafFileBackup} (hb : Backs W base backups)
    (hof : ∀ b ∈ backups, b.Of base) (hw : Grown W base w.files) :
    ∃ failures t, outcome (restoreWAFRuntime backups) ⟨w, none⟩ =
        (.ok failures, ⟨{ w with files := t }, none⟩) ∧ Grown W base t ∧
      (∀ b ∈ backups, t.content b.path = base.content b.path) ∧
      ∀ q, q ∉ backups.map WafFileBackup.path → t.content q = w.files.content q := by
  induction backups generalizing w with
  | nil => exact ⟨[], w.files, rfl, hw, by simp, fun _ _ => rfl⟩
  | cons b backups ih =>
      obtain ⟨hp, hnil, hbase⟩ := hb b List.mem_cons_self
      obtain ⟨r, t, hout, hcontent, hrest⟩ :=
        restoreFile_calm hw (hof b List.mem_cons_self) hnil
      have hgrown : Grown W base t := by
        have hkeep := keeps_restoreFile hp hnil hbase ⟨w, none⟩ ⟨rfl, hw⟩
        rw [hout] at hkeep
        exact hkeep.2
      obtain ⟨failures, u, hout', hgrown', hcontents, hrest'⟩ :=
        ih (w := { w with files := t })
        (fun c hc => hb c (List.mem_cons_of_mem _ hc))
        (fun c hc => hof c (List.mem_cons_of_mem _ hc)) hgrown
      have hfirst : outcome (attempt (restoreFile b)) ⟨w, none⟩ =
          (.ok r, ⟨{ w with files := t }, none⟩) := by
        rw [outcome_attempt, hout]
        cases r <;> rfl
      have hall : ∀ c ∈ b :: backups, u.content c.path = base.content c.path := by
        intro c hc
        rcases List.mem_cons.mp hc with rfl | hc
        · by_cases hin : c.path ∈ backups.map WafFileBackup.path
          · obtain ⟨c', hc', hpath⟩ := List.mem_map.mp hin
            rw [← hpath]
            exact hcontents c' hc'
          · rw [hrest' _ hin, hcontent]
        · exact hcontents c hc
      have houter : ∀ q, q ∉ (b :: backups).map WafFileBackup.path →
          u.content q = w.files.content q := by
        intro q hq
        rw [List.map_cons, List.mem_cons, not_or] at hq
        rw [hrest' q hq.2, hrest q hq.1]
      rw [restoreWAFRuntime, outcome_bind_ok hfirst, outcome_bind_ok hout']
      match r with
      | .ok () => exact ⟨_, u, rfl, hgrown', hall, houter⟩
      | .error e => exact ⟨_, u, rfl, hgrown', hall, houter⟩

/-- The restored files are those of the base. -/
theorem restored_content {backups : List WafFileBackup} {t : Files}
    (hpaths : ∀ p ∈ W, p ∈ backups.map WafFileBackup.path) (ht : Grown W base t)
    (hall : ∀ b ∈ backups, t.content b.path = base.content b.path) (q : Path) :
    t.content q = base.content q := by
  by_cases hq : q ∈ W
  · obtain ⟨b, hb, rfl⟩ := List.mem_map.mp (hpaths q hq)
    exact hall b hb
  · exact ht.rest q hq

end Calm

end WorkMesh.Sites
