import WorkMesh.Cron.Archive
import WorkMesh.StateMachine.Newest

/-!
# How many backups are kept

Behind each source a job drops the first files of its folder, by their names,
until as many are left as the job retains. What is left at the end of a run is
what one such cut would leave of all the files; but it counts every file of the
folder, also those that are no backups of the job.
-/

namespace WorkMesh.Cron.Archive

open Encoding StateMachine

/-- The names of the files in each folder. -/
structure Backups where
  files : List Bytes → List Bytes
  nodup : ∀ folder, (files folder).Nodup

/-- What `pruneCronCopies` leaves of the files of a folder. -/
def pruneCronCopies (names : List Bytes) (retain : ℕ) : List Bytes :=
  if retain = 0 then names
  else if names.length ≤ retain then names
  else names.filter fun name => name ∉ (ranked byteOrder names).take (names.length - retain)

/-- A run of a job, and what the job says about copies. -/
structure Job where
  run : Run
  retainCopies : ℕ
  /-- `snapshotWantsImage(job.SnapshotRule)` -/
  wantsImage : Bool
  /-- `s.databaseBackup`, where one is set, by whether it leaves the dump at its place. -/
  databaseBackup : Option Bool := none

namespace Job

variable (job : Job) (root : DataRoot)

/-- The list of images is written for snapshots only. -/
def listsImages : Bool :=
  match job.run with
  | .resources .snapshot _ => job.wantsImage
  | _ => false

/-- The rotation of the logs of websites drops no copies. -/
def prunes : Bool :=
  match job.run with
  | .cutWebsiteLog _ => false
  | _ => true

/-- A source leaves its file. `defaultCronDatabaseBackup` succeeds without one: the output of the
program is not sent to the file that `ArtifactPath` asks for. -/
def leaves : Bool :=
  match job.run with
  | .databases _ => job.databaseBackup.getD false
  | _ => true

/-- The files that are written for a source. -/
def additions (second : ℕ) : List Bytes :=
  (if job.leaves then [job.run.fileName second] else []) ++
    if job.listsImages then [bytes "images.txt"] else []

/-- What a source leaves of the files of its folder. -/
def visit (names : List Bytes) (second : ℕ) : List Bytes :=
  if job.prunes then pruneCronCopies ((job.additions second).foldl addTo names) job.retainCopies
  else (job.additions second).foldl addTo names

theorem visit_nodup {names : List Bytes} (h : names.Nodup) (second : ℕ) :
    (job.visit names second).Nodup := by
  have hall := foldl_addTo_nodup h (job.additions second)
  rw [visit, pruneCronCopies]
  split_ifs
  · exact hall
  · exact hall
  · exact hall.filter _
  · exact hall

/-- One source of a run. -/
def step (b : Backups) (begun : List Bytes × ℕ) : Backups where
  files := fun folder =>
    if folder = folderOf root begun.1 then job.visit (b.files folder) begun.2 else b.files folder
  nodup := fun folder => by
    split_ifs
    · exact job.visit_nodup (b.nodup folder) begun.2
    · exact b.nodup folder

/-- A run in which every source succeeds. -/
def execute (b : Backups) : Backups := job.run.begun.foldl (job.step root) b

/-- The seconds of the sources with a folder. -/
def begunIn (folder : List Bytes) : List ℕ :=
  (job.run.begun.filter fun begun => folder = folderOf root begun.1).map Prod.snd

/-- The files of a folder, those before a run and those that it writes. -/
def allFiles (b : Backups) (folder : List Bytes) : List Bytes :=
  ((job.begunIn root folder).flatMap job.additions).foldl addTo (b.files folder)

/-- The backups of the job in a folder, by their seconds: the earlier ones and those of a run. -/
def archives (folder : List Bytes) (earlier : List ℕ) : List ℕ :=
  (earlier ++ job.begunIn root folder).dedup

/-- The backups of the run are there, and of all those of the job the newest ones. -/
structure Retained (b : Backups) (folder : List Bytes) (earlier : List ℕ) : Prop where
  written : ∀ second ∈ job.begunIn root folder,
    job.run.fileName second ∈ (job.execute root b).files folder
  newest : ∀ second ∈ job.archives root folder earlier,
    job.run.fileName second ∈ (job.execute root b).files folder ↔
      second ∈ newest id job.retainCopies (job.archives root folder earlier)

/-- Behind a backup, by the names, there are fewer files than are retained. -/
def FewBehind (b : Backups) (folder : List Bytes) (second : ℕ) : Prop :=
  job.prunes = true →
    behind byteOrder (byteOrder (job.run.fileName second)) (job.allFiles root b folder) <
      job.retainCopies

/-- The sources leave their files, and there are few files behind the backups of the run, and
behind the newest of the job only. -/
structure Roomy (b : Backups) (folder : List Bytes) (earlier : List ℕ) : Prop where
  there : ∀ second ∈ job.begunIn root folder,
    job.leaves = true ∨ job.run.fileName second ∈ b.files folder
  written : ∀ second ∈ job.begunIn root folder, job.FewBehind root b folder second
  newest : ∀ second ∈ job.archives root folder earlier, job.FewBehind root b folder second ↔
    behind id second (job.archives root folder earlier) < job.retainCopies

end Job

theorem mem_pruneCronCopies {names : List Bytes} {retain : ℕ} (hnames : names.Nodup)
    (hretain : retain ≠ 0) (name : Bytes) :
    name ∈ pruneCronCopies names retain ↔ name ∈ newest byteOrder retain names := by
  rw [pruneCronCopies, if_neg hretain]
  have hperm := ranked_perm byteOrder names
  have hnodup : (ranked byteOrder names).Nodup := hperm.nodup_iff.mpr hnames
  split_ifs with hfew
  · rw [newest, Nat.sub_eq_zero_of_le hfew, List.drop_zero, hperm.mem_iff]
  · rw [List.mem_filter, decide_eq_true_eq, newest, ← hperm.mem_iff]
    rw [← List.take_append_drop (names.length - retain) (ranked byteOrder names)] at hnodup
    have hapart := (List.nodup_append'.mp hnodup).2.2
    constructor
    · rintro ⟨hmem, hout⟩
      rw [← List.take_append_drop (names.length - retain) (ranked byteOrder names)] at hmem
      exact (List.mem_append.mp hmem).resolve_left hout
    · intro hmem
      exact ⟨List.mem_of_mem_drop hmem, fun htake => hapart htake hmem⟩

/-! ## Runs -/

section Runs
variable {job : Job} {root : DataRoot} {b : Backups} {folder : List Bytes}

/-- A run does to a folder what its sources with that folder do. -/
theorem files_execute : (job.execute root b).files folder =
    (job.begunIn root folder).foldl job.visit (b.files folder) := by
  have hrun (begun : List (List Bytes × ℕ)) (b : Backups) :
      (begun.foldl (job.step root) b).files folder =
        ((begun.filter fun one => folder = folderOf root one.1).map Prod.snd).foldl job.visit
          (b.files folder) := by
    induction begun generalizing b with
    | nil => rfl
    | cons one begun ih =>
        rw [List.foldl_cons, ih, List.filter_cons]
        by_cases hfolder : folder = folderOf root one.1
        · rw [if_pos (by simpa using hfolder), List.map_cons, List.foldl_cons]
          rw [Job.step]
          simp only [if_pos hfolder]
        · rw [if_neg (by simpa using hfolder), Job.step]
          simp only [if_neg hfolder]
  exact hrun job.run.begun b

/-- A run leaves what one cut behind its last source would leave. -/
theorem mem_foldl_visit {names : List Bytes} (hnames : names.Nodup) (hprunes : job.prunes = true)
    (hretain : job.retainCopies ≠ 0) {seconds : List ℕ} (hseconds : seconds ≠ []) (name : Bytes) :
    name ∈ seconds.foldl job.visit names ↔
      name ∈ newest byteOrder job.retainCopies
        ((seconds.flatMap job.additions).foldl addTo names) := by
  induction seconds generalizing names with
  | nil => exact absurd rfl hseconds
  | cons second seconds ih =>
      have hall := foldl_addTo_nodup hnames (job.additions second)
      have hvisit (name : Bytes) : name ∈ job.visit names second ↔
          name ∈ newest byteOrder job.retainCopies
            ((job.additions second).foldl addTo names) := by
        rw [Job.visit, if_pos hprunes, mem_pruneCronCopies hall hretain]
      rw [List.foldl_cons, List.flatMap_cons, List.foldl_append]
      by_cases hlast : seconds = []
      · subst hlast
        exact hvisit name
      · have hnodup := job.visit_nodup hnames second
        rw [ih hnodup hlast, ← mem_newest_foldl_addTo byteOrder_injective hall]
        apply mem_newest_congr byteOrder_injective (foldl_addTo_nodup hnodup _)
          (foldl_addTo_nodup (newest_nodup hall) _)
        intro kept
        rw [mem_foldl_addTo, mem_foldl_addTo, hvisit]

theorem mem_foldl_visit_all {names : List Bytes} (hprunes : ¬job.prunes = true)
    (seconds : List ℕ) (name : Bytes) : name ∈ seconds.foldl job.visit names ↔
      name ∈ (seconds.flatMap job.additions).foldl addTo names := by
  induction seconds generalizing names with
  | nil => rfl
  | cons second seconds ih =>
      rw [List.foldl_cons, List.flatMap_cons, List.foldl_append, ih, Job.visit, if_neg hprunes]

theorem fileName_ne_images (run : Run) (second : ℕ) : run.fileName second ≠ bytes "images.txt" := by
  intro heq
  have hmark := mark_mem_fileName run second
  rw [heq] at hmark
  exact absurd hmark (by decide +kernel)

/-- The file of a source of the run is there if the source leaves it, or if it was. -/
theorem mem_allFiles_of_begun {second : ℕ} (h : second ∈ job.begunIn root folder) :
    job.run.fileName second ∈ job.allFiles root b folder ↔
      job.leaves = true ∨ job.run.fileName second ∈ b.files folder := by
  rw [Job.allFiles, mem_foldl_addTo, or_comm]
  refine or_congr_left ⟨fun hmem => ?_, fun hleaves => ?_⟩
  · obtain ⟨begun, -, hadded⟩ := List.mem_flatMap.mp hmem
    by_contra hleaves
    rw [Job.additions, if_neg hleaves, List.nil_append] at hadded
    split at hadded
    · exact fileName_ne_images job.run second (List.mem_singleton.mp hadded)
    · cases hadded
  · refine List.mem_flatMap.mpr ⟨second, h, List.mem_append_left _ ?_⟩
    rw [if_pos hleaves]
    exact List.mem_singleton_self _

/-- The backups of the job are among the files where the sources leave theirs. -/
theorem mem_allFiles {earlier : List ℕ}
    (hthere : ∀ second ∈ job.begunIn root folder,
      job.leaves = true ∨ job.run.fileName second ∈ b.files folder)
    (hearlier : ∀ second ∈ earlier, job.run.fileName second ∈ b.files folder) {second : ℕ}
    (h : second ∈ job.archives root folder earlier) :
    job.run.fileName second ∈ job.allFiles root b folder := by
  rcases List.mem_append.mp (List.mem_dedup.mp h) with h | h
  · rw [Job.allFiles, mem_foldl_addTo]
    exact .inl (hearlier second h)
  · exact (mem_allFiles_of_begun h).mpr (hthere second h)

/-- A file is left exactly if it is there and few files are behind it. -/
theorem mem_execute_iff (hretain : 1 ≤ job.retainCopies) (hfolder : job.begunIn root folder ≠ [])
    {second : ℕ} : job.run.fileName second ∈ (job.execute root b).files folder ↔
      job.run.fileName second ∈ job.allFiles root b folder ∧
        job.FewBehind root b folder second := by
  rw [files_execute, Job.FewBehind]
  by_cases hprunes : job.prunes = true
  · rw [mem_foldl_visit (b.nodup folder) hprunes (by omega) hfolder,
      mem_newest_iff byteOrder_injective (foldl_addTo_nodup (b.nodup folder) _)]
    exact and_congr_right fun _ => ⟨fun hfew _ => hfew, fun hfew => hfew hprunes⟩
  · rw [mem_foldl_visit_all hprunes]
    exact (and_iff_left fun h => absurd h hprunes).symm

theorem archives_nodup (job : Job) (root : DataRoot) (folder : List Bytes) (earlier : List ℕ) :
    (job.archives root folder earlier).Nodup := List.nodup_dedup _

theorem mem_archives_of_begun {earlier : List ℕ} {second : ℕ}
    (h : second ∈ job.begunIn root folder) : second ∈ job.archives root folder earlier :=
  List.mem_dedup.mpr (List.mem_append_right _ h)

/-- A run keeps the newest backups of the job, and those that it writes, exactly if it writes them
and behind these there are few files of any kind. -/
theorem Job.retained_iff (job : Job) (root : DataRoot) (b : Backups) (folder : List Bytes)
    (earlier : List ℕ) (hretain : 1 ≤ job.retainCopies) (hfolder : job.begunIn root folder ≠ [])
    (hearlier : ∀ second ∈ earlier, job.run.fileName second ∈ b.files folder) :
    job.Retained root b folder earlier ↔ job.Roomy root b folder earlier := by
  have hleft {second : ℕ} : job.run.fileName second ∈ (job.execute root b).files folder ↔ _ :=
    mem_execute_iff hretain hfolder
  have hnewest {second : ℕ} (h : second ∈ job.archives root folder earlier) :
      second ∈ newest id job.retainCopies (job.archives root folder earlier) ↔
        behind id second (job.archives root folder earlier) < job.retainCopies := by
    rw [mem_newest_iff Function.injective_id (archives_nodup job root folder earlier), id]
    exact and_iff_right h
  constructor
  · intro h
    have hthere : ∀ second ∈ job.begunIn root folder,
        job.leaves = true ∨ job.run.fileName second ∈ b.files folder := fun second hbegun =>
      (mem_allFiles_of_begun hbegun).mp (hleft.mp (h.written second hbegun)).1
    refine ⟨hthere, fun second hbegun => (hleft.mp (h.written second hbegun)).2,
      fun second hmem => ?_⟩
    rw [← hnewest hmem, ← h.newest second hmem, hleft]
    exact (and_iff_right (mem_allFiles hthere hearlier hmem)).symm
  · intro h
    refine ⟨fun second hbegun => ?_, fun second hmem => ?_⟩
    · exact hleft.mpr ⟨(mem_allFiles_of_begun hbegun).mpr (h.there second hbegun),
        h.written second hbegun⟩
    · rw [hleft, and_iff_right (mem_allFiles h.there hearlier hmem), h.newest second hmem,
        hnewest hmem]

end Runs

/-! ## Folders with backups only -/

section Only
variable {job : Job} {root : DataRoot} {b : Backups} {folder : List Bytes} {earlier : List ℕ}

theorem fileName_lt_iff (run : Run) {second second' : ℕ} (h : yearOf second < 10000)
    (h' : yearOf second' < 10000) :
    byteOrder (run.fileName second) < byteOrder (run.fileName second') ↔ second < second' := by
  have hmono {s s' : ℕ} (hs : yearOf s < 10000) (hs' : yearOf s' < 10000) (hlt : s < s') :
      byteOrder (run.fileName s) < byteOrder (run.fileName s') := by
    rw [Run.fileName, Run.fileName, byteOrder_append, byteOrder_append]
    apply append_lt_append _ (stamp_lt hlt hs')
    rw [byteOrder, byteOrder, List.length_map, List.length_map, length_stamp hs, length_stamp hs']
  constructor
  · intro hlt
    rcases lt_trichotomy second second' with hless | heq | hmore
    · exact hless
    · exact absurd (heq ▸ hlt) (lt_irrefl _)
    · exact absurd hlt (hmono h' h hmore).not_gt
  · exact hmono h h'

/-- In years of four digits, a folder that has only backups of the job has as many files behind a
backup as there are later ones. -/
theorem behind_allFiles (himages : job.listsImages = false) (hleaves : job.leaves = true)
    (honly : ∀ name ∈ b.files folder, ∃ second ∈ earlier, name = job.run.fileName second)
    (hearlier : ∀ second ∈ earlier, job.run.fileName second ∈ b.files folder)
    (hyears : ∀ second ∈ job.archives root folder earlier, yearOf second < 10000) {second : ℕ}
    (h : second ∈ job.archives root folder earlier) :
    behind byteOrder (byteOrder (job.run.fileName second)) (job.allFiles root b folder) =
      behind id second (job.archives root folder earlier) := by
  have hnames : (job.allFiles root b folder).Perm
      ((job.archives root folder earlier).map job.run.fileName) := by
    apply (List.perm_ext_iff_of_nodup (foldl_addTo_nodup (b.nodup folder) _)
      ((archives_nodup job root folder earlier).map (fileName_injective job.run))).mpr
    intro name
    rw [List.mem_map]
    constructor
    · intro hmem
      rcases (mem_foldl_addTo _).mp hmem with hold | hnew
      · obtain ⟨held, hheld, rfl⟩ := honly name hold
        exact ⟨held, List.mem_dedup.mpr (List.mem_append_left _ hheld), rfl⟩
      · obtain ⟨begun, hbegun, hname⟩ := List.mem_flatMap.mp hnew
        simp only [Job.additions, hleaves, himages, Bool.false_eq_true, if_false, if_true,
          List.append_nil, List.mem_singleton] at hname
        exact ⟨begun, mem_archives_of_begun hbegun, hname.symm⟩
    · rintro ⟨held, hheld, rfl⟩
      exact mem_allFiles (fun _ _ => .inl hleaves) hearlier hheld
  rw [behind_perm hnames]
  exact behind_map fun other hother => fileName_lt_iff job.run (hyears second h) (hyears other hother)

/-- Such a folder keeps what it should when at most so many backups are retained as the run
writes into it, the others being earlier. -/
theorem roomy_of_only_backups (himages : job.listsImages = false) (hprunes : job.prunes = true)
    (hleaves : job.leaves = true)
    (honly : ∀ name ∈ b.files folder, ∃ second ∈ earlier, name = job.run.fileName second)
    (hearlier : ∀ second ∈ earlier, job.run.fileName second ∈ b.files folder)
    (hyears : ∀ second ∈ job.archives root folder earlier, yearOf second < 10000)
    (hbefore : ∀ old ∈ earlier, ∀ second ∈ job.begunIn root folder, old ≤ second)
    (hfew : (job.begunIn root folder).length ≤ job.retainCopies) :
    job.Roomy root b folder earlier := by
  have hsame {second : ℕ} (h : second ∈ job.archives root folder earlier) :
      job.FewBehind root b folder second ↔
        behind id second (job.archives root folder earlier) < job.retainCopies := by
    rw [Job.FewBehind, behind_allFiles himages hleaves honly hearlier hyears h]
    exact ⟨fun hall => hall hprunes, fun hlt _ => hlt⟩
  refine ⟨fun _ _ => .inl hleaves,
    fun second hbegun => (hsame (mem_archives_of_begun hbegun)).mpr ?_,
    fun second hmem => hsame hmem⟩
  -- Later than a backup of the run are others of the run only.
  have hlater : ((job.archives root folder earlier).filter (second < ·)).toFinset ⊆
      (job.begunIn root folder).toFinset.erase second := by
    intro other hother
    obtain ⟨hmem, hlt⟩ := List.mem_filter.mp (List.mem_toFinset.mp hother)
    have hlt : second < other := by simpa using hlt
    rw [Finset.mem_erase, List.mem_toFinset]
    refine ⟨hlt.ne', ?_⟩
    rcases List.mem_append.mp (List.mem_dedup.mp hmem) with hold | hnew
    · exact absurd (hbefore other hold second hbegun) (not_le.mpr hlt)
    · exact hnew
  have hcount := Finset.card_le_card hlater
  rw [Finset.card_erase_of_mem (List.mem_toFinset.mpr hbegun),
    List.toFinset_card_of_nodup ((archives_nodup job root folder earlier).filter _)] at hcount
  have hcard := List.toFinset_card_le (job.begunIn root folder)
  have hpos := List.length_pos_of_mem hbegun
  calc behind id second (job.archives root folder earlier)
      = ((job.archives root folder earlier).filter (second < ·)).length :=
        List.countP_eq_length_filter
    _ ≤ (job.begunIn root folder).toFinset.card - 1 := hcount
    _ < job.retainCopies := by omega

end Only

/-! ## Two jobs -/

section Jobs

/-- The folder of a site. -/
def siteFolder : List Bytes := dataRoot.backups ++ [bytes "website", bytes "site"]

/-- A site that is backed up in the second 2, with one copy to retain. -/
def siteJob : Job where
  run := .resources .website [(bytes "/www/wwwroot/site", 2)]
  retainCopies := 1
  wantsImage := false

/-- The folder of the site with a backup of the second 1. -/
def siteBackups : Backups where
  files := fun folder => if folder = siteFolder then [siteJob.run.fileName 1] else []
  nodup := fun folder => by
    split_ifs
    · exact List.nodup_singleton _
    · exact List.nodup_nil

theorem siteJob_roomy : siteJob.Roomy dataRoot siteBackups siteFolder [1] := by
  have hbegun : siteJob.begunIn dataRoot siteFolder = [2] := by decide +kernel
  apply roomy_of_only_backups rfl rfl rfl
  · intro name hname
    refine ⟨1, List.mem_singleton_self 1, ?_⟩
    exact List.mem_singleton.mp (by simpa [siteBackups] using hname)
  · intro second hsecond
    rw [List.mem_singleton.mp hsecond]
    simp [siteBackups]
  · rw [Job.archives, hbegun]
    decide +kernel
  · rw [hbegun]
    decide
  · rw [hbegun]
    decide

/-- The older backup makes room for the new one. -/
theorem siteJob_retained : siteJob.Retained dataRoot siteBackups siteFolder [1] := by
  have hearlier : ∀ second ∈ [1], siteJob.run.fileName second ∈ siteBackups.files siteFolder := by
    intro second hsecond
    rw [List.mem_singleton.mp hsecond]
    simp [siteBackups]
  exact (siteJob.retained_iff dataRoot siteBackups siteFolder [1] (by decide)
    (by decide +kernel) hearlier).mpr siteJob_roomy

/-- A snapshot with the list of images, one copy of which is retained. -/
def snapshotJob : Job where
  run := .resources .snapshot [(bytes "/data", 0)]
  retainCopies := 1
  wantsImage := true

def noBackups : Backups where
  files := fun _ => []
  nodup := fun _ => List.nodup_nil

/-- The list of images stands behind the snapshot, which is dropped for it. -/
theorem snapshotJob_drops_snapshot : snapshotJob.retainCopies = 1 ∧
    snapshotJob.begunIn dataRoot (dataRoot.backups ++ [bytes "snapshot", bytes "data"]) = [0] ∧
    (snapshotJob.execute dataRoot noBackups).files
      (dataRoot.backups ++ [bytes "snapshot", bytes "data"]) = [bytes "images.txt"] ∧
    ¬snapshotJob.Retained dataRoot noBackups
      (dataRoot.backups ++ [bytes "snapshot", bytes "data"]) [] := by
  have hbegun : snapshotJob.begunIn dataRoot
      (dataRoot.backups ++ [bytes "snapshot", bytes "data"]) = [0] := by decide +kernel
  have hfiles : (snapshotJob.execute dataRoot noBackups).files
      (dataRoot.backups ++ [bytes "snapshot", bytes "data"]) = [bytes "images.txt"] := by
    decide +kernel
  refine ⟨rfl, hbegun, hfiles, fun h => ?_⟩
  have hthere := h.written 0 (by rw [hbegun]; exact List.mem_singleton_self 0)
  rw [hfiles] at hthere
  exact absurd hthere (by decide +kernel)

end Jobs

end WorkMesh.Cron.Archive
