import WorkMesh.Encoding.RootedPath
import WorkMesh.Encoding.Timestamp

/-!
# Where a backup is written

A backup job writes one file for each of its sources: into a folder that is
built from the names of the job or of the source, under the second in which the
source is begun. Two sources have different files unless they are begun in one
second and share the folder; folders are shared because a name is cut down to
the letters, digits and signs that are safe in one.
-/

namespace WorkMesh.Cron.Archive

open Encoding

/-- What `cronSafeName` keeps of a name. -/
def isSafe (c : UInt8) : Bool :=
  97 ≤ c && c ≤ 122 || 65 ≤ c && c ≤ 90 || 48 ≤ c && c ≤ 57 || c = 45 || c = 95

def cronSafeName (value : Bytes) : Bytes :=
  if trimSpace value = [] then bytes "job"
  else if (trimSpace value).filter isSafe = [] then bytes "job"
  else (trimSpace value).filter isSafe

/-- The folder that `WORKMESH_DATA_DIR` names, as an absolute path. -/
structure DataRoot where
  elements : List Bytes
  plain : ∀ e ∈ elements, PlainElement e

/-- `cronBackupRoot`, by its elements. -/
def DataRoot.backups (root : DataRoot) : List Bytes := root.elements ++ [bytes "backups"]

/-- `filepath.Join` behind a rooted path. -/
def joinRooted (root : List Bytes) (elems : List Bytes) : Bytes :=
  cleanPath (rootedPath root ++ 47 :: [47].intercalate (elems.filter (· ≠ [])))

/-- The jobs of `executeArchiveJob`. -/
inductive ArchiveType where
  | directory
  | log
  deriving DecidableEq

/-- The jobs of `executeResourceArchive`. -/
inductive ResourceType where
  | website
  | app
  | snapshot
  deriving DecidableEq

def ArchiveType.text : ArchiveType → Bytes
  | directory => bytes "directory"
  | log => bytes "log"

def ResourceType.text : ResourceType → Bytes
  | website => bytes "website"
  | app => bytes "app"
  | snapshot => bytes "snapshot"

/-- `cronDatabaseTarget` -/
structure DatabaseTarget where
  id : ℤ
  name : Bytes
  type : Bytes
  instanceName : Bytes
  deriving DecidableEq

/-- One run of a job: its sources in their order, each with the second it is begun in. -/
inductive Run where
  | archive (type : ArchiveType) (name : Bytes) (second : ℕ)
  | resources (type : ResourceType) (begun : List (Bytes × ℕ))
  | cutWebsiteLog (begun : List (Bytes × ℕ))
  | databases (begun : List (DatabaseTarget × ℕ))

/-- The names that `executeDatabaseCron` joins for a database. -/
def DatabaseTarget.parts (target : DatabaseTarget) : List Bytes :=
  [bytes "databases", target.type, target.instanceName, target.name]

/-- The names that are joined for the folder of each source, with the second. -/
def Run.begun : Run → List (List Bytes × ℕ)
  | archive type name second => [([type.text, cronSafeName name], second)]
  | resources type begun =>
      begun.map fun source => ([type.text, cronSafeName (basePath source.1)], source.2)
  | cutWebsiteLog begun =>
      begun.map fun site => ([bytes "cut-website-log", cronSafeName (basePath site.1)], site.2)
  | databases begun => begun.map fun target => (target.1.parts, target.2)

def Run.extension : Run → Bytes
  | archive .. => bytes ".tar.gz"
  | resources .. => bytes ".tar.gz"
  | cutWebsiteLog .. => bytes ".tar.gz"
  | databases .. => bytes ".dump"

/-- The name of the file that is written in a second. -/
def Run.fileName (run : Run) (second : ℕ) : Bytes := stamp second ++ run.extension

/-- The files that a run writes, in its order. -/
def Run.artifacts (run : Run) (root : DataRoot) : List Bytes :=
  run.begun.map fun begun => joinRooted root.backups (begun.1 ++ [run.fileName begun.2])

/-- No two sources are written to one file. -/
def Run.Distinct (run : Run) (root : DataRoot) : Prop :=
  (run.artifacts root).Pairwise (· ≠ ·)

/-- The elements of the folder that `filepath.Join` gives for some names. -/
def folderOf (root : DataRoot) (parts : List Bytes) : List Bytes :=
  ((elements ([47].intercalate (parts.filter (· ≠ [])))).foldl (cleanElement true)
    root.backups.reverse).reverse

/-- Sources that are begun in one second have different names for their folders. -/
def Run.Apart (run : Run) (root : DataRoot) : Prop :=
  match run with
  | archive .. => True
  | resources _ begun => begun.Pairwise fun a b =>
      a.2 = b.2 → cronSafeName (basePath a.1) ≠ cronSafeName (basePath b.1)
  | cutWebsiteLog begun => begun.Pairwise fun a b =>
      a.2 = b.2 → cronSafeName (basePath a.1) ≠ cronSafeName (basePath b.1)
  | databases begun => begun.Pairwise fun a b =>
      a.2 = b.2 → folderOf root a.1.parts ≠ folderOf root b.1.parts

/-! ## Names and folders -/

section Folders
variable {root : DataRoot} {parts : List Bytes} {file : Bytes}

theorem isSafe_ne_slash {c : UInt8} (h : isSafe c = true) : c ≠ 47 ∧ c ≠ 46 := by
  constructor <;> rintro rfl <;> exact absurd h (by decide)

theorem plainElement_of_safe {e : Bytes} (hne : e ≠ []) (h : ∀ c ∈ e, isSafe c = true) :
    PlainElement e where
  ne_nil := hne
  slash := fun hmem => (isSafe_ne_slash (h 47 hmem)).1 rfl
  ne_dot := by
    rintro rfl
    exact (isSafe_ne_slash (h 46 (by decide))).2 rfl
  ne_dots := by
    rintro rfl
    exact (isSafe_ne_slash (h 46 (by decide))).2 rfl

/-- Whatever the name is, what is made of it names a folder. -/
theorem plainElement_cronSafeName (value : Bytes) : PlainElement (cronSafeName value) := by
  have hjob : PlainElement (bytes "job") := plainElement_of_safe (by decide) (by decide +kernel)
  rw [cronSafeName]
  split_ifs with hempty hnone
  · exact hjob
  · exact hjob
  · exact plainElement_of_safe hnone fun c hc => (List.mem_filter.mp hc).2

theorem DataRoot.plain_backups (root : DataRoot) : ∀ e ∈ root.backups, PlainElement e := by
  intro e he
  rcases List.mem_append.mp he with he | he
  · exact root.plain e he
  · rw [List.mem_singleton.mp he]
    exact plainElement_of_safe (by decide) (by decide +kernel)

theorem plain_folderOf (root : DataRoot) (parts : List Bytes) :
    ∀ e ∈ folderOf root parts, PlainElement e := by
  intro e he
  apply plain_foldl_cleanElement (fun e he => mem_elements he) _ e (List.mem_reverse.mp he)
  exact fun e he => root.plain_backups e (List.mem_reverse.mp he)

/-- The file of a source is one in its folder. -/
theorem joinRooted_append (hfile : PlainElement file) :
    joinRooted root.backups (parts ++ [file]) = rootedPath (folderOf root parts ++ [file]) := by
  have hkept : (parts ++ [file]).filter (· ≠ []) = parts.filter (· ≠ []) ++ [file] := by
    rw [List.filter_append]
    simp [hfile.ne_nil]
  have helements : elements ([47].intercalate (parts.filter (· ≠ []) ++ [file])) =
      elements ([47].intercalate (parts.filter (· ≠ []))) ++ [file] := by
    rw [elements_joined, elements_joined, List.flatMap_append, List.flatMap_singleton,
      elements_single hfile.ne_nil hfile.slash]
  rw [joinRooted, cleanPath_eq_rootedPath (isRooted_append isRooted_rootedPath _),
    elements_append, elements_rootedPath root.plain_backups, hkept, helements, List.foldl_append,
    List.foldl_append, foldl_cleanElement_plain true [] root.plain_backups, List.append_nil,
    List.foldl_cons, List.foldl_nil, cleanElement_plain true _ hfile, List.reverse_cons, folderOf]

/-- Plain names are the elements of the folder behind the backups. -/
theorem folderOf_plain (h : ∀ e ∈ parts, PlainElement e) :
    folderOf root parts = root.backups ++ parts := by
  have hkept : parts.filter (· ≠ []) = parts := by
    rw [List.filter_eq_self]
    intro e he
    simpa using (h e he).ne_nil
  rw [folderOf, hkept, elements_intercalate fun e he => ⟨(h e he).ne_nil, (h e he).slash⟩,
    foldl_cleanElement_plain true _ h, List.reverse_append, List.reverse_reverse,
    List.reverse_reverse]

end Folders

/-! ## The files of a run -/

section Files
variable {root : DataRoot}

theorem mark_mem_fileName (run : Run) (second : ℕ) : 84 ∈ run.fileName second :=
  List.mem_append_left _ (mark_mem_stamp second)

theorem plainElement_fileName (run : Run) (second : ℕ) : PlainElement (run.fileName second) := by
  have hmark := mark_mem_fileName run second
  refine ⟨List.ne_nil_of_mem hmark, ?_, ?_, ?_⟩
  · intro hslash
    rcases List.mem_append.mp hslash with h | h
    · exact absurd (le_of_mem_stamp h) (by decide)
    · have hextension : run.extension = bytes ".tar.gz" ∨ run.extension = bytes ".dump" := by
        cases run
        · exact .inl rfl
        · exact .inl rfl
        · exact .inl rfl
        · exact .inr rfl
      rcases hextension with heq | heq
      · rw [heq] at h
        exact absurd h (by decide +kernel)
      · rw [heq] at h
        exact absurd h (by decide +kernel)
  · intro hdot
    rw [hdot] at hmark
    exact absurd hmark (by decide +kernel)
  · intro hdots
    rw [hdots] at hmark
    exact absurd hmark (by decide +kernel)

theorem fileName_injective (run : Run) : Function.Injective run.fileName := fun _ _ h =>
  stamp_injective (List.append_cancel_right h)

/-- Two sources of a run have one file exactly if they are begun in one second and have one
folder. -/
theorem artifact_eq_iff (run : Run) (a b : List Bytes × ℕ) :
    joinRooted root.backups (a.1 ++ [run.fileName a.2]) =
        joinRooted root.backups (b.1 ++ [run.fileName b.2]) ↔
      a.2 = b.2 ∧ folderOf root a.1 = folderOf root b.1 := by
  have hplain (begun : List Bytes × ℕ) :
      ∀ e ∈ folderOf root begun.1 ++ [run.fileName begun.2], PlainElement e := by
    intro e he
    rcases List.mem_append.mp he with he | he
    · exact plain_folderOf root begun.1 e he
    · rw [List.mem_singleton.mp he]
      exact plainElement_fileName run begun.2
  rw [joinRooted_append (plainElement_fileName run a.2),
    joinRooted_append (plainElement_fileName run b.2)]
  constructor
  · intro h
    have helements := rootedPath_injective (hplain a) (hplain b) h
    obtain ⟨hfolder, hfile⟩ := List.append_inj' helements
      (by rw [List.length_singleton, List.length_singleton])
    exact ⟨fileName_injective run (List.singleton_inj.mp hfile), hfolder⟩
  · rintro ⟨hsecond, hfolder⟩
    rw [hsecond, hfolder]

theorem distinct_iff_folders (run : Run) : run.Distinct root ↔
    run.begun.Pairwise fun a b => a.2 = b.2 → folderOf root a.1 ≠ folderOf root b.1 := by
  rw [Run.Distinct, Run.artifacts, List.pairwise_map]
  simp only [ne_eq, artifact_eq_iff, not_and]

/-- The folder that is named by a fixed name and a safe one. -/
theorem folderOf_safe_eq_iff {kind : Bytes} (hkind : PlainElement kind) (a b : Bytes) :
    folderOf root [kind, cronSafeName a] = folderOf root [kind, cronSafeName b] ↔
      cronSafeName a = cronSafeName b := by
  have hplain (value : Bytes) : ∀ e ∈ [kind, cronSafeName value], PlainElement e := by
    simp only [List.mem_cons, List.not_mem_nil, or_false]
    rintro e (rfl | rfl)
    · exact hkind
    · exact plainElement_cronSafeName value
  rw [folderOf_plain (hplain a), folderOf_plain (hplain b), List.append_cancel_left_eq,
    List.cons.injEq, List.cons.injEq]
  simp

theorem ResourceType.plainElement_text (type : ResourceType) : PlainElement type.text := by
  cases type <;> exact plainElement_of_safe (by decide +kernel) (by decide +kernel)

/-- Databases whose names are plain have one folder only if they have the same names. -/
theorem DatabaseTarget.folderOf_eq_iff {a b : DatabaseTarget} (ha : ∀ e ∈ a.parts, PlainElement e)
    (hb : ∀ e ∈ b.parts, PlainElement e) :
    folderOf root a.parts = folderOf root b.parts ↔
      a.type = b.type ∧ a.instanceName = b.instanceName ∧ a.name = b.name := by
  rw [folderOf_plain ha, folderOf_plain hb, List.append_cancel_left_eq]
  simp [DatabaseTarget.parts]

/-- The sources of a run have files of their own exactly if those that are begun in one second
have different names for their folders. -/
theorem Run.distinct_iff (run : Run) (root : DataRoot) : run.Distinct root ↔ run.Apart root := by
  have hlog : PlainElement (bytes "cut-website-log") :=
    plainElement_of_safe (by decide +kernel) (by decide +kernel)
  rw [distinct_iff_folders]
  cases run with
  | archive type name second => exact iff_of_true (List.pairwise_singleton _ _) trivial
  | resources type begun =>
      rw [Run.begun, List.pairwise_map]
      simp only [ne_eq, folderOf_safe_eq_iff type.plainElement_text]
      exact Iff.rfl
  | cutWebsiteLog begun =>
      rw [Run.begun, List.pairwise_map]
      simp only [ne_eq, folderOf_safe_eq_iff hlog]
      exact Iff.rfl
  | databases begun =>
      rw [Run.begun, List.pairwise_map]
      exact Iff.rfl

/-- Two sites whose names differ in a dot only. -/
def dottedSites : Run :=
  .resources .website [(bytes "/www/wwwroot/a.com", 0), (bytes "/www/wwwroot/acom", 0)]

def dataRoot : DataRoot where
  elements := [bytes "data"]
  plain := fun e he => by
    rw [List.mem_singleton.mp he]
    exact plainElement_of_safe (by decide) (by decide +kernel)

/-- The second site's backup is written over the first one's. -/
theorem dottedSites_overwrite :
    bytes "/www/wwwroot/a.com" ≠ bytes "/www/wwwroot/acom" ∧ ¬dottedSites.Distinct dataRoot := by
  refine ⟨by decide +kernel, ?_⟩
  rw [Run.Distinct]
  decide +kernel

end Files

end WorkMesh.Cron.Archive
