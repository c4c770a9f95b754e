import WorkMesh.Encoding.BigEndian
import WorkMesh.Encoding.InnerPath
import WorkMesh.Sandbox.Workspace

/-!
# What a workspace contains

The directories of a task lie inside the root of the workspaces, and so does every
working directory that a task may name. Cleaning up removes the temporary
directory of the task and nothing that is not below it.
-/

namespace WorkMesh.Sandbox

open Encoding

/-! ## Removals -/

/-- What `CleanupTransient` calls `os.RemoveAll` for, and its result. -/
def WorkspaceLayout.removals (w : WorkspaceLayout) (c : Cleanup) : List Bytes × Option String :=
  match c.context with
  | some e => ([], some e)
  | none =>
  match validateWorkspaceLayout c.host w with
  | some e => ([], some e)
  | none =>
  match c.host.lstat w.temp with
  | .notExist => ([], none)
  | .failed message => ([], some s!"读取任务临时目录失败: {message}")
  | .found symlink dir =>
  if symlink ∨ !dir then ([], some "任务临时目录必须是非符号链接目录")
  else
  match c.removeAll w.temp with
  | some e => ([w.temp], some s!"删除任务临时目录失败: {e}")
  | none =>
  match c.lstatAfter w.temp with
  | .notExist => ([w.temp], none)
  | .failed message => ([w.temp], some s!"确认任务临时目录已删除失败: {message}")
  | .found _ _ => ([w.temp], some "任务临时目录删除后仍然存在")

/-- A path that a removal of some paths may remove. -/
def Removed (calls : List Bytes) (path : Bytes) : Prop :=
  ∃ call ∈ calls, path = call ∨ Inside call path

section Removals
variable (w : WorkspaceLayout) (c : Cleanup)

/-- The removals are those of `CleanupTransient`. -/
theorem removals_snd : (w.removals c).2 = w.cleanupTransient c := by
  unfold WorkspaceLayout.removals WorkspaceLayout.cleanupTransient
  cases c.context with
  | some e => rfl
  | none =>
      dsimp only
      cases validateWorkspaceLayout c.host w with
      | some e => rfl
      | none =>
          dsimp only
          cases c.host.lstat w.temp with
          | notExist => rfl
          | failed message => rfl
          | found symlink dir =>
              dsimp only
              split
              · rfl
              · cases c.removeAll w.temp with
                | some e => rfl
                | none =>
                    dsimp only
                    cases c.lstatAfter w.temp <;> rfl

theorem mem_removals {path : Bytes} (h : path ∈ (w.removals c).1) : path = w.temp := by
  unfold WorkspaceLayout.removals at h
  cases hcontext : c.context with
  | some e =>
      rw [hcontext] at h
      cases h
  | none =>
      rw [hcontext] at h
      dsimp only at h
      repeat' split at h
      all_goals first
        | exact absurd h List.not_mem_nil
        | exact List.mem_singleton.mp h

end Removals

/-! ## Inside the root -/

section Layout
variable {host : Host} {root projectID taskID : Bytes} {layout : WorkspaceLayout}

/-- What was checked of a layout, and its directories as they are written. -/
structure Laid (root projectID taskID : Bytes) (layout : WorkspaceLayout) : Prop where
  root : layout.root = cleanPath (trimSpace root)
  slash : layout.root ≠ [47]
  dot : layout.root ≠ bytes "."
  project : PlainElement (trimSpace projectID)
  task : PlainElement (trimSpace taskID)
  paths : layout.project = joinPath layout.root (trimSpace projectID) ∧
    layout.worktree = joinPath (layout.project ++ 47 :: bytes "worktrees") (trimSpace taskID) ∧
    layout.temp = joinPath (layout.project ++ 47 :: bytes "tmp") (trimSpace taskID) ∧
    layout.cache = joinPath layout.project (bytes "cache") ∧
    layout.artifacts = joinPath (layout.project ++ 47 :: bytes "artifacts") (trimSpace taskID)

theorem laid_of_layout (h : newWorkspaceLayout host root projectID taskID = .ok layout) :
    Laid root projectID taskID layout := by
  unfold newWorkspaceLayout at h
  dsimp only at h
  split_ifs at h with _ hproject htask hroot
  split at h
  · cases h
  split at h
  · cases h
  cases h
  rw [not_or] at hproject htask hroot
  exact ⟨rfl, hroot.1, hroot.2, plain_of_component (by simpa using hproject.1),
    plain_of_component (by simpa using htask.1), rfl, rfl, rfl, rfl, rfl⟩

/-- A directory of the project, for the task or for all of its tasks. -/
theorem Laid.below (h : Laid root projectID taskID layout) (es : List Bytes)
    (hes : ∀ e ∈ es, PlainElement e) :
    cleanPath (layout.root ++ 47 :: [47].intercalate (trimSpace projectID :: es)) =
      layout.root ++ 47 :: [47].intercalate (trimSpace projectID :: es) := by
  refine cleanPath_inside h.root h.slash h.dot (fun e he => ?_) (List.cons_ne_nil _ _)
  rcases List.mem_cons.mp he with rfl | he
  · exact h.project
  · exact hes e he

theorem Laid.project_eq (h : Laid root projectID taskID layout) :
    layout.project = layout.root ++ 47 :: trimSpace projectID := by
  have hclean := h.below [] (by simp)
  rw [List.intercalate_singleton] at hclean
  rw [h.paths.1]
  exact hclean

theorem Laid.shared_eq (h : Laid root projectID taskID layout) {name : Bytes}
    (hname : PlainElement name) :
    joinPath layout.project name =
      layout.root ++ 47 :: [47].intercalate [trimSpace projectID, name] := by
  have hclean := h.below [name] (by simpa using hname)
  rw [joinPath, h.project_eq, List.append_assoc, ← hclean]
  simp [List.intercalate_cons_cons, List.intercalate_singleton]

theorem Laid.task_eq (h : Laid root projectID taskID layout) {name : Bytes}
    (hname : PlainElement name) :
    joinPath (layout.project ++ 47 :: name) (trimSpace taskID) =
      layout.root ++ 47 :: [47].intercalate [trimSpace projectID, name, trimSpace taskID] := by
  have hclean := h.below [name, trimSpace taskID] (by simpa using ⟨hname, h.task⟩)
  rw [joinPath, h.project_eq, ← hclean]
  simp [List.intercalate_cons_cons, List.intercalate_singleton]

end Layout

section Worktree
variable {host : Host} {value : Bytes}

/-- A letter of ASCII is folded alone. -/
theorem toLower_cons {c : UInt8} (hc : c < 0x80) (rest : Bytes) :
    toLower (c :: rest) = lowerLetter c :: toLower rest := by
  have hkelvin : c ≠ 0xe2 := by
    rintro rfl
    exact absurd hc (by decide)
  have hdotted : c ≠ 0xc4 := by
    rintro rfl
    exact absurd hc (by decide)
  cases rest with
  | nil => rfl
  | cons d rest =>
      cases rest with
      | nil =>
          rw [toLower, if_neg fun h => hdotted h.1]
          rfl
      | cons e rest =>
          rw [toLower, if_neg fun h => hkelvin h.1, if_neg fun h => hdotted h.1]

/-- What a text begins with in lower case. -/
theorem toLower_begins (c : UInt8) (rest : Bytes) :
    ∃ d back, toLower (c :: rest) = d :: back ∧ (d = 107 ∨ d = 105 ∨ d = lowerLetter c) := by
  cases rest with
  | nil => exact ⟨_, _, rfl, .inr (.inr rfl)⟩
  | cons d rest =>
      cases rest with
      | nil =>
          rw [toLower]
          split
          · exact ⟨_, _, rfl, .inr (.inl rfl)⟩
          · exact ⟨_, _, rfl, .inr (.inr rfl)⟩
      | cons e rest =>
          rw [toLower]
          split
          · exact ⟨_, _, rfl, .inl rfl⟩
          split
          · exact ⟨_, _, rfl, .inr (.inl rfl)⟩
          · exact ⟨_, _, rfl, .inr (.inr rfl)⟩

/-- Dots and slashes are their own lower case, and of nothing else. -/
theorem begins_of_toLower {text rest : Bytes} {c : UInt8} (hc : c = 46 ∨ c = 47)
    (h : toLower text = c :: rest) : ∃ back, text = c :: back ∧ toLower back = rest := by
  have hletters : ∀ b : UInt8, lowerLetter b = 46 ∨ lowerLetter b = 47 → lowerLetter b = b := by
    intro b
    revert b
    apply forall_byte
    decide +kernel
  cases text with
  | nil => cases h
  | cons b back =>
      obtain ⟨d, behind, hbegins, hd⟩ := toLower_begins b back
      obtain rfl : d = c := (List.cons.inj (hbegins.symm.trans h)).1
      have hlower : d = lowerLetter b := by
        rcases hd with rfl | rfl | hd
        · exact absurd hc (by decide)
        · exact absurd hc (by decide)
        · exact hd
      have hself : d = b := hlower.trans (hletters b (hlower ▸ hc))
      have hascii : b < 0x80 := by
        rw [← hself]
        rcases hc with rfl | rfl
        · decide
        · decide
      rw [toLower_cons hascii] at h
      exact ⟨back, by rw [hself], (List.cons.inj h).2⟩

/-- A root that is refused for working directories is one of those that hold everything. -/
theorem root_of_worktree (h : validateWorktree host value = none) :
    cleanPath (trimSpace host.workspaceRoot) ≠ [47] ∧
      cleanPath (trimSpace host.workspaceRoot) ≠ bytes "." ∧
      rejectSymlinkPath host (cleanPath (trimSpace host.workspaceRoot))
        (cleanPath (trimSpace value)) = none := by
  unfold validateWorktree at h
  dsimp only at h
  split at h
  · cases h
  split at h
  · cases h
  split at h
  · cases h
  split at h
  · cases h
  split at h
  · cases h
  rename_i hbelow
  rw [not_or] at hbelow
  have hbegins : (toLower ((cleanPath (trimSpace host.workspaceRoot)).rdropWhile (· = 47)) ++
      [47]).isPrefixOf (toLower (cleanPath (trimSpace value))) = true := by simpa using hbelow.2
  obtain ⟨rest, hrest⟩ := List.isPrefixOf_iff_prefix.mp hbegins
  have hslash : cleanPath (trimSpace host.workspaceRoot) ≠ [47] := by
    intro hroot
    rw [hroot] at h hrest
    obtain ⟨back, hback, -⟩ := begins_of_toLower (.inr rfl) hrest.symm
    unfold rejectSymlinkPath at h
    split at h
    · cases h
    · cases h
    split at h
    · cases h
    have hclean := cleanPath_cleanPath (trimSpace value)
    have hnone : relativePath (([47] : Bytes).rdropWhile (· = 47))
        (cleanPath (trimSpace value)) = none := by
      unfold relativePath
      dsimp only
      rw [hclean, hback]
      rfl
    rw [hnone] at h
    cases h
  have hdrop := rdropWhile_cleanPath hslash
  rw [hdrop] at h hrest
  refine ⟨hslash, ?_, h⟩
  intro hroot
  rw [hroot] at hrest
  obtain ⟨back, hback, hnext⟩ := begins_of_toLower (.inl rfl) hrest.symm
  obtain ⟨behind, rfl, -⟩ := begins_of_toLower (.inr rfl) hnext
  exact cleanPath_ne_dot_slash _ _ hback

theorem inside_of_worktree (h : validateWorktree host value = none) :
    Inside (cleanPath (trimSpace host.workspaceRoot)) (cleanPath (trimSpace value)) := by
  obtain ⟨hslash, hdot, hlinks⟩ := root_of_worktree h
  unfold rejectSymlinkPath at hlinks
  split at hlinks
  · cases hlinks
  · cases hlinks
  split at hlinks
  · cases hlinks
  split at hlinks
  · cases hlinks
  rename_i rel hrel
  split at hlinks
  · cases hlinks
  rename_i hstays
  rw [not_or, not_or] at hstays
  exact inside_of_relativePath rfl hslash hdot rfl hrel hstays.1 ⟨hstays.2.1, hstays.2.2⟩

end Worktree

/-- The directories of every layout lie strictly inside the root of the workspaces, as does
every working directory that is let in, and cleaning up removes the temporary directory of the
task and what is below it. -/
theorem workspace_contained {host : Host} {root projectID taskID : Bytes}
    {layout : WorkspaceLayout}
    (h : newWorkspaceLayout host root projectID taskID = .ok layout) :
    layout.root = cleanPath (trimSpace root) ∧
    (∀ path ∈ [layout.project, layout.worktree, layout.temp, layout.cache, layout.artifacts],
      Inside layout.root path) ∧
    (∀ value, validateWorktree host value = none →
      Inside (cleanPath (trimSpace host.workspaceRoot)) (cleanPath (trimSpace value))) ∧
    ∀ c path, Removed (layout.removals c).1 path →
      let temp := layout.root ++
        47 :: [47].intercalate [trimSpace projectID, bytes "tmp", trimSpace taskID]
      path = temp ∨ Inside temp path := by
  have hlaid := laid_of_layout h
  obtain ⟨hproject, hworktree, htemp, hcache, hartifacts⟩ := hlaid.paths
  have hnames : PlainElement (bytes "worktrees") ∧ PlainElement (bytes "cache") ∧
      PlainElement (bytes "artifacts") := by
    refine ⟨?_, ?_, ?_⟩ <;> constructor <;> decide
  have hinside : ∀ es : List Bytes, (∀ e ∈ es, PlainElement e) → Inside layout.root
      (layout.root ++ 47 :: [47].intercalate (trimSpace projectID :: es)) := by
    intro es hes
    refine ⟨_, List.cons_ne_nil _ _, fun e he => ?_, rfl⟩
    rcases List.mem_cons.mp he with rfl | he
    · exact hlaid.project
    · exact hes e he
  have htask : ∀ name, PlainElement name → ∀ e ∈ [name, trimSpace taskID], PlainElement e := by
    intro name hname
    simpa using ⟨hname, hlaid.task⟩
  refine ⟨hlaid.root, fun path hpath => ?_, fun value => inside_of_worktree, fun c path hpath => ?_⟩
  · simp only [List.mem_cons, List.not_mem_nil, or_false] at hpath
    rcases hpath with rfl | rfl | rfl | rfl | rfl
    · have hself := hinside [] (by simp)
      rwa [List.intercalate_singleton, ← hlaid.project_eq] at hself
    · rw [hworktree, hlaid.task_eq hnames.1]
      exact hinside _ (htask _ hnames.1)
    · rw [htemp, hlaid.task_eq plain_tmp]
      exact hinside _ (htask _ plain_tmp)
    · rw [hcache, hlaid.shared_eq hnames.2.1]
      exact hinside _ (by simpa using hnames.2.1)
    · rw [hartifacts, hlaid.task_eq hnames.2.2]
      exact hinside _ (htask _ hnames.2.2)
  · obtain ⟨call, hcall, hbelow⟩ := hpath
    rw [mem_removals layout c hcall, htemp, hlaid.task_eq plain_tmp] at hbelow
    exact hbelow

theorem not_inside_self (path : Bytes) : ¬ Inside path path := by
  rintro ⟨fs, -, -, h⟩
  have hlength := congrArg List.length h
  rw [List.length_append, List.length_cons] at hlength
  omega

/-- Files where every directory of a task is there. -/
def fullFiles : Cleanup where
  host := { newHost with lstat := fun _ => .found false true }
  removeAll _ := none
  lstatAfter _ := .notExist

def plainLayout : WorkspaceLayout where
  root := bytes "/w"
  project := bytes "/w/p"
  worktree := bytes "/w/p/worktrees/t"
  temp := bytes "/w/p/tmp/t"
  cache := bytes "/w/p/cache"
  artifacts := bytes "/w/p/artifacts/t"

/-- A root and a project that are written with steps upwards, and blanks around the names. -/
theorem workspace_contained_plain :
    Inside (bytes "/w") (bytes "/w/p/worktrees/t") ∧
    ∀ path, Removed (plainLayout.removals fullFiles).1 path →
      path = bytes "/w/p/tmp/t" ∨ Inside (bytes "/w/p/tmp/t") path := by
  have hlayout : newWorkspaceLayout fullFiles.host (bytes " /x/..//w/. ") (bytes " p")
      (bytes "t ") = .ok plainLayout := by
    decide +kernel
  obtain ⟨-, hinside, -, hremoved⟩ := workspace_contained hlayout
  refine ⟨hinside plainLayout.worktree (by simp), fun path hpath => ?_⟩
  have htemp : plainLayout.root ++ 47 :: [47].intercalate
      [trimSpace (bytes " p"), bytes "tmp", trimSpace (bytes "t ")] = bytes "/w/p/tmp/t" := by
    decide +kernel
  have hbelow := hremoved fullFiles path hpath
  dsimp only at hbelow
  rwa [htemp] at hbelow

/-- Cleaning up removes the temporary directory itself, which is not strictly below itself, and
the root, the first path of a layout, is not strictly inside itself. -/
theorem temp_itself_removed :
    newWorkspaceLayout fullFiles.host (bytes "/w") (bytes "p") (bytes "t") = .ok plainLayout ∧
    Removed (plainLayout.removals fullFiles).1 (bytes "/w/p/tmp/t") ∧
    ¬ Inside (bytes "/w/p/tmp/t") (bytes "/w/p/tmp/t") ∧
    ¬ Inside (bytes "/w") plainLayout.root := by
  have hcalls : (plainLayout.removals fullFiles).1 = [bytes "/w/p/tmp/t"] := by decide +kernel
  refine ⟨by decide +kernel, ?_, not_inside_self _, not_inside_self _⟩
  rw [hcalls]
  exact ⟨_, List.mem_singleton_self _, .inl rfl⟩

end WorkMesh.Sandbox
