import WorkMesh.Encoding.RootedPath
import WorkMesh.Encoding.Search
import WorkMesh.Sandbox.Following

/-!
# The workspace of a task

A task that belongs to a project has directories below the root of the workspaces, named
after the project and the task. Destroying the task removes its temporary directory, with
checks of its own on both names.

A task may be created with a name that these checks refuse: the pattern of tasks allows a
colon, that of directories does not, and the project's name is not checked at all when a
caller gives it as `workspaceRef`. Such a task waits for a human for ever.
-/

namespace WorkMesh.Sandbox

open Encoding

/-- `workspaceComponentPattern`. -/
def isWorkspaceComponent : Bytes → Bool
  | [] => false
  | c :: rest =>
      isTaskIDStart c && rest.length ≤ 127 &&
        rest.all fun d => isTaskIDStart d || d = 46 || d = 95 || d = 45

structure WorkspaceLayout where
  root : Bytes
  project : Bytes
  worktree : Bytes
  temp : Bytes
  cache : Bytes
  artifacts : Bytes
deriving DecidableEq

/-- The root of the workspaces is a directory and no link, `none` when there is no objection. -/
def checkRootDirectory (host : Host) (root : Bytes) : Option String :=
  match host.lstat root with
  | .notExist => some "workspace root 不可用: file does not exist"
  | .failed message => some s!"workspace root 不可用: {message}"
  | .found symlink dir =>
      if symlink ∨ !dir then some "workspace root 必须是非符号链接目录" else none

/-- `NewWorkspaceLayout`. -/
def newWorkspaceLayout (host : Host) (root projectID taskID : Bytes) :
    Except String WorkspaceLayout :=
  let root := trimSpace root
  let projectID := trimSpace projectID
  let taskID := trimSpace taskID
  if root = [] ∨ !isAbsolutePath root then .error "workspace root 必须是绝对路径"
  else if !isWorkspaceComponent projectID ∨ projectID = bytes "." ∨ projectID = bytes ".." then
    .error "projectId 不是安全标识"
  else if !isWorkspaceComponent taskID ∨ taskID = bytes "." ∨ taskID = bytes ".." then
    .error "taskId 不是安全标识"
  else
  let root := cleanPath root
  if root = [47] ∨ root = bytes "." then .error "workspace root 不能是文件系统根目录"
  else
  match checkRootDirectory host root with
  | some e => .error e
  | none =>
  let project := joinPath root projectID
  match rejectSymlinkPath host root project with
  | some e => .error s!"项目 workspace 路径不安全: {e}"
  | none => .ok
      { root, project
        worktree := joinPath (project ++ 47 :: bytes "worktrees") taskID
        temp := joinPath (project ++ 47 :: bytes "tmp") taskID
        cache := joinPath project (bytes "cache")
        artifacts := joinPath (project ++ 47 :: bytes "artifacts") taskID }

/-- `validateWorkspaceLayout`, `none` when it has no objection. -/
def validateWorkspaceLayout (host : Host) (w : WorkspaceLayout) : Option String :=
  let root := cleanPath (trimSpace w.root)
  let project := cleanPath (trimSpace w.project)
  let temp := cleanPath (trimSpace w.temp)
  if root = bytes "." ∨ !isAbsolutePath root ∨ root = [47] then
    some "workspace root 不能是文件系统根目录"
  else
  match checkRootDirectory host root with
  | some e => some e
  | none =>
  match (relativePath root project).filter isWorkspaceComponent with
  | none => some "项目 workspace 路径结构无效"
  | some _ =>
  match relativePath project temp with
  | none => some "任务临时目录路径结构无效"
  | some rel =>
  let parts := rel.splitOn 47
  if parts.length ≠ 2 ∨ parts[0]? ≠ some (bytes "tmp") ∨ !parts[1]?.any isWorkspaceComponent then
    some "任务临时目录必须是项目 tmp 下的任务子目录"
  else
  match rejectSymlinkPath host root project with
  | some e => some e
  | none => rejectSymlinkPath host root temp

/-- The files when a task is destroyed: what is there before, how a removal ends, and what
is there after it. `context` is the error of the context of the call. -/
structure Cleanup where
  host : Host
  context : Option String := none
  removeAll : Bytes → Option String
  lstatAfter : Bytes → Lstat

/-- `CleanupTransient`, `none` when it succeeds. -/
def WorkspaceLayout.cleanupTransient (w : WorkspaceLayout) (c : Cleanup) : Option String :=
  match c.context with
  | some e => some e
  | none =>
  match validateWorkspaceLayout c.host w with
  | some e => some e
  | none =>
  match c.host.lstat w.temp with
  | .notExist => none
  | .failed message => some s!"读取任务临时目录失败: {message}"
  | .found symlink dir =>
  if symlink ∨ !dir then some "任务临时目录必须是非符号链接目录"
  else
  match c.removeAll w.temp with
  | some e => some s!"删除任务临时目录失败: {e}"
  | none =>
  match c.lstatAfter w.temp with
  | .notExist => none
  | .failed message => some s!"确认任务临时目录已删除失败: {message}"
  | .found _ _ => some "任务临时目录删除后仍然存在"

/-- The part of `Destroy` that follows the backend, for a task with a workspace. -/
def Cleanup.workspace (c : Cleanup) (workspaceRef taskID : Bytes) : Option String :=
  match newWorkspaceLayout c.host c.host.workspaceRoot workspaceRef taskID with
  | .error e => some s!"任务 workspace 清理前置校验失败: {e}"
  | .ok layout => layout.cleanupTransient c

/-- `Destroy` over the files, with the answer of the backend. -/
def TaskProvider.destroyOver (p : TaskProvider) (c : Cleanup) (id : Bytes)
    (answer : Option String) : TaskProvider × Except TaskError Unit :=
  match p.destroyBegin id with
  | .error e => (p, .error e)
  | .ok h => p.destroyEnd id h answer (c.workspace h.workspaceRef h.taskID)

/-! ## The two patterns -/

section Patterns
variable {id : Bytes}

theorem isTaskIDStart_slash : isTaskIDStart 47 = false ∧ isTaskIDStart 46 = false := by
  decide

/-- A component stays an element of a path. -/
theorem plain_of_component (h : isWorkspaceComponent id = true) : PlainElement id := by
  cases id with
  | nil => simp [isWorkspaceComponent] at h
  | cons c rest =>
      simp only [isWorkspaceComponent, Bool.and_eq_true, List.all_eq_true] at h
      obtain ⟨⟨hstart, -⟩, hrest⟩ := h
      have hdot : c ≠ 46 := by
        rintro rfl
        rw [isTaskIDStart_slash.2] at hstart
        cases hstart
      refine ⟨List.cons_ne_nil c rest, ?_, ?_, ?_⟩
      · intro hmem
        obtain rfl | hmem := List.mem_cons.mp hmem
        · rw [isTaskIDStart_slash.1] at hstart
          cases hstart
        · have hslash := hrest 47 hmem
          rw [isTaskIDStart_slash.1] at hslash
          simp at hslash
      · intro heq
        exact hdot (List.cons.inj heq).1
      · intro heq
        exact hdot (List.cons.inj heq).1

/-- The name of a task is one of a directory exactly if it has no colon. -/
theorem component_iff_of_taskID (h : isTaskID id = true) :
    isWorkspaceComponent id = true ↔ 58 ∉ id := by
  cases id with
  | nil => simp [isTaskID] at h
  | cons c rest =>
      simp only [isTaskID, Bool.and_eq_true, decide_eq_true_eq, List.all_eq_true] at h
      obtain ⟨⟨hstart, hlength⟩, hrest⟩ := h
      have hcolon : isTaskIDStart 58 = false := by decide
      constructor
      · intro hcomponent hmem
        simp only [isWorkspaceComponent, Bool.and_eq_true, List.all_eq_true] at hcomponent
        obtain rfl | hmem := List.mem_cons.mp hmem
        · rw [hcolon] at hstart
          cases hstart
        · have hbad := hcomponent.2 58 hmem
          rw [hcolon] at hbad
          simp at hbad
      · intro hnone
        simp only [isWorkspaceComponent, Bool.and_eq_true, decide_eq_true_eq, List.all_eq_true]
        refine ⟨⟨hstart, hlength.trans (by decide)⟩, ?_⟩
        intro d hd
        have hne : d ≠ 58 := fun heq => hnone (List.mem_cons_of_mem _ (heq ▸ hd))
        simpa [hne] using hrest d hd

/-- The ends of a component are no blanks. -/
theorem printable_of_component (h : isWorkspaceComponent id = true) :
    ∀ c ∈ id, isPrintable c = true := by
  have hstart : ∀ c : UInt8, (isTaskIDStart c || c = 46 || c = 95 || c = 45) = true →
      isPrintable c = true := by
    decide +kernel
  cases id with
  | nil => simp
  | cons c rest =>
      simp only [isWorkspaceComponent, Bool.and_eq_true, List.all_eq_true] at h
      intro d hd
      obtain rfl | hd := List.mem_cons.mp hd
      · exact hstart d (by simp [h.1.1])
      · exact hstart d (by simpa using h.2 d hd)

end Patterns

/-! ## Cleaning up -/

section Cleanup
variable (c : Cleanup) (workspaceRef taskID : Bytes)

/-- The directories below the root that the removal goes through, as they are written. -/
def Cleanup.root : Bytes := cleanPath (trimSpace c.host.workspaceRoot)

def Cleanup.project : Bytes := joinPath c.root (trimSpace workspaceRef)

def Cleanup.temp : Bytes := joinPath (c.project workspaceRef ++ 47 :: bytes "tmp") taskID

/-- The files permit to remove the directory: the root of the workspaces is an absolute path
to a directory whose name does not end in a blank, no element of the way down is a link or
anything but a directory, and what is removed is gone. -/
structure Permits : Prop where
  live : c.context = none
  rooted : isRooted (trimSpace c.host.workspaceRoot) = true
  below : c.root ≠ [47]
  trimmed : trimSpace c.root = c.root
  root : c.host.lstat c.root = .found false true
  dirs : ∀ path ∈ [c.project workspaceRef, joinPath (c.project workspaceRef) (bytes "tmp"),
    c.temp workspaceRef taskID], c.host.lstat path = .notExist ∨ c.host.lstat path = .found false true
  removed : c.removeAll (c.temp workspaceRef taskID) = none ∧
    c.lstatAfter (c.temp workspaceRef taskID) = .notExist

end Cleanup

section Links
variable {host : Host} {es fs : List Bytes}

/-- A way down that has no links is not refused. -/
theorem rejectLinks_none (h : ∀ e ∈ es ++ fs, PlainElement e)
    (hdirs : ∀ gs, gs ≠ [] → gs <+: fs → host.lstat (rootedPath (es ++ gs)) = .notExist ∨
      host.lstat (rootedPath (es ++ gs)) = .found false true) :
    rejectLinks host (rootedPath es) fs = none := by
  induction fs generalizing es with
  | nil => rfl
  | cons e fs ih =>
      have hes : ∀ e ∈ es, PlainElement e := fun e he => h e (List.mem_append_left _ he)
      have he : PlainElement e := h e (List.mem_append_right _ List.mem_cons_self)
      simp only [rejectLinks, joinPath_rootedPath hes he]
      obtain hlstat | hlstat := hdirs [e] (List.cons_ne_nil e []) ⟨fs, rfl⟩
      · rw [hlstat]
      · rw [hlstat]
        simp only [Bool.false_eq_true, if_false]
        apply ih
        · simpa using h
        · intro gs hgs hbegins
          have hlonger := hdirs (e :: gs) (List.cons_ne_nil e gs)
            (List.cons_prefix_cons.mpr ⟨rfl, hbegins⟩)
          simpa using hlonger

/-- The check of a way down from the root. -/
theorem rejectSymlinkPath_none (h : ∀ e ∈ es ++ fs, PlainElement e) (hfs : fs ≠ [])
    (hroot : host.lstat (rootedPath es) = .found false true)
    (hdirs : ∀ gs, gs ≠ [] → gs <+: fs → host.lstat (rootedPath (es ++ gs)) = .notExist ∨
      host.lstat (rootedPath (es ++ gs)) = .found false true) :
    rejectSymlinkPath host (rootedPath es) (rootedPath (es ++ fs)) = none := by
  have hsplit : ([47].intercalate fs).splitOn 47 = fs :=
    List.splitOn_intercalate 47 (fun e he => (h e (List.mem_append_right _ he)).slash) hfs
  have hup : ∀ e rest, fs = e :: rest → e ≠ bytes "." ∧ e ≠ bytes ".." := by
    intro e rest heq
    have he := h e (List.mem_append_right _ (heq ▸ List.mem_cons_self))
    exact ⟨he.ne_dot, he.ne_dots⟩
  have hfirst : ¬ ([47].intercalate fs = bytes "." ∨ (bytes "../").isPrefixOf ([47].intercalate fs) ∨
      [47].intercalate fs = bytes "..") := by
    rintro (hdot | hbegins | hdots)
    · have hlist := congrArg (List.splitOn 47) hdot
      rw [hsplit, show (bytes ".").splitOn 47 = [bytes "."] by decide] at hlist
      exact (hup _ _ hlist).1 rfl
    · obtain ⟨back, hback⟩ := List.isPrefixOf_iff_prefix.mp hbegins
      have hlist := congrArg (List.splitOn 47) hback.symm
      rw [hsplit, show bytes "../" ++ back = bytes ".." ++ 47 :: back by rfl,
        List.splitOn_append_cons_self, show (bytes "..").splitOn 47 = [bytes ".."] by decide] at hlist
      exact (hup _ _ hlist).2 rfl
    · have hlist := congrArg (List.splitOn 47) hdots
      rw [hsplit, show (bytes "..").splitOn 47 = [bytes ".."] by decide] at hlist
      exact (hup _ _ hlist).2 rfl
  simp only [rejectSymlinkPath, hroot, Bool.false_eq_true, Bool.not_true, or_self, if_false,
    relativePath_below h hfs, hsplit]
  rw [if_neg hfirst]
  exact rejectLinks_none h hdirs

end Links

section Success
variable {c : Cleanup} {workspaceRef taskID : Bytes}

/-- The directories of a task as paths of elements below the root. -/
structure Below (c : Cleanup) (workspaceRef taskID : Bytes) (es : List Bytes) : Prop where
  plain : ∀ e ∈ es, PlainElement e
  root : c.root = rootedPath es
  project : c.project workspaceRef = rootedPath (es ++ [trimSpace workspaceRef])
  tmp : joinPath (c.project workspaceRef) (bytes "tmp") =
    rootedPath (es ++ [trimSpace workspaceRef, bytes "tmp"])
  temp : c.temp workspaceRef taskID =
    rootedPath (es ++ [trimSpace workspaceRef, bytes "tmp", taskID])

theorem plain_tmp : PlainElement (bytes "tmp") := by
  constructor <;> decide

theorem plain_tail (hproject : isWorkspaceComponent (trimSpace workspaceRef) = true)
    (htask : isWorkspaceComponent taskID = true) :
    ∀ e ∈ [trimSpace workspaceRef, bytes "tmp", taskID], PlainElement e := by
  intro e he
  simp only [List.mem_cons, List.not_mem_nil, or_false] at he
  obtain rfl | rfl | rfl := he
  · exact plain_of_component hproject
  · exact plain_tmp
  · exact plain_of_component htask

theorem exists_below (hrooted : isRooted (trimSpace c.host.workspaceRoot) = true)
    (hproject : isWorkspaceComponent (trimSpace workspaceRef) = true)
    (htask : isWorkspaceComponent taskID = true) : ∃ es, Below c workspaceRef taskID es := by
  obtain ⟨es, hplain, hroot⟩ := exists_rootedPath hrooted
  have hpath : c.project workspaceRef = rootedPath (es ++ [trimSpace workspaceRef]) := by
    rw [Cleanup.project, Cleanup.root, hroot]
    exact joinPath_rootedPath hplain (plain_of_component hproject)
  have htail := plain_tail hproject htask
  have hfront : ∀ e ∈ es ++ [trimSpace workspaceRef], PlainElement e := by
    intro e he
    obtain he | he := List.mem_append.mp he
    · exact hplain e he
    · exact htail e (by simp [List.mem_singleton.mp he])
  refine ⟨es, hplain, hroot, hpath, ?_, ?_⟩
  · rw [hpath, joinPath_rootedPath hfront plain_tmp, List.append_assoc]
    rfl
  · rw [Cleanup.temp, hpath, joinPath, List.append_assoc, List.cons_append,
      @cleanPath_rootedPath_append _ [bytes "tmp", taskID] hfront, List.append_assoc]
    · rfl
    · intro e he
      exact htail e (List.mem_cons_of_mem _ he)
    · rw [elements_append, elements_single plain_tmp.ne_nil plain_tmp.slash,
        elements_single (plain_of_component htask).ne_nil (plain_of_component htask).slash]
      rfl

/-- A path that ends in a component has no blanks to trim. -/
theorem trimSpace_rootedPath {es : List Bytes} {e : Bytes} (h : isWorkspaceComponent e = true) :
    trimSpace (rootedPath (es ++ [e])) = rootedPath (es ++ [e]) := by
  have hne := (plain_of_component h).ne_nil
  have hlast : (rootedPath (es ++ [e])).getLast? = some (e.getLast hne) := by
    rw [getLast?_rootedPath hne, List.getLast?_eq_some_getLast hne]
  exact trimSpace_of_ends (c := 47) (by decide) (printable_of_component h _ (List.getLast_mem hne))
    rfl hlast

/-- A path from the root is absolute, and it is not the one that names the directory itself. -/
theorem rooted_checks (es : List Bytes) :
    isAbsolutePath (rootedPath es) = true ∧ rootedPath es ≠ bytes "." := by
  constructor
  · simp [isAbsolutePath, isRooted_rootedPath]
  · intro heq
    have hhead := congrArg List.head? heq
    rw [rootedPath, List.head?_cons] at hhead
    cases hhead

/-- The directories on the way to the temporary one. -/
theorem Permits.dirs_of_prefix {es : List Bytes} (h : Permits c workspaceRef taskID)
    (hbelow : Below c workspaceRef taskID es) {gs : List Bytes} (hgs : gs ≠ [])
    (hbegins : gs <+: [trimSpace workspaceRef, bytes "tmp", taskID]) :
    c.host.lstat (rootedPath (es ++ gs)) = .notExist ∨
      c.host.lstat (rootedPath (es ++ gs)) = .found false true := by
  have hshort : gs = [trimSpace workspaceRef] ∨ gs = [trimSpace workspaceRef, bytes "tmp"] ∨
      gs = [trimSpace workspaceRef, bytes "tmp", taskID] := by
    simp only [List.prefix_cons_iff, hgs, false_or, List.prefix_nil] at hbegins
    obtain ⟨_, rfl, rfl | ⟨_, rfl, rfl | ⟨_, rfl, rfl⟩⟩⟩ := hbegins
    · exact .inl rfl
    · exact .inr (.inl rfl)
    · exact .inr (.inr rfl)
  obtain rfl | rfl | rfl := hshort
  · rw [← hbelow.project]
    exact h.dirs _ (by simp)
  · rw [← hbelow.tmp]
    exact h.dirs _ (by simp)
  · rw [← hbelow.temp]
    exact h.dirs _ (by simp)

/-- Neither way down is refused. -/
theorem Permits.rejects_none {es : List Bytes} (h : Permits c workspaceRef taskID)
    (hbelow : Below c workspaceRef taskID es)
    (htail : ∀ e ∈ [trimSpace workspaceRef, bytes "tmp", taskID], PlainElement e)
    {gs : List Bytes} (hgs : gs ≠ [])
    (hbegins : gs <+: [trimSpace workspaceRef, bytes "tmp", taskID]) :
    rejectSymlinkPath c.host (rootedPath es) (rootedPath (es ++ gs)) = none := by
  apply rejectSymlinkPath_none _ hgs (hbelow.root ▸ h.root)
  · intro fs hfs hshorter
    exact h.dirs_of_prefix hbelow hfs (hshorter.trans hbegins)
  · intro e he
    obtain he | he := List.mem_append.mp he
    · exact hbelow.plain e he
    · exact htail e (hbegins.subset he)

theorem checkRootDirectory_none {host : Host} {root : Bytes}
    (h : host.lstat root = .found false true) : checkRootDirectory host root = none := by
  simp [checkRootDirectory, h]

/-- With both names proper the layout is made. -/
theorem layout_of_permits (h : Permits c workspaceRef taskID)
    (hproject : isWorkspaceComponent (trimSpace workspaceRef) = true)
    (htask : isWorkspaceComponent taskID = true) (htrim : trimSpace taskID = taskID) :
    ∃ layout, newWorkspaceLayout c.host c.host.workspaceRoot workspaceRef taskID = .ok layout ∧
      layout.root = c.root ∧ layout.project = c.project workspaceRef ∧
      layout.temp = c.temp workspaceRef taskID := by
  obtain ⟨es, hbelow⟩ := exists_below h.rooted hproject htask
  have htail := plain_tail hproject htask
  have habsolute : isAbsolutePath (trimSpace c.host.workspaceRoot) = true := by
    simp [isAbsolutePath, h.rooted]
  have hroot : trimSpace c.host.workspaceRoot ≠ [] := by
    intro hnil
    have hrooted := h.rooted
    rw [hnil] at hrooted
    cases hrooted
  have hproject' := plain_of_component hproject
  have htask' := plain_of_component htask
  have hrejects : rejectSymlinkPath c.host c.root (c.project workspaceRef) = none := by
    rw [hbelow.root, hbelow.project]
    exact h.rejects_none hbelow htail (List.cons_ne_nil _ _) ⟨_, rfl⟩
  have hdot : c.root ≠ bytes "." := by
    rw [hbelow.root]
    exact (rooted_checks es).2
  refine ⟨⟨c.root, c.project workspaceRef, joinPath (c.project workspaceRef ++ 47 :: bytes "worktrees")
    taskID, c.temp workspaceRef taskID, joinPath (c.project workspaceRef) (bytes "cache"),
    joinPath (c.project workspaceRef ++ 47 :: bytes "artifacts") taskID⟩, ?_, rfl, rfl, rfl⟩
  have hchecks : checkRootDirectory c.host (cleanPath (trimSpace c.host.workspaceRoot)) = none :=
    checkRootDirectory_none h.root
  have hlinks : rejectSymlinkPath c.host (cleanPath (trimSpace c.host.workspaceRoot))
      (joinPath (cleanPath (trimSpace c.host.workspaceRoot)) (trimSpace workspaceRef)) = none := hrejects
  have hroots : ¬ (cleanPath (trimSpace c.host.workspaceRoot) = [47] ∨
      cleanPath (trimSpace c.host.workspaceRoot) = bytes ".") := not_or.mpr ⟨h.below, hdot⟩
  simp only [newWorkspaceLayout, htrim, hroot, habsolute, hproject, htask, hproject'.ne_dot,
    hproject'.ne_dots, htask'.ne_dot, htask'.ne_dots, Bool.not_true, Bool.false_eq_true, or_self,
    if_false, if_neg hroots, hchecks, hlinks]
  rfl

/-- The layout that was made passes its check. -/
theorem validate_of_permits (h : Permits c workspaceRef taskID)
    (hproject : isWorkspaceComponent (trimSpace workspaceRef) = true)
    (htask : isWorkspaceComponent taskID = true) {w : WorkspaceLayout} (hroot : w.root = c.root)
    (hdirectory : w.project = c.project workspaceRef)
    (htemp : w.temp = c.temp workspaceRef taskID) : validateWorkspaceLayout c.host w = none := by
  obtain ⟨es, hbelow⟩ := exists_below h.rooted hproject htask
  have htail := plain_tail hproject htask
  have hall : ∀ e ∈ es ++ [trimSpace workspaceRef, bytes "tmp", taskID], PlainElement e := by
    intro e he
    obtain he | he := List.mem_append.mp he
    · exact hbelow.plain e he
    · exact htail e he
  have hone : ∀ e ∈ es ++ [trimSpace workspaceRef], PlainElement e := by
    intro e he
    apply hall e
    obtain he | he := List.mem_append.mp he
    · exact List.mem_append_left _ he
    · exact List.mem_append_right _ (by simp [List.mem_singleton.mp he])
  have hclean : cleanPath (trimSpace w.root) = rootedPath es := by
    rw [hroot, h.trimmed, hbelow.root, cleanPath_rootedPath hbelow.plain]
  have hclean' : cleanPath (trimSpace w.project) = rootedPath (es ++ [trimSpace workspaceRef]) := by
    rw [hdirectory, hbelow.project, trimSpace_rootedPath hproject, cleanPath_rootedPath hone]
  have hsplit : es ++ [trimSpace workspaceRef, bytes "tmp", taskID] =
      (es ++ [trimSpace workspaceRef, bytes "tmp"]) ++ [taskID] := by simp
  have hclean'' : cleanPath (trimSpace w.temp) =
      rootedPath (es ++ [trimSpace workspaceRef, bytes "tmp", taskID]) := by
    rw [htemp, hbelow.temp]
    conv_lhs => rw [hsplit, trimSpace_rootedPath htask, ← hsplit]
    exact cleanPath_rootedPath hall
  have hrelative : relativePath (rootedPath es) (rootedPath (es ++ [trimSpace workspaceRef])) =
      some (trimSpace workspaceRef) := by
    rw [relativePath_below hone (List.cons_ne_nil _ _)]
    simp [List.intercalate]
  have hrelative' : relativePath (rootedPath (es ++ [trimSpace workspaceRef]))
      (rootedPath (es ++ [trimSpace workspaceRef, bytes "tmp", taskID])) =
      some ([47].intercalate [bytes "tmp", taskID]) := by
    have happend : es ++ [trimSpace workspaceRef, bytes "tmp", taskID] =
        (es ++ [trimSpace workspaceRef]) ++ [bytes "tmp", taskID] := by simp
    rw [happend] at hall ⊢
    exact relativePath_below hall (List.cons_ne_nil _ _)
  have hparts : ([47].intercalate [bytes "tmp", taskID]).splitOn 47 = [bytes "tmp", taskID] := by
    apply List.splitOn_intercalate 47 _ (List.cons_ne_nil _ _)
    intro e he
    exact (htail e (List.mem_cons_of_mem _ he)).slash
  have hnotRoot : rootedPath es ≠ [47] := hbelow.root ▸ h.below
  simp only [validateWorkspaceLayout, hclean, hclean', hclean'', (rooted_checks es).1,
    (rooted_checks es).2, hnotRoot, Bool.not_true, Bool.false_eq_true, or_self, if_false,
    checkRootDirectory_none (hbelow.root ▸ h.root), hrelative, hrelative', hparts,
    Option.filter_some, hproject, if_true]
  simp only [List.length_cons, List.length_nil, List.getElem?_cons_zero, List.getElem?_cons_succ,
    Option.any_some, htask, Bool.not_true, Bool.false_eq_true, ne_eq, not_true, or_self, if_false]
  rw [h.rejects_none hbelow htail (List.cons_ne_nil _ _) ⟨_, rfl⟩]
  exact h.rejects_none hbelow htail (List.cons_ne_nil _ _) (List.prefix_refl _)

/-- With both names proper, files that permit it and a live context, the directory is removed. -/
theorem workspace_of_permits (h : Permits c workspaceRef taskID)
    (hproject : isWorkspaceComponent (trimSpace workspaceRef) = true)
    (htask : isWorkspaceComponent taskID = true) (htrim : trimSpace taskID = taskID) :
    c.workspace workspaceRef taskID = none := by
  obtain ⟨layout, hlayout, hroot, hdirectory, htemp⟩ := layout_of_permits h hproject htask htrim
  have hvalid := validate_of_permits h hproject htask hroot hdirectory htemp
  simp only [Cleanup.workspace, hlayout, WorkspaceLayout.cleanupTransient, h.live, hvalid, htemp]
  obtain hlstat | hlstat := h.dirs (c.temp workspaceRef taskID) (by simp)
  · rw [hlstat]
  · simp only [hlstat, Bool.false_eq_true, Bool.not_true, or_self, if_false, h.removed.1, h.removed.2]

/-- With a name that is refused the workspace is never cleaned up. -/
theorem workspace_refused (h : ¬ (isWorkspaceComponent (trimSpace workspaceRef) = true ∧
    isWorkspaceComponent (trimSpace taskID) = true)) : c.workspace workspaceRef taskID ≠ none := by
  have hlayout : ∃ e, newWorkspaceLayout c.host c.host.workspaceRoot workspaceRef taskID = .error e := by
    simp only [newWorkspaceLayout]
    split_ifs with hroot hproject htask
    · exact ⟨_, rfl⟩
    · exact ⟨_, rfl⟩
    · exact ⟨_, rfl⟩
    · exact ⟨_, rfl⟩
    · refine absurd ⟨?_, ?_⟩ h
      · by_contra hbad
        exact hproject (.inl (by simpa using hbad))
      · by_contra hbad
        exact htask (.inl (by simpa using hbad))
  obtain ⟨e, he⟩ := hlayout
  simp [Cleanup.workspace, he]

end Success

section Destroy
variable {creation : Host} {capabilities : Except String SandboxCapabilities} {p p₀ : TaskProvider}
variable {spec checked : TaskSpec} {sandboxID : Bytes} {state : TaskState} {c : Cleanup}

theorem normalized_workspaceRef (policy : RuntimePolicy) :
    policy.normalized.workspaceRef = policy.workspaceRef := by
  rw [RuntimePolicy.normalized]
  split_ifs <;> rfl

/-- What was checked of a task whose creation begins. -/
theorem createBegin_ok (h : p₀.createBegin creation capabilities spec = .ok checked) :
    trimSpace spec.taskID = spec.taskID ∧ isTaskID spec.taskID = true ∧
      checked.taskID = spec.taskID ∧ checked.runtimePolicy = spec.runtimePolicy := by
  rw [TaskProvider.createBegin] at h
  cases hvalid : validateSpec creation spec with
  | some e => simp [hvalid] at h
  | none =>
      have hname := hvalid
      rw [validateSpec, check_eq_none, not_or] at hname
      refine ⟨not_not.mp hname.1.1, by simpa using hname.1.2, ?_⟩
      rw [hvalid] at h
      simp only at h
      split at h
      · cases h
      · split_ifs at h
        · rw [← Except.ok.inj h]
          exact ⟨rfl, rfl⟩
        · split at h
          · cases h
          · split at h
            · cases h
            · rw [← Except.ok.inj h]
              exact ⟨rfl, rfl⟩

/-- Destroying a task whose backend is done comes down to its workspace. -/
theorem destroyOver_destroyed_iff {h : TaskHandle} {id : Bytes} (hlookup : p.tasks.lookup id = some h)
    (hstate : h.state ≠ .running ∧ h.state ≠ .destroyed ∧ h.state ≠ .unknown) :
    (p.destroyOver c id none).1.stateOf id = some .destroyed ↔
      h.workspaceRef = [] ∨ c.workspace h.workspaceRef h.taskID = none := by
  have hold : p.stateOf id = some h.state := TaskProvider.stateOf_eq hlookup
  have hbegin : p.destroyBegin id = .ok h := by
    simp only [TaskProvider.destroyBegin, TaskProvider.copy, hlookup, if_neg hstate.1,
      if_neg hstate.2.1, if_neg hstate.2.2]
  simp only [TaskProvider.destroyOver, hbegin]
  obtain ⟨-, hbad⟩ | ⟨-, ⟨⟨e, hend⟩, hwhy⟩ | ⟨hend, hwhy⟩⟩ :=
    destroyEnd_cases p id h { cleanup := c.workspace h.workspaceRef h.taskID }
  · exact absurd (.inr rfl) hbad
  · rw [hend, stateOf_setState_self hold]
    constructor
    · intro heq
      cases heq
    · rintro (hempty | hdone)
      · exact absurd hempty hwhy.1
      · exact absurd hdone hwhy.2
  · rw [hend, stateOf_setState_self hold]
    refine iff_of_true rfl ?_
    by_contra hnot
    exact hwhy (not_or.mp hnot)

end Destroy

/-- A task that was let in is destroyed, if the backend and the files permit it, exactly if it
has no workspace, or the workspace has a proper name and that of the task has no colon. -/
theorem destroy_reaches_iff {creation : Host} {capabilities : Except String SandboxCapabilities}
    {p p₀ : TaskProvider} {spec checked : TaskSpec} {sandboxID : Bytes} {state : TaskState}
    {c : Cleanup} (hbegin : p₀.createBegin creation capabilities spec = .ok checked)
    (hlookup : p.tasks.lookup spec.taskID = some { newHandle checked sandboxID with state })
    (hstate : state ≠ .running ∧ state ≠ .destroyed ∧ state ≠ .unknown)
    (hpermits : Permits c spec.runtimePolicy.workspaceRef spec.taskID) :
    (p.destroyOver c spec.taskID none).1.stateOf spec.taskID = some .destroyed ↔
      spec.runtimePolicy.workspaceRef = [] ∨
        isWorkspaceComponent (trimSpace spec.runtimePolicy.workspaceRef) = true ∧
          58 ∉ spec.taskID := by
  obtain ⟨htrim, hid, htask, hpolicy⟩ := createBegin_ok hbegin
  rw [destroyOver_destroyed_iff hlookup hstate]
  simp only [newHandle, htask, hpolicy, normalized_workspaceRef, ← component_iff_of_taskID hid]
  apply or_congr_right
  constructor
  · intro hdone
    by_contra hbad
    refine workspace_refused ?_ hdone
    rwa [htrim]
  · rintro ⟨hproject, hcomponent⟩
    exact workspace_of_permits hpermits hproject hcomponent htrim

/-- Files in which the task has left no temporary directory. -/
def newFiles : Cleanup where
  host := newHost
  removeAll _ := none
  lstatAfter _ := .notExist

/-- A task with the limits of the small profile, as it is handed to the backend. -/
def withLimits (spec : TaskSpec) : TaskSpec :=
  { spec with resourceProfile := bytes "small", resourceLimits := ⟨100000, 2 ^ 30, 256, 2 ^ 32⟩ }

/-- A provider with one task, whose sandbox was made and not started. -/
def oneTask (spec : TaskSpec) : TaskProvider :=
  withTask {} { newHandle (withLimits spec) (bytes "sb-1") with state := .created }

theorem destroy_reaches_iff_project :
    ((oneTask projectTask).destroyOver newFiles (bytes "t") none).1.stateOf (bytes "t") =
      some .destroyed := by
  have hpermits : Permits newFiles (bytes "p") (bytes "t") := by
    refine ⟨rfl, ?_, ?_, ?_, ?_, ?_, rfl, rfl⟩
    all_goals decide +kernel
  have hbegin : TaskProvider.createBegin {} newHost (.error "") projectTask =
      .ok (withLimits projectTask) := by
    decide +kernel
  exact (@destroy_reaches_iff _ _ (oneTask projectTask) _ _ _ (bytes "sb-1") .created _
    hbegin (withTask_lookup _) (by decide) hpermits).mpr (by decide)

/-- A task whose name has a colon. -/
def colonTask : TaskSpec :=
  { projectTask with taskID := bytes "t:1", worktree := bytes "/w/p/worktrees/t1" }

/-- It is let in, and destroying it leaves it waiting for a human, also the second time. -/
theorem destroy_never_reaches :
    let once := ((oneTask colonTask).destroyOver newFiles (bytes "t:1") none).1
    TaskProvider.createBegin {} newHost (.error "") colonTask = .ok (withLimits colonTask) ∧
      once.stateOf (bytes "t:1") = some .awaitingHuman ∧
      (once.destroyOver newFiles (bytes "t:1") none).1.stateOf (bytes "t:1") =
        some .awaitingHuman := by
  refine ⟨?_, ?_, ?_⟩
  · decide +kernel
  · decide +kernel
  · decide +kernel

end WorkMesh.Sandbox
