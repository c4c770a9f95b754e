import WorkMesh.Runtime.ExtensionFiles
import WorkMesh.StateMachine.Calls

/-!
# Removing an extension of PHP

`PreparePHPExtensionRemoval` moves the files of an extension aside and edits `php.ini` and `.env`.
The runtime is restarted, and the removal is committed or rolled back. Any call to the file system
and any restart may fail.

## Implementation notes

Paths are given by their elements. Directories and links on the way to a file do not change while
the removal runs. What a failed write leaves in a new file, which is removed then, is not modelled.
-/

namespace WorkMesh.Runtime

open Encoding StateMachine Calls

abbrev Path := List Bytes

/-- What stands at a path: a regular file with its mode, or something else. -/
inductive Entry where
  | file (content : Bytes) (mode : ℕ)
  | other
  deriving DecidableEq

abbrev Disk := Finmap fun _ : Path => Entry

/-- What a file holds. -/
def contentAt (disk : Disk) (p : Path) : Option Bytes :=
  match disk.lookup p with
  | some (.file content _) => some content
  | _ => none

/-- The file system apart from its files: the directories that paths lead to, and the digits that
`os.CreateTemp` makes up last for a name. -/
structure FileSystem where
  resolvedDirectory : Path → Option Path
  evalSymlinks : Path → Option Path
  digits : Disk → Path → Bytes → Bytes
  digits_spec : ∀ disk dir pattern, digits disk dir pattern ≠ [] ∧
    ∀ c ∈ digits disk dir pattern, 48 ≤ c ∧ c ≤ 57

/-! ## The files of a removal -/

structure PHPExtensionRemoval where
  runtimeDir : Path
  extensionDir : Path
  name : Bytes
  moduleFile : Bytes
  extensions : List Bytes

def isWordByte (c : UInt8) : Bool :=
  (65 ≤ c && c ≤ 90) || (97 ≤ c && c ≤ 122) || (48 ≤ c && c ≤ 57) || c = 95

/-- `phpExtensionNamePattern`. -/
def isExtensionName (name : Bytes) : Bool :=
  name ≠ [] && name.length ≤ 64 && name.all isWordByte

/-- `phpModuleFilePattern`. -/
def isModuleFile (name : Bytes) : Bool :=
  let stem := name.take (name.length - 3)
  name = stem ++ bytes ".so" && stem ≠ [] && stem.length ≤ 128 &&
    stem.all fun c => isWordByte c || c = 46 || c = 45

structure Targets where
  root : Path
  module : Path
  ini : Path
  phpINI : Path
  env : Path
deriving DecidableEq

def Targets.all (t : Targets) : List Path := [t.module, t.ini, t.phpINI, t.env]

/-- `checkedRuntimePath` for a name in a directory. -/
def checkedRuntimePath (fs : FileSystem) (root dir : Path) (name : Bytes) : Except Bytes Path :=
  if root <+: dir ++ [name] then
    match fs.evalSymlinks dir with
    | none => .error (bytes "解析 PHP 扩展文件父目录失败")
    | some parent =>
        if root <+: parent then .ok (parent ++ [name])
        else .error (bytes "PHP 扩展文件父目录越界")
  else .error (bytes "PHP 扩展文件路径越界")

/-- The part of `PreparePHPExtensionRemoval` that finds the files. -/
def findTargets (fs : FileSystem) (spec : PHPExtensionRemoval) : Except Bytes Targets :=
  if !isExtensionName spec.name then .error (bytes "PHP 扩展名称无效")
  else if !isModuleFile spec.moduleFile then .error (bytes "PHP 扩展模块文件名无效")
  else
    match fs.resolvedDirectory spec.runtimeDir with
    | none => .error (bytes "解析 PHP 运行时目录失败")
    | some root =>
        match fs.resolvedDirectory spec.extensionDir with
        | none => .error (bytes "解析 PHP 扩展目录失败")
        | some extensionDir =>
            if root <+: extensionDir then do
              let module ← checkedRuntimePath fs root extensionDir spec.moduleFile
              let ini ← checkedRuntimePath fs root (root ++ [bytes "conf", bytes "conf.d"])
                (bytes "docker-php-ext-" ++ spec.name ++ bytes ".ini")
              let phpINI ← checkedRuntimePath fs root (root ++ [bytes "conf"]) (bytes "php.ini")
              let env ← checkedRuntimePath fs root root (bytes ".env")
              pure { root, module, ini, phpINI, env }
            else .error (bytes "PHP 扩展目录越界")

/-! ## Calls -/

def lstat (path : Path) : Calls Disk (Option (Option Entry)) := ask (·.lookup path)

/-- `os.CreateTemp` with a pattern that ends in a star. -/
def createTemp (fs : FileSystem) (dir : Path) (pattern : Bytes) : Calls Disk (Option Path) :=
  call fun disk =>
    let path := dir ++ [pattern ++ fs.digits disk dir pattern]
    if path ∈ disk then none else some (path, disk.insert path (.file [] 0o600))

/-- A call on an open file. -/
def onFile (path : Path) (f : Bytes → ℕ → Entry) : Calls Disk Bool :=
  order fun disk =>
    match disk.lookup path with
    | some (.file content mode) => some (disk.insert path (f content mode))
    | _ => none

def remove (path : Path) : Calls Disk Bool :=
  order fun disk => if path ∈ disk then some (disk.erase path) else none

/-- The files after a renaming. A directory is not replaced. -/
def renamed (old new : Path) (disk : Disk) : Option Disk :=
  match disk.lookup old with
  | none => none
  | some entry =>
      if disk.lookup new = some .other then none else some ((disk.erase old).insert new entry)

def rename (old new : Path) : Calls Disk Bool := order (renamed old new)

/-- A call that leaves the files alone: closing or syncing a file, or a command for the
containers. -/
def attend : Calls Disk Bool := order some

def maxPHPRuntimeConfigBytes : ℕ := 2097152

def readRegularFileLimited (path : Path) : Calls Disk (Option Bytes) := do
  match ← lstat path with
  | some (some (.file content _)) =>
      if maxPHPRuntimeConfigBytes < content.length then return none
      else call fun disk => (contentAt disk path).map fun read => (read, disk)
  | _ => return none

/-- The new file gets its mode and its content and is closed. -/
def fill (path : Path) (content : Bytes) : Calls Disk Bool := do
  if ← onFile path fun old _ => .file old 0o600 then
    if ← onFile path fun _ mode => .file content mode then
      if ← attend then attend
      else
        let _ ← attend
        return false
    else
      let _ ← attend
      return false
  else
    let _ ← attend
    return false

/-- The file that is filled takes the place of the old one. -/
def replaceBy (temporary path : Path) (content : Bytes) : Calls Disk Bool := do
  if ← fill temporary content then rename temporary path else return false

def writeServiceFileAtomic (fs : FileSystem) (path : Path) (content : Bytes) :
    Calls Disk Bool := do
  match ← createTemp fs path.dropLast (bytes ".workmesh-runtime-") with
  | none => return false
  | some temporary =>
      let replaced ← replaceBy temporary path content
      let _ ← remove temporary
      return replaced

/-! ## The transaction -/

structure PHPExtensionRemovalTransaction where
  targets : Targets
  phpINI : Bytes
  env : Bytes
  moved : List (Path × Path)

/-- `stageFile`: what is moved where. -/
def stageFile (fs : FileSystem) (path : Path) :
    Calls Disk (Option (List (Path × Path))) := do
  match ← lstat path with
  | some none => return some []
  | some (some (.file _ _)) =>
      match ← createTemp fs path.dropLast (bytes ".workmesh-php-extension-") with
      | none => return none
      | some backup =>
          if ← attend then
            if ← remove backup then
              if ← rename path backup then return some [(path, backup)] else return none
            else return none
          else
            let _ ← remove backup
            return none
  | _ => return none

/-- The loop of `Rollback`: how many files it could not move back. -/
def putBack : List (Path × Path) → Calls Disk ℕ
  | [] => return 0
  | m :: moved => do
      let done ← rename m.2 m.1
      let failures ← putBack moved
      return if done then failures else failures + 1

/-- `Rollback`: whether all went well. -/
def rollback (fs : FileSystem) (tx : PHPExtensionRemovalTransaction) : Calls Disk Bool := do
  let phpINI ← writeServiceFileAtomic fs tx.targets.phpINI tx.phpINI
  let env ← writeServiceFileAtomic fs tx.targets.env tx.env
  let failures ← putBack tx.moved.reverse
  return phpINI && env && failures = 0

/-- `Commit`. -/
def commit : List (Path × Path) → Calls Disk Unit
  | [] => return ()
  | m :: moved => do
      let _ ← remove m.2
      commit moved

/-- `strings.Join(spec.Extensions, ",")`. -/
def joinExtensions (extensions : List Bytes) : Bytes := [44].intercalate extensions

/-- The part of `PreparePHPExtensionRemoval` behind the checks of the paths. -/
def stageAndEdit (fs : FileSystem) (spec : PHPExtensionRemoval) (t : Targets)
    (phpINI env : Bytes) : Calls Disk (Option PHPExtensionRemovalTransaction) := do
  match ← stageFile fs t.module with
  | none =>
      let _ ← rollback fs ⟨t, phpINI, env, []⟩
      return none
  | some first =>
      match ← stageFile fs t.ini with
      | none =>
          let _ ← rollback fs ⟨t, phpINI, env, first⟩
          return none
      | some second =>
          let tx : PHPExtensionRemovalTransaction := ⟨t, phpINI, env, first ++ second⟩
          if ← writeServiceFileAtomic fs t.phpINI
              (removePHPExtensionReference phpINI spec.moduleFile) then
            if ← writeServiceFileAtomic fs t.env
                (updateDotEnvValue env (bytes "PHP_EXTENSIONS") (joinExtensions spec.extensions))
            then return some tx
            else
              let _ ← rollback fs tx
              return none
          else
            let _ ← rollback fs tx
            return none

/-- `PreparePHPExtensionRemoval`. -/
def preparePHPExtensionRemoval (fs : FileSystem) (spec : PHPExtensionRemoval) :
    Calls Disk (Option PHPExtensionRemovalTransaction) := do
  match findTargets fs spec with
  | .error _ => return none
  | .ok t =>
      match ← readRegularFileLimited t.phpINI with
      | none => return none
      | some phpINI =>
          match ← readRegularFileLimited t.env with
          | none => return none
          | some env => stageAndEdit fs spec t phpINI env

/-- The answers of `uninstallPHPExtension`. The second one says that the old files are back, the
third one that they are not. -/
inductive Uninstalled where
  | notPrepared
  | restored
  | notRestored
  | done
  deriving DecidableEq

def restartRuntimeContainer : Calls Disk Bool := do
  if ← attend then attend else return false

def uninstallPHPExtension (fs : FileSystem) (spec : PHPExtensionRemoval) :
    Calls Disk Uninstalled := do
  match ← preparePHPExtensionRemoval fs spec with
  | none => return .notPrepared
  | some tx =>
      if ← restartRuntimeContainer then
        commit tx.moved
        return .done
      else
        let restored ← rollback fs tx
        let _ ← restartRuntimeContainer
        return if restored then .restored else .notRestored

/-! ## Places -/

/-- The four files have places of their own below the root, and names that do not end in a
digit. -/
structure Targets.WellPlaced (t : Targets) : Prop where
  distinct : t.all.Nodup
  placed : ∀ p ∈ t.all, ∃ dir name c, p = dir ++ [name ++ [c]] ∧ t.root <+: dir ∧
    ¬(48 ≤ c ∧ c ≤ 57)

section Places
variable {fs : FileSystem} {spec : PHPExtensionRemoval} {t : Targets} {root dir p : Path}
variable {name : Bytes}

theorem checkedRuntimePath_ok (h : checkedRuntimePath fs root dir name = .ok p) :
    ∃ parent, p = parent ++ [name] ∧ root <+: parent := by
  unfold checkedRuntimePath at h
  split_ifs at h
  cases hparent : fs.evalSymlinks dir with
  | none => rw [hparent] at h; cases h
  | some parent =>
      rw [hparent] at h
      dsimp only at h
      split_ifs at h with hwithin
      exact ⟨parent, (Except.ok.inj h).symm, hwithin⟩

theorem bind_eq_ok {α β : Type} {x : Except Bytes α} {f : α → Except Bytes β} {b : β}
    (h : x >>= f = .ok b) : ∃ a, x = .ok a ∧ f a = .ok b := by
  cases x with
  | error e => cases h
  | ok a => exact ⟨a, rfl, h⟩

/-- A path in a directory below the root. -/
def Within (root : Path) (name : Bytes) (p : Path) : Prop :=
  ∃ dir, p = dir ++ [name] ∧ root <+: dir

theorem findTargets_ok (h : findTargets fs spec = .ok t) :
    isModuleFile spec.moduleFile = true ∧ Within t.root spec.moduleFile t.module ∧
      Within t.root (bytes "docker-php-ext-" ++ spec.name ++ bytes ".ini") t.ini ∧
      Within t.root (bytes "php.ini") t.phpINI ∧ Within t.root (bytes ".env") t.env := by
  unfold findTargets at h
  split_ifs at h with hname hfile
  cases hroot : fs.resolvedDirectory spec.runtimeDir with
  | none => rw [hroot] at h; cases h
  | some root =>
      rw [hroot] at h
      dsimp only at h
      cases hdir : fs.resolvedDirectory spec.extensionDir with
      | none => rw [hdir] at h; cases h
      | some extensionDir =>
          rw [hdir] at h
          dsimp only at h
          split_ifs at h
          obtain ⟨module, hmodule, h⟩ := bind_eq_ok h
          obtain ⟨ini, hini, h⟩ := bind_eq_ok h
          obtain ⟨phpINI, hphp, h⟩ := bind_eq_ok h
          obtain ⟨env, henv, h⟩ := bind_eq_ok h
          rw [← Except.ok.inj h]
          exact ⟨by simpa using hfile, checkedRuntimePath_ok hmodule, checkedRuntimePath_ok hini,
            checkedRuntimePath_ok hphp, checkedRuntimePath_ok henv⟩

/-- What tells the four names apart: the last byte, and whether the first one is a `d`. -/
def signature (p : Path) : Option UInt8 × Bool :=
  (p.getLast?.bind List.getLast?, p.getLast?.bind List.head? == some 100)

theorem Within.signature_eq {front : Bytes} {c : UInt8}
    (h : Within root (front ++ [c]) p) :
    signature p = (some c, (front ++ [c]).head? == some 100) := by
  obtain ⟨dir, rfl, -⟩ := h
  rw [signature, List.getLast?_concat, Option.bind_some, Option.bind_some, List.getLast?_concat]

theorem wellPlaced_findTargets (h : findTargets fs spec = .ok t) : t.WellPlaced := by
  obtain ⟨hname, hmodule, hini, hphp, henv⟩ := findTargets_ok h
  obtain ⟨stem, hstem⟩ : ∃ stem, spec.moduleFile = stem ++ [111] := by
    rw [isModuleFile] at hname
    simp only [Bool.and_eq_true, decide_eq_true_eq] at hname
    refine ⟨spec.moduleFile.take (spec.moduleFile.length - 3) ++ [46, 115], ?_⟩
    rw [List.append_assoc]
    exact hname.1.1.1
  have hini' : Within t.root (bytes "docker-php-ext-" ++ spec.name ++ bytes ".in" ++ [105])
      t.ini := by
    rw [List.append_assoc _ (bytes ".in")]
    exact hini
  rw [hstem] at hmodule
  have hphp' : Within t.root (bytes "php.in" ++ [105]) t.phpINI := hphp
  have henv' : Within t.root (bytes ".en" ++ [118]) t.env := henv
  constructor
  · have hdocker : (bytes "docker-php-ext-" ++ spec.name ++ bytes ".in" ++ [105]).head? =
        some 100 := by
      rw [List.append_assoc, List.append_assoc, List.head?_append_of_ne_nil _ (by decide +kernel)]
      decide +kernel
    apply List.Nodup.of_map signature
    rw [Targets.all, List.map_cons, List.map_cons, List.map_cons, List.map_cons, List.map_nil,
      hmodule.signature_eq, hini'.signature_eq, hphp'.signature_eq, henv'.signature_eq,
      hdocker]
    cases (stem ++ [111]).head? == some 100 <;> decide +kernel
  · intro p hp
    have hplace : ∀ {front : Bytes} {c : UInt8}, Within t.root (front ++ [c]) p →
        ¬(48 ≤ c ∧ c ≤ 57) → ∃ dir name c, p = dir ++ [name ++ [c]] ∧ t.root <+: dir ∧
          ¬(48 ≤ c ∧ c ≤ 57) := by
      rintro front c ⟨dir, hdir, hroot⟩ hc
      exact ⟨dir, front, c, hdir, hroot, hc⟩
    simp only [Targets.all, List.mem_cons, List.not_mem_nil, or_false] at hp
    rcases hp with rfl | rfl | rfl | rfl
    · exact hplace hmodule (by decide)
    · exact hplace hini' (by decide)
    · exact hplace hphp' (by decide)
    · exact hplace henv' (by decide)

end Places

end WorkMesh.Runtime
