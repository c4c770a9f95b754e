import WorkMesh.Encoding.Path
import WorkMesh.Encoding.Timestamp
import WorkMesh.StateMachine.Ranking

/-!
# The import of old JSON files

A call reads the files of its sources one after the other and hands each to the
handler of its domain, in a transaction that also writes the row of the ledger.
Any statement can fail, and the process can end behind any source. A call in
which no source failed moves the imported files away.
-/

namespace WorkMesh.Storage.Legacy

open Encoding StateMachine

/-- An error on the way to a file. -/
inductive FileError where
  | notExist
  | other (text : Bytes)

/-- What `Lstat` and the reading behind it find at a path. -/
inductive LegacyFile where
  | unknown (error : FileError)
  | special
  | regular (size : ℤ) (content : Except FileError Bytes)

/-- `encoding/json` and `crypto/sha256`, as far as the import uses them. -/
structure Codec where
  valid : Bytes → Bool
  sha256 : Bytes → Bytes

structure LegacyJSONSource where
  domain : Bytes
  path : Bytes
  sha256 : Bytes
  data : Bytes

structure LegacyJSONSourceSpec where
  domain : Bytes
  fileName : Bytes
  deriving DecidableEq

/-- The columns of `legacy_imports` that are unique together. -/
structure LedgerKey where
  path : Bytes
  sha256 : Bytes
  domain : Bytes
  deriving DecidableEq

def LegacyJSONSource.key (source : LegacyJSONSource) : LedgerKey :=
  ⟨source.path, source.sha256, source.domain⟩

inductive LegacyImportStatus where
  | imported
  | skipped
  | pending
  | notFound
  | failed
  deriving DecidableEq

structure LedgerRow where
  imported : Bool
  importedCount : ℤ
  error : Bytes
  deriving DecidableEq

/-- The tables that handlers write, and the ledger. -/
structure Database (σ : Type*) where
  data : σ
  legacyImports : LedgerKey → Option LedgerRow

structure LegacyJSONHandler (σ : Type*) where
  domain : Bytes
  importTx : σ → LegacyJSONSource → Except Bytes (σ × ℤ)

structure LegacyImportItem where
  domain : Bytes
  path : Bytes
  sha256 : Bytes := []
  status : LegacyImportStatus := .failed
  importedCount : ℤ := 0
  error : Bytes := []
  deriving DecidableEq

def LegacyImportItem.key (item : LegacyImportItem) : LedgerKey :=
  ⟨item.path, item.sha256, item.domain⟩

/-- What happens while a source is imported: the file, and the statements that fail. -/
structure ItemCourse where
  file : LegacyFile
  queryError : Option Bytes := none
  beginError : Option Bytes := none
  handlerError : Option Bytes := none
  insertError : Option Bytes := none
  commitError : Option Bytes := none
  /-- The row of a failed import is written. -/
  recorded : Bool := true

structure LegacyImportReport where
  sourceDir : Bytes := []
  status : LegacyImportStatus := .imported
  items : List LegacyImportItem := []
  deriving DecidableEq

structure LegacyJSONImportOptions (σ : Type*) where
  sourceDir : Bytes
  sources : List LegacyJSONSourceSpec
  handlers : List (Option (LegacyJSONHandler σ))
  archiveImported : Bool

/-- The file operations that move one source away. -/
structure MoveCourse where
  exists_ : Bool
  mkdirError : Option Bytes := none
  renameError : Option Bytes := none

/-- What happens in a call. -/
structure Course where
  /-- The working directory, to make the path of the directory absolute. -/
  cwd : Except Bytes Bytes
  item : ℕ → ItemCourse
  move : ℕ → MoveCourse
  /-- The process ends behind so many sources. -/
  dies : Option ℕ := none

/-- What a call leaves: the tables, the sources it went through, the files it moved, and its
answer, unless the process ended. -/
structure Outcome (σ : Type*) where
  db : Database σ
  processed : List LegacyImportItem := []
  archived : List Bytes := []
  answer : Option (LegacyImportReport × Option Bytes)

def maxLegacyJSONBytes : ℤ := 64 * 2 ^ 20

def legacyDomainGroups : Bytes := bytes "groups"
def legacyDomainWebsites : Bytes := bytes "websites"
def legacyDomainDomains : Bytes := bytes "domains"
def legacyDomainSSL : Bytes := bytes "ssl"

def defaultLegacyJSONSources : List LegacyJSONSourceSpec :=
  [⟨legacyDomainGroups, bytes "groups.json"⟩,
    ⟨legacyDomainWebsites, bytes "websites.json"⟩,
    ⟨legacyDomainDomains, bytes "website-domains.json"⟩,
    ⟨legacyDomainSSL, bytes "ssl.json"⟩,
    ⟨legacyDomainSSL, bytes "website-acme.json"⟩,
    ⟨legacyDomainSSL, bytes "website-ca.json"⟩,
    ⟨legacyDomainSSL, bytes "website-ca-ssls.json"⟩]

/-! ## One source -/

def validRelativeSource (name : Bytes) : Bool :=
  if trimSpace name = [] ∨ isRooted name = true then false
  else
    let clean := cleanPath name
    clean ≠ bytes "." && clean ≠ bytes ".." && !(bytes "../").isPrefixOf clean

def readLegacyJSON (codec : Codec) : LegacyFile → Except FileError (Bytes × Bytes)
  | .unknown e => .error e
  | .special => .error (.other (bytes "旧 JSON 源必须是普通文件"))
  | .regular size content =>
      if size < 0 ∨ maxLegacyJSONBytes < size then
        .error (.other (bytes "旧 JSON 超出大小限制: " ++ formatInt size))
      else
        match content with
        | .error e => .error e
        | .ok data =>
            if maxLegacyJSONBytes < data.length then
              .error (.other (bytes "旧 JSON 超出大小限制"))
            else if codec.valid data then .ok (data, codec.sha256 data)
            else .error (.other (bytes "旧 JSON 内容无效"))

namespace Database

variable {σ : Type*} (db : Database σ)

/-- The row of a key, with `status = 'imported'`. -/
def isImported (key : LedgerKey) : Bool :=
  match db.legacyImports key with
  | some row => row.imported
  | none => false

def setRow (key : LedgerKey) (row : LedgerRow) : Database σ :=
  { db with legacyImports := Function.update db.legacyImports key (some row) }

/-- An update of a row that is there leaves its count. -/
def recordFailedLegacyImport (item : LegacyImportItem) (recorded : Bool) : Database σ :=
  let count := ((db.legacyImports item.key).map (·.importedCount)).getD 0
  if recorded then db.setRow item.key ⟨false, count, item.error⟩ else db

end Database

variable {σ : Type*}

/-- The handler's statements, then the row of the ledger, within the transaction. With a failure
comes the count of the handler. -/
def importWithinTx (course : ItemCourse) (handler : LegacyJSONHandler σ) (source : LegacyJSONSource)
    (db : Database σ) : Except (Bytes × ℤ) (Database σ × ℤ) :=
  match course.handlerError with
  | some e => .error (e, 0)
  | none =>
      match handler.importTx db.data source with
      | .error e => .error (e, 0)
      | .ok (data, count) =>
          match course.insertError with
          | some e => .error (e, count)
          | none => .ok (({ db with data := data }).setRow source.key ⟨true, count, []⟩, count)

/-- The transaction, begun and committed; with a failure come the text of it, its name and the
count. -/
def importInTx (course : ItemCourse) (handler : LegacyJSONHandler σ) (source : LegacyJSONSource)
    (db : Database σ) : Except (Bytes × String × ℤ) (Database σ × ℤ) :=
  match importWithinTx course handler source db with
  | .error (e, count) => .error (e, "导入旧 JSON ", count)
  | .ok done =>
      match course.commitError with
      | some e => .error (e, "提交旧 JSON ", done.2)
      | none => .ok done

/-- One source: the tables behind it, its item and its error. -/
def importLegacyJSONFile (codec : Codec) (sourceDir : Bytes) (spec : LegacyJSONSourceSpec)
    (handler : Option (LegacyJSONHandler σ)) (course : ItemCourse) (db : Database σ) :
    Database σ × LegacyImportItem × Option Bytes :=
  let item : LegacyImportItem :=
    { domain := spec.domain, path := joinPath sourceDir (cleanPath spec.fileName) }
  if trimSpace spec.domain = [] ∨ validRelativeSource spec.fileName = false then
    (db, { item with error := bytes "旧 JSON 源定义无效" }, some (bytes "旧 JSON 源定义无效"))
  else
    match readLegacyJSON codec course.file with
    | .error .notExist => (db, { item with status := .notFound }, none)
    | .error (.other e) => (db, { item with error := e }, some e)
    | .ok (data, digest) =>
        let item := { item with sha256 := digest }
        match handler with
        | none => (db, { item with status := .pending }, none)
        | some handler =>
            match course.queryError with
            | some e =>
                (db, { item with error := e }, some (bytes "检查旧 JSON 导入记录失败: " ++ e))
            | none =>
                if db.isImported item.key then (db, { item with status := .skipped }, none)
                else
                  match course.beginError with
                  | some e => (db, { item with error := e }, some e)
                  | none =>
                      match importInTx course handler ⟨item.domain, item.path, digest, data⟩ db with
                      | .error (e, step, count) =>
                          let item := { item with error := e, importedCount := count }
                          (db.recordFailedLegacyImport item course.recorded, item,
                            some (bytes step ++ item.path ++ bytes " 失败: " ++ e))
                      | .ok (db, count) =>
                          (db, { item with status := .imported, importedCount := count }, none)

/-! ## A call -/

/-- The order in which sources are imported: by domain, then by file name. -/
def LegacyJSONSourceSpec.order (spec : LegacyJSONSourceSpec) : List ℕ ×ₗ List ℕ :=
  toLex (byteOrder spec.domain, byteOrder spec.fileName)

def checkHandlers : List (Option (LegacyJSONHandler σ)) → List (LegacyJSONHandler σ) →
    Except Bytes (List (LegacyJSONHandler σ))
  | [], known => .ok known
  | none :: _, _ => .error (bytes "旧 JSON handler 的业务域不能为空")
  | some handler :: rest, known =>
      if trimSpace handler.domain = [] then .error (bytes "旧 JSON handler 的业务域不能为空")
      else if known.any fun one => one.domain = handler.domain then
        .error (bytes "旧 JSON 业务域重复注册: " ++ handler.domain)
      else checkHandlers rest (known ++ [handler])

/-- The sources one after the other, from a position on. -/
def importSources (codec : Codec) (sourceDir : Bytes) (handlers : List (LegacyJSONHandler σ))
    (course : ℕ → ItemCourse) :
    List LegacyJSONSourceSpec → ℕ → Database σ → Database σ × List (LegacyImportItem × Option Bytes)
  | [], _, db => (db, [])
  | spec :: rest, i, db =>
      let handler := handlers.find? fun one => one.domain = spec.domain
      let first := importLegacyJSONFile codec sourceDir spec handler (course i) db
      let others := importSources codec sourceDir handlers course rest (i + 1) first.1
      (others.1, first.2 :: others.2)

/-- The status of a report after one more item. -/
def addStatus (status : LegacyImportStatus) (item : LegacyImportItem) : LegacyImportStatus :=
  match item.status with
  | .pending => .pending
  | .imported => if status ≠ .pending then .imported else status
  | .skipped => if status = .notFound then .skipped else status
  | .notFound => status
  | .failed => status

def reportStatus (items : List LegacyImportItem) : LegacyImportStatus :=
  items.foldl addStatus .notFound

/-- The files that are moved, from a position on, and the error that ends it. A file that was
moved is not found again. -/
def archiveImportedSources (course : ℕ → MoveCourse) :
    List LegacyImportItem → ℕ → List Bytes → List Bytes × Option Bytes
  | [], _, moved => (moved, none)
  | item :: rest, i, moved =>
      if item.status ≠ .imported ∧ item.status ≠ .skipped then
        archiveImportedSources course rest (i + 1) moved
      else if (course i).exists_ = false ∨ item.path ∈ moved then
        archiveImportedSources course rest (i + 1) moved
      else
        match (course i).mkdirError, (course i).renameError with
        | some e, _ => (moved, some (bytes "创建旧 JSON 归档目录失败: " ++ e))
        | none, some e =>
            (moved, some (bytes "归档旧 JSON " ++ item.path ++ bytes " 失败: " ++ e))
        | none, none => archiveImportedSources course rest (i + 1) (moved ++ [item.path])

/-- `filepath.Abs` of the cleaned directory. -/
def absoluteDir (cwd : Except Bytes Bytes) (dir : Bytes) : Except Bytes Bytes :=
  let clean := cleanPath dir
  if isRooted clean then .ok clean else cwd.map fun here => joinPath here clean

/-- The answer to a call that went through its sources, and the files that it moves. -/
def finish (options : LegacyJSONImportOptions σ) (course : Course) (absDir : Bytes)
    (done : Database σ × List (LegacyImportItem × Option Bytes)) : Outcome σ :=
  let items := done.2.map Prod.fst
  let report : LegacyImportReport := { sourceDir := absDir, items := items }
  if course.dies.isSome then { db := done.1, processed := items, answer := none }
  else
    match done.2.findSome? Prod.snd with
    | some e =>
        { db := done.1, processed := items, answer := some ({ report with status := .failed }, some e) }
    | none =>
        let report := { report with status := reportStatus items }
        if options.archiveImported then
          let moves := archiveImportedSources course.move items 0 []
          let status := if moves.2.isSome then .failed else report.status
          { db := done.1, processed := items, archived := moves.1,
            answer := some ({ report with status := status }, moves.2) }
        else { db := done.1, processed := items, answer := some (report, none) }

/-- The sources that a call lives to import. -/
def reached (dies : Option ℕ) (sources : List LegacyJSONSourceSpec) : List LegacyJSONSourceSpec :=
  match dies with
  | some k => sources.take k
  | none => sources

/-- What follows the checks of a call. -/
def importAll (codec : Codec) (options : LegacyJSONImportOptions σ) (course : Course)
    (absDir : Bytes) (handlers : List (LegacyJSONHandler σ)) (db : Database σ) : Outcome σ :=
  let sources := if options.sources = [] then defaultLegacyJSONSources else options.sources
  let sorted := ranked LegacyJSONSourceSpec.order sources
  finish options course absDir
    (importSources codec absDir handlers course.item (reached course.dies sorted) 0 db)

def importLegacyJSON (codec : Codec) (options : LegacyJSONImportOptions σ) (course : Course)
    (db : Database σ) : Outcome σ :=
  let sourceDir := trimSpace options.sourceDir
  if sourceDir = [] then
    { db := db, answer := some ({}, some (bytes "旧 JSON 数据目录不能为空")) }
  else
    match absoluteDir course.cwd sourceDir with
    | .error e =>
        { db := db, answer := some ({}, some (bytes "解析旧 JSON 数据目录失败: " ++ e)) }
    | .ok absDir =>
        match checkHandlers options.handlers [] with
        | .error e => { db := db, answer := some ({ sourceDir := absDir }, some e) }
        | .ok handlers => importAll codec options course absDir handlers db

end WorkMesh.Storage.Legacy
