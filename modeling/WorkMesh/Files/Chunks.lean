import WorkMesh.Encoding.Cookie
import WorkMesh.Encoding.Path
import WorkMesh.StateMachine.FileTree
import WorkMesh.StateMachine.Pieces
import WorkMesh.StateMachine.Run

/-!
# Uploads in chunks

`handleChunkUpload` writes each chunk at its offset into a file of the upload, and
moves that file to its destination when the last index arrives. What surrounds a
request is given in advance: which steps of the file system go well.
-/

namespace WorkMesh.Files

open Encoding StateMachine

abbrev Path := List Bytes

abbrev Tree := FileTree Bytes Bytes

/-- Where the service keeps its files. -/
structure Place where
  dataDir : Bytes := []
  workingDirectory : Bytes := bytes "/"

/-- A path of the file system by its elements. -/
def Place.path (p : Place) (text : Bytes) : Path :=
  elements (if isRooted text then cleanPath text else joinPath p.workingDirectory text)

/-- `fileChunkDir`. -/
def Place.fileChunkDir (p : Place) : Bytes :=
  let root := if trimSpace p.dataDir = [] then bytes "./data" else trimSpace p.dataDir
  joinPath root (bytes "chunks")

/-! ## The form -/

/-- The fields of the form, empty where they are missing. -/
structure ChunkForm where
  chunk : Option Bytes := none
  filename : Bytes := []
  path : Bytes := []
  chunkIndex : Bytes := []
  chunkCount : Bytes := []
  uploadID : Bytes := []
  offset : Bytes := []
  fileSize : Bytes := []
  overwrite : Bytes := []

/-- The answer to a request. -/
inductive Response where
  | refused (status : ℕ) (message : Bytes)
  | stored (uploadID : Bytes) (index count : ℕ) (completed : Bool) (path : List Bytes)
deriving DecidableEq

def Response.completed : Response → Bool
  | .refused .. => false
  | .stored _ _ _ completed _ => completed

def Response.isStored : Response → Bool
  | .refused .. => false
  | .stored .. => true

def badRequest {α : Type} (message : String) : Except Response α :=
  .error (.refused 400 (bytes message))

/-- `cleanFilePath`. -/
def cleanFilePath (path : Bytes) : Except Response Bytes :=
  let path := trimSpace path
  if path = [] then badRequest "文件路径不能为空"
  else if (path.splitOnP fun c => c = 47 || c = 92).any (· = bytes "..") then
    badRequest "path traversal is not allowed"
  else
    let clean := cleanPath path
    if clean = bytes "." ∨ 0 ∈ clean then badRequest "文件路径无效" else .ok clean

/-- The name of one file, without separators. -/
def isName (name : Bytes) : Bool := basePath name = name && !name.any fun c => c = 47 || c = 92

def checkFilename (filename : Bytes) : Except Response Bytes :=
  let filename := trimSpace filename
  if filename = [] ∨ isName filename = false then badRequest "filename 无效" else .ok filename

/-- An index and a count that go together. -/
structure ChunkNumber where
  index : ℕ
  count : ℕ
  lt : index < count

theorem toNat_lt_of_checked {index count : ℤ}
    (h : 0 < count ∧ count ≤ 10000 ∧ 0 ≤ index ∧ index < count) :
    index.toNat < count.toNat := by
  omega

def checkNumber (chunkIndex chunkCount : Bytes) : Except Response ChunkNumber :=
  match parseInt chunkIndex, parseInt chunkCount with
  | some index, some count =>
      if h : 0 < count ∧ count ≤ 10000 ∧ 0 ≤ index ∧ index < count then
        .ok ⟨index.toNat, count.toNat, toNat_lt_of_checked h⟩
      else badRequest "chunkIndex/chunkCount 无效"
  | _, _ => badRequest "chunkIndex/chunkCount 无效"

/-- The identifier of the upload. A missing one is made from the time. -/
def checkUploadID (now : ℤ) (uploadID : Bytes) : Except Response Bytes :=
  let uploadID := trimSpace uploadID
  let uploadID := if uploadID = [] then bytes "upload-" ++ formatInt now else uploadID
  if isName uploadID then .ok uploadID else badRequest "uploadID 无效"

def checkOffset (offset : Bytes) : Except Response ℕ :=
  let raw := trimSpace offset
  if raw = [] then .ok 0
  else match parseInt raw with
    | some n => if n < 0 then badRequest "offset 无效" else .ok n.toNat
    | none => badRequest "offset 无效"

def checkFileSize (fileSize : Bytes) : Except Response (Option ℕ) :=
  let raw := trimSpace fileSize
  if raw = [] then .ok none
  else match parseInt raw with
    | some n => if n < 0 ∨ 2 ^ 33 < n then badRequest "fileSize 超出范围" else .ok (some n.toNat)
    | none => badRequest "fileSize 超出范围"

/-- A request whose form was accepted. -/
structure ChunkRequest where
  chunk : Bytes
  filename : Bytes
  dir : Bytes
  number : ChunkNumber
  uploadID : Bytes
  offset : ℕ
  fileSize : Option ℕ
  overwrite : Bool

def checkForm (now : ℤ) (form : ChunkForm) : Except Response ChunkRequest :=
  match form.chunk with
  | none => badRequest "缺少 chunk 文件字段"
  | some chunk => do
      let dir ← cleanFilePath form.path
      let filename ← checkFilename form.filename
      let number ← checkNumber form.chunkIndex form.chunkCount
      let uploadID ← checkUploadID now form.uploadID
      let offset ← checkOffset form.offset
      let fileSize ← checkFileSize form.fileSize
      pure { chunk, filename, dir, number, uploadID, offset, fileSize,
             overwrite := !equalFold (trimSpace form.overwrite) (bytes "false") }

/-! ## Storing a chunk -/

/-- How the move of the finished file goes. -/
inductive Moving where
  | renamed
  | failed
  /-- The destination is on another device: the file is copied beside it first. The copy goes
  well, it takes its place, and the source is removed. -/
  | copied (whole placed removed : Bool)

/-- Which steps go well. -/
structure Outcomes where
  chunkDir : Bool := true
  workDir : Bool := true
  opened : Bool := true
  truncated : Bool := true
  /-- The copy stops with an error after some bytes. -/
  stopped : Option ℕ := none
  statted : Bool := true
  dstDir : Bool := true
  moving : Moving := .renamed
  /-- What a removal of the directory has taken by the time it fails. -/
  swept : Option (List Path) := none

/-- A step that may fail. -/
def guarded (good : Bool) (t : Option Tree) : Option Tree := if good then t else none

/-- The greatest part of a chunk that is read. -/
def partLimit : ℕ := 2 ^ 26

def Place.workDir (p : Place) (r : ChunkRequest) : Path :=
  p.path (joinPath p.fileChunkDir r.uploadID)

def Place.partPath (p : Place) (r : ChunkRequest) : Path :=
  p.workDir r ++ [r.filename ++ bytes ".part"]

/-- The directory and a name in it. -/
def Place.dstFile (p : Place) (r : ChunkRequest) : Path :=
  let dir := p.path r.dir
  if r.filename = bytes "." then dir
  else if r.filename = bytes ".." then dir.dropLast
  else dir ++ [r.filename]

/-- A path with a mark behind its last element. -/
def marked (path : Path) (mark : Bytes) : Path :=
  path.dropLast ++ [(path.getLast?.getD []) ++ mark]

/-- `moveChunkIntoPlace`, with what it answers. -/
def moveChunkIntoPlace (t : Tree) (source destination : Path) : Moving → Tree × Bool
  | .renamed =>
      match t.move source destination with
      | some u => (u, true)
      | none => (t, false)
  | .failed => (t, false)
  | .copied whole placed removed =>
      let tmp := marked destination (bytes ".workmesh-upload.tmp")
      match t.content source, t.put tmp ((t.content source).getD []) with
      | some _, some written =>
          let cleared := (written.remove tmp).getD written
          if whole then
            match guarded placed (written.move tmp destination) with
            | some u =>
                match guarded removed (u.remove source) with
                | some v => (v, true)
                | none => (u, false)
            | none => (cleared, false)
          else (cleared, false)
      | _, _ => (t, false)

/-- `RemoveAll` whose error is ignored. -/
def sweep (t : Tree) (dir : Path) : Option (List Path) → Tree
  | none => t.removeAll dir
  | some taken => t.removeSome dir taken

/-- The parts of the handler behind the write of the last chunk. -/
def finishUpload (p : Place) (t : Tree) (r : ChunkRequest) (o : Outcomes) : Tree × Response :=
  let size := ((t.content (p.partPath r)).getD []).length
  if r.fileSize.any (fun n => !o.statted || n ≠ size) then
    (t, .refused 400 (bytes "分片文件大小不匹配"))
  else
    match guarded o.dstDir (t.mkdirAll (p.path r.dir)) with
    | none => (t, .refused 500 [])
    | some t =>
        if r.overwrite = false ∧ (t.node (p.dstFile r)).isSome then
          (t, .refused 409 (bytes "目标文件已存在"))
        else
          match moveChunkIntoPlace t (p.partPath r) (p.dstFile r) o.moving with
          | (t, false) => (t, .refused 500 [])
          | (t, true) =>
              (sweep t (p.workDir r) o.swept,
                .stored r.uploadID r.number.index r.number.count true (p.dstFile r))

/-- The file of the upload is emptied before the chunk is written. -/
def ChunkRequest.truncates (r : ChunkRequest) (o : Outcomes) : Bool :=
  r.offset = 0 && r.number.index = 0 && o.truncated

/-- What the file of the upload holds with the chunk, as far as it is written. -/
def ChunkRequest.written (r : ChunkRequest) (o : Outcomes) (old : Bytes) : Bytes :=
  let part := r.chunk.take partLimit
  writeAt 0 (if r.truncates o then [] else old) r.offset ((o.stopped.map part.take).getD part)

/-- The tree with the chunk in the file of the upload, and whether it was written at all. -/
def writePart (p : Place) (t : Tree) (r : ChunkRequest) (o : Outcomes) : Tree × Bool :=
  match guarded o.chunkDir (t.mkdirAll (p.path p.fileChunkDir)) with
  | none => (t, false)
  | some t =>
      match guarded o.workDir (t.mkdirAll (p.workDir r)) with
      | none => (t, false)
      | some t =>
          let old := (t.content (p.partPath r)).getD []
          match guarded o.opened (t.put (p.partPath r) (r.written o old)) with
          | none => (t, false)
          | some t => (t, true)

/-- `handleChunkUpload` of an accepted form. -/
def storeChunk (p : Place) (t : Tree) (r : ChunkRequest) (o : Outcomes) : Tree × Response :=
  match writePart p t r o with
  | (t, false) => (t, .refused 500 [])
  | (t, true) =>
      if o.stopped.isSome then (t, .refused 500 [])
      else if r.number.index + 1 = r.number.count then finishUpload p t r o
      else (t, .stored r.uploadID r.number.index r.number.count false (p.dstFile r))

/-- `handleChunkUpload`. -/
def handleChunkUpload (p : Place) (now : ℤ) (t : Tree) (form : ChunkForm) (o : Outcomes) :
    Tree × Response :=
  match checkForm now form with
  | .error answer => (t, answer)
  | .ok r => storeChunk p t r o

end WorkMesh.Files
