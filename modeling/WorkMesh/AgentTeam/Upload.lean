import WorkMesh.AgentTeam.Effects
import WorkMesh.Encoding.Sha256
import WorkMesh.StateMachine.Table

/-!
# Uploads of artifacts

An agent registers an artifact with its size and its hash, and then sends the
content: a request empties a file for the parts, each chunk is appended to it
at the offset that it names, and the chunk that fills the registered size has
the hash compared and the file renamed. The record of the artifact notes how
far the upload has come.

## Implementation notes

The storage root exists and is no symbolic link unless a request says that the
path cannot be had. Requests are read already: identifiers that are not valid
are empty, and an offset that is no number is missing.
-/

namespace WorkMesh.AgentTeam

open Encoding (Bytes sha256 hexEncode)
open StateMachine

def teamArtifactChunkSize : ℕ := 8 <<< 20
def teamArtifactMaxBytes : ℕ := 1 <<< 30

/-! ## The files -/

abbrev FilePath := List String

/-- One more part of `filepath.Join`. -/
def joinPart (path : FilePath) (part : String) : FilePath :=
  if part = "." then path else if part = ".." then path.dropLast else path ++ [part]

/-- `teamArtifactPath`, with what is wrong with the directories. -/
def teamArtifactPath (root : FilePath) (projectID taskID artifactID suffix : String)
    (fault : Option String) : Except String FilePath :=
  if validTeamID projectID = "" ∨ validTeamID taskID = "" ∨ validTeamID artifactID = "" then
    .error "Artifact 标识无效"
  else
  match fault with
  | some message => .error message
  | none => .ok ([projectID, taskID, artifactID ++ suffix].foldl joinPart root)

/-- The text of bytes that are characters of ASCII. -/
def asciiText (text : Bytes) : String := String.ofList (text.map fun c => Char.ofNat c.toNat)

/-- `teamArtifactSHA256` of a file with this content. -/
def teamArtifactSHA256 (content : Bytes) : String :=
  asciiText (hexEncode (sha256 (content.take (teamArtifactMaxBytes + 1))))

def teamArtifactStorageRef (projectID taskID artifactID : String) : String :=
  "artifact-" ++ asciiText (hexEncode ((sha256 (Encoding.bytes projectID ++ 0 ::
    (Encoding.bytes taskID ++ 0 :: Encoding.bytes artifactID))).take 16))

/-! ## Requests -/

/-- The artifact that a request is about. -/
structure UploadTarget where
  c : RuntimeCredentials
  taskID : String
  artifactID : String
  complete : c.complete = true
  project : validTeamID c.projectID ≠ ""
  task : validTeamID taskID ≠ ""
  artifact : validTeamID artifactID ≠ ""

/-- What goes wrong in the course of a request. -/
structure UploadFaults where
  path : Option String := none
  opened : Bool := true
  closed : Bool := true
  statted : Bool := true
  /-- A write stops after so many bytes. -/
  written : Option ℕ := none
  hashed : Bool := true
  renamed : Bool := true
  save : Option String := none
  truncated : Bool := true

structure UploadError where
  status : ℕ
  code : String
  message : String

structure UploadReply where
  artifactID : String
  offset : ℤ
  complete : Bool
  chunkSize : Option ℕ := none
  sha256 : String := ""

/-- The team state with the files under the storage root. -/
structure ArtifactStore where
  team : TeamState
  root : FilePath
  disk : Table FilePath Bytes

namespace UploadTarget

variable (t : UploadTarget)

/-- The task and the record of the artifact, for a runtime that holds its lease. -/
def find (s : TeamState) (now : Instant) : Except UploadError (TeamTask × Fields) :=
  match leasedRuntime s now t.c, findTeamTaskLocked s t.taskID with
  | none, _ => .error ⟨409, "AGENT_RUNTIME_FENCED", "Agent runtime 租约已失效"⟩
  | some _, none => .error ⟨404, "ARTIFACT_NOT_FOUND", "任务 Artifact 不存在"⟩
  | some _, some task =>
      match findTeamArtifactLocked task t.artifactID with
      | none => .error ⟨404, "ARTIFACT_NOT_FOUND", "任务 Artifact 不存在"⟩
      | some artifact =>
          if task.projectId ≠ t.c.projectID then
            .error ⟨404, "ARTIFACT_NOT_FOUND", "任务 Artifact 不存在"⟩
          else .ok (task, artifact)

def path (root : FilePath) (suffix : String) (fault : Option String) : Except String FilePath :=
  teamArtifactPath root t.c.projectID t.taskID t.artifactID suffix fault

/-- Save the team state with upload fields in the record of the artifact. -/
def save (s : TeamState) (task : TeamTask) (fields : Fields) (failure : Option String) :
    TeamState × Option String :=
  saveTeamStateLocked s (replaceTeamTaskLocked s (updateTeamArtifactLocked task t.artifactID fields))
    failure

end UploadTarget

def uploadComplete (artifact : Fields) : Bool := aiString artifact ["uploadStatus"] = "complete"

def registeredSize (artifact : Fields) : ℤ :=
  boundedInt64 (artifact.lookup "size") (-1) teamArtifactMaxBytes

def uploadFields (status : String) (offset : ℤ) : Fields :=
  [("uploadStatus", .str status), ("uploadOffset", .int offset)]

def UploadTarget.completeFields (t : UploadTarget) (content : Bytes) (uploadedAt : String) : Fields :=
  [("uploadStatus", .str "complete"), ("storedSize", .int content.length),
    ("storageRef", .str (teamArtifactStorageRef t.c.projectID t.taskID t.artifactID)),
    ("uploadedAt", .str uploadedAt)]

def pathInvalid {α : Type} (message : String) : Except UploadError α :=
  .error ⟨400, "ARTIFACT_PATH_INVALID", message⟩

def storageFailed {α : Type} (message : String) : Except UploadError α :=
  .error ⟨500, "ARTIFACT_STORAGE_FAILED", message⟩

def stateSaveFailed {α : Type} (message : String) : Except UploadError α :=
  .error ⟨500, "ARTIFACT_STATE_SAVE_FAILED", message⟩

namespace ArtifactStore

variable (st : ArtifactStore) (t : UploadTarget) (now : Instant) (f : UploadFaults)

/-- The stored file of a complete upload, if it still has its size. -/
def storedWhole (artifact : Fields) : Bool :=
  match t.path st.root ".bin" f.path with
  | .error _ => false
  | .ok final =>
      (st.disk.lookup final).any fun content => f.statted && content.length = registeredSize artifact

def handleAgentArtifactInit : ArtifactStore × Except UploadError UploadReply :=
  match t.find st.team now with
  | .error e => (st, .error e)
  | .ok (task, artifact) =>
      if uploadComplete artifact ∧ st.storedWhole t f artifact then
        (st, .ok ⟨t.artifactID, registeredSize artifact, true, some teamArtifactChunkSize, ""⟩)
      else
      match t.path st.root ".part" f.path, t.path st.root ".bin" f.path with
      | .error message, _ => (st, pathInvalid message)
      | _, .error message => (st, pathInvalid message)
      | .ok part, .ok final =>
          if f.statted ∧ (st.disk.lookup final).isSome then
            (st, .error ⟨409, "ARTIFACT_UPLOAD_ALREADY_EXISTS", "Artifact 已存在但元数据未标记完成"⟩)
          else if f.opened = false then (st, storageFailed "无法初始化 Artifact 存储")
          else if f.closed = false then
            ({ st with disk := st.disk.erase part }, storageFailed "无法关闭 Artifact 临时文件")
          else
          match t.save st.team task (uploadFields "uploading" 0) f.save with
          | (team, some message) =>
              ({ st with team, disk := st.disk.erase part }, stateSaveFailed message)
          | (team, none) =>
              ({ st with team, disk := st.disk.insert part [] },
                .ok ⟨t.artifactID, 0, false, some teamArtifactChunkSize, ""⟩)

/-- The end of a chunk that fills the registered size. -/
def completeUpload (task : TeamTask) (artifact : Fields) (part : FilePath) (content : Bytes)
    (uploadedAt : String) : ArtifactStore × Except UploadError UploadReply :=
  let actualHash := teamArtifactSHA256 content
  if f.hashed = false then
    (st, .error ⟨500, "ARTIFACT_HASH_FAILED", "无法计算 Artifact 摘要"⟩)
  else if actualHash ≠ toLower (aiString artifact ["sha256"]) then
    ({ st with
        team := (t.save st.team task (uploadFields "hash_mismatch" 0) f.save).1
        disk := st.disk.erase part },
      .error ⟨422, "ARTIFACT_HASH_MISMATCH", "Artifact SHA-256 校验失败"⟩)
  else
  match t.path st.root ".bin" f.path with
  | .error message => (st, pathInvalid message)
  | .ok final =>
      if f.renamed = false then (st, storageFailed "无法提交 Artifact 文件")
      else
      match t.save st.team task (t.completeFields content uploadedAt) f.save with
      | (team, some message) =>
          -- renamed back, over what stood there before
          ({ st with team, disk := (st.disk.erase final).insert part content },
            stateSaveFailed message)
      | (team, none) =>
          ({ st with team, disk := (st.disk.erase part).insert final content },
            .ok ⟨t.artifactID, content.length, true, none, actualHash⟩)

/-- A chunk is in the file, and there is more to come, or not. -/
def acceptChunk (task : TeamTask) (artifact : Fields) (part : FilePath) (old chunk : Bytes)
    (uploadedAt : String) : ArtifactStore × Except UploadError UploadReply :=
  let content := old ++ chunk
  let st' := { st with disk := st.disk.insert part content }
  if (content.length : ℤ) < registeredSize artifact then
    match t.save st.team task (uploadFields "uploading" content.length) f.save with
    | (team, some message) =>
        if f.truncated = false then
          ({ st' with team }, .error ⟨500, "ARTIFACT_STATE_ROLLBACK_FAILED",
            "Artifact 状态保存失败且临时文件无法回滚"⟩)
        else ({ st with team, disk := st.disk.insert part old }, stateSaveFailed message)
    | (team, none) => ({ st' with team }, .ok ⟨t.artifactID, content.length, false, none, ""⟩)
  else st'.completeUpload t f task artifact part content uploadedAt

def handleAgentArtifactChunk (offset : Option ℤ) (chunk : Bytes) (uploadedAt : String) :
    ArtifactStore × Except UploadError UploadReply :=
  match offset with
  | none => (st, .error ⟨400, "AGENT_ARTIFACT_FIELDS_INVALID",
      "projectId、runtimeId、taskId、artifactId 和非负 offset 必须有效"⟩)
  | some offset =>
      if offset < 0 then (st, .error ⟨400, "AGENT_ARTIFACT_FIELDS_INVALID",
        "projectId、runtimeId、taskId、artifactId 和非负 offset 必须有效"⟩)
      else if teamArtifactChunkSize + 1 < chunk.length then
        (st, .error ⟨413, "ARTIFACT_CHUNK_TOO_LARGE", "Artifact 分块超过 8MiB 限制"⟩)
      else if chunk.length = 0 ∨ teamArtifactChunkSize < chunk.length then
        (st, .error ⟨400, "ARTIFACT_CHUNK_INVALID", "Artifact 分块大小必须为 1 到 8MiB"⟩)
      else
      match t.find st.team now with
      | .error e => (st, .error e)
      | .ok (task, artifact) =>
          if uploadComplete artifact then
            (st, .ok ⟨t.artifactID,
              boundedInt64 (artifact.lookup "size") 0 teamArtifactMaxBytes, true, none, ""⟩)
          else if registeredSize artifact < 0 ∨ registeredSize artifact < offset ∨
              registeredSize artifact - offset < chunk.length then
            (st, .error ⟨413, "ARTIFACT_SIZE_EXCEEDED", "Artifact 分块超出登记大小"⟩)
          else
          match t.path st.root ".part" f.path with
          | .error message => (st, pathInvalid message)
          | .ok part =>
              match (st.disk.lookup part).filter fun _ => f.statted with
              | none =>
                  (st, .error ⟨409, "ARTIFACT_UPLOAD_NOT_INITIALIZED", "Artifact 上传尚未初始化"⟩)
              | some old =>
                  if (old.length : ℤ) ≠ offset then
                    (st, .error ⟨409, "ARTIFACT_OFFSET_MISMATCH",
                      s!"期望 offset {old.length}，收到 {offset}"⟩)
                  else if f.opened = false then (st, storageFailed "无法打开 Artifact 临时文件")
                  else
                  match f.written with
                  | some n => ({ st with disk := st.disk.insert part (old ++ chunk.take n) },
                      storageFailed "无法写入 Artifact 分块")
                  | none =>
                      if f.closed = false then
                        ({ st with disk := st.disk.insert part (old ++ chunk) },
                          storageFailed "无法写入 Artifact 分块")
                      else st.acceptChunk t f task artifact part old chunk uploadedAt

end ArtifactStore

/-! ## The requests of the machine -/

section

variable {st : ArtifactStore} {t : UploadTarget} {s : TeamState} {task : TeamTask}
  {artifact : Fields} {now : Instant} {f : UploadFaults}

theorem find_ok (h : t.find s now = .ok (task, artifact)) :
    (leasedRuntime s now t.c).isSome ∧ findTeamTaskLocked s t.taskID = some task ∧
      findTeamArtifactLocked task t.artifactID = some artifact ∧
      task.projectId = t.c.projectID := by
  rw [UploadTarget.find] at h
  split at h
  · cases h
  · cases h
  · rename_i item found hitem hfound
    split at h
    · cases h
    · rename_i record hrecord
      split at h
      · cases h
      · rename_i hproject
        obtain ⟨htask, hartifact⟩ := Prod.mk.inj (Except.ok.inj h)
        rw [← htask, ← hartifact]
        exact ⟨by rw [hitem]; rfl, hfound, hrecord, not_not.mp hproject⟩

/-- A save of upload fields is the request of the machine with these fields. -/
theorem save_fst (h : t.find s now = .ok (task, artifact)) (fields : Fields)
    (failure : Option String) :
    (t.save s task fields failure).1 =
      (storeArtifactUpload now failure s t.c t.taskID t.artifactID fields).1 := by
  obtain ⟨hlease, hfound, hrecord, hproject⟩ := find_ok h
  obtain ⟨item, hitem⟩ := Option.isSome_iff_exists.mp hlease
  simp only [storeArtifactUpload, hitem, hfound]
  rw [if_neg (by simp [hproject, hrecord]), commitTeamState, UploadTarget.save]
  cases failure with
  | none => rfl
  | some message => rfl

/-- What a request does to the team state. -/
def Uploads (t : UploadTarget) (now : Instant) (s s' : TeamState) : Prop :=
  s' = s ∨ ∃ fields failure,
    s' = (storeArtifactUpload now failure s t.c t.taskID t.artifactID fields).1

theorem uploads_save (h : t.find s now = .ok (task, artifact)) (fields : Fields)
    (failure : Option String) : Uploads t now s (t.save s task fields failure).1 :=
  .inr ⟨fields, failure, save_fst h fields failure⟩

theorem handleAgentArtifactInit_uploads :
    Uploads t now st.team (st.handleAgentArtifactInit t now f).1.team := by
  rw [ArtifactStore.handleAgentArtifactInit]
  cases hfind : t.find st.team now with
  | error e => exact .inl rfl
  | ok found =>
      obtain ⟨task, artifact⟩ := found
      have hsave := uploads_save hfind (uploadFields "uploading" 0) f.save
      dsimp only
      split
      · exact .inl rfl
      · split
        · exact .inl rfl
        · exact .inl rfl
        · split
          · exact .inl rfl
          · split
            · exact .inl rfl
            · split
              · exact .inl rfl
              · split
                · rename_i heq
                  rwa [heq] at hsave
                · rename_i heq
                  rwa [heq] at hsave

theorem completeUpload_uploads (hfind : t.find st.team now = .ok (task, artifact))
    (part : FilePath) (content : Bytes) (uploadedAt : String) :
    Uploads t now st.team
      (st.completeUpload t f task artifact part content uploadedAt).1.team := by
  simp only [ArtifactStore.completeUpload]
  split
  · exact .inl rfl
  · split
    · exact uploads_save hfind (uploadFields "hash_mismatch" 0) f.save
    · split
      · exact .inl rfl
      · split
        · exact .inl rfl
        · have hsave := uploads_save hfind (t.completeFields content uploadedAt) f.save
          split
          · rename_i heq
            rwa [heq] at hsave
          · rename_i heq
            rwa [heq] at hsave

theorem acceptChunk_uploads (hfind : t.find st.team now = .ok (task, artifact)) (part : FilePath)
    (old chunk : Bytes) (uploadedAt : String) :
    Uploads t now st.team
      (st.acceptChunk t f task artifact part old chunk uploadedAt).1.team := by
  rw [ArtifactStore.acceptChunk]
  split
  · have hsave := uploads_save hfind (uploadFields "uploading" (old ++ chunk).length) f.save
    split
    · rename_i heq
      rw [heq] at hsave
      split
      · exact hsave
      · exact hsave
    · rename_i heq
      rwa [heq] at hsave
  · exact @completeUpload_uploads { st with disk := st.disk.insert part (old ++ chunk) } _ _ _ _ _
      hfind _ _ _

theorem handleAgentArtifactChunk_uploads (offset : Option ℤ) (chunk : Bytes)
    (uploadedAt : String) :
    Uploads t now st.team (st.handleAgentArtifactChunk t now f offset chunk uploadedAt).1.team := by
  cases offset with
  | none => exact .inl rfl
  | some offset =>
      simp only [ArtifactStore.handleAgentArtifactChunk]
      split
      · exact .inl rfl
      · split
        · exact .inl rfl
        · split
          · exact .inl rfl
          · cases hfind : t.find st.team now with
            | error e => exact .inl rfl
            | ok found =>
                dsimp only
                split
                · exact .inl rfl
                · split
                  · exact .inl rfl
                  · split
                    · exact .inl rfl
                    · split
                      · exact .inl rfl
                      · split
                        · exact .inl rfl
                        · split
                          · exact .inl rfl
                          · split
                            · exact .inl rfl
                            · split
                              · exact .inl rfl
                              · exact acceptChunk_uploads hfind _ _ _ _

end

/-! ## Records of artifacts -/

theorem lookup_putField (fields : Fields) (key other : String) (value : Json) :
    (putField fields key value).lookup other =
      if other = key then some value else fields.lookup other := by
  rw [putField, List.lookup_cons]
  by_cases h : other = key
  · simp [h]
  · rw [beq_eq_false_iff_ne.mpr h, if_neg h]
    induction fields with
    | nil => rfl
    | cons entry rest ih =>
        by_cases hentry : entry.1 = key
        · have hne : (other == entry.1) = false := beq_eq_false_iff_ne.mpr (hentry ▸ h)
          rw [List.filter_cons_of_neg (by simpa using hentry), List.lookup_cons, hne]
          exact ih
        · rw [List.filter_cons_of_pos (by simpa using hentry), List.lookup_cons, List.lookup_cons,
            ← ih]

/-- Upload fields leave the other fields of a record. -/
theorem lookup_putFields {fields : Fields} {key : String} (hkey : key ∉ fields.map Prod.fst) :
    ∀ item : Fields, (fields.foldl (fun copy entry => putField copy entry.1 entry.2) item).lookup key =
      item.lookup key := by
  induction fields with
  | nil => exact fun item => rfl
  | cons entry rest ih =>
      intro item
      simp only [List.map_cons, List.mem_cons, not_or] at hkey
      rw [List.foldl_cons, ih hkey.2, lookup_putField, if_neg hkey.1]

theorem aiString_congr {first second : Fields} {key : String}
    (h : first.lookup key = second.lookup key) : aiString first [key] = aiString second [key] := by
  simp only [aiString, h]

/-- A registered artifact: its record is in its task. -/
structure HoldsArtifact (s : TeamState) (t : UploadTarget) (task : TeamTask)
    (artifact : Fields) : Prop where
  found : findTeamTaskLocked s t.taskID = some task
  project : task.projectId = t.c.projectID
  artifact : findTeamArtifactLocked task t.artifactID = some artifact

theorem find_of_holds {s : TeamState} {t : UploadTarget} {task : TeamTask} {artifact : Fields}
    {now : Instant} (h : HoldsArtifact s t task artifact) (hlease : (leasedRuntime s now t.c).isSome) :
    t.find s now = .ok (task, artifact) := by
  obtain ⟨item, hitem⟩ := Option.isSome_iff_exists.mp hlease
  simp [UploadTarget.find, hitem, h.found, h.artifact, h.project]

theorem aiString_putFields {fields : Fields} {key : String} (hkey : key ∉ fields.map Prod.fst)
    (item : Fields) :
    aiString (fields.foldl (fun copy entry => putField copy entry.1 entry.2) item) [key] =
      aiString item [key] := aiString_congr (lookup_putFields hkey item)

/-- The record with upload fields. -/
def withFields (artifact fields : Fields) : Fields :=
  fields.foldl (fun copy entry => putField copy entry.1 entry.2) artifact

/-- A save that goes well puts the fields into the record. -/
theorem save_holds {s : TeamState} {t : UploadTarget} {task : TeamTask} {artifact : Fields}
    (h : HoldsArtifact s t task artifact) {fields : Fields}
    (hfields : "artifactId" ∉ fields.map Prod.fst) :
    ∃ s' task', t.save s task fields none = (s', none) ∧
      HoldsArtifact s' t task' (withFields artifact fields) := by
  refine ⟨_, updateTeamArtifactLocked task t.artifactID fields, rfl, ?_, h.project, ?_⟩
  · have hid : (updateTeamArtifactLocked task t.artifactID fields).taskId = t.taskID :=
      (findTeamTaskLocked_some h.found).2
    have hfound : lookupKey TeamTask.taskId t.taskID s.teamTasks = some task := h.found
    rw [findTeamTaskLocked, replaceTeamTaskLocked, lookupKey_replaceKey, if_pos hid, hfound]
    rfl
  · have hkey : artifactKey (withFields artifact fields) = t.artifactID := by
      rw [artifactKey, withFields, aiString_putFields hfields]
      exact (lookupKey_some h.artifact).2
    have hfound : lookupKey artifactKey t.artifactID task.artifacts = some artifact := h.artifact
    simp only [updateTeamArtifactLocked, h.artifact]
    rw [findTeamArtifactLocked]
    change lookupKey artifactKey t.artifactID
      (replaceKey artifactKey (withFields artifact fields) task.artifacts) = _
    rw [lookupKey_replaceKey, if_pos hkey, hfound]
    rfl

/-! ## A run of requests -/

/-- When a request arrives: the clock, and the registrations as heartbeats have left them. -/
structure Arrival where
  now : Instant
  runtimes : List AgentRuntime
  uploadedAt : String := ""

/-- The store that a request finds. -/
def ArtifactStore.arrive (st : ArtifactStore) (a : Arrival) : ArtifactStore :=
  { st with team := { st.team with agentRuntimes := a.runtimes } }

/-- A client that sends chunks one behind the other, until one is refused. -/
def sendChunks (t : UploadTarget) : ℕ → List (Arrival × Bytes) → ArtifactStore → ArtifactStore × Bool
  | _, [], st => (st, true)
  | offset, (a, chunk) :: rest, st =>
      match (st.arrive a).handleAgentArtifactChunk t a.now {} (some offset) chunk a.uploadedAt with
      | (st, .error _) => (st, false)
      | (st, .ok _) => sendChunks t (offset + chunk.length) rest st

/-- The request that begins an upload, and the chunks. -/
def upload (t : UploadTarget) (first : Arrival) (chunks : List (Arrival × Bytes))
    (st : ArtifactStore) : ArtifactStore × Bool :=
  match (st.arrive first).handleAgentArtifactInit t first.now {} with
  | (st, .error _) => (st, false)
  | (st, .ok _) => sendChunks t 0 chunks st

/-- The record says that the upload is complete, and the file has the content. -/
def Uploaded (t : UploadTarget) (content : Bytes) (st : ArtifactStore) : Prop :=
  ∃ task artifact final, HoldsArtifact st.team t task artifact ∧ uploadComplete artifact = true ∧
    t.path st.root ".bin" none = .ok final ∧ st.disk.lookup final = some content

/-- The lease of the runtime stands when a request arrives. -/
def Leased (t : UploadTarget) (a : Arrival) : Prop :=
  ∀ s : TeamState, (leasedRuntime { s with agentRuntimes := a.runtimes } a.now t.c).isSome

/-- A record with the size and the hash of a content. -/
structure Describes (artifact : Fields) (content : Bytes) : Prop where
  size : artifact.lookup "size" = some (.int content.length)
  bounded : content.length ≤ teamArtifactMaxBytes
  sha256 : aiString artifact ["sha256"] = asciiText (hexEncode (sha256 content))

section

variable {t : UploadTarget} {st : ArtifactStore} {task : TeamTask} {artifact : Fields}
  {content : Bytes}

theorem Describes.withFields (h : Describes artifact content) {fields : Fields}
    (hfields : ∀ key ∈ ["size", "sha256"], key ∉ fields.map Prod.fst) :
    Describes (withFields artifact fields) content := by
  refine ⟨?_, h.bounded, ?_⟩
  · exact (lookup_putFields (hfields "size" (by simp)) artifact).trans h.size
  · exact (aiString_putFields (hfields "sha256" (by simp)) artifact).trans h.sha256

theorem Describes.registeredSize (h : Describes artifact content) :
    registeredSize artifact = content.length := by
  have hbounded := h.bounded
  simp only [teamArtifactMaxBytes, Nat.reduceShiftLeft] at hbounded
  have hvalue : float64ToInt64 (content.length : ℚ) = content.length := by
    have hnum : ((content.length : ℚ)).num.tdiv (content.length : ℚ).den = content.length := by
      simp
    simp only [float64ToInt64, hnum]
    rw [if_pos (by omega)]
  rw [WorkMesh.AgentTeam.registeredSize, h.size]
  simp only [Json.int, boundedInt64, boundedInt64.clamp, Int.cast_natCast, hvalue,
    teamArtifactMaxBytes]
  rw [if_neg (by omega), if_neg (by simp; omega)]

/-- Hexadecimal digits are written in small letters. -/
theorem toLower_hexEncode (data : Bytes) :
    toLower (asciiText (hexEncode data)) = asciiText (hexEncode data) := by
  have hdigit : ∀ n < 16, let c := Char.ofNat (Encoding.hexDigit n).toNat
      (if c = '\u0130' then 'i' else if c = '\u212a' then 'k' else c.toLower) = c := by decide
  rw [toLower, asciiText, String.toList_ofList, List.map_map]
  congr 1
  apply List.map_congr_left
  intro c hc
  obtain ⟨d, -, hc⟩ := List.mem_flatMap.mp hc
  have hd : d.toNat < 256 := d.toNat_lt
  rw [List.mem_cons, List.mem_singleton] at hc
  obtain rfl | rfl := hc
  · exact hdigit _ (by omega)
  · exact hdigit _ (by omega)

theorem Describes.hash (h : Describes artifact content) :
    teamArtifactSHA256 content = toLower (aiString artifact ["sha256"]) := by
  have hbounded := h.bounded
  rw [h.sha256, toLower_hexEncode, teamArtifactSHA256, List.take_of_length_le (by omega)]

/-- A file of an artifact. -/
def UploadTarget.file (t : UploadTarget) (root : FilePath) (suffix : String) : FilePath :=
  [t.c.projectID, t.taskID].foldl joinPart root ++ [t.artifactID ++ suffix]

theorem UploadTarget.path_eq (t : UploadTarget) (root : FilePath) {suffix : String}
    (hsuffix : suffix ∈ [".part", ".bin"]) :
    t.path root suffix none = .ok (t.file root suffix) := by
  have hlength : 4 ≤ suffix.length := by
    simp only [List.mem_cons, List.not_mem_nil, or_false] at hsuffix
    obtain rfl | rfl := hsuffix
    · decide
    · decide
  have hname (short : String) (hshort : short.length < 4) : t.artifactID ++ suffix ≠ short := by
    intro h
    have hsame := congrArg String.length h
    rw [String.length_append] at hsame
    omega
  rw [path, teamArtifactPath, if_neg (by simp [t.project, t.task, t.artifact]), file]
  simp [joinPart, hname "." (by decide), hname ".." (by decide)]

/-! ## What a request does -/

/-- An upload that is under way: so much of the content is in the file for the parts. -/
structure Receiving (t : UploadTarget) (st : ArtifactStore) (task : TeamTask) (artifact : Fields)
    (content done : Bytes) : Prop where
  holds : HoldsArtifact st.team t task artifact
  incomplete : uploadComplete artifact = false
  describes : Describes artifact content
  part : st.disk.lookup (t.file st.root ".part") = some done

variable {now : Instant} {done chunk : Bytes} {uploadedAt : String}

/-- A chunk at the end of what has come so far, and within the size, is accepted. -/
theorem chunk_accepted (h : Receiving t st task artifact content done)
    (hlease : (leasedRuntime st.team now t.c).isSome)
    (hchunk : 1 ≤ chunk.length ∧ chunk.length ≤ teamArtifactChunkSize)
    (hfits : done.length + chunk.length ≤ content.length) :
    st.handleAgentArtifactChunk t now {} (some done.length) chunk uploadedAt =
      st.acceptChunk t {} task artifact (t.file st.root ".part") done chunk uploadedAt := by
  have hsize := h.describes.registeredSize
  simp only [ArtifactStore.handleAgentArtifactChunk, find_of_holds h.holds hlease, h.incomplete,
    hsize, t.path_eq st.root (by simp : ".part" ∈ [".part", ".bin"]), h.part]
  rw [if_neg (by omega), if_neg (by omega), if_neg (by omega), if_neg (by simp), if_neg (by omega)]
  simp [Option.filter]

theorem uploadComplete_eq {record : Fields} (status : String)
    (hstatus : record.lookup "uploadStatus" = some (.str status))
    (htrim : trimSpace status = status) (hblank : status ≠ "") :
    uploadComplete record = decide (status = "complete") := by
  simp [uploadComplete, aiString, hstatus, htrim, hblank]

theorem uploading_incomplete (artifact : Fields) (offset : ℤ) :
    uploadComplete (withFields artifact (uploadFields "uploading" offset)) = false := by
  refine (uploadComplete_eq "uploading" ?_ (by decide) (by decide)).trans (by decide)
  simp [withFields, uploadFields, lookup_putField]

/-- A chunk that does not fill the size leaves the upload under way. -/
theorem chunk_more (h : Receiving t st task artifact content done)
    (hlease : (leasedRuntime st.team now t.c).isSome)
    (hchunk : 1 ≤ chunk.length ∧ chunk.length ≤ teamArtifactChunkSize)
    (hmore : done.length + chunk.length < content.length) :
    ∃ st' task' artifact' reply,
      st.handleAgentArtifactChunk t now {} (some done.length) chunk uploadedAt = (st', .ok reply) ∧
        st'.root = st.root ∧ Receiving t st' task' artifact' content (done ++ chunk) := by
  obtain ⟨s', task', hsave, hholds⟩ := save_holds h.holds
    (by simp [uploadFields] : "artifactId" ∉
      (uploadFields "uploading" ((done ++ chunk).length : ℤ)).map Prod.fst)
  rw [chunk_accepted h hlease hchunk (by omega), ArtifactStore.acceptChunk]
  simp only [h.describes.registeredSize]
  rw [if_pos (by simp; omega), hsave]
  refine ⟨_, task', _, _, rfl, rfl, hholds, ?_, ?_, ?_⟩
  · exact uploading_incomplete artifact _
  · exact h.describes.withFields (by simp [uploadFields])
  · exact AList.lookup_insert _

/-- The chunk that fills the size completes the upload. -/
theorem chunk_last (h : Receiving t st task artifact content done)
    (hlease : (leasedRuntime st.team now t.c).isSome)
    (hchunk : 1 ≤ chunk.length ∧ chunk.length ≤ teamArtifactChunkSize)
    (hlast : done ++ chunk = content) :
    ∃ st' reply,
      st.handleAgentArtifactChunk t now {} (some done.length) chunk uploadedAt = (st', .ok reply) ∧
        Uploaded t content st' := by
  have hlength : done.length + chunk.length = content.length := by rw [← hlast, List.length_append]
  obtain ⟨s', task', hsave, hholds⟩ := save_holds h.holds
    (by simp [UploadTarget.completeFields] :
      "artifactId" ∉ (t.completeFields content uploadedAt).map Prod.fst)
  rw [chunk_accepted h hlease hchunk (by omega), ArtifactStore.acceptChunk]
  simp only [h.describes.registeredSize, hlast]
  rw [if_neg (by omega), ArtifactStore.completeUpload, if_neg (by simp)]
  rw [if_neg (by simp [h.describes.hash])]
  simp only [t.path_eq st.root (by simp : ".bin" ∈ [".part", ".bin"])]
  rw [if_neg (by simp), hsave]
  refine ⟨_, _, rfl, task', _, t.file st.root ".bin", hholds, ?_, t.path_eq _ (by simp), ?_⟩
  · refine (uploadComplete_eq "complete" ?_ (by decide) (by decide)).trans (by decide)
    simp [withFields, UploadTarget.completeFields, lookup_putField]
  · exact AList.lookup_insert _

/-! ## What a run of requests does -/

theorem Receiving.arrive (h : Receiving t st task artifact content done) (a : Arrival) :
    Receiving t (st.arrive a) task artifact content done :=
  ⟨⟨h.holds.found, h.holds.project, h.holds.artifact⟩, h.incomplete, h.describes, h.part⟩

/-- Chunks that make up what is missing complete the upload. -/
theorem sendChunks_uploaded {chunks : List (Arrival × Bytes)} (hchunks : chunks ≠ [])
    (hlease : ∀ x ∈ chunks, Leased t x.1)
    (hsizes : ∀ x ∈ chunks, 1 ≤ x.2.length ∧ x.2.length ≤ teamArtifactChunkSize) :
    ∀ {st : ArtifactStore} {task : TeamTask} {artifact : Fields} {done : Bytes},
      Receiving t st task artifact content done →
      done ++ (chunks.map Prod.snd).flatten = content →
      Uploaded t content (sendChunks t done.length chunks st).1 := by
  induction chunks with
  | nil => exact absurd rfl hchunks
  | cons x rest ih =>
      intro st task artifact done h hcontent
      obtain ⟨a, chunk⟩ := x
      have hleased := hlease (a, chunk) List.mem_cons_self st.team
      have hsize : 1 ≤ chunk.length ∧ chunk.length ≤ teamArtifactChunkSize :=
        hsizes (a, chunk) List.mem_cons_self
      rw [List.map_cons, List.flatten_cons, ← List.append_assoc] at hcontent
      by_cases hrest : rest = []
      · rw [hrest, List.map_nil, List.flatten_nil, List.append_nil] at hcontent
        obtain ⟨st', reply, hanswer, huploaded⟩ := @chunk_last _ _ _ _ _ _ _ _ a.uploadedAt
          (h.arrive a) hleased hsize hcontent
        rw [sendChunks, hanswer, hrest]
        exact huploaded
      · obtain ⟨y, ys, rfl⟩ := List.exists_cons_of_ne_nil hrest
        have hnext := (hsizes y (by simp)).1
        have hlength := congrArg List.length hcontent
        simp only [List.map_cons, List.flatten_cons, List.length_append] at hlength
        obtain ⟨st', task', artifact', reply, hanswer, -, hreceiving⟩ :=
          @chunk_more _ _ _ _ _ _ _ _ a.uploadedAt (h.arrive a) hleased hsize (by omega)
        rw [sendChunks, hanswer]
        simp only
        rw [← List.length_append]
        exact ih hrest (fun z hz => hlease z (List.mem_cons_of_mem _ hz))
          (fun z hz => hsizes z (List.mem_cons_of_mem _ hz)) hreceiving hcontent

/-- The first request begins an upload, unless a file stands where it is to end. -/
theorem init_receiving (hholds : HoldsArtifact st.team t task artifact)
    (hincomplete : uploadComplete artifact = false) (hdescribes : Describes artifact content)
    (hlease : (leasedRuntime st.team now t.c).isSome)
    (hfree : st.disk.lookup (t.file st.root ".bin") = none) :
    ∃ st' task' artifact' reply, st.handleAgentArtifactInit t now {} = (st', .ok reply) ∧
      Receiving t st' task' artifact' content [] := by
  obtain ⟨s', task', hsave, hholds'⟩ := save_holds hholds
    (by simp [uploadFields] : "artifactId" ∉ (uploadFields "uploading" 0).map Prod.fst)
  simp only [ArtifactStore.handleAgentArtifactInit, find_of_holds hholds hlease, hincomplete,
    t.path_eq st.root (by simp : ".part" ∈ [".part", ".bin"]),
    t.path_eq st.root (by simp : ".bin" ∈ [".part", ".bin"]), hfree, hsave]
  rw [if_neg (by simp), if_neg (by simp), if_neg (by simp), if_neg (by simp)]
  refine ⟨_, task', _, _, rfl, hholds', uploading_incomplete artifact 0, ?_, ?_⟩
  · exact hdescribes.withFields (by simp [uploadFields])
  · exact AList.lookup_insert _

theorem init_refused (hholds : HoldsArtifact st.team t task artifact)
    (hincomplete : uploadComplete artifact = false)
    (hlease : (leasedRuntime st.team now t.c).isSome)
    (hstands : st.disk.lookup (t.file st.root ".bin") ≠ none) :
    ∃ e, st.handleAgentArtifactInit t now {} = (st, .error e) := by
  simp only [ArtifactStore.handleAgentArtifactInit, find_of_holds hholds hlease, hincomplete,
    t.path_eq st.root (by simp : ".part" ∈ [".part", ".bin"]),
    t.path_eq st.root (by simp : ".bin" ∈ [".part", ".bin"])]
  rw [if_neg (by simp), if_pos (by simpa [Option.isSome_iff_ne_none] using hstands)]
  exact ⟨_, rfl⟩

/-- An upload whose record does not say so is not complete. -/
theorem not_uploaded (hholds : HoldsArtifact st.team t task artifact)
    (hincomplete : uploadComplete artifact = false) : ¬ Uploaded t content st := by
  rintro ⟨task', artifact', final, hholds', hcomplete, -, -⟩
  have htask : task' = task := Option.some.inj (hholds'.found.symm.trans hholds.found)
  rw [htask] at hholds'
  have hsame : artifact' = artifact :=
    Option.some.inj (hholds'.artifact.symm.trans hholds.artifact)
  rw [hsame, hincomplete] at hcomplete
  cases hcomplete

/-- The upload of an artifact that is not complete ends well just when there is something to
send and no file stands in the way. -/
theorem upload_iff {first : Arrival} {chunks : List (Arrival × Bytes)}
    (hholds : HoldsArtifact st.team t task artifact) (hincomplete : uploadComplete artifact = false)
    (hdescribes : Describes artifact content) (hfirst : Leased t first)
    (hlease : ∀ x ∈ chunks, Leased t x.1)
    (hsizes : ∀ x ∈ chunks, 1 ≤ x.2.length ∧ x.2.length ≤ teamArtifactChunkSize)
    (hcontent : (chunks.map Prod.snd).flatten = content) :
    Uploaded t content (upload t first chunks st).1 ↔
      content ≠ [] ∧ st.disk.lookup (t.file st.root ".bin") = none := by
  have hholds' : HoldsArtifact (st.arrive first).team t task artifact :=
    ⟨hholds.found, hholds.project, hholds.artifact⟩
  by_cases hfree : st.disk.lookup (t.file st.root ".bin") = none
  · obtain ⟨st', task', artifact', reply, hanswer, hreceiving⟩ :=
      @init_receiving _ (st.arrive first) _ _ _ _ hholds' hincomplete hdescribes
        (hfirst st.team) hfree
    rw [upload, hanswer]
    by_cases hchunks : chunks = []
    · rw [hchunks, List.map_nil, List.flatten_nil] at hcontent
      rw [hchunks]
      refine iff_of_false (not_uploaded hreceiving.holds hreceiving.incomplete) ?_
      simp [← hcontent]
    · refine iff_of_true ?_ ⟨?_, hfree⟩
      · exact sendChunks_uploaded hchunks hlease hsizes hreceiving hcontent
      · obtain ⟨x, rest, rfl⟩ := List.exists_cons_of_ne_nil hchunks
        have hsize := (hsizes x List.mem_cons_self).1
        intro hnil
        rw [hnil, List.map_cons, List.flatten_cons, List.append_eq_nil_iff] at hcontent
        simp [hcontent.1] at hsize
  · obtain ⟨e, hanswer⟩ := @init_refused _ (st.arrive first) _ _ _ hholds' hincomplete
      (hfirst st.team) hfree
    rw [upload, hanswer]
    exact iff_of_false (not_uploaded hholds' hincomplete) (fun h => hfree h.2)

end

/-! ## Registered artifacts -/

/-- The event says the size and the hash of a content. -/
structure Matches (record : Fields) (content : Bytes) : Prop where
  size : record.lookup "size" = some (.int content.length)
  sha256 : aiString record ["sha256"] = asciiText (hexEncode (sha256 content))

theorem lookup_boundedFields {payload : Fields} {max : ℕ} {keys : List String} {key : String}
    (hkey : key ∉ keys) : (boundedFields payload max keys).lookup key = none := by
  rw [List.lookup_eq_none_iff]
  intro entry hentry
  obtain ⟨name, hname, hmem⟩ := List.mem_flatMap.mp hentry
  rw [textField] at hmem
  split at hmem
  · rw [List.mem_singleton.mp hmem, bne_iff_ne]
    rintro rfl
    exact hkey hname
  · cases hmem

theorem boundedArtifactSize_le {value : Option Json} {size : ℕ}
    (h : boundedArtifactSize value = some size) : size ≤ teamArtifactMaxBytes := by
  have hbounded {n : ℤ} (hn : (if n < 0 ∨ 1 <<< 30 < n then none else some n.toNat) = some size) :
      size ≤ teamArtifactMaxBytes := by
    have hshift : (1 <<< 30 : ℤ) = 2 ^ 30 := by decide
    split_ifs at hn with hrange
    rw [← Option.some.inj hn]
    simp only [teamArtifactMaxBytes, Nat.reduceShiftLeft]
    omega
  simp only [boundedArtifactSize] at h
  split at h
  · rename_i number _
    by_cases hwhole : number.den = 1
    · rw [if_pos hwhole] at h
      exact hbounded h
    · rw [if_neg hwhole] at h
      cases h
  · obtain ⟨n, -, hn⟩ := Option.bind_eq_some_iff.mp h
    exact hbounded hn
  · cases h

/-- An accepted event is not complete yet, and has a size within the bound. -/
theorem normalizeTeamArtifact_ok {payload record : Fields}
    (h : normalizeTeamArtifact payload = .ok record) :
    record.lookup "uploadStatus" = none ∧
      ∃ size : ℕ, record.lookup "size" = some (.int size) ∧ size ≤ teamArtifactMaxBytes := by
  simp only [normalizeTeamArtifact] at h
  cases hsize : boundedArtifactSize (payload.lookup "size") with
  | none =>
      rw [hsize] at h
      split_ifs at h
  | some size =>
      simp only [hsize] at h
      split_ifs at h
      rw [← Except.ok.inj h]
      refine ⟨?_, size, ?_, boundedArtifactSize_le hsize⟩
      · rw [List.lookup_append, lookup_boundedFields (by decide)]
        simp [List.lookup]
      · simp [List.lookup]

/-- An event keeps the newest 64 records of a task. -/
theorem applyTeamArtifact_few (task : TeamTask) (now : Instant) (record : Fields) :
    (applyTeamArtifact task now record).artifacts.length ≤ 64 := by
  simp only [applyTeamArtifact, List.length_drop]
  omega

/-- The record that an artifact event leaves, among not more than the records that are kept. -/
theorem findTeamArtifact_applied {task : TeamTask} (hfew : task.artifacts.length ≤ 64)
    (now : Instant) (record : Fields) :
    findTeamArtifactLocked (applyTeamArtifact task now record) (artifactKey record) =
      some record := by
  rw [findTeamArtifactLocked, applyTeamArtifact]
  by_cases hany : (task.artifacts.any fun item => artifactKey item = artifactKey record) = true
  · simp only [hany, if_true, length_replaceKey]
    rw [Nat.sub_eq_zero_of_le hfew, List.drop_zero, lookupKey_replaceKey, if_pos rfl]
    obtain ⟨item, hitem, hkey⟩ := List.any_eq_true.mp hany
    have hfound : lookupKey artifactKey (artifactKey record) task.artifacts ≠ none := by
      intro hnone
      exact lookupKey_eq_none.mp hnone item hitem (of_decide_eq_true hkey)
    obtain ⟨first, hfirst⟩ := Option.ne_none_iff_exists'.mp hfound
    rw [hfirst]
    rfl
  · simp only [hany, if_false, Bool.false_eq_true]
    have hother : ∀ item ∈ task.artifacts.drop (task.artifacts.length + 1 - 64),
        artifactKey item ≠ artifactKey record := by
      intro item hitem hkey
      exact hany (List.any_eq_true.mpr ⟨item, List.mem_of_mem_drop hitem, decide_eq_true hkey⟩)
    rw [List.length_append, List.length_singleton, List.drop_append_of_le_length (by omega),
      lookupKey_append_singleton hother, if_pos rfl]

section

variable (env : Env) (now : Instant) {s : TeamState} {value : Option Json} {record : Fields}
  {t : UploadTarget} {task : TeamTask} {content : Bytes}

/-- The state that an accepted event leaves. -/
def registeredState (s : TeamState) (t : UploadTarget) (record : Fields) : TeamState :=
  applyTeamCollaborationEventLocked env s now t.c.projectID t.taskID "artifact.created" record

/-- An accepted event registers its artifact, which is not complete. -/
theorem registered_holds
    (hevent : normalizeTeamCollaborationEvent "artifact.created" value = .ok record)
    (hname : artifactKey record = t.artifactID)
    (hopen : openTask s t.c.projectID t.taskID = some task) (hfew : task.artifacts.length ≤ 64)
    (hmatches : Matches record content) :
    HoldsArtifact (registeredState env now s t record) t (applyTeamArtifact task now record) record ∧
      uploadComplete record = false ∧ Describes record content := by
  have hnormalized : normalizeTeamArtifact (boundedPayload value) = .ok record := by
    simpa [normalizeTeamCollaborationEvent] using hevent
  obtain ⟨hstatus, size, hsize, hbounded⟩ := normalizeTeamArtifact_ok hnormalized
  have hlength : (content.length : ℤ) = size := by
    have hsame := hmatches.size.symm.trans hsize
    simp only [Json.int, Option.some.injEq, Json.num.injEq] at hsame
    exact_mod_cast hsame.1
  obtain ⟨hfound, hproject, -⟩ := openTask_some hopen
  refine ⟨⟨?_, hproject, hname ▸ findTeamArtifact_applied hfew now record⟩, ?_,
    ⟨hmatches.size, by omega, hmatches.sha256⟩⟩
  · have hid : (applyTeamArtifact task now record).taskId = t.taskID :=
      (findTeamTaskLocked_some hfound).2
    have hlookup : lookupKey TeamTask.taskId t.taskID s.teamTasks = some task := hfound
    simp only [registeredState, applyTeamCollaborationEventLocked, hopen]
    rw [if_neg (by decide), if_pos trivial, findTeamTaskLocked, replaceTeamTaskLocked,
      lookupKey_replaceKey, if_pos hid, hlookup]
    rfl
  · simp [uploadComplete, aiString, hstatus]

/-- An artifact that an event has registered can be uploaded just when it is not empty and no file
stands where it is to end. -/
theorem registered_upload_iff
    (hevent : normalizeTeamCollaborationEvent "artifact.created" value = .ok record)
    (hname : artifactKey record = t.artifactID)
    (hopen : openTask s t.c.projectID t.taskID = some task) (hfew : task.artifacts.length ≤ 64)
    (hmatches : Matches record content) {root : FilePath} {disk : Table FilePath Bytes}
    {first : Arrival} {chunks : List (Arrival × Bytes)} (hfirst : Leased t first)
    (hlease : ∀ x ∈ chunks, Leased t x.1)
    (hsizes : ∀ x ∈ chunks, 1 ≤ x.2.length ∧ x.2.length ≤ teamArtifactChunkSize)
    (hcontent : (chunks.map Prod.snd).flatten = content) :
    Uploaded t content (upload t first chunks ⟨registeredState env now s t record, root, disk⟩).1 ↔
      content ≠ [] ∧ disk.lookup (t.file root ".bin") = none := by
  obtain ⟨hholds, hincomplete, hdescribes⟩ :=
    registered_holds env now hevent hname hopen hfew hmatches
  exact upload_iff hholds hincomplete hdescribes hfirst hlease hsizes hcontent

end

/-! ### An empty log -/

/-- The artifact `log` of a task. -/
def logTarget : UploadTarget where
  c := ⟨"p", "r", "f"⟩
  taskID := "t"
  artifactID := "log"
  complete := by decide
  project := by decide
  task := by decide
  artifact := by decide

def logTask : TeamTask where
  taskId := "t"
  projectId := "p"
  title := "t"
  instruction := "i"
  status := .running
  attempt := 1
  dependencyTaskIds := []
  idempotencyKey := ""
  createdAt := 0
  updatedAt := 0
  ownerMemberId := ""
  resourceProfile := .small

def logAgent : AgentRuntime where
  projectId := "p"
  runtimeId := "r"
  instanceId := "r"
  memberId := "m"
  deviceId := ""
  status := .online
  fencingToken := "f"
  leaseId := "l"
  activeSessions := 0
  activeTasks := 0
  registeredAt := 0
  lastSeenAt := 0
  leaseExpiresAt := some 100

/-- The event that registers a log. -/
def logEvent (hash : String) (size : ℤ) : Option Json :=
  some (.obj [("artifactId", .str "log"), ("kind", .str "log"), ("sha256", .str hash),
    ("size", .int size)])

def logRecord (hash : String) (size : ℤ) : Fields :=
  [("artifactId", .str "log"), ("kind", .str "log"), ("sha256", .str hash), ("size", .int size)]

def logState : TeamState := { TeamState.empty with teamTasks := [logTask] }

def logArrival : Arrival := ⟨5, [logAgent], ""⟩

theorem logArrival_leased : Leased logTarget logArrival := fun _ => rfl

/-- A log of one byte. -/
def shortHash : String := "2d711642b726b04401627ca9fbac32f5c8530fb1903cc4db02258717921a4881"

def emptyHash : String := "e3b0c44298fc1c149afbf4c8996fb92427ae41e4649b934ca495991b7852b855"

theorem emptyLog_accepted :
    normalizeTeamCollaborationEvent "artifact.created" (logEvent emptyHash 0) =
      .ok (logRecord emptyHash 0) := by
  rfl

theorem shortLog_accepted :
    normalizeTeamCollaborationEvent "artifact.created" (logEvent shortHash 1) =
      .ok (logRecord shortHash 1) := by
  rfl

theorem emptyLog_matches : Matches (logRecord emptyHash 0) [] := ⟨rfl, by decide +kernel⟩

theorem logTask_open : openTask logState logTarget.c.projectID logTarget.taskID = some logTask := rfl

theorem shortLog_uploaded :
    Uploaded logTarget [120] (upload logTarget logArrival [(logArrival, [120])]
      ⟨registeredState .default 5 logState logTarget (logRecord shortHash 1), [], ∅⟩).1 :=
  (registered_upload_iff .default 5 shortLog_accepted (by decide) logTask_open (by decide)
    ⟨rfl, by decide +kernel⟩ logArrival_leased (by simp [logArrival_leased]) (by decide) rfl).mpr
    ⟨by decide, rfl⟩

/-- An artifact without content is accepted and can never be uploaded: there is no chunk that
would complete it. -/
theorem emptyLog_never_uploaded :
    ¬ ∀ (s : TeamState) (value : Option Json) (record : Fields) (t : UploadTarget) (task : TeamTask)
        (content : Bytes) (first : Arrival) (chunks : List (Arrival × Bytes)),
      normalizeTeamCollaborationEvent "artifact.created" value = .ok record →
      artifactKey record = t.artifactID → openTask s t.c.projectID t.taskID = some task →
      task.artifacts.length ≤ 64 → Matches record content → Leased t first →
      (∀ x ∈ chunks, Leased t x.1) →
      (∀ x ∈ chunks, 1 ≤ x.2.length ∧ x.2.length ≤ teamArtifactChunkSize) →
      (chunks.map Prod.snd).flatten = content →
      Uploaded t content
        (upload t first chunks ⟨registeredState .default 5 s t record, [], ∅⟩).1 := by
  intro h
  have huploaded := h logState _ _ logTarget logTask [] logArrival [] emptyLog_accepted (by decide)
    logTask_open (by decide) emptyLog_matches logArrival_leased (by simp) (by simp) rfl
  obtain ⟨hholds, hincomplete, hdescribes⟩ :=
    registered_holds .default 5 emptyLog_accepted (by decide : _ = logTarget.artifactID)
      logTask_open (by decide) emptyLog_matches
  exact ((upload_iff hholds hincomplete hdescribes logArrival_leased (by simp) (by simp) rfl).mp
    huploaded).1 rfl

end WorkMesh.AgentTeam
