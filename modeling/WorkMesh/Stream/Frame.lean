import WorkMesh.Encoding.BigEndian
import WorkMesh.Encoding.Cookie

/-!
# Frames of a WebSocket

The handshake hands the connection over, and frames are read from it one after
another. A frame is read whatever pieces it arrives in; which frames are let
through is said by its first bytes.
-/

namespace WorkMesh.Stream

open Encoding

def maxWebSocketMessage : ℕ := 2 ^ 20

/-! ## The handshake -/

/-- What the handshake reads of a request. -/
structure UpgradeRequest where
  host : Bytes
  upgrade : Bytes
  connection : List Bytes
  version : Bytes
  key : Bytes
  origin : Bytes

/-- The host of a URL, `WORKMESH_STREAM_ORIGINS` and the accept value of a key. -/
structure Site where
  hostOf : Bytes → Option Bytes
  allowedOrigins : Bytes
  acceptOf : Bytes → Bytes

/-- What `Hijack` gives: the bytes that arrived behind the request, and what the connection will
return. -/
structure Hijacked where
  early : Bytes
  segments : List Bytes

def headerContainsToken (values : List Bytes) (expected : Bytes) : Bool :=
  values.any fun value => (value.splitOn 44).any fun token => equalFold (trimSpace token) expected

def validStreamOrigin (site : Site) (r : UpgradeRequest) : Bool :=
  let origin := trimSpace r.origin
  if origin = [] then true
  else
    match site.hostOf origin with
    | none => false
    | some host =>
        if host = [] then false
        else if equalFold host r.host then true
        else (site.allowedOrigins.splitOn 44).any fun allowed => equalFold (trimSpace allowed) origin

/-- The answer to a handshake and the reader of the connection, which starts with an empty
buffer. -/
def upgradeStreamWebSocket (site : Site) (r : UpgradeRequest) (hijack : Except String Hijacked) :
    Except String (Bytes × BufReader) :=
  if equalFold r.upgrade (bytes "websocket") = false then .error "WEBSOCKET_UPGRADE_REQUIRED"
  else if headerContainsToken r.connection (bytes "upgrade") = false then
    .error "WEBSOCKET_CONNECTION_UPGRADE_REQUIRED"
  else if trimSpace r.version ≠ bytes "13" then .error "WEBSOCKET_VERSION_UNSUPPORTED"
  else if trimSpace r.key = [] then .error "WEBSOCKET_KEY_REQUIRED"
  else if (stdDecode (trimSpace r.key)).map List.length ≠ some 16 then .error "WEBSOCKET_KEY_INVALID"
  else if validStreamOrigin site r = false then .error "WEBSOCKET_ORIGIN_DENIED"
  else
    match hijack with
    | .error e => .error e
    | .ok hijacked =>
        .ok (bytes "HTTP/1.1 101 Switching Protocols\r\nUpgrade: websocket\r\nConnection: Upgrade\r\n" ++
          bytes "Sec-WebSocket-Accept: " ++ site.acceptOf (trimSpace r.key) ++ bytes "\r\n\r\n",
          ⟨[], hijacked.segments⟩)

/-! ## Reading -/

/-- The payload with its mask taken off. -/
def unmask (mask payload : Bytes) : Bytes := payload.mapIdx fun i c => c ^^^ mask.getD (i % 4) 0

def readLength (low : UInt8) (r : BufReader) : Except String (ℕ × BufReader) :=
  if low = 126 then
    match r.readFull 2 with
    | .ok (size, r) => .ok (bigEndian size, r)
    | .error e => .error e
  else if low = 127 then
    match r.readFull 8 with
    | .ok (size, r) => .ok (bigEndian size, r)
    | .error e => .error e
  else .ok (low.toNat, r)

/-- Why a frame is refused before its payload is read. -/
def refusal (first second : UInt8) (length : ℕ) : Option String :=
  let opcode := first &&& 0x0f
  if 0x8 ≤ opcode ∧ (first &&& 0x80 = 0 ∨ 125 < length) then some "websocket 控制帧格式无效"
  else if opcode < 0x8 ∧ opcode ≠ 0x0 ∧ opcode ≠ 0x1 ∧ opcode ≠ 0x2 then
    some "websocket 数据帧类型不受支持"
  else if maxWebSocketMessage < length then some "websocket 消息超过 1MiB 限制"
  else if second &&& 0x80 = 0 then some "客户端帧必须掩码"
  else none

def readPayload (first : UInt8) (length : ℕ) (r : BufReader) :
    Except String (UInt8 × Bytes × BufReader) :=
  match r.readFull 4 with
  | .error e => .error e
  | .ok (mask, r) =>
      match r.readFull length with
      | .error e => .error e
      | .ok (payload, r) => .ok (first &&& 0x0f, unmask mask payload, r)

def readFrame (r : BufReader) : Except String (UInt8 × Bytes × BufReader) :=
  match r.readByte with
  | .error e => .error e
  | .ok (first, r) =>
      match r.readByte with
      | .error e => .error e
      | .ok (second, r) =>
          if first &&& 0x70 ≠ 0 ∨ first &&& 0x80 = 0 then .error "websocket 分片或保留位不受支持"
          else
            match readLength (second &&& 0x7f) r with
            | .error e => .error e
            | .ok (length, r) =>
                match refusal first second length with
                | some e => .error e
                | none => readPayload first length r

/-- So many frames, one after another. -/
def readFrames : ℕ → BufReader → Except String (List (UInt8 × Bytes) × BufReader)
  | 0, r => .ok ([], r)
  | n + 1, r =>
      match readFrame r with
      | .error e => .error e
      | .ok (opcode, payload, r) =>
          match readFrames n r with
          | .error e => .error e
          | .ok (frames, r) => .ok ((opcode, payload) :: frames, r)

/-- The length of a payload behind the first byte. -/
def lengthHeader (n : ℕ) : Bytes :=
  if n < 126 then [UInt8.ofNat n]
  else if n ≤ 65535 then [126, UInt8.ofNat (n / 2 ^ 8), UInt8.ofNat n]
  else 127 :: bytesOf 8 n

/-- The bytes that `writeStreamFrame` writes to the connection. -/
def writeStreamFrame (opcode : UInt8) (payload : Bytes) : Except String Bytes :=
  if maxWebSocketMessage < payload.length then .error "websocket 消息超过 1MiB 限制"
  else .ok ((0x80 ||| (opcode &&& 0x0f)) :: (lengthHeader payload.length ++ payload))

/-! ## Frames as bytes -/

/-- The three ways to write a length. -/
inductive LengthForm where
  | short
  | medium
  | long
  deriving DecidableEq

namespace LengthForm

def Fits : LengthForm → ℕ → Prop
  | short, n => n < 126
  | medium, n => n < 2 ^ 16
  | long, n => n < 2 ^ 64

/-- The form that is asked for: the shortest one. -/
def ofLength (n : ℕ) : LengthForm :=
  if n < 126 then short else if n < 2 ^ 16 then medium else long

/-- The seven bits of the second byte. -/
def low : LengthForm → ℕ → ℕ
  | short, n => n
  | medium, _ => 126
  | long, _ => 127

/-- The bytes behind the second one. -/
def extended : LengthForm → ℕ → Bytes
  | short, _ => []
  | medium, n => bytesOf 2 n
  | long, n => bytesOf 8 n

end LengthForm

/-- A final frame with a mask and without reserved bits, of any opcode. -/
structure WireFrame where
  opcode : UInt8
  form : LengthForm
  mask : Bytes
  payload : Bytes
  opcode_lt : opcode < 16
  fits : form.Fits payload.length
  mask_length : mask.length = 4

/-- The bytes of a frame that a client sends. -/
def WireFrame.bytes (f : WireFrame) : Bytes :=
  (0x80 ||| f.opcode) :: UInt8.ofNat (128 + f.form.low f.payload.length) ::
    (f.form.extended f.payload.length ++ (f.mask ++ unmask f.mask f.payload))

/-- What `readFrame` lets through. -/
structure WireFrame.Accepted (f : WireFrame) : Prop where
  opcode : f.opcode ≤ 2 ∨ 8 ≤ f.opcode
  control : 8 ≤ f.opcode → f.payload.length ≤ 125
  size : f.payload.length ≤ maxWebSocketMessage

/-- The frames of the protocol between the page and the server. -/
inductive ClientOpcode where
  | text
  | close
  | ping
  | pong
  deriving DecidableEq

namespace ClientOpcode

def code : ClientOpcode → UInt8
  | text => 0x1
  | close => 0x8
  | ping => 0x9
  | pong => 0xA

def limit : ClientOpcode → ℕ
  | text => maxWebSocketMessage
  | close => 125
  | ping => 125
  | pong => 125

theorem code_lt (opcode : ClientOpcode) : opcode.code < 16 := by
  cases opcode <;> decide

end ClientOpcode

structure ClientFrame where
  opcode : ClientOpcode
  mask : Bytes
  payload : Bytes
  mask_length : mask.length = 4
  size : payload.length ≤ opcode.limit

/-- The frame with its length in the shortest form. -/
def ClientFrame.wire (f : ClientFrame) : WireFrame where
  opcode := f.opcode.code
  form := .ofLength f.payload.length
  mask := f.mask
  payload := f.payload
  opcode_lt := f.opcode.code_lt
  fits := by
    have hsize : f.payload.length ≤ maxWebSocketMessage := by
      refine f.size.trans ?_
      cases f.opcode <;> decide
    rw [maxWebSocketMessage] at hsize
    rw [LengthForm.ofLength]
    split_ifs with hshort hmedium
    · exact hshort
    · exact hmedium
    · rw [LengthForm.Fits]
      omega
  mask_length := f.mask_length

/-! ## Bits -/

section Bits

/-- What the masks of the first two bytes select. -/
theorem header_bits (c : UInt8) : (c &&& 0x7f).toNat = c.toNat % 128 ∧
    (c &&& 0x80 = 0 ↔ c.toNat < 128) ∧
    (c &&& 0x70 = 0 ∧ c &&& 0x80 ≠ 0 ↔ c = 0x80 ||| (c &&& 0x0f)) ∧ c &&& 0x0f < 16 := by
  revert c
  apply forall_byte
  decide +kernel

theorem opcode_bits {opcode : UInt8} (h : opcode < 16) :
    (0x80 ||| opcode) &&& 0x0f = opcode := by
  revert opcode
  apply forall_byte
  decide +kernel

@[simp] theorem length_unmask (mask payload : Bytes) :
    (unmask mask payload).length = payload.length := List.length_mapIdx

/-- The mask taken off twice is there again. -/
theorem unmask_unmask (mask payload : Bytes) : unmask mask (unmask mask payload) = payload := by
  rw [unmask, unmask, List.mapIdx_mapIdx]
  apply List.ext_getElem
  · exact List.length_mapIdx
  · intro i hi hpayload
    rw [List.getElem_mapIdx, Function.comp_apply, UInt8.xor_assoc, UInt8.xor_self, UInt8.xor_zero]

end Bits

/-! ## What is read -/

section Reading
variable {r r' : BufReader} {first second : UInt8} {length : ℕ}

theorem LengthForm.low_lt {form : LengthForm} {n : ℕ} (h : form.Fits n) : form.low n < 128 := by
  cases form with
  | short =>
      rw [Fits] at h
      rw [low]
      omega
  | medium => exact (by decide : 126 < 128)
  | long => exact (by decide : 127 < 128)

/-- The second byte of a frame with a mask, by its length. -/
theorem second_bits {n : ℕ} (h : n < 128) : (UInt8.ofNat (128 + n) &&& 0x7f).toNat = n ∧
    UInt8.ofNat (128 + n) &&& 0x80 ≠ 0 := by
  obtain ⟨hlow, hmask, -⟩ := header_bits (UInt8.ofNat (128 + n))
  rw [UInt8.toNat_ofNat'] at hlow hmask
  refine ⟨by omega, fun hzero => ?_⟩
  have := hmask.mp hzero
  omega

theorem exists_readLength {form : LengthForm} {n : ℕ} {back : Bytes} (hfits : form.Fits n)
    (h : r.rest = form.extended n ++ back) :
    ∃ r', readLength (UInt8.ofNat (128 + form.low n) &&& 0x7f) r = .ok (n, r') ∧ r'.rest = back := by
  have hlow := (second_bits (LengthForm.low_lt hfits)).1
  rw [readLength]
  simp only [← UInt8.toNat_inj, hlow]
  cases form with
  | short =>
      have hn : n < 126 := hfits
      refine ⟨r, ?_, h⟩
      rw [if_neg (by rw [LengthForm.low]; exact hn.ne),
        if_neg (by rw [LengthForm.low]; exact (hn.trans (by decide)).ne), LengthForm.low]
  | medium =>
      obtain ⟨r', hread, hback⟩ := BufReader.exists_readFull h
      rw [LengthForm.extended, length_bytesOf] at hread
      refine ⟨r', ?_, hback⟩
      rw [if_pos (show LengthForm.medium.low n = UInt8.toNat 126 from rfl), hread]
      dsimp only
      rw [bigEndian_bytesOf hfits]
  | long =>
      obtain ⟨r', hread, hback⟩ := BufReader.exists_readFull h
      rw [LengthForm.extended, length_bytesOf] at hread
      refine ⟨r', ?_, hback⟩
      rw [if_neg (by rw [LengthForm.low]; decide),
        if_pos (show LengthForm.long.low n = UInt8.toNat 127 from rfl), hread]
      dsimp only
      rw [bigEndian_bytesOf hfits]

theorem readLength_ok (h : readLength (second &&& 0x7f) r = .ok (length, r')) :
    ∃ form : LengthForm, form.Fits length ∧ second.toNat % 128 = form.low length ∧
      r.rest = form.extended length ++ r'.rest := by
  obtain ⟨hlow, -⟩ := header_bits second
  rw [readLength] at h
  simp only [← UInt8.toNat_inj, hlow] at h
  have hread {width : ℕ} {data : Bytes} (hdata : data.length = width)
      (hrest : r.rest = data ++ r'.rest) :
      bigEndian data < 256 ^ width ∧ r.rest = bytesOf width (bigEndian data) ++ r'.rest := by
    subst hdata
    exact ⟨bigEndian_lt data, by rw [bytesOf_bigEndian]; exact hrest⟩
  split_ifs at h with hmedium hlong
  · cases hfull : r.readFull 2 with
    | error e => simp [hfull] at h
    | ok result =>
        rw [hfull] at h
        obtain ⟨rfl, rfl⟩ := Prod.mk.inj (Except.ok.inj h)
        obtain ⟨hdata, hrest⟩ := BufReader.readFull_ok hfull
        obtain ⟨hlt, hback⟩ := hread hdata hrest
        exact ⟨.medium, hlt, hmedium, hback⟩
  · cases hfull : r.readFull 8 with
    | error e => simp [hfull] at h
    | ok result =>
        rw [hfull] at h
        obtain ⟨rfl, rfl⟩ := Prod.mk.inj (Except.ok.inj h)
        obtain ⟨hdata, hrest⟩ := BufReader.readFull_ok hfull
        obtain ⟨hlt, hback⟩ := hread hdata hrest
        exact ⟨.long, hlt, hlong, hback⟩
  · obtain ⟨rfl, rfl⟩ := Prod.mk.inj (Except.ok.inj h)
    refine ⟨.short, ?_, rfl, rfl⟩
    change second.toNat % 128 < 126
    have hmod := Nat.mod_lt second.toNat (show 0 < 128 by decide)
    have hnot126 : second.toNat % 128 ≠ 126 := hmedium
    have hnot127 : second.toNat % 128 ≠ 127 := hlong
    omega

theorem refusal_none_iff : refusal first second length = none ↔
    (first &&& 0x0f ≤ 2 ∨ 8 ≤ first &&& 0x0f) ∧
      (8 ≤ first &&& 0x0f → first &&& 0x80 ≠ 0 ∧ length ≤ 125) ∧
      length ≤ maxWebSocketMessage ∧ second &&& 0x80 ≠ 0 := by
  rw [refusal]
  generalize first &&& 0x0f = opcode
  have hopcode : opcode < 8 ∧ opcode ≠ 0 ∧ opcode ≠ 1 ∧ opcode ≠ 2 ↔ ¬(opcode ≤ 2 ∨ 8 ≤ opcode) := by
    simp only [UInt8.lt_iff_toNat_lt, UInt8.le_iff_toNat_le, ne_eq, ← UInt8.toNat_inj]
    change opcode.toNat < 8 ∧ ¬opcode.toNat = 0 ∧ ¬opcode.toNat = 1 ∧ ¬opcode.toNat = 2 ↔
      ¬(opcode.toNat ≤ 2 ∨ 8 ≤ opcode.toNat)
    omega
  split_ifs with hcontrol hdata hsize hmask
  · refine iff_of_false (by simp) fun h => ?_
    obtain ⟨hfin, hlength⟩ := h.2.1 hcontrol.1
    rcases hcontrol.2 with hzero | hlong
    · exact hfin hzero
    · omega
  · exact iff_of_false (by simp) fun h => hopcode.mp hdata h.1
  · exact iff_of_false (by simp) fun h => by omega
  · exact iff_of_false (by simp) fun h => h.2.2.2 hmask
  · refine iff_of_true rfl ⟨not_not.mp (mt hopcode.mpr hdata), fun hctl => ?_, by omega, hmask⟩
    refine ⟨fun hzero => hcontrol ⟨hctl, .inl hzero⟩, ?_⟩
    by_contra hlong
    exact hcontrol ⟨hctl, .inr (by omega)⟩

/-- An accepted frame is read, in whatever pieces it arrives. -/
theorem exists_readFrame {f : WireFrame} (hf : f.Accepted) {back : Bytes}
    (h : r.rest = f.bytes ++ back) :
    ∃ r', readFrame r = .ok (f.opcode, f.payload, r') ∧ r'.rest = back := by
  have hopcode := opcode_bits f.opcode_lt
  obtain ⟨hlow, hmasked⟩ := second_bits (LengthForm.low_lt f.fits)
  have hfirst := (header_bits (0x80 ||| f.opcode)).2.2.1.mpr (by rw [hopcode])
  obtain ⟨r₁, hread₁, h₁⟩ := BufReader.exists_readByte h
  obtain ⟨r₂, hread₂, h₂⟩ := BufReader.exists_readByte h₁
  rw [List.append_eq, List.append_assoc] at h₂
  obtain ⟨r₃, hread₃, h₃⟩ := exists_readLength f.fits h₂
  rw [List.append_assoc] at h₃
  obtain ⟨r₄, hread₄, h₄⟩ := BufReader.exists_readFull h₃
  obtain ⟨r₅, hread₅, h₅⟩ := BufReader.exists_readFull h₄
  rw [f.mask_length] at hread₄
  rw [length_unmask] at hread₅
  have hnone : refusal (0x80 ||| f.opcode) (UInt8.ofNat (128 + f.form.low f.payload.length))
      f.payload.length = none := by
    rw [refusal_none_iff, hopcode]
    exact ⟨hf.opcode, fun hctl => ⟨hfirst.2, hf.control hctl⟩, hf.size, hmasked⟩
  refine ⟨r₅, ?_, h₅⟩
  rw [readFrame, hread₁]
  dsimp only
  rw [hread₂]
  dsimp only
  rw [if_neg (not_or.mpr ⟨not_not.mpr hfirst.1, hfirst.2⟩), hread₃]
  dsimp only
  rw [hnone]
  dsimp only
  rw [readPayload, hread₄]
  dsimp only
  rw [hread₅]
  dsimp only
  rw [hopcode, unmask_unmask]

/-- What is read was an accepted frame. -/
theorem readFrame_ok {opcode : UInt8} {payload : Bytes}
    (h : readFrame r = .ok (opcode, payload, r')) :
    ∃ f : WireFrame, f.Accepted ∧ f.opcode = opcode ∧ f.payload = payload ∧
      r.rest = f.bytes ++ r'.rest := by
  rw [readFrame] at h
  cases hread₁ : r.readByte with
  | error e => simp [hread₁] at h
  | ok result₁ =>
  obtain ⟨first, r₁⟩ := result₁
  rw [hread₁] at h
  dsimp only at h
  cases hread₂ : r₁.readByte with
  | error e => simp [hread₂] at h
  | ok result₂ =>
  obtain ⟨second, r₂⟩ := result₂
  rw [hread₂] at h
  dsimp only at h
  split_ifs at h with hbits
  cases hread₃ : readLength (second &&& 0x7f) r₂ with
  | error e => simp [hread₃] at h
  | ok result₃ =>
  obtain ⟨length, r₃⟩ := result₃
  rw [hread₃] at h
  dsimp only at h
  cases hrefusal : refusal first second length with
  | some e => simp [hrefusal] at h
  | none =>
  rw [hrefusal, readPayload] at h
  dsimp only at h
  cases hread₄ : r₃.readFull 4 with
  | error e => simp [hread₄] at h
  | ok result₄ =>
  obtain ⟨mask, r₄⟩ := result₄
  rw [hread₄] at h
  dsimp only at h
  cases hread₅ : r₄.readFull length with
  | error e => simp [hread₅] at h
  | ok result₅ =>
  obtain ⟨masked, r₅⟩ := result₅
  rw [hread₅] at h
  obtain ⟨rfl, hrest⟩ := Prod.mk.inj (Except.ok.inj h)
  obtain ⟨rfl, rfl⟩ := Prod.mk.inj hrest
  obtain ⟨hmask, h₄⟩ := BufReader.readFull_ok hread₄
  obtain ⟨hlength, h₅⟩ := BufReader.readFull_ok hread₅
  obtain ⟨form, hfits, hlow, h₃⟩ := readLength_ok hread₃
  obtain ⟨hopcode, hcontrol, hsize, hmasked⟩ := refusal_none_iff.mp hrefusal
  obtain ⟨-, -, hfirst, hlt⟩ := header_bits first
  obtain ⟨hrsv, hfin⟩ := not_or.mp hbits
  have hunmasked : (unmask mask masked).length = length := by rw [length_unmask, hlength]
  refine ⟨⟨first &&& 0x0f, form, mask, unmask mask masked, hlt, ?_, hmask⟩, ⟨hopcode, ?_, ?_⟩, rfl,
    rfl, ?_⟩
  · rw [hunmasked]
    exact hfits
  · intro hctl
    rw [hunmasked]
    exact (hcontrol hctl).2
  · rw [hunmasked]
    exact hsize
  · have hsecond : UInt8.ofNat (128 + form.low length) = second := by
      have hge : ¬second.toNat < 128 := fun hless =>
        hmasked ((header_bits second).2.1.mpr hless)
      have hless := second.toNat_lt
      rw [← hlow, show 128 + second.toNat % 128 = second.toNat by omega, UInt8.ofNat_toNat]
    rw [BufReader.readByte_ok hread₁, BufReader.readByte_ok hread₂, h₃, h₄, h₅, WireFrame.bytes]
    dsimp only
    rw [hunmasked, unmask_unmask, hsecond, ← hfirst.mp ⟨not_not.mp hrsv, hfin⟩]
    simp only [List.cons_append, List.append_assoc]

end Reading

end WorkMesh.Stream
