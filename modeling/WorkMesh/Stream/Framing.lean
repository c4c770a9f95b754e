import WorkMesh.Encoding.Runes
import WorkMesh.Stream.Frame

/-!
# What the framing gets right

Frames of a client come out as they were sent unless some of their bytes came
with the handshake; frames that no client may send are refused but for some
opcodes and long lengths; what is written is read back; and a reason for
closing is kept or lost as a whole when it is long.
-/

namespace WorkMesh.Stream

open Encoding

/-! ## Sequences of frames -/

section Sequences
variable {r r' : BufReader} {n : ℕ} {out : List (UInt8 × Bytes)}

/-- The opcode and the payload of a frame. -/
def WireFrame.content (f : WireFrame) : UInt8 × Bytes := (f.opcode, f.payload)

def ClientFrame.content (f : ClientFrame) : UInt8 × Bytes := (f.opcode.code, f.payload)

theorem ClientOpcode.code_cases (opcode : ClientOpcode) :
    opcode.code = 0x1 ∨ opcode.code = 0x8 ∨ opcode.code = 0x9 ∨ opcode.code = 0xA := by
  cases opcode <;> decide

theorem ClientOpcode.limit_control {opcode : ClientOpcode} (h : 8 ≤ opcode.code) :
    opcode.limit = 125 := by
  cases opcode with
  | text => exact absurd h (by decide)
  | close => rfl
  | ping => rfl
  | pong => rfl

theorem ClientFrame.accepted (f : ClientFrame) : f.wire.Accepted where
  opcode := by
    change f.opcode.code ≤ 2 ∨ 8 ≤ f.opcode.code
    rcases f.opcode.code_cases with h | h | h | h <;> rw [h] <;> decide
  control := fun h => (ClientOpcode.limit_control h) ▸ f.size
  size := by
    refine f.size.trans ?_
    cases f.opcode <;> decide

theorem exists_readFrames (frames : List ClientFrame)
    (h : r.rest = frames.flatMap fun f => f.wire.bytes) :
    ∃ r', readFrames frames.length r = .ok (frames.map ClientFrame.content, r') := by
  induction frames generalizing r with
  | nil => exact ⟨r, rfl⟩
  | cons f frames ih =>
      rw [List.flatMap_cons] at h
      obtain ⟨r₁, hread, hrest⟩ := exists_readFrame f.accepted h
      obtain ⟨r₂, hothers⟩ := ih hrest
      refine ⟨r₂, ?_⟩
      rw [List.length_cons, readFrames, hread]
      dsimp only
      rw [hothers]
      rfl

theorem readFrames_ok (h : readFrames n r = .ok (out, r')) :
    ∃ fs : List WireFrame, fs.map WireFrame.content = out ∧
      r.rest = (fs.flatMap WireFrame.bytes) ++ r'.rest := by
  induction n generalizing r out with
  | zero =>
      obtain ⟨rfl, rfl⟩ := Prod.mk.inj (Except.ok.inj h)
      exact ⟨[], rfl, rfl⟩
  | succ n ih =>
      rw [readFrames] at h
      cases hread : readFrame r with
      | error e => simp [hread] at h
      | ok result =>
          obtain ⟨opcode, payload, r₁⟩ := result
          rw [hread] at h
          dsimp only at h
          cases hothers : readFrames n r₁ with
          | error e => simp [hothers] at h
          | ok rest =>
              obtain ⟨others, r₂⟩ := rest
              rw [hothers] at h
              obtain ⟨rfl, rfl⟩ := Prod.mk.inj (Except.ok.inj h)
              obtain ⟨f, -, rfl, rfl, hbytes⟩ := readFrame_ok hread
              obtain ⟨fs, rfl, hrest⟩ := ih hothers
              refine ⟨f :: fs, rfl, ?_⟩
              rw [hbytes, hrest, List.flatMap_cons, List.append_assoc]

/-- No form of a length takes fewer bytes than the one that is asked for. -/
theorem length_extended_le {form : LengthForm} {n : ℕ} (h : form.Fits n) :
    ((LengthForm.ofLength n).extended n).length ≤ (form.extended n).length := by
  rw [LengthForm.ofLength]
  cases form with
  | short =>
      have hshort : n < 126 := h
      rw [if_pos hshort]
  | medium =>
      have hmedium : n < 2 ^ 16 := h
      split_ifs
      · exact Nat.zero_le _
      · exact le_rfl
  | long =>
      split_ifs <;> simp [LengthForm.extended]

theorem length_wire_le (f : ClientFrame) (g : WireFrame) (h : g.content = f.content) :
    f.wire.bytes.length ≤ g.bytes.length := by
  obtain ⟨-, hpayload⟩ := Prod.mk.inj h
  have hfits := length_extended_le g.fits
  rw [hpayload] at hfits
  simp only [WireFrame.bytes, ClientFrame.wire, List.length_cons, List.length_append, length_unmask,
    f.mask_length, g.mask_length, hpayload]
  omega

theorem length_flatMap_le {frames : List ClientFrame} {fs : List WireFrame}
    (h : fs.map WireFrame.content = frames.map ClientFrame.content) :
    (frames.flatMap fun f => f.wire.bytes).length ≤ (fs.flatMap WireFrame.bytes).length := by
  induction frames generalizing fs with
  | nil => exact Nat.zero_le _
  | cons f frames ih =>
      cases fs with
      | nil => cases h
      | cons g fs =>
          obtain ⟨hfirst, hothers⟩ := List.cons.inj h
          have hle := length_wire_le f g hfirst
          have hrest := ih hothers
          rw [List.flatMap_cons, List.flatMap_cons, List.length_append, List.length_append]
          omega

/-- A handshake that succeeds leaves what came with it unread. -/
theorem upgrade_ok {site : Site} {request : UpgradeRequest} {hijacked : Hijacked} {response : Bytes}
    (h : upgradeStreamWebSocket site request (.ok hijacked) = .ok (response, r)) :
    r = ⟨[], hijacked.segments⟩ := by
  rw [upgradeStreamWebSocket] at h
  split_ifs at h
  exact (Prod.mk.inj (Except.ok.inj h)).2.symm

/-- The frames that are sent behind a handshake are read exactly if none of their bytes came with
it. -/
theorem readFrames_iff {site : Site} {request : UpgradeRequest} {hijacked : Hijacked}
    {response : Bytes} (h : upgradeStreamWebSocket site request (.ok hijacked) = .ok (response, r))
    {frames : List ClientFrame}
    (hsent : hijacked.early ++ hijacked.segments.flatten = frames.flatMap fun f => f.wire.bytes) :
    (∃ r', readFrames frames.length r = .ok (frames.map ClientFrame.content, r')) ↔
      hijacked.early = [] := by
  have hrest : r.rest = hijacked.segments.flatten := by
    rw [upgrade_ok h]
    rfl
  constructor
  · rintro ⟨r', hread⟩
    obtain ⟨fs, hcontent, hbytes⟩ := readFrames_ok hread
    have hle := length_flatMap_le hcontent
    rw [← hsent, List.length_append, ← hrest, hbytes, List.length_append] at hle
    exact List.eq_nil_of_length_eq_zero (by omega)
  · intro hearly
    rw [hearly, List.nil_append, ← hrest] at hsent
    exact exists_readFrames frames hsent

end Sequences

/-! ## Frames of no client -/

section Foreign
variable {r : BufReader}

/-- A stream begins with a frame that a client may send. -/
def BeginsWithClientFrame (stream : Bytes) : Prop :=
  ∃ (f : ClientFrame) (back : Bytes), stream = f.wire.bytes ++ back

/-- A frame that is let through although no client may send it: another opcode, or a length that
is written longer than it must be. -/
structure WireFrame.Foreign (f : WireFrame) : Prop where
  accepted : f.Accepted
  foreign : (f.opcode ≠ 0x1 ∧ f.opcode ≠ 0x8 ∧ f.opcode ≠ 0x9 ∧ f.opcode ≠ 0xA) ∨
    f.form ≠ .ofLength f.payload.length

def BeginsWithForeignFrame (stream : Bytes) : Prop :=
  ∃ (f : WireFrame) (back : Bytes), f.Foreign ∧ stream = f.bytes ++ back

theorem LengthForm.eq_of_low_eq {form form' : LengthForm} {n n' : ℕ} (h : form.Fits n)
    (h' : form'.Fits n') (heq : form.low n = form'.low n') : form = form' := by
  cases form <;> cases form' <;> simp only [Fits, low] at h h' heq <;> first | rfl | omega

/-- Two frames at the beginning of one stream have the same opcode and the same form. -/
theorem WireFrame.eq_of_bytes {f g : WireFrame} {back back' : Bytes}
    (h : f.bytes ++ back = g.bytes ++ back') : f.opcode = g.opcode ∧ f.form = g.form := by
  obtain ⟨hfirst, hrest⟩ := List.cons.inj h
  obtain ⟨hsecond, -⟩ := List.cons.inj hrest
  constructor
  · rw [← opcode_bits f.opcode_lt, hfirst, opcode_bits g.opcode_lt]
  · apply LengthForm.eq_of_low_eq f.fits g.fits
    rw [← (second_bits (LengthForm.low_lt f.fits)).1, hsecond,
      (second_bits (LengthForm.low_lt g.fits)).1]

theorem exists_clientFrame {f : WireFrame} (hf : f.Accepted) (hopcode : f.opcode = 0x1 ∨
    f.opcode = 0x8 ∨ f.opcode = 0x9 ∨ f.opcode = 0xA) (hform : f.form = .ofLength f.payload.length) :
    ∃ g : ClientFrame, g.wire.bytes = f.bytes := by
  obtain ⟨opcode, hcode, hlimit⟩ : ∃ opcode : ClientOpcode, opcode.code = f.opcode ∧
      f.payload.length ≤ opcode.limit := by
    rcases hopcode with heq | heq | heq | heq
    · exact ⟨.text, heq.symm, hf.size⟩
    · exact ⟨.close, heq.symm, hf.control (by rw [heq]; decide)⟩
    · exact ⟨.ping, heq.symm, hf.control (by rw [heq]; decide)⟩
    · exact ⟨.pong, heq.symm, hf.control (by rw [heq]; decide)⟩
  refine ⟨⟨opcode, f.mask, f.payload, f.mask_length, hlimit⟩, ?_⟩
  simp only [ClientFrame.wire, WireFrame.bytes, hcode, hform]

/-- A stream that does not begin with a frame of a client is refused exactly if it does not begin
with one that is let through all the same. -/
theorem refused_iff : (¬BeginsWithClientFrame r.rest → ∃ e, readFrame r = .error e) ↔
    ¬BeginsWithForeignFrame r.rest := by
  constructor
  · rintro hrefused ⟨f, back, hf, hbytes⟩
    obtain ⟨r', hread, -⟩ := exists_readFrame hf.accepted hbytes
    have hnot : ¬BeginsWithClientFrame r.rest := by
      rintro ⟨g, back', hclient⟩
      obtain ⟨hopcode, hform⟩ := WireFrame.eq_of_bytes (hbytes.symm.trans hclient)
      obtain ⟨r'', hread', -⟩ := exists_readFrame g.accepted hclient
      rw [hread] at hread'
      obtain ⟨-, hcontent⟩ := Prod.mk.inj (Except.ok.inj hread')
      obtain ⟨hpayload, -⟩ := Prod.mk.inj hcontent
      rcases hf.foreign with ⟨h1, h8, h9, hA⟩ | hlong
      · rw [hopcode] at h1 h8 h9 hA
        rcases g.opcode.code_cases with hcode | hcode | hcode | hcode
        · exact h1 hcode
        · exact h8 hcode
        · exact h9 hcode
        · exact hA hcode
      · apply hlong
        rw [hform, hpayload]
        rfl
    obtain ⟨e, herror⟩ := hrefused hnot
    rw [hread] at herror
    cases herror
  · intro hforeign hclient
    cases hread : readFrame r with
    | error e => exact ⟨e, rfl⟩
    | ok result =>
        obtain ⟨opcode, payload, r'⟩ := result
        obtain ⟨f, hf, -, -, hbytes⟩ := readFrame_ok hread
        exfalso
        apply hforeign
        refine ⟨f, r'.rest, ⟨hf, ?_⟩, hbytes⟩
        by_contra hneither
        obtain ⟨hopcode, hform⟩ := not_or.mp hneither
        obtain ⟨g, hg⟩ := exists_clientFrame hf (by tauto) (not_not.mp hform)
        exact hclient ⟨g, r'.rest, by rw [hg, hbytes]⟩

end Foreign

/-! ## Frames of the server -/

/-- The length of a frame without a mask, in its shortest form, and what is behind it. -/
def rfcLength (second : UInt8) (rest : Bytes) : Option (ℕ × Bytes) :=
  if second = 126 then
    if 2 ≤ rest.length ∧ 126 ≤ bigEndian (rest.take 2) then
      some (bigEndian (rest.take 2), rest.drop 2)
    else none
  else if second = 127 then
    if 8 ≤ rest.length ∧ 2 ^ 16 ≤ bigEndian (rest.take 8) ∧ bigEndian (rest.take 8) < 2 ^ 63 then
      some (bigEndian (rest.take 8), rest.drop 8)
    else none
  else if second &&& 0x80 = 0 then some (second.toNat, rest)
  else none

/-- The opcodes of a first frame. -/
def rfcOpcodes : List UInt8 := [0x1, 0x2, 0x8, 0x9, 0xA]

/-- What RFC 6455 has a client read: a final frame of the server, and what is behind it. -/
def rfcRead : Bytes → Option (UInt8 × Bytes × Bytes)
  | first :: second :: rest =>
      if first &&& 0xf0 ≠ 0x80 ∨ first &&& 0x0f ∉ rfcOpcodes then none
      else
        match rfcLength second rest with
        | none => none
        | some (length, rest) =>
            if 8 ≤ first &&& 0x0f ∧ 125 < length then none
            else if rest.length < length then none
            else some (first &&& 0x0f, rest.take length, rest.drop length)
  | _ => none

section Writing
variable {opcode : UInt8} {payload : Bytes}

theorem rfcLength_lengthHeader {n : ℕ} (h : n ≤ maxWebSocketMessage) (back : Bytes) :
    ∃ second rest, lengthHeader n ++ back = second :: rest ∧
      rfcLength second rest = some (n, back) := by
  rw [maxWebSocketMessage] at h
  rw [lengthHeader]
  split_ifs with hshort hmedium
  · refine ⟨_, _, rfl, ?_⟩
    have hn : (UInt8.ofNat n).toNat = n := by
      rw [UInt8.toNat_ofNat']
      omega
    have hne : UInt8.ofNat n ≠ 126 ∧ UInt8.ofNat n ≠ 127 := by
      rw [ne_eq, ne_eq, ← UInt8.toNat_inj, ← UInt8.toNat_inj, hn]
      exact ⟨hshort.ne, (hshort.trans (by decide)).ne⟩
    have hbit := (header_bits (UInt8.ofNat n)).2.1.mpr (by rw [hn]; omega)
    rw [rfcLength, if_neg hne.1, if_neg hne.2, if_pos hbit, hn]
    rfl
  · have hbytes : bytesOf 2 n = [UInt8.ofNat (n / 2 ^ 8), UInt8.ofNat n] := by
      simp [bytesOf, List.range_succ]
    refine ⟨126, bytesOf 2 n ++ back, by rw [hbytes]; rfl, ?_⟩
    have htake : (bytesOf 2 n ++ back).take 2 = bytesOf 2 n := List.take_left' (length_bytesOf 2 n)
    have hvalue : bigEndian (bytesOf 2 n) = n := bigEndian_bytesOf (by omega)
    rw [rfcLength, if_pos rfl, htake, hvalue, if_pos, List.drop_left' (length_bytesOf 2 n)]
    refine ⟨?_, by omega⟩
    rw [List.length_append, length_bytesOf]
    exact Nat.le_add_right _ _
  · refine ⟨127, bytesOf 8 n ++ back, rfl, ?_⟩
    have htake : (bytesOf 8 n ++ back).take 8 = bytesOf 8 n := List.take_left' (length_bytesOf 8 n)
    have hvalue : bigEndian (bytesOf 8 n) = n := bigEndian_bytesOf (by omega)
    rw [rfcLength, if_neg (by decide), if_pos rfl, htake, hvalue, if_pos,
      List.drop_left' (length_bytesOf 8 n)]
    refine ⟨?_, by omega, by omega⟩
    rw [List.length_append, length_bytesOf]
    exact Nat.le_add_right _ _

theorem written_bits (opcode : UInt8) :
    (0x80 ||| (opcode &&& 0x0f)) &&& 0xf0 = 0x80 ∧
      (0x80 ||| (opcode &&& 0x0f)) &&& 0x0f = opcode &&& 0x0f ∧
      (opcode ∈ rfcOpcodes → opcode &&& 0x0f = opcode) := by
  revert opcode
  apply forall_byte
  decide +kernel

/-- A frame is written exactly if its payload is not too long. -/
theorem writes_iff : (∃ frame, writeStreamFrame opcode payload = .ok frame) ↔
    payload.length ≤ maxWebSocketMessage := by
  rw [writeStreamFrame]
  split_ifs with hlong
  · exact iff_of_false nofun (not_le.mpr hlong)
  · exact iff_of_true ⟨_, rfl⟩ (not_lt.mp hlong)

/-- A frame that is written is read back exactly if its opcode is one of a first frame and a control
frame is short; payloads that are too long are not written. -/
theorem written_iff : (∀ frame, writeStreamFrame opcode payload = .ok frame →
      rfcRead frame = some (opcode, payload, [])) ↔
    maxWebSocketMessage < payload.length ∨
      opcode ∈ rfcOpcodes ∧ (8 ≤ opcode → payload.length ≤ 125) := by
  rw [writeStreamFrame]
  split_ifs with hlong
  · refine iff_of_true (fun frame h => ?_) (.inl hlong)
    cases h
  rw [or_iff_right hlong]
  obtain ⟨second, rest, hheader, hlength⟩ := rfcLength_lengthHeader (not_lt.mp hlong) payload
  obtain ⟨hhigh, hlow, hsame⟩ := written_bits opcode
  have hread : rfcRead ((0x80 ||| (opcode &&& 0x0f)) :: (lengthHeader payload.length ++ payload)) =
      if opcode &&& 0x0f ∉ rfcOpcodes then none
      else if 8 ≤ opcode &&& 0x0f ∧ 125 < payload.length then none
      else some (opcode &&& 0x0f, payload, []) := by
    rw [hheader, rfcRead, hhigh, hlow, hlength]
    simp
  constructor
  · intro h
    have hframe := h _ rfl
    rw [hread] at hframe
    split_ifs at hframe with hopcode hcontrol
    obtain ⟨heq, -⟩ := Prod.mk.inj (Option.some.inj hframe)
    rw [heq] at hopcode hcontrol
    exact ⟨hopcode, fun hctl => not_lt.mp fun hlt => hcontrol ⟨hctl, hlt⟩⟩
  · rintro ⟨hopcode, hcontrol⟩ frame hframe
    obtain rfl := Except.ok.inj hframe
    rw [hread, hsame hopcode, if_neg (not_not.mpr hopcode), if_neg]
    rintro ⟨hctl, hlt⟩
    exact absurd (hcontrol hctl) (not_le.mpr hlt)

end Writing

end WorkMesh.Stream
