import WorkMesh.Encoding.Text

/-!
# SHA-256 and HMAC

The hash and the message authentication code over byte strings. A message is
padded to blocks of sixteen words, and each block is mixed into eight words of
state over sixty-four rounds.
-/

namespace Encoding

abbrev Word := BitVec 32

/-- The number whose digits in base 256 are the bytes, the highest first. -/
def bigEndian (data : Bytes) : Nat := data.foldl (fun n c => 256 * n + c.toNat) 0

/-- The lowest bytes of a number, the highest of them first. -/
def bytesOf (width n : Nat) : Bytes :=
  (List.range width).map fun i => UInt8.ofNat (n / 256 ^ (width - 1 - i))

namespace Sha256

def roundConstants : List Word :=
  [0x428a2f98, 0x71374491, 0xb5c0fbcf, 0xe9b5dba5, 0x3956c25b, 0x59f111f1, 0x923f82a4, 0xab1c5ed5,
    0xd807aa98, 0x12835b01, 0x243185be, 0x550c7dc3, 0x72be5d74, 0x80deb1fe, 0x9bdc06a7, 0xc19bf174,
    0xe49b69c1, 0xefbe4786, 0x0fc19dc6, 0x240ca1cc, 0x2de92c6f, 0x4a7484aa, 0x5cb0a9dc, 0x76f988da,
    0x983e5152, 0xa831c66d, 0xb00327c8, 0xbf597fc7, 0xc6e00bf3, 0xd5a79147, 0x06ca6351, 0x14292967,
    0x27b70a85, 0x2e1b2138, 0x4d2c6dfc, 0x53380d13, 0x650a7354, 0x766a0abb, 0x81c2c92e, 0x92722c85,
    0xa2bfe8a1, 0xa81a664b, 0xc24b8b70, 0xc76c51a3, 0xd192e819, 0xd6990624, 0xf40e3585, 0x106aa070,
    0x19a4c116, 0x1e376c08, 0x2748774c, 0x34b0bcb5, 0x391c0cb3, 0x4ed8aa4a, 0x5b9cca4f, 0x682e6ff3,
    0x748f82ee, 0x78a5636f, 0x84c87814, 0x8cc70208, 0x90befffa, 0xa4506ceb, 0xbef9a3f7, 0xc67178f2]

structure State where
  a : Word
  b : Word
  c : Word
  d : Word
  e : Word
  f : Word
  g : Word
  h : Word

def State.words (s : State) : List Word := [s.a, s.b, s.c, s.d, s.e, s.f, s.g, s.h]

def State.add (s t : State) : State :=
  ⟨s.a + t.a, s.b + t.b, s.c + t.c, s.d + t.d, s.e + t.e, s.f + t.f, s.g + t.g, s.h + t.h⟩

def initial : State :=
  ⟨0x6a09e667, 0xbb67ae85, 0x3c6ef372, 0xa54ff53a, 0x510e527f, 0x9b05688c, 0x1f83d9ab, 0x5be0cd19⟩

/-- One round, with the constant and the scheduled word already added up. -/
def State.round (s : State) (kw : Word) : State :=
  let sum1 := s.e.rotateRight 6 ^^^ s.e.rotateRight 11 ^^^ s.e.rotateRight 25
  let choice := (s.e &&& s.f) ^^^ (~~~s.e &&& s.g)
  let t1 := s.h + sum1 + choice + kw
  let sum0 := s.a.rotateRight 2 ^^^ s.a.rotateRight 13 ^^^ s.a.rotateRight 22
  let majority := (s.a &&& s.b) ^^^ (s.a &&& s.c) ^^^ (s.b &&& s.c)
  ⟨t1 + sum0 + majority, s.a, s.b, s.c, s.d + t1, s.e, s.f, s.g⟩

/-- The word that the schedule continues sixteen words with. -/
def nextWord (window : List Word) : Word :=
  let w1 := window.getD 1 0
  let w14 := window.getD 14 0
  let small0 := w1.rotateRight 7 ^^^ w1.rotateRight 18 ^^^ (w1 >>> 3)
  let small1 := w14.rotateRight 17 ^^^ w14.rotateRight 19 ^^^ (w14 >>> 10)
  small1 + window.getD 9 0 + small0 + window.getD 0 0

/-- The rounds of a block. The window holds the next sixteen words of the schedule. -/
def rounds : List Word → List Word → State → State
  | [], _, s => s
  | k :: constants, window, s =>
      rounds constants (window.tail ++ [nextWord window]) (s.round (k + window.getD 0 0))

def compress (s : State) (block : Bytes) : State :=
  let window := (block.toChunks 4).map fun word => BitVec.ofNat 32 (bigEndian word)
  s.add (rounds roundConstants window s)

/-- The message, a one bit, zeros up to the last eight bytes of a block, and the length in bits. -/
def pad (message : Bytes) : Bytes :=
  message ++ 0x80 :: List.replicate ((119 - message.length % 64) % 64) 0 ++
    bytesOf 8 (8 * message.length)

end Sha256

/-- `sha256.Sum256`. -/
def sha256 (message : Bytes) : Bytes :=
  (((Sha256.pad message).toChunks 64).foldl Sha256.compress Sha256.initial).words.flatMap
    fun word => bytesOf 4 word.toNat

theorem sha256_length (message : Bytes) : (sha256 message).length = 32 := by
  simp [sha256, Sha256.State.words, bytesOf]

/-- The key of a code, filled up to a block. -/
def hmacKey (secret : Bytes) : Bytes :=
  let key := if 64 < secret.length then sha256 secret else secret
  key ++ List.replicate (64 - key.length) 0

/-- `hmac.New(sha256.New, secret)` over one message. -/
def hmacSha256 (secret message : Bytes) : Bytes :=
  let key := hmacKey secret
  sha256 (key.map (· ^^^ 0x5c) ++ sha256 (key.map (· ^^^ 0x36) ++ message))

theorem hmacSha256_length (secret message : Bytes) : (hmacSha256 secret message).length = 32 :=
  sha256_length _

end Encoding
