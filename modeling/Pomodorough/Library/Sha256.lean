import Mathlib.Data.List.Basic

/-! # SHA-256 and HMAC

The hash on lists of bytes, word by word and block by block, and the message
authentication code that is built from it. -/
namespace Pomodorough.Library.Sha256

abbrev Bytes := List UInt8

/-! ## Words -/

def rotateRight (x n : UInt32) : UInt32 := (x >>> n) ||| (x <<< (32 - n))

/-- Four bytes, the first the highest. -/
def wordOf (a b c d : UInt8) : UInt32 :=
  (a.toUInt32 <<< 24) ||| (b.toUInt32 <<< 16) ||| (c.toUInt32 <<< 8) ||| d.toUInt32

def bytesOf (x : UInt32) : Bytes :=
  [(x >>> 24).toUInt8, (x >>> 16).toUInt8, (x >>> 8).toUInt8, x.toUInt8]

def words : Bytes → List UInt32
  | a :: b :: c :: d :: rest => wordOf a b c d :: words rest
  | _ => []

/-- The first 32 bits of the fractional parts of the cube roots of the first 64 primes. -/
def roundConstants : List UInt32 :=
  [0x428a2f98, 0x71374491, 0xb5c0fbcf, 0xe9b5dba5, 0x3956c25b, 0x59f111f1, 0x923f82a4, 0xab1c5ed5,
    0xd807aa98, 0x12835b01, 0x243185be, 0x550c7dc3, 0x72be5d74, 0x80deb1fe, 0x9bdc06a7, 0xc19bf174,
    0xe49b69c1, 0xefbe4786, 0x0fc19dc6, 0x240ca1cc, 0x2de92c6f, 0x4a7484aa, 0x5cb0a9dc, 0x76f988da,
    0x983e5152, 0xa831c66d, 0xb00327c8, 0xbf597fc7, 0xc6e00bf3, 0xd5a79147, 0x06ca6351, 0x14292967,
    0x27b70a85, 0x2e1b2138, 0x4d2c6dfc, 0x53380d13, 0x650a7354, 0x766a0abb, 0x81c2c92e, 0x92722c85,
    0xa2bfe8a1, 0xa81a664b, 0xc24b8b70, 0xc76c51a3, 0xd192e819, 0xd6990624, 0xf40e3585, 0x106aa070,
    0x19a4c116, 0x1e376c08, 0x2748774c, 0x34b0bcb5, 0x391c0cb3, 0x4ed8aa4a, 0x5b9cca4f, 0x682e6ff3,
    0x748f82ee, 0x78a5636f, 0x84c87814, 0x8cc70208, 0x90befffa, 0xa4506ceb, 0xbef9a3f7, 0xc67178f2]

/-! ## Blocks -/

/-- The schedule of a block, the last word first, with so many words more. -/
def extend : Nat → List UInt32 → List UInt32
  | 0, ws => ws
  | n + 1, ws =>
    let w15 := ws.getD 14 0
    let w2 := ws.getD 1 0
    let s0 := rotateRight w15 7 ^^^ rotateRight w15 18 ^^^ (w15 >>> 3)
    let s1 := rotateRight w2 17 ^^^ rotateRight w2 19 ^^^ (w2 >>> 10)
    extend n ((ws.getD 15 0 + s0 + ws.getD 6 0 + s1) :: ws)

structure HashState where
  a : UInt32
  b : UInt32
  c : UInt32
  d : UInt32
  e : UInt32
  f : UInt32
  g : UInt32
  h : UInt32
deriving DecidableEq

def initialState : HashState :=
  ⟨0x6a09e667, 0xbb67ae85, 0x3c6ef372, 0xa54ff53a, 0x510e527f, 0x9b05688c, 0x1f83d9ab, 0x5be0cd19⟩

def round (s : HashState) (kw : UInt32 × UInt32) : HashState :=
  let s1 := rotateRight s.e 6 ^^^ rotateRight s.e 11 ^^^ rotateRight s.e 25
  let ch := (s.e &&& s.f) ^^^ (~~~s.e &&& s.g)
  let t1 := s.h + s1 + ch + kw.1 + kw.2
  let s0 := rotateRight s.a 2 ^^^ rotateRight s.a 13 ^^^ rotateRight s.a 22
  let maj := (s.a &&& s.b) ^^^ (s.a &&& s.c) ^^^ (s.b &&& s.c)
  ⟨t1 + (s0 + maj), s.a, s.b, s.c, s.d + t1, s.e, s.f, s.g⟩

def compress (s : HashState) (block : Bytes) : HashState :=
  let schedule := (extend 48 (words block).reverse).reverse
  let t := (roundConstants.zip schedule).foldl round s
  ⟨s.a + t.a, s.b + t.b, s.c + t.c, s.d + t.d, s.e + t.e, s.f + t.f, s.g + t.g, s.h + t.h⟩

/-! ## The hash -/

/-- The message with its padding, a whole number of blocks of 64 bytes. -/
def padMessage (message : Bytes) : Bytes :=
  let bits := UInt64.ofNat (8 * message.length)
  let zeros : Bytes := List.replicate ((119 - message.length % 64) % 64) 0
  message.concat 0x80 ++ zeros ++ bytesOf (bits >>> 32).toUInt32 ++ bytesOf bits.toUInt32

def sha256 (message : Bytes) : Bytes :=
  let padded := padMessage message
  let s := (List.range (padded.length / 64)).foldl
    (fun s index => compress s ((padded.drop (64 * index)).take 64)) initialState
  bytesOf s.a ++ (bytesOf s.b ++ (bytesOf s.c ++ (bytesOf s.d ++ (bytesOf s.e ++ (bytesOf s.f ++
    (bytesOf s.g ++ bytesOf s.h))))))

theorem length_sha256 (message : Bytes) : (sha256 message).length = 32 := rfl

/-! ## The message authentication code -/

/-- A key as a block: a longer one is hashed, a shorter one filled with zeros. -/
def blockKey (key : Bytes) : Bytes :=
  (if key.length > 64 then sha256 key else key).rightpad 64 0

def hmac (key message : Bytes) : Bytes :=
  sha256 ((blockKey key).map (· ^^^ 0x5c) ++ sha256 ((blockKey key).map (· ^^^ 0x36) ++ message))

theorem length_hmac (key message : Bytes) : (hmac key message).length = 32 := length_sha256 _

end Pomodorough.Library.Sha256
