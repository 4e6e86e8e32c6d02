import BlindSign.Encoding.Digits

set_option autoImplicit false

/-! # SHA-256

The hash of a byte string in 256 bits. The message is padded to whole blocks of 64 bytes, each
block is stretched to 64 words, and 64 rounds mix them into a state of eight words.
-/

namespace BlindSign.Hash.Sha256

structure State where
  (a b c d e f g h : UInt32)
  deriving Repr, DecidableEq

/-- The state before the first block: fractional parts of the square roots of the first eight
primes. -/
def initial : State :=
  ⟨0x6a09e667, 0xbb67ae85, 0x3c6ef372, 0xa54ff53a,
    0x510e527f, 0x9b05688c, 0x1f83d9ab, 0x5be0cd19⟩

/-- The constants of the rounds: fractional parts of the cube roots of the first 64 primes. -/
def constants : List UInt32 :=
  [0x428a2f98, 0x71374491, 0xb5c0fbcf, 0xe9b5dba5, 0x3956c25b, 0x59f111f1,
    0x923f82a4, 0xab1c5ed5, 0xd807aa98, 0x12835b01, 0x243185be, 0x550c7dc3,
    0x72be5d74, 0x80deb1fe, 0x9bdc06a7, 0xc19bf174, 0xe49b69c1, 0xefbe4786,
    0x0fc19dc6, 0x240ca1cc, 0x2de92c6f, 0x4a7484aa, 0x5cb0a9dc, 0x76f988da,
    0x983e5152, 0xa831c66d, 0xb00327c8, 0xbf597fc7, 0xc6e00bf3, 0xd5a79147,
    0x06ca6351, 0x14292967, 0x27b70a85, 0x2e1b2138, 0x4d2c6dfc, 0x53380d13,
    0x650a7354, 0x766a0abb, 0x81c2c92e, 0x92722c85, 0xa2bfe8a1, 0xa81a664b,
    0xc24b8b70, 0xc76c51a3, 0xd192e819, 0xd6990624, 0xf40e3585, 0x106aa070,
    0x19a4c116, 0x1e376c08, 0x2748774c, 0x34b0bcb5, 0x391c0cb3, 0x4ed8aa4a,
    0x5b9cca4f, 0x682e6ff3, 0x748f82ee, 0x78a5636f, 0x84c87814, 0x8cc70208,
    0x90befffa, 0xa4506ceb, 0xbef9a3f7, 0xc67178f2]

/-! ## Padding -/

/-- The message followed by a one bit, zero bits up to a whole number of blocks, and its length in
bits. -/
def pad (message : List UInt8) : List UInt8 :=
  -- the bit and the length take nine bytes of the last block
  let zeros := (119 - message.length % 64) % 64
  message ++ 0x80 :: List.replicate zeros 0 ++ Encoding.bytesOfNat 8 (8 * message.length)

def words : List UInt8 → List UInt32
  | a :: b :: c :: d :: rest =>
    ((a.toUInt32 <<< 24) ||| (b.toUInt32 <<< 16) ||| (c.toUInt32 <<< 8) ||| d.toUInt32) ::
      words rest
  | _ => []

/-! ## Mixing -/

/-- Rotate a word to the right; `n` is between 1 and 31. -/
def rotate (x n : UInt32) : UInt32 := (x >>> n) ||| (x <<< (32 - n))

/-- The next word of the stretched block, from the words before it, the latest one first. -/
def nextWord (latest : List UInt32) : UInt32 :=
  let x := latest.getD 14 0
  let y := latest.getD 1 0
  let low := rotate x 7 ^^^ rotate x 18 ^^^ (x >>> 3)
  let high := rotate y 17 ^^^ rotate y 19 ^^^ (y >>> 10)
  latest.getD 15 0 + low + latest.getD 6 0 + high

/-- The 64 words of a block of sixteen. -/
def stretch (block : List UInt32) : List UInt32 :=
  ((List.range 48).foldl (fun latest _ => nextWord latest :: latest) block.reverse).reverse

def round (s : State) (word constant : UInt32) : State :=
  let high := rotate s.e 6 ^^^ rotate s.e 11 ^^^ rotate s.e 25
  let choice := (s.e &&& s.f) ^^^ (~~~s.e &&& s.g)
  let first := s.h + high + choice + constant + word
  let low := rotate s.a 2 ^^^ rotate s.a 13 ^^^ rotate s.a 22
  let majority := (s.a &&& s.b) ^^^ (s.a &&& s.c) ^^^ (s.b &&& s.c)
  ⟨first + low + majority, s.a, s.b, s.c, s.d + first, s.e, s.f, s.g⟩

/-- Mix a block of sixteen words into the state. -/
def compress (s : State) (block : List UInt32) : State :=
  let t := ((stretch block).zip constants).foldl (fun t (word, constant) => round t word constant) s
  ⟨s.a + t.a, s.b + t.b, s.c + t.c, s.d + t.d, s.e + t.e, s.f + t.f, s.g + t.g, s.h + t.h⟩

def compressBlocks : (count : Nat) → State → List UInt32 → State
  | 0, s, _ => s
  -- what is left behind the last whole block is never looked at
  | count + 1, s, ws => compressBlocks count (compress s (ws.take 16)) (ws.drop 16)

/-! ## The hash -/

def wordBytes (w : UInt32) : List UInt8 := Encoding.bytesOfNat 4 w.toNat

def stateBytes (s : State) : List UInt8 :=
  [s.a, s.b, s.c, s.d, s.e, s.f, s.g, s.h].flatMap wordBytes

/-- The hash of a message, 32 bytes long. -/
def hash (message : List UInt8) : List UInt8 :=
  let ws := words (pad message)
  stateBytes (compressBlocks (ws.length / 16) initial ws)

/-! ## Small laws -/

@[simp] theorem length_hash (message : List UInt8) : (hash message).length = 32 := by
  simp [hash, stateBytes, wordBytes]

end BlindSign.Hash.Sha256
