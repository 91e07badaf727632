import Installation.Text.Hex

/-!
# The digest of a text

`Sha256.digest` is the SHA-256 digest of bytes, as eight words of 32 bits, and
`Sha256.hexDigest` the digest in hexadecimal digits.  A message is filled up to blocks of
sixteen words with a one bit, zeros and its length in bits; the words of a block have the
high byte first.
-/

namespace Installation

namespace Sha256

/-- The constants of the rounds: the first 32 bits behind the point of the cube roots of
the first 64 primes. -/
def roundConstants : List UInt32 :=
  [0x428a2f98, 0x71374491, 0xb5c0fbcf, 0xe9b5dba5, 0x3956c25b,
   0x59f111f1, 0x923f82a4, 0xab1c5ed5, 0xd807aa98, 0x12835b01,
   0x243185be, 0x550c7dc3, 0x72be5d74, 0x80deb1fe, 0x9bdc06a7,
   0xc19bf174, 0xe49b69c1, 0xefbe4786, 0x0fc19dc6, 0x240ca1cc,
   0x2de92c6f, 0x4a7484aa, 0x5cb0a9dc, 0x76f988da, 0x983e5152,
   0xa831c66d, 0xb00327c8, 0xbf597fc7, 0xc6e00bf3, 0xd5a79147,
   0x06ca6351, 0x14292967, 0x27b70a85, 0x2e1b2138, 0x4d2c6dfc,
   0x53380d13, 0x650a7354, 0x766a0abb, 0x81c2c92e, 0x92722c85,
   0xa2bfe8a1, 0xa81a664b, 0xc24b8b70, 0xc76c51a3, 0xd192e819,
   0xd6990624, 0xf40e3585, 0x106aa070, 0x19a4c116, 0x1e376c08,
   0x2748774c, 0x34b0bcb5, 0x391c0cb3, 0x4ed8aa4a, 0x5b9cca4f,
   0x682e6ff3, 0x748f82ee, 0x78a5636f, 0x84c87814, 0x8cc70208,
   0x90befffa, 0xa4506ceb, 0xbef9a3f7, 0xc67178f2]

/-- The words of the state. -/
structure State where
  a : UInt32
  b : UInt32
  c : UInt32
  d : UInt32
  e : UInt32
  f : UInt32
  g : UInt32
  h : UInt32
deriving DecidableEq

/-- The state at the start: the first 32 bits behind the point of the square roots of the
first eight primes. -/
def start : State :=
  ⟨0x6a09e667, 0xbb67ae85, 0x3c6ef372, 0xa54ff53a, 0x510e527f,
   0x9b05688c, 0x1f83d9ab, 0x5be0cd19⟩

/-- A word turned right by some of its bits. -/
def rotate (x : UInt32) (bits : UInt32) : UInt32 := x >>> bits ||| x <<< (32 - bits)

/-- The next word of the schedule of a block. -/
def extend (w : Array UInt32) : Array UInt32 :=
  let word (back : Nat) : UInt32 := w.getD (w.size - back) 0
  let s0 := rotate (word 15) 7 ^^^ rotate (word 15) 18 ^^^ word 15 >>> 3
  let s1 := rotate (word 2) 17 ^^^ rotate (word 2) 19 ^^^ word 2 >>> 10
  w.push (word 16 + s0 + word 7 + s1)

/-- The schedule of a block: its sixteen words and 48 further ones. -/
def schedule (block : List UInt32) : List UInt32 :=
  ((List.range 48).foldl (fun w _ => extend w) block.toArray).toList

/-- A round, with its constant and the word of the schedule. -/
def round (s : State) (kw : UInt32 × UInt32) : State :=
  let s1 := rotate s.e 6 ^^^ rotate s.e 11 ^^^ rotate s.e 25
  let choice := (s.e &&& s.f) ^^^ (~~~s.e &&& s.g)
  let t1 := s.h + s1 + choice + kw.1 + kw.2
  let s0 := rotate s.a 2 ^^^ rotate s.a 13 ^^^ rotate s.a 22
  let majority := (s.a &&& s.b) ^^^ (s.a &&& s.c) ^^^ (s.b &&& s.c)
  ⟨t1 + s0 + majority, s.a, s.b, s.c, s.d + t1, s.e, s.f, s.g⟩

/-- The state after a block. -/
def absorb (s : State) (block : List UInt32) : State :=
  let t := (roundConstants.zip (schedule block)).foldl round s
  ⟨s.a + t.a, s.b + t.b, s.c + t.c, s.d + t.d, s.e + t.e, s.f + t.f, s.g + t.g, s.h + t.h⟩

/-- The last bytes of a number, high byte first. -/
def bytesOf : (width : Nat) → (n : Nat) → List UInt8
  | 0, _ => []
  | width + 1, n => bytesOf width (n / 256) ++ [UInt8.ofNat n]

/-- A message filled up to full blocks. -/
def pad (message : List UInt8) : List UInt8 :=
  let zeros := (119 - message.length % 64) % 64
  message ++ [0x80] ++ List.replicate zeros 0 ++ bytesOf 8 (8 * message.length)

/-- The word of four bytes, high byte first. -/
def word (bytes : List UInt8) : UInt32 :=
  bytes.foldl (fun w b => w <<< 8 ||| b.toUInt32) 0

/-- The blocks of a message that is filled up. -/
def blocks (bytes : List UInt8) : List (List UInt32) :=
  (List.range (bytes.length / 64)).map fun i =>
    (List.range 16).map fun j => word ((bytes.drop (64 * i + 4 * j)).take 4)

/-- The digest of a message. -/
def digest (message : List UInt8) : List UInt32 :=
  let s := (blocks (pad message)).foldl absorb start
  [s.a, s.b, s.c, s.d, s.e, s.f, s.g, s.h]

/-- The digest of a message in hexadecimal digits. -/
def hexDigest (message : List UInt8) : List Char :=
  (digest message).flatMap fun w => Text.hex 8 w.toNat

end Sha256

end Installation
