/-!
# The 128-bit hash of a text

`Murmur3.hash` is the Murmur3 hash of bytes, in its variant with two words of 64 bits and
with both words starting from zero, as one natural number whose low half is the first word.
Bytes are taken in blocks of sixteen, that is of two words with the low byte first; a last
block that is not full is filled up with zeros.
-/

namespace Installation

namespace Murmur3

/-- The two words of the state. -/
structure State where
  first : UInt64
  second : UInt64
deriving DecidableEq

/-- A word turned left by some of its bits. -/
def rotate (x : UInt64) (bits : UInt64) : UInt64 := x <<< bits ||| x >>> (64 - bits)

/-- The first multiplier. -/
def c1 : UInt64 := 0x87c37b91114253d5

/-- The second multiplier. -/
def c2 : UInt64 := 0x4cf5ad432745937f

/-- The word of some bytes, low byte first. -/
def word (bytes : List UInt8) : UInt64 :=
  bytes.foldr (fun b w => w <<< 8 ||| b.toUInt64) 0

/-- The first word of a block, scrambled. -/
def scrambleFirst (k : UInt64) : UInt64 := rotate (k * c1) 31 * c2

/-- The second word of a block, scrambled. -/
def scrambleSecond (k : UInt64) : UInt64 := rotate (k * c2) 33 * c1

/-- The state after a full block. -/
def absorb (s : State) (block : List UInt8) : State :=
  let k1 := scrambleFirst (word (block.take 8))
  let k2 := scrambleSecond (word (block.drop 8))
  let first := (rotate (s.first ^^^ k1) 27 + s.second) * 5 + 0x52dce729
  let second := (rotate (s.second ^^^ k2) 31 + first) * 5 + 0x38495ab5
  ⟨first, second⟩

/-- The state after a last block that is not full. -/
def absorbLast (s : State) (block : List UInt8) : State :=
  ⟨s.first ^^^ scrambleFirst (word (block.take 8)),
   s.second ^^^ scrambleSecond (word (block.drop 8))⟩

/-- A word with its bits spread over the whole word. -/
def spread (k : UInt64) : UInt64 :=
  let k := (k ^^^ k >>> 33) * 0xff51afd7ed558ccd
  let k := (k ^^^ k >>> 33) * 0xc4ceb9fe1a85ec53
  k ^^^ k >>> 33

/-- Each word of a state added to the other one. -/
def cross (s : State) : State :=
  let first := s.first + s.second
  ⟨first, s.second + first⟩

/-- The state at the end, given the number of bytes. -/
def finish (s : State) (length : UInt64) : State :=
  let s := cross ⟨s.first ^^^ length, s.second ^^^ length⟩
  cross ⟨spread s.first, spread s.second⟩

/-- The full blocks of some bytes. -/
def fullBlocks (bytes : List UInt8) : List (List UInt8) :=
  (List.range (bytes.length / 16)).map fun i => (bytes.drop (16 * i)).take 16

/-- The bytes behind the full blocks. -/
def lastBlock (bytes : List UInt8) : List UInt8 :=
  bytes.drop (16 * (bytes.length / 16))

/-- The hash of some bytes. -/
def hash (bytes : List UInt8) : Nat :=
  let s := absorbLast ((fullBlocks bytes).foldl absorb ⟨0, 0⟩) (lastBlock bytes)
  let s := finish s (UInt64.ofNat bytes.length)
  s.first.toNat + s.second.toNat * Nat.pow 2 64

end Murmur3

end Installation
