import Installation.Digest.Murmur3
import Installation.Digest.Sha256
import Installation.Value.Canonical

/-!
# Fingerprints

`Value.fingerprint` tells values apart by sixteen hexadecimal digits.  They are the first
ones of the digest of the hash of the canonical text, the hash being written in decimal
digits, so that values with the same canonical text have the same fingerprint.
-/

namespace Installation

/-- The bytes of a text of ASCII characters. -/
def asciiBytes (cs : List Char) : List UInt8 := cs.map fun c => UInt8.ofNat c.toNat

/-- The digits of a fingerprint. -/
def fingerprintLength : Nat := 16

/-- The fingerprint of a canonical text. -/
def fingerprintOfText (cs : List Char) : String :=
  let hash := digitsOf (Murmur3.hash (asciiBytes cs))
  String.ofList ((Sha256.hexDigest (asciiBytes hash)).take fingerprintLength)

/-- The fingerprint of a value. -/
def Value.fingerprint (v : Value) : Except Fault String :=
  v.canonical.map fingerprintOfText

end Installation
