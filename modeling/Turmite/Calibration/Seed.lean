import Turmite.Calibration.Random
import Turmite.Json.Arithmetic
import Turmite.Number.Digest

/-!
# Seeds

The integer that a value gives as a seed. Integers and truth values give themselves. A binary64
number gives its residue modulo a Mersenne prime, in a word. A text gives the number of its bytes
followed by their digest. Null stands for any seed; lists and objects give none.
-/

namespace Turmite

namespace Binary64

/-- The bits of the modulus of residues, the prime `2 ^ 61 - 1`. -/
def residueBits : Nat := 61

/-- The residue of a number that is no finite value. -/
def infiniteResidue : Nat := 314159

/-- The residue of the magnitude of a value modulo `2 ^ 61 - 1`, where a power of two depends on its
exponent modulo 61 only. -/
def residue (x : Float) : Nat :=
  match ofFloat x with
  | .finite _ m e => m * Nat.pow 2 (e % residueBits).toNat % (Nat.pow 2 residueBits - 1)
  | .infinite _ => infiniteResidue
  | .nan => 0

/-- The residue with the sign of the value, as a word; minus one is not used. -/
def residueWord (x : Float) : Nat :=
  let n := residue x
  if !(x < 0.0) || n = 0 then n
  else UInt64.size - (if n = 1 then 2 else n)

end Binary64

namespace Generator

/-- The generator of the seed that a value gives. -/
def ofValue? : Json → Except Error Generator
  | .null => .ok (ofSeed 0)
  | .float x => .ok (ofSeed (Binary64.residueWord x))
  | .str t =>
    match t.encodingFault? (!·.isSurrogate) with
    | some fault => .error (.unencodable fault)
    | none =>
      let bytes := (String.ofList (t.filterMap CodePoint.char?)).toUTF8.data.toList
      .ok (ofSeed (Digest.number (bytes ++ Digest.ofBytes bytes)))
  | v =>
    match v.exactInteger? with
    | some n => .ok (ofSeed n)
    | none => .error .wrongType

end Generator
end Turmite
