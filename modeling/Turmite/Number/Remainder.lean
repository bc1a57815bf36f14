import Turmite.Number.Binary64

/-!
# Exact comparison and floored remainders of binary64 numbers

A finite value is an integer over a power of two, by which it is compared with integers. A remainder
is taken exactly, on a common exponent, with the sign of the dividend; to give it the sign of the
divisor, the divisor is added where the two differ.
-/

namespace Turmite.Binary64

/-- A finite value as an integer over a positive natural number. -/
def fraction? (x : Float) : Option (Int × Nat) :=
  match ofFloat x with
  | .finite negative m e =>
    let n : Int := m * Nat.pow 2 e.toNat
    some (if negative then -n else n, Nat.pow 2 (-e).toNat)
  | _ => none

/-- Whether a value is less than an integer. -/
def isLess (x : Float) (n : Int) : Bool :=
  match fraction? x with
  | some (num, den) => num < n * den
  | none => x < 0.0

/-- Whether a value is greater than an integer. -/
def isGreater (x : Float) (n : Int) : Bool :=
  match fraction? x with
  | some (num, den) => n * den < num
  | none => 0.0 < x

/-- The integer that a value is. -/
def integer? (x : Float) : Option Int :=
  match fraction? x with
  | some (num, den) => if num % den = 0 then some (num / den) else none
  | none => none

/-- Whether a value has the sign bit. -/
def isNegative (x : Float) : Bool := signBit ≤ x.toBits.toNat

/-- The remainder with the sign of the dividend. -/
def remainder (x y : Float) : Float :=
  match ofFloat x, ofFloat y with
  | .finite negative m e, .finite _ k f =>
    let least := min e f
    let rest := m * Nat.pow 2 (e - least).toNat % (k * Nat.pow 2 (f - least).toNat)
    let (num, den) := scaled rest 1 least
    (ofRatio? negative num den).getD x
  | .finite .., .infinite _ => x
  | _, _ => notANumber

/-- The remainder with the sign of the divisor. -/
def flooredRemainder (x y : Float) : Float :=
  let rest := remainder x y
  if rest == 0.0 then ofBits (isNegative y) 0
  else if (rest < 0.0) ≠ (y < 0.0) then rest + y
  else rest

/-- The greatest integer that is at most the half of a value, as a value. -/
def flooredHalf (x : Float) : Float := if (fraction? x).isSome then (x / 2.0).floor else notANumber

end Turmite.Binary64
