import Turmite.Number.Rounding

/-!
# Binary64 values, exactly

A `Float` is opened into sign, significand and exponent of two, so that it can be compared,
truncated and written exactly; and a quotient of naturals is closed into the nearest `Float`, ties
to the even significand.

Addition rounds, so the order of a sum shows. A short sum runs from left to right. A longer one runs
in eight lanes that are joined in pairs, what is left of the last eight after them. Above a length
the numbers are cut in two, at a multiple of eight, and both sums are added.
-/

namespace Turmite

/-- A binary64 value: `± significand * 2 ^ exponent`, an infinity, or no number. -/
inductive Binary64 where
  | nan
  | infinite (negative : Bool)
  | finite (negative : Bool) (significand : Nat) (exponent : Int)
  deriving DecidableEq

namespace Binary64

/-- The least exponent, shared by zero and the subnormal values. -/
def leastExponent : Int := -1074

/-- The bits of positive infinity. -/
def infinityBits : Nat := 0x7FF0000000000000

/-- The bit of the sign. -/
def signBit : Nat := Nat.pow 2 63

/-- Opens a `Float`. -/
def ofFloat (x : Float) : Binary64 :=
  let bits := x.toBits.toNat
  let negative := signBit ≤ bits
  let field : Nat := bits / Nat.pow 2 52 % Nat.pow 2 11
  let fraction := bits % Nat.pow 2 52
  if field = 2047 then
    if fraction = 0 then infinite negative else nan
  else if field = 0 then finite negative fraction leastExponent
  else finite negative (Nat.pow 2 52 + fraction) (leastExponent + ((field : Int) - 1))

/-- A power of two as a factor of the numerator or of the denominator. -/
def scaled (num den : Nat) (exponent : Int) : Nat × Nat :=
  (num * Nat.pow 2 exponent.toNat, den * Nat.pow 2 (-exponent).toNat)

/-- The exponent of the largest power of two that is at most `num / den`. -/
def binaryOrder (num den : Nat) : Int :=
  let guess : Int := num.log2 - den.log2
  let (n, d) := scaled num den (-guess)
  if d ≤ n then guess else guess - 1

/-- The bits of the value nearest to `num / den`; at least `infinityBits` when it is too large. -/
def nearestBits (num den : Nat) : Nat :=
  if num = 0 then 0
  else
    let exponent := max (binaryOrder num den - 52) leastExponent
    let (n, d) := scaled num den (-exponent)
    (exponent - leastExponent).toNat * Nat.pow 2 52 + roundQuotient n d

/-- The value with the given sign and magnitude bits. -/
def ofBits (negative : Bool) (magnitude : Nat) : Float :=
  Float.ofBits (UInt64.ofNat ((if negative then signBit else 0) + magnitude))

/-- The value nearest to `± num / den`, unless it is too large. -/
def ofRatio? (negative : Bool) (num den : Nat) : Option Float :=
  let bits := nearestBits num den
  if bits < infinityBits then some (ofBits negative bits) else none

/-- The value nearest to an integer, unless it is too large. -/
def ofInt? (n : Int) : Option Float := ofRatio? (n < 0) n.natAbs 1

/-- The value nearest to `a / b`, unless it is too large; `b` is not zero. -/
def quotient? (a b : Int) : Option Float :=
  ofRatio? (a ≠ 0 ∧ ((a < 0) ≠ (b < 0))) a.natAbs b.natAbs

/-- The number of decimal digits, one for zero. -/
def digitCount (n : Nat) : Nat := (Nat.toDigits 10 n).length

/-- The value nearest to `± digits * 10 ^ exponent`, an infinity when that is too large. -/
def ofDecimal (negative : Bool) (digits : Nat) (exponent : Int) : Float :=
  let order := digitCount digits + exponent
  let bits :=
    if digits = 0 ∨ order < -400 then 0
    else if 400 < order then infinityBits
    else min infinityBits
      (nearestBits (digits * Nat.pow 10 exponent.toNat) (Nat.pow 10 (-exponent).toNat))
  ofBits negative bits

/-- The integer part of a finite value. -/
def truncate (negative : Bool) (significand : Nat) (exponent : Int) : Int :=
  let whole := significand * Nat.pow 2 exponent.toNat / Nat.pow 2 (-exponent).toNat
  if negative then -whole else whole

/-- The least integer that is at least a value, zero for what is no finite value. -/
def ceiling (x : Float) : Int :=
  match ofFloat x with
  | finite negative m e =>
    let n := m * Nat.pow 2 e.toNat
    let d := Nat.pow 2 (-e).toNat
    if negative then -(n / d : Nat) else ((n + d - 1) / d : Nat)
  | _ => 0

/-- Whether a value is an integer. -/
def isIntegral (x : Float) : Bool :=
  match ofFloat x with
  | finite _ m e => m * Nat.pow 2 e.toNat % Nat.pow 2 (-e).toNat = 0
  | _ => false

/-- The value that is no number. -/
def notANumber : Float := 0.0 / 0.0

end Binary64

/-! ## Sums -/

namespace Summation

/-- The sum of numbers from left to right. -/
def sequential (xs : List Float) : Float := xs.foldl (· + ·) 0.0

/-- The lanes of a sum of medium length. -/
def laneCount : Nat := 8

/-- The most numbers that are summed in lanes. -/
def longestInLanes : Nat := 128

/-- The sum of eight lanes, in pairs. -/
def joinLanes : List Float → Float
  | [a, b, c, d, e, f, g, h] => ((a + b) + (c + d)) + ((e + f) + (g + h))
  | xs => sequential xs

/-- The numbers eight by eight, without those that are left. -/
def rows (xs : List Float) : List (List Float) :=
  (List.range (xs.length / laneCount)).map fun i => (xs.drop (laneCount * i)).take laneCount

/-- The sum of numbers in eight lanes. -/
def inLanes (xs : List Float) : Float :=
  let lanes := (rows xs).foldl (List.zipWith (· + ·)) (List.replicate laneCount 0.0)
  (xs.drop (laneCount * (xs.length / laneCount))).foldl (· + ·) (joinLanes lanes)

/-- Where numbers are cut in two: in the middle, or up to seven places before it. -/
def middle (length : Nat) : Nat := laneCount * (length / 2 / laneCount)

/-- The sum of numbers by halves. -/
def pairwise (xs : List Float) : Float :=
  if xs.length < laneCount then sequential xs
  else if _h : xs.length ≤ longestInLanes then inLanes xs
  else
    pairwise (xs.take (middle xs.length)) + pairwise (xs.drop (middle xs.length))
termination_by xs.length
decreasing_by all_goals simp only [List.length_take, List.length_drop, middle, laneCount,
  longestInLanes] at *; omega

end Summation
end Turmite
