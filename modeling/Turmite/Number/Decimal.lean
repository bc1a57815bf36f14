import Turmite.Text.CodePoint
import Turmite.Number.Binary64

/-!
# Decimal texts of binary64 values

Three texts. The shortest one has the fewest digits that read back as the value, the nearest such
digits, and is positional while the exponent of its first digit lies in a range. A text with fixed
places and one with an exponent round the exact value, a half to the even digit.
-/

namespace Turmite

/-- The decimal digits of a natural number. -/
def digitText (n : Nat) : List Char := Nat.toDigits 10 n

/-- The decimal text of an integer. -/
def integerText (n : Int) : List Char :=
  if n < 0 then '-' :: digitText n.natAbs else digitText n.natAbs

namespace Decimal

/-- The exponent of the largest power of ten that is at most `num / den`. -/
def order (num den : Nat) : Int :=
  let guess : Int := (Binary64.digitCount num : Int) - Binary64.digitCount den
  if den * Nat.pow 10 guess.toNat ≤ num * Nat.pow 10 (-guess).toNat then guess else guess - 1

/-- A decimal number: `digits * 10 ^ exponent`. -/
structure Digits where
  digits : Nat
  exponent : Int

/-- `significand * 2 ^ exponent` as a fraction. -/
def fraction (significand : Nat) (exponent : Int) : Nat × Nat :=
  Binary64.scaled significand 1 exponent

/-! ## Shortest digits -/

/-- Four times the ends of the interval of numbers that round to a value, in units of its last
place. Below a power of two the values lie twice as close. -/
def interval (significand : Nat) (exponent : Int) : Nat × Nat :=
  let low := if significand = Nat.pow 2 52 ∧ Binary64.leastExponent < exponent then 1 else 2
  (4 * significand - low, 4 * significand + 2)

/-- Whether `candidate * 10 ^ place` rounds to the value; an end does if the significand is even. -/
def readsBack (significand : Nat) (exponent : Int) (candidate : Nat) (place : Int) : Bool :=
  let (low, high) := interval significand exponent
  let (n, d) := Binary64.scaled (4 * candidate) 1 (-exponent)
  let value := n * Nat.pow 10 place.toNat
  let unit := d * Nat.pow 10 (-place).toNat
  if significand % 2 = 0 then low * unit ≤ value && value ≤ high * unit
  else low * unit < value && value < high * unit

/-- Of the two neighbours of the value on the grid of `10 ^ place`, the nearer one that reads
back. -/
def onGrid? (significand : Nat) (exponent : Int) (place : Int) : Option Digits :=
  let (num, den) := fraction significand exponent
  let n := num * Nat.pow 10 (-place).toNat
  let d := den * Nat.pow 10 place.toNat
  let below := n / d
  let nearest := roundQuotient n d
  let other := if nearest = below then below + 1 else below
  if readsBack significand exponent nearest place then some ⟨nearest, place⟩
  else if readsBack significand exponent other place then some ⟨other, place⟩
  else none

/-- Removes zeros at the end of the digits. -/
def Digits.stripped (d : Digits) : Digits :=
  if h : d.digits ≠ 0 ∧ d.digits % 10 = 0 then stripped ⟨d.digits / 10, d.exponent + 1⟩ else d
termination_by d.digits
decreasing_by
  have := h.1
  omega

/-- The first grid, from one digit to seventeen, with a number that reads back. -/
def shortest (significand : Nat) (exponent : Int) : Digits :=
  let (num, den) := fraction significand exponent
  let first := order num den
  let found := (List.range 17).findSome? fun (k : Nat) => onGrid? significand exponent (first - k)
  (found.getD ⟨0, 0⟩).stripped

/-! ## Texts -/

/-- The words and the range of positional exponents of a shortest text. -/
structure Style where
  nan : List Char
  infinity : List Char
  leastPositional : Int
  leastScientific : Int

/-- The sign of a negative value. -/
def signText (negative : Bool) : List Char := if negative then ['-'] else []

/-- A signed exponent of at least two digits. -/
def exponentText (exponent : Int) : List Char :=
  let digits := digitText exponent.natAbs
  let padded := List.replicate (2 - digits.length) '0' ++ digits
  'e' :: (if exponent < 0 then '-' else '+') :: padded

/-- Digits with a point after the first `whole` of them. -/
def pointed (whole : Nat) (digits : List Char) : List Char :=
  digits.take whole ++ '.' :: digits.drop whole

/-- The text of a positive decimal number. -/
def Style.positive (style : Style) (d : Digits) : List Char :=
  let digits := digitText d.digits
  let first : Int := d.exponent + (digits.length - 1 : Nat)
  if first < style.leastPositional ∨ style.leastScientific ≤ first then
    (if digits.length = 1 then digits else pointed 1 digits) ++ exponentText first
  else if first < 0 then
    '0' :: '.' :: (List.replicate (-first - 1).toNat '0' ++ digits)
  else if 0 ≤ d.exponent then
    digits ++ List.replicate d.exponent.toNat '0' ++ ['.', '0']
  else pointed (first + 1).toNat digits

/-- The shortest text of a value. -/
def Style.text (style : Style) (x : Float) : List Char :=
  match Binary64.ofFloat x with
  | .nan => style.nan
  | .infinite negative => signText negative ++ style.infinity
  | .finite negative 0 _ => signText negative ++ ['0', '.', '0']
  | .finite negative m e => signText negative ++ style.positive (shortest m e)

/-- The exact value times `10 ^ places`, rounded. -/
def scaledBy (places : Nat) (significand : Nat) (exponent : Int) : Nat :=
  let (num, den) := fraction significand exponent
  roundQuotient (num * Nat.pow 10 places) den

/-- Digits, with zeros in front so that there are at least `width`. -/
def padded (width : Nat) (digits : List Char) : List Char :=
  List.replicate (width - digits.length) '0' ++ digits

/-- The value rounded to a number of places, which is positive. -/
def fixedText (places : Nat) (x : Float) : List Char :=
  match Binary64.ofFloat x with
  | .nan => "nan".toList
  | .infinite negative => signText negative ++ "inf".toList
  | .finite negative m e =>
    let digits := padded (places + 1) (digitText (scaledBy places m e))
    signText negative ++ pointed (digits.length - places) digits

/-- The value rounded to one digit before the point and a positive number of places after it. -/
def scientificText (places : Nat) (x : Float) : List Char :=
  match Binary64.ofFloat x with
  | .nan => "nan".toList
  | .infinite negative => signText negative ++ "inf".toList
  | .finite negative 0 _ =>
    signText negative ++ pointed 1 (List.replicate (places + 1) '0') ++ exponentText 0
  | .finite negative m e =>
    let (num, den) := fraction m e
    let first := order num den
    let shift : Int := places - first
    let rounded := roundQuotient (num * Nat.pow 10 shift.toNat) (den * Nat.pow 10 (-shift).toNat)
    let (digits, exponent) :=
      if rounded = Nat.pow 10 (places + 1) then (Nat.pow 10 places, first + 1) else (rounded, first)
    signText negative ++ pointed 1 (digitText digits) ++ exponentText exponent

/-- The value nearest to the exact value rounded to a number of places. -/
def roundPlaces (places : Nat) (x : Float) : Float :=
  match Binary64.ofFloat x with
  | .finite negative m e =>
    (Binary64.ofRatio? negative (scaledBy places m e) (Nat.pow 10 places)).getD x
  | _ => x

end Decimal
end Turmite
