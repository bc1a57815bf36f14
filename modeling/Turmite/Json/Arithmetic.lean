import Turmite.Error
import Turmite.Number.Remainder

/-!
# Numbers among JSON values

Integers and truth values, which count as zero and one, are exact; a quotient of two of them is
rounded once. Beside a binary64 number they are rounded to one, but compared as they are. No other
value is a number.
-/

namespace Turmite.Json

/-- An integer or a truth value as an integer. -/
def exactInteger? : Json → Option Int
  | int n => some n
  | bool b => some (if b then 1 else 0)
  | _ => none

/-- The binary64 number nearest to an integer, unless it is too large. -/
def rounded? (n : Int) : Except Error Float :=
  match Binary64.ofInt? n with
  | some x => .ok x
  | none => .error .overflow

/-- A number as a binary64 number. -/
def toFloat? : Json → Except Error Float
  | float x => .ok x
  | int n => rounded? n
  | bool b => .ok (if b then 1.0 else 0.0)
  | _ => .error .wrongType

/-- Whether a number is less than an integer of a few digits. What is no number of binary64 is
not. -/
def isBelow? (bound : Int) : Json → Except Error Bool
  | float x => .ok (x < Float.ofInt bound)
  | v =>
    match v.exactInteger? with
    | some n => .ok (n < bound)
    | none => .error .wrongType

/-- Refuses a number that is less than an integer of a few digits. -/
def ensureAtLeast (bound : Int) (e : Error) (v : Json) : Except Error Unit := do
  ensure (!(← v.isBelow? bound)) e

theorem ensureAtLeast_natCast {bound n : Nat} (h : bound ≤ n) (e : Error) :
    (int n).ensureAtLeast bound e = .ok () := by
  have hbelow : (int n).isBelow? bound = .ok false :=
    congrArg Except.ok (decide_eq_false (by omega))
  unfold ensureAtLeast
  rw [hbelow]
  rfl

/-- The quotient of two numbers. -/
def quotient? (v w : Json) : Except Error Float :=
  match v.exactInteger?, w.exactInteger? with
  | some n, some k =>
    match Binary64.quotient? n k with
    | some x => .ok x
    | none => .error .overflow
  | _, _ => do pure ((← v.toFloat?) / (← w.toFloat?))

/-- The result of an operation on two numbers: exact on exact ones, else rounded. -/
def combine? (exact : Int → Int → Int) (rounded : Float → Float → Float) (v w : Json) :
    Except Error Json :=
  match v.exactInteger?, w.exactInteger? with
  | some n, some k => .ok (int (exact n k))
  | _, _ => do pure (float (rounded (← v.toFloat?) (← w.toFloat?)))

/-- The sum of two numbers. -/
def sum? (v w : Json) : Except Error Json := combine? (· + ·) (· + ·) v w

theorem sum?_natCast (n k : Nat) : (int n).sum? (int k) = .ok (int (n + k : Nat)) := by
  rw [Int.natCast_add]
  rfl

/-- The difference of two numbers. -/
def difference? (v w : Json) : Except Error Json := combine? (· - ·) (· - ·) v w

/-- The product of two numbers. -/
def product? (v w : Json) : Except Error Json := combine? (· * ·) (· * ·) v w

theorem product?_natCast (n k : Nat) : (int n).product? (int k) = .ok (int (n * k : Nat)) := by
  rw [Int.natCast_mul]
  rfl

/-- The remainder of a number by one that is not zero, with the sign of the divisor. -/
def remainder? (v w : Json) : Except Error Json := combine? Int.fmod Binary64.flooredRemainder v w

/-- The greatest integer that is at most the half of a number. -/
def flooredHalf? (v : Json) : Except Error Json :=
  match v.exactInteger? with
  | some n => .ok (int (n / 2))
  | none => do pure (float (Binary64.flooredHalf (← v.toFloat?)))

/-- The distance of a number from zero. -/
def magnitude? (v : Json) : Except Error Json :=
  match v.exactInteger? with
  | some n => .ok (int n.natAbs)
  | none => do pure (float (← v.toFloat?).abs)

/-- Whether a number is less than another. -/
def isLess? (v w : Json) : Except Error Bool :=
  match v.exactInteger?, w.exactInteger? with
  | some n, some k => .ok (n < k)
  | some n, none => do pure (Binary64.isGreater (← w.toFloat?) n)
  | none, some k => do pure (Binary64.isLess (← v.toFloat?) k)
  | none, none => do pure ((← v.toFloat?) < (← w.toFloat?))

theorem isLess?_natCast (n k : Nat) : (int n).isLess? (int k) = .ok (decide (n < k)) :=
  congrArg Except.ok (by simp)

/-- Whether two values, neither of them a list or an object, are the same; numbers are if they are
equal. -/
def isSame (v w : Json) : Bool :=
  match v, w with
  | null, null => true
  | str s, str t => s = t
  | float x, float y => x == y
  | float x, w => (Binary64.integer? x).isSome && Binary64.integer? x = w.exactInteger?
  | v, float y => (Binary64.integer? y).isSome && Binary64.integer? y = v.exactInteger?
  | v, w => v.exactInteger?.isSome && v.exactInteger? = w.exactInteger?

/-- Refuses a value that cannot be told from others: a list or an object. -/
def ensureKey : Json → Except Error Unit
  | arr _ => .error .wrongType
  | obj _ => .error .wrongType
  | _ => .ok ()

/-- The least integer that is at least a binary64 number. -/
def ceiling? (x : Float) : Except Error Int :=
  match Binary64.ofFloat x with
  | .nan => .error InvalidValue.integerOfNaN
  | .infinite _ => .error .overflow
  | .finite .. => .ok (Binary64.ceiling x)

end Turmite.Json
