import Turmite.Text.CodePoint

/-!
# JSON values

Integers and binary64 numbers are different values, objects keep the order of their members, and a
key stands once: entering it again replaces its value at the place of the first.
-/

namespace Turmite

/-- A JSON value. -/
inductive Json where
  | null
  | bool (value : Bool)
  | int (value : Int)
  | float (value : Float)
  | str (text : Text)
  | arr (items : List Json)
  | obj (members : List (Text × Json))
  deriving Inhabited

namespace Json

/-- Why a text denotes no value: it is not of the form, it holds too long an integer, or it nests
too deep. A value has no text for one of the last two. -/
inductive Fault where
  | malformed
  | numberTooLong
  | tooDeep
  deriving DecidableEq

/-- The levels that are left inside a bracket, if they are limited. -/
def inside? : (levels : Option Nat) → Except Fault (Option Nat)
  | none => .ok none
  | some 0 => .error .tooDeep
  | some (levels + 1) => .ok (some levels)

/-- The members of an object. -/
abbrev Members := List (Text × Json)

/-- The value of a key. -/
def Members.get? (members : Members) (key : Text) : Option Json :=
  (members.find? (·.1 = key)).map (·.2)

/-- Enters a value under a key. -/
def Members.insert (key : Text) (value : Json) : Members → Members
  | [] => [(key, value)]
  | (k, v) :: r => if k = key then (key, value) :: r else (k, v) :: insert key value r

/-- The members entered one after the other. -/
def Members.ofList (pairs : List (Text × Json)) : Members :=
  pairs.foldl (fun members (key, value) => members.insert key value) []

/-- The object with the given members. -/
def object (members : List (String × Json)) : Json :=
  obj (members.map fun (key, v) => (Text.ofString key, v))

/-- Null, false, zero and what is empty count as false, all else as true. -/
def isTruthy : Json → Bool
  | null => false
  | bool b => b
  | int n => n ≠ 0
  | float x => !(x == 0.0)
  | str t => !t.isEmpty
  | arr items => !items.isEmpty
  | obj members => !members.isEmpty

mutual

/-- The integers in a value. -/
def integers : Json → List Int
  | int n => [n]
  | arr items => itemIntegers items
  | obj members => memberIntegers members
  | _ => []

/-- The integers in items. -/
def itemIntegers : List Json → List Int
  | [] => []
  | v :: items => integers v ++ itemIntegers items

/-- The integers in members. -/
def memberIntegers : List (Text × Json) → List Int
  | [] => []
  | (_, v) :: members => integers v ++ memberIntegers members

end

mutual

/-- The levels of brackets of a value. -/
def depth : Json → Nat
  | arr items => itemDepth items + 1
  | obj members => memberDepth members + 1
  | _ => 0

/-- The levels of brackets of items. -/
def itemDepth : List Json → Nat
  | [] => 0
  | v :: items => max (depth v) (itemDepth items)

/-- The levels of brackets of members. -/
def memberDepth : List (Text × Json) → Nat
  | [] => 0
  | (_, v) :: members => max (depth v) (memberDepth members)

end

end Json
end Turmite
