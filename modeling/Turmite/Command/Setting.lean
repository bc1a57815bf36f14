import Turmite.Geometry.Reading
import Turmite.Json.Value
import Turmite.Program.Payload

/-!
# Settings

A setting is the value of an option, else the value of its key in a configuration document, else a
default. Documents may give truth values and integers as texts, and points as texts or pairs.
-/

namespace Turmite.Setting

/-- The value of a setting: the one given, unless it is null, else that of the document. -/
def choose (key : Text) (given document default : Json) : Except Error Json :=
  match given, document with
  | .null, .obj members => .ok ((Json.Members.get? members key).getD default)
  | .null, _ => .error .noSuchPart
  | v, _ => .ok v

/-- The texts that stand for true. -/
def trueWords : List Text := [("1" : Text), ("true" : Text), ("yes" : Text), ("on" : Text)]

/-- The texts that stand for false. -/
def falseWords : List Text := [("0" : Text), ("false" : Text), ("no" : Text), ("off" : Text)]

/-- The truth value that a setting stands for. -/
def truth? (key : Text) : Json → Except Error Bool
  | .bool b => .ok b
  | .str t =>
    if trueWords.any (· = t.trim.asciiLower) then .ok true
    else if falseWords.any (· = t.trim.asciiLower) then .ok false
    else .error (InvalidValue.notBoolean key)
  | _ => .error (InvalidValue.notBoolean key)

/-- The integer that a setting stands for: an integer, a number without a fraction, or a numeral. -/
def integer? (key : Text) : Json → Except Error Int
  | .int n => .ok n
  | .str t => (Json.str t).integer? .standard
  | .float x => do
    let n ← (Json.float x).integer? .standard
    ensure (Binary64.isIntegral x) (InvalidValue.fraction key x)
    pure n
  | _ => .error (InvalidValue.notInteger key)

/-- The point that a setting stands for, if it has a value. -/
def point? (key : Text) : Json → Except Error (Option Point)
  | .null => .ok none
  | .str t => do pure (some (← Point.parse? t))
  | .arr [x, y] => do
    let x ← integer? key x
    let y ← integer? key y
    pure (some ⟨x, y⟩)
  | _ => .error (InvalidValue.notPair key)

/-- The positive integers of a list of numerals between commas. -/
def sizes? (t : Text) : Except Error (List Int) := do
  let parts := ((t.split (.scalar ',')).map Text.trim).filter (!·.isEmpty)
  ensure (!parts.isEmpty) InvalidValue.noSizesGiven
  parts.mapM fun part =>
    match Numeral.readInt? .standard part with
    | .ok n => if n < 1 then .error InvalidValue.sizeGivenTooSmall else .ok n
    | .error _ => .error InvalidValue.sizesNotIntegers

end Turmite.Setting
