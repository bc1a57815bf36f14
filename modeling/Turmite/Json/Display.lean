import Turmite.Json.Value
import Turmite.Number.Decimal
import Turmite.Text.Quoted

/-!
# Values in messages

How a message names a value it refuses: `None`, `True` and `False` for the three words, numbers in
shortest digits, quoted texts, and brackets around what they hold.
-/

namespace Turmite.Json

/-- Numbers in messages: as in JSON, but for the words. -/
def displayStyle : Decimal.Style where
  nan := "nan".toList
  infinity := "inf".toList
  leastPositional := -4
  leastScientific := 16

mutual

/-- A value in a message. -/
def display : Json → Text
  | null => ("None" : Text)
  | bool true => ("True" : Text)
  | bool false => ("False" : Text)
  | int n => (integerText n).map .scalar
  | float x => (displayStyle.text x).map .scalar
  | str t => t.quoted
  | arr items => .scalar '[' :: displayItems items ++ [.scalar ']']
  | obj members => .scalar '{' :: displayMembers members ++ [.scalar '}']

/-- Items with commas between them. -/
def displayItems : List Json → Text
  | [] => []
  | [v] => display v
  | v :: items => display v ++ (", " : Text) ++ displayItems items

/-- Members with commas between them. -/
def displayMembers : List (Text × Json) → Text
  | [] => []
  | [(key, v)] => key.quoted ++ (": " : Text) ++ display v
  | (key, v) :: members =>
    key.quoted ++ (": " : Text) ++ display v ++ (", " : Text) ++ displayMembers members

end

/-- A value taken as a text: a text stands for itself, all else for its display. -/
def asText : Json → Text
  | str t => t
  | v => v.display

end Turmite.Json
