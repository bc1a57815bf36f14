import Turmite.Grid.Array
import Turmite.Json.Display

/-!
# Arrays in files

An array in a file holds items of one kind, chosen when it is written: words, or all items as
binary64 numbers, or all as texts. An array of anything else cannot be read back. To read words from
it is to cut numbers, where one that fits no word gives the least word, and to read texts as
numerals. Words without a sign wrap.
-/

namespace Turmite

namespace Json

/-- A text without NUL at its end. -/
def withoutPadding (t : Text) : Text := (t.reverse.dropWhile (· = .scalar '\x00')).reverse

/-- Whether an array of items of one kind can hold a value. -/
def isStorable : Json → Bool
  | null => false
  | int n => Int64.minValue.toInt ≤ n && n < UInt64.size
  | arr _ => false
  | obj _ => false
  | _ => true

/-- A text. -/
def isText : Json → Bool
  | str _ => true
  | _ => false

/-- A number that is no integer. -/
def isFloat : Json → Bool
  | float _ => true
  | _ => false

/-- The least word. -/
def leastWord : Int := Int64.minValue.toInt

/-- The integer part of a number as a word, the least one if it fits none. -/
def cutToWord (x : Float) : Int :=
  match Binary64.ofFloat x with
  | .finite negative m e =>
    let n := Binary64.truncate negative m e
    if fitsWord n then n else leastWord
  | _ => leastWord

/-- The word that an item of an array of words stands for. -/
def wrappedWord : Json → Int
  | int n => n.bmod UInt64.size
  | bool true => 1
  | _ => 0

/-- The word that an item of an array of numbers stands for. -/
def numberWord : Json → Int
  | float x => cutToWord x
  | int n => ((Binary64.ofInt? n).map cutToWord).getD leastWord
  | bool true => 1
  | _ => 0

/-- The word that an item of an array of texts stands for. -/
def textWord? : Json → Except Error Int
  | str t => word? (str (withoutPadding t))
  | int n => wordOf? n
  | _ => .error .unreadableArray

end Json

namespace WordArray

/-- The words of the items of an array in a file. -/
def storedWords? (items : List Json) : Except Error (List Int) := do
  ensure (items.all Json.isStorable) .unreadableArray
  if items.any Json.isText then items.mapM Json.textWord?
  else if items.any Json.isFloat then pure (items.map Json.numberWord)
  else pure (items.map Json.wrappedWord)

/-- The array that is read back from a file with a nested list. -/
def ofStored? (v : Json) : Except Error WordArray := do
  let shape ← v.shape?
  let words ← storedWords? v.leaves
  pure ⟨shape, words⟩

end WordArray
end Turmite
