import Turmite.Json.Value
import Turmite.Limits
import Turmite.Number.Decimal
import Turmite.Text.Quoted

/-!
# Writing JSON values

One writer and two layouts: on one line, or with every item on a line of its own, indented by two
spaces for each level. A text escapes the quote, the backslash and the controls and keeps all else.
With limits, a value is refused for the first integer that is too long or the first bracket that
lies too deep, in the order of its text.
-/

namespace Turmite.Json

/-- What stands after a bracket and after a comma, by the depth of the items. -/
structure Layout where
  atBracket : (depth : Nat) → List Char
  afterComma : (depth : Nat) → List Char

/-- Everything on one line. -/
def Layout.line : Layout := ⟨fun _ => [], fun _ => [' ']⟩

/-- A new line at a depth. -/
def newLine (depth : Nat) : List Char := '\n' :: List.replicate (2 * depth) ' '

/-- Every item on its own line. -/
def Layout.indented : Layout := ⟨newLine, newLine⟩

/-- Numbers in shortest digits, positional below `10 ^ 16`. -/
def numberStyle : Decimal.Style where
  nan := "NaN".toList
  infinity := "Infinity".toList
  leastPositional := -4
  leastScientific := 16

/-- A code point inside a text. -/
def escaped (c : CodePoint) : Text :=
  if c = .scalar '"' then ("\\\"" : Text)
  else if c = .scalar '\\' then ("\\\\" : Text)
  else if c = .scalar '\n' then ("\\n" : Text)
  else if c = .scalar '\r' then ("\\r" : Text)
  else if c = .scalar '\t' then ("\\t" : Text)
  else if c = .scalar '\x08' then ("\\b" : Text)
  else if c = .scalar '\x0c' then ("\\f" : Text)
  else if c.toNat < 0x20 then ('\\' :: 'u' :: hexDigits 4 c.toNat).map .scalar
  else [c]

/-- A text with its quotes. -/
def textLiteral (t : Text) : Text :=
  .scalar '"' :: t.flatMap escaped ++ [.scalar '"']

/-- Characters as a text. -/
def plain (cs : List Char) : Text := cs.map .scalar

mutual

/-- A value whose items, if it has any, stand at `depth + 1`. -/
def write (layout : Layout) (depth : Nat) : Json → Text
  | null => ("null" : Text)
  | bool true => ("true" : Text)
  | bool false => ("false" : Text)
  | int n => plain (integerText n)
  | float x => plain (numberStyle.text x)
  | str t => textLiteral t
  | arr [] => ("[]" : Text)
  | arr (v :: items) =>
    .scalar '[' :: plain (layout.atBracket (depth + 1)) ++ write layout (depth + 1) v
      ++ writeItems layout (depth + 1) items ++ plain (layout.atBracket depth) ++ [.scalar ']']
  | obj [] => ("\x7b\x7d" : Text)
  | obj ((key, v) :: members) =>
    .scalar '{' :: plain (layout.atBracket (depth + 1)) ++ textLiteral key ++ (": " : Text)
      ++ write layout (depth + 1) v ++ writeMembers layout (depth + 1) members
      ++ plain (layout.atBracket depth) ++ [.scalar '}']

/-- The items after the first. -/
def writeItems (layout : Layout) (depth : Nat) : List Json → Text
  | [] => []
  | v :: items =>
    .scalar ',' :: plain (layout.afterComma depth) ++ write layout depth v
      ++ writeItems layout depth items

/-- The members after the first. -/
def writeMembers (layout : Layout) (depth : Nat) : List (Text × Json) → Text
  | [] => []
  | (key, v) :: members =>
    .scalar ',' :: plain (layout.afterComma depth) ++ textLiteral key ++ (": " : Text)
      ++ write layout depth v ++ writeMembers layout depth members

end

/-- The text of a value on one line. -/
def line (v : Json) : Text := write .line 0 v

/-- The text of a value with every item on its own line. -/
def indented (v : Json) : Text := write .indented 0 v

/-! ## Limits -/

/-- Whether an integer is written with no more digits than a limit. -/
def isWritable (limits : Limits) (n : Int) : Bool :=
  limits.allowsDigits (Binary64.digitCount n.natAbs)

mutual

/-- Refuses a value that is not written inside so many levels. -/
def ensureWritable (limits : Limits) (levels : Option Nat) : Json → Except Fault Unit
  | int n => if isWritable limits n then .ok () else .error .numberTooLong
  | arr items => do ensureItemsWritable limits (← inside? levels) items
  | obj members => do ensureMembersWritable limits (← inside? levels) members
  | _ => .ok ()

/-- Refuses items of which one is not written. -/
def ensureItemsWritable (limits : Limits) (levels : Option Nat) : List Json → Except Fault Unit
  | [] => .ok ()
  | v :: items => do
    ensureWritable limits levels v
    ensureItemsWritable limits levels items

/-- Refuses members of which one has a value that is not written. -/
def ensureMembersWritable (limits : Limits) (levels : Option Nat) :
    List (Text × Json) → Except Fault Unit
  | [] => .ok ()
  | (_, v) :: members => do
    ensureWritable limits levels v
    ensureMembersWritable limits levels members

end

end Turmite.Json
