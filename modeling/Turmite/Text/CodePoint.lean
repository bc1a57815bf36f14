/-!
# Text as code points

A text is a list of code points. Beside the scalar values that `Char` holds there are lone
surrogates, which an escape in a JSON document can bring in, so a text is wider than a `String`.
-/

namespace Turmite

/-- A Unicode code point: a scalar value, or a surrogate that stands alone. -/
inductive CodePoint where
  | scalar (char : Char)
  | surrogate (offset : Fin 0x800)
  deriving DecidableEq

namespace CodePoint

instance : Coe Char CodePoint := ⟨scalar⟩

/-- The number of a code point. -/
def toNat : CodePoint → Nat
  | scalar c => c.toNat
  | surrogate k => 0xD800 + k.val

/-- The code point of a number below `0x110000`. -/
def ofNat (n : Nat) : CodePoint :=
  if h : 0xD800 ≤ n ∧ n < 0xE000 then
    surrogate ⟨n - 0xD800, by omega⟩
  else
    scalar (Char.ofNat n)

/-- The scalar value, unless the code point is a surrogate. -/
def char? : CodePoint → Option Char
  | scalar c => some c
  | surrogate _ => none

@[simp] theorem char?_scalar (c : Char) : (scalar c).char? = some c := rfl

end CodePoint

/-- A text: any sequence of code points. -/
abbrev Text := List CodePoint

namespace Text

/-- The code points of a string. -/
def ofString (s : String) : Text := s.toList.map CodePoint.scalar

instance : Coe String Text := ⟨ofString⟩

/-- The scalar values of a text without surrogates. -/
def chars? (t : Text) : Option (List Char) := t.mapM CodePoint.char?

/-- The string of a text without surrogates. -/
def string? (t : Text) : Option String := t.chars?.map String.ofList

/-- The parts of a text between occurrences of `mark`, at least one. -/
def split (mark : CodePoint) : Text → List Text
  | [] => [[]]
  | c :: r =>
    match split mark r with
    | [] => [[c]]
    | first :: others => if c = mark then [] :: first :: others else (c :: first) :: others

/-- The parts joined with `mark` between neighbours. -/
def join (mark : Text) : List Text → Text
  | [] => []
  | [part] => part
  | part :: parts => part ++ mark ++ join mark parts

/-- The text after `start`, if it begins with it. -/
def dropStart? : (start : Text) → Text → Option Text
  | [], t => some t
  | c :: r, d :: t => if c = d then dropStart? r t else none
  | _ :: _, [] => none

/-- Lower case for the letters A to Z. -/
def asciiLower (t : Text) : Text :=
  t.map fun
    | .scalar c => .scalar c.toLower
    | c => c

/-- The order by code point number, shorter first among texts that agree. -/
def le : Text → Text → Bool
  | [], _ => true
  | _ :: _, [] => false
  | c :: r, d :: t => c.toNat < d.toNat || (c = d && le r t)

theorem split_ne_nil (mark : CodePoint) (t : Text) : split mark t ≠ [] := by
  cases t with
  | nil => simp [split]
  | cons c r => unfold split; split <;> (try split) <;> simp

end Text
end Turmite
