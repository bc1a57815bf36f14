import Turmite.Text.Printable

/-!
# Quoted texts in messages

A quoted text stands between single quotes, or between double quotes when it holds a single quote
and no double one. The quote in use and the backslash are escaped, and so is every code point
without a visible form: by a letter for tab, line feed and carriage return, else by its number in
two, four or eight hexadecimal digits.
-/

namespace Turmite

/-- The last `width` hexadecimal digits of `n`, most significant first. -/
def hexDigits : (width : Nat) → (n : Nat) → List Char
  | 0, _ => []
  | width + 1, n => hexDigits width (n / 16) ++ [Nat.digitChar (n % 16)]

namespace CodePoint

/-- The escape of a code point by its number. -/
def numericEscape (c : CodePoint) : List Char :=
  let n := c.toNat
  if n < 0x100 then '\\' :: 'x' :: hexDigits 2 n
  else if n < 0x10000 then '\\' :: 'u' :: hexDigits 4 n
  else '\\' :: 'U' :: hexDigits 8 n

/-- A code point inside a text that stands between `quote` and `quote`. -/
def escaped (quote : Char) (c : CodePoint) : Text :=
  if c = scalar quote ∨ c = scalar '\\' then [scalar '\\', c]
  else if c = scalar '\n' then ("\\n" : Text)
  else if c = scalar '\r' then ("\\r" : Text)
  else if c = scalar '\t' then ("\\t" : Text)
  else if c.isVisible then [c]
  else c.numericEscape.map scalar

end CodePoint

/-- The quote that a text stands between. -/
def Text.quote (t : Text) : Char :=
  if t.contains (.scalar '\'') && !t.contains (.scalar '"') then '"' else '\''

/-- The text between quotes, with escapes. -/
def Text.quoted (t : Text) : Text :=
  .scalar t.quote :: t.flatMap (CodePoint.escaped t.quote) ++ [.scalar t.quote]

end Turmite
