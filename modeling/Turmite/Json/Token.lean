import Turmite.Json.Value
import Turmite.Limits
import Turmite.Number.Binary64

/-!
# JSON tokens

The lexical level of JSON: brackets, separators, texts and scalars, with the words `NaN`,
`Infinity` and `-Infinity` as numbers. A number with neither a fraction nor an exponent is an
integer. What is no token, or too long an integer, is a fault; where it is met as a token decides
which fault of a text comes first.
-/

namespace Turmite.Json

/-- A lexical element. -/
inductive Token where
  | arrayStart
  | arrayEnd
  | objectStart
  | objectEnd
  | comma
  | colon
  | text (value : Text)
  | scalar (value : Json)
  | fault (cause : Fault)

namespace Token

/-- The characters that may stand between tokens. -/
def isGap (c : Char) : Bool := c = ' ' || c = '\t' || c = '\n' || c = '\r'

/-- The rest after a word. -/
def dropWord? : (word : List Char) → List Char → Option (List Char)
  | [], s => some s
  | c :: w, d :: s => if c = d then dropWord? w s else none
  | _ :: _, [] => none

/-! ## Texts -/

/-- The value of a hexadecimal digit. -/
def hexValue? (c : Char) : Option Nat :=
  if '0' ≤ c ∧ c ≤ '9' then some (c.toNat - 0x30)
  else if 'A' ≤ c ∧ c ≤ 'F' then some (c.toNat - 0x37)
  else if 'a' ≤ c ∧ c ≤ 'f' then some (c.toNat - 0x57)
  else none

/-- The code point of an escape by one letter. -/
def letterEscape? : Char → Option Char
  | '"' => some '"'
  | '\\' => some '\\'
  | '/' => some '/'
  | 'b' => some '\x08'
  | 'f' => some '\x0c'
  | 'n' => some '\n'
  | 'r' => some '\r'
  | 't' => some '\t'
  | _ => none

/-- The code units of a text up to its closing quote, and the rest. -/
def textBody? : List Char → Option (Text × List Char)
  | [] => none
  | '"' :: r => some ([], r)
  | '\\' :: 'u' :: a :: b :: c :: d :: r => do
    let a ← hexValue? a
    let b ← hexValue? b
    let c ← hexValue? c
    let d ← hexValue? d
    let (t, r) ← textBody? r
    pure (CodePoint.ofNat (((a * 16 + b) * 16 + c) * 16 + d) :: t, r)
  | '\\' :: e :: r => do
    let c ← letterEscape? e
    let (t, r) ← textBody? r
    pure (.scalar c :: t, r)
  | c :: r =>
    if c = '\\' ∨ c.toNat < 0x20 then none
    else do
      let (t, r) ← textBody? r
      pure (.scalar c :: t, r)

/-- The scalar value that two surrogates stand for. -/
def pair? : CodePoint → CodePoint → Option CodePoint
  | .surrogate high, .surrogate low =>
    if high.val < 0x400 ∧ 0x400 ≤ low.val then
      some (.scalar (Char.ofNat (0x10000 + high.val * 0x400 + (low.val - 0x400))))
    else none
  | _, _ => none

/-- Joins the pairs of surrogates. -/
def joinPairs : Text → Text
  | [] => []
  | [c] => [c]
  | c :: d :: r =>
    match pair? c d with
    | some joined => joined :: joinPairs r
    | none => c :: joinPairs (d :: r)

/-! ## Numbers -/

/-- The number with the given decimal digits. -/
def ofDigits (digits : List Char) : Nat :=
  digits.foldl (fun n c => n * 10 + (c.toNat - 0x30)) 0

/-- The digits before the point: a zero alone, or digits that do not start with zero. -/
def whole? : List Char → Option (List Char × List Char)
  | '0' :: r => some (['0'], r)
  | r =>
    let (digits, r) := r.span Char.isDigit
    if digits.isEmpty then none else some (digits, r)

/-- The digits of a fraction, if there is one. -/
def fraction : List Char → List Char × List Char
  | '.' :: r =>
    let (digits, rest) := r.span Char.isDigit
    if digits.isEmpty then ([], '.' :: r) else (digits, rest)
  | r => ([], r)

/-- The sign of an exponent. -/
def exponentSign : List Char → Bool × List Char
  | '-' :: r => (true, r)
  | '+' :: r => (false, r)
  | r => (false, r)

/-- The exponent, if there is one. -/
def exponent : List Char → Option Int × List Char
  | [] => (none, [])
  | c :: r =>
    if c = 'e' ∨ c = 'E' then
      let (negative, s) := exponentSign r
      let (digits, rest) := s.span Char.isDigit
      if digits.isEmpty then (none, c :: r)
      else
        let n : Int := ofDigits digits
        (some (if negative then -n else n), rest)
    else (none, c :: r)

/-- The integer with the given digits under a sign. -/
def integer (limits : Limits) (negative : Bool) (digits : List Char) : Token :=
  if limits.allowsDigits digits.length then
    let n : Int := ofDigits digits
    scalar (int (if negative then -n else n))
  else fault .numberTooLong

/-- An unsigned number under a sign. -/
def number? (limits : Limits) (negative : Bool) (s : List Char) : Option (Token × List Char) := do
  let (whole, r) ← whole? s
  let (part, r) := fraction r
  let (exponent, r) := exponent r
  if part.isEmpty && exponent.isNone then pure (integer limits negative whole, r)
  else
    let value := Binary64.ofDecimal negative (ofDigits (whole ++ part))
      (exponent.getD 0 - part.length)
    pure (scalar (float value), r)

/-! ## Tokens -/

/-- A scalar written as a word. -/
def word? (s : List Char) (word : String) (value : Json) : Option (Token × List Char) :=
  (dropWord? word.toList s).map (scalar value, ·)

/-- The token at the front of a text that does not start with a gap, and the rest. -/
def next? (limits : Limits) : List Char → Option (Token × List Char)
  | [] => none
  | '[' :: r => some (arrayStart, r)
  | ']' :: r => some (arrayEnd, r)
  | '{' :: r => some (objectStart, r)
  | '}' :: r => some (objectEnd, r)
  | ',' :: r => some (comma, r)
  | ':' :: r => some (colon, r)
  | '"' :: r => (textBody? r).map fun (t, r) => (text (joinPairs t), r)
  | 'n' :: r => word? ('n' :: r) "null" null
  | 't' :: r => word? ('t' :: r) "true" (bool true)
  | 'f' :: r => word? ('f' :: r) "false" (bool false)
  | 'N' :: r => word? ('N' :: r) "NaN" (float Binary64.notANumber)
  | 'I' :: r => word? ('I' :: r) "Infinity" (float (Binary64.ofBits false Binary64.infinityBits))
  | '-' :: 'I' :: r =>
    word? ('I' :: r) "Infinity" (float (Binary64.ofBits true Binary64.infinityBits))
  | '-' :: r => number? limits true r
  | r => number? limits false r

/-- The tokens of a text that has at most `length` characters, up to what is no token. -/
def scan (limits : Limits) : (length : Nat) → List Char → List Token
  | _, [] => []
  | 0, _ :: _ => [fault .malformed]
  | length + 1, c :: r =>
    if isGap c then scan limits length r
    else
      match next? limits (c :: r) with
      | some (token, rest) => token :: scan limits length rest
      | none => [fault .malformed]

/-- The tokens of a text. -/
def ofChars (limits : Limits) (s : List Char) : List Token := scan limits s.length s

end Token
end Turmite.Json
