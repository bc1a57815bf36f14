import Turmite.Limits
import Turmite.Number.Binary64
import Turmite.Text.CharacterClass

/-!
# Reading numerals

An integer numeral is a sign, if any, and digits; a decimal numeral has a point or an exponent too,
or is one of the words for an infinity or for no number. Digits may be of any script, single
underscores may stand between them, and spaces around the whole. The number of digits of an integer
numeral may be limited; zeros in front count.
-/

namespace Turmite.Numeral

/-- The digits of a run in which single underscores separate digits. -/
def digitRun? (digit? : CodePoint → Option Nat) : Text → Option (List Nat)
  | [] => none
  | [c] => (digit? c).map ([·])
  | c :: d :: r => do
    let first ← digit? c
    let others ← if d = .scalar '_' then digitRun? digit? r else digitRun? digit? (d :: r)
    pure (first :: others)

/-- The number with the given digits, most significant first. -/
def ofDigits (base : Nat) (digits : List Nat) : Nat :=
  digits.foldl (fun n d => n * base + d) 0

/-- The sign in front of a numeral, and the rest. -/
def sign : Text → Bool × Text
  | .scalar '-' :: r => (true, r)
  | .scalar '+' :: r => (false, r)
  | t => (false, t)

/-! ## Integers -/

/-- A digit in base ten or, with letters, sixteen. -/
def hexDigit? (c : CodePoint) : Option Nat := c.digit? <|> c.hexLetter?

/-- The text after a mark `0x` and one underscore, if there are any. -/
def dropHexMark : Text → Text
  | c :: .scalar x :: r =>
    if c.digit? = some 0 ∧ (x = 'x' ∨ x = 'X') then
      match r with
      | .scalar '_' :: r => r
      | r => r
    else c :: .scalar x :: r
  | t => t

/-- A digit or an underscore. -/
def isRunMark (c : CodePoint) : Bool := c.digit?.isSome || c = .scalar '_'

/-- Why a text denotes no integer. -/
inductive IntegerFault where
  | malformed
  | tooLong (digits limit : Nat)

/-- The integer that a text denotes in base ten. The length of the leading run of digits is looked
at before what follows it. -/
def readInt? (limits : Limits) (t : Text) : Except IntegerFault Int :=
  let (negative, r) := sign t.trimSpaces
  let (run, rest) := r.span isRunMark
  match digitRun? CodePoint.digit? run with
  | none => .error .malformed
  | some digits =>
    if !limits.allowsDigits digits.length then
      .error (.tooLong digits.length (limits.digits.getD 0))
    else if !rest.isEmpty then .error .malformed
    else
      let n : Int := ofDigits 10 digits
      .ok (if negative then -n else n)

/-- The integer that a text denotes in base sixteen. -/
def readHex? (t : Text) : Option Int :=
  let (negative, r) := sign t.trimSpaces
  (digitRun? hexDigit? (dropHexMark r)).map fun digits =>
    let n : Int := ofDigits 16 digits
    if negative then -n else n

/-! ## Decimal numbers -/

/-- The digits of a run that may be empty. -/
def optionalRun? (t : Text) : Option (List Nat) :=
  if t.isEmpty then some [] else digitRun? CodePoint.digit? t

/-- The exponent at the end of a decimal numeral, zero if there is none. -/
def exponent? : Text → Option Int
  | [] => some 0
  | c :: r =>
    if c = .scalar 'e' ∨ c = .scalar 'E' then
      let (negative, r) := sign r
      (digitRun? CodePoint.digit? r).map fun digits =>
        let n : Int := ofDigits 10 digits
        if negative then -n else n
    else none

/-- The value of an unsigned decimal numeral in digits, under a sign. -/
def readDigits? (negative : Bool) (t : Text) : Option Float := do
  let (whole, r) := t.span isRunMark
  let (part, r) := match r with
    | .scalar '.' :: r => r.span isRunMark
    | r => ([], r)
  let exponent ← exponent? r
  let whole ← optionalRun? whole
  let part ← optionalRun? part
  if whole.isEmpty && part.isEmpty then none
  else
    let digits := ofDigits 10 (whole ++ part)
    some (Binary64.ofDecimal negative digits (exponent - part.length))

/-- The value that a text denotes as a decimal numeral. -/
def readFloat? (t : Text) : Option Float :=
  let (negative, r) := sign t.trimSpaces
  let word := r.asciiLower
  if word = ("inf" : Text) ∨ word = ("infinity" : Text) then
    some (Binary64.ofBits negative Binary64.infinityBits)
  else if word = ("nan" : Text) then some Binary64.notANumber
  else readDigits? negative r

end Turmite.Numeral
