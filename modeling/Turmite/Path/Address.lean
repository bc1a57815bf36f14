import Turmite.Path
import Turmite.Text.CharacterClass

/-!
# Paths that read as addresses

An address is a scheme, a colon and a rest in the characters of addresses, with bytes given by two
hexadecimal digits after a percent sign. Two schemes name files by the path of the rest; none of the
other stores that a scheme may name takes a table from here, and why not depends on the scheme. A
text that begins like an address is none of a file, whatever the rest is.
-/

namespace Turmite

namespace CodePoint

/-- A letter from A to Z or from a to z. -/
def isAsciiLetter : CodePoint → Bool
  | scalar c => c.isAlpha
  | surrogate _ => false

/-- A digit from 0 to 9. -/
def isAsciiDigit : CodePoint → Bool
  | scalar c => c.isDigit
  | surrogate _ => false

/-- Whether a code point is one of the characters of a string. -/
def isOneOf (characters : String) : CodePoint → Bool
  | scalar c => characters.toList.contains c
  | surrogate _ => false

/-- What may stand in a scheme after its first letter. -/
def isSchemeMark (c : CodePoint) : Bool := c.isAsciiLetter || c.isAsciiDigit || c.isOneOf "+-."

/-- What may stand for itself in the path of an address. -/
def isAddressMark (c : CodePoint) : Bool :=
  c.isAsciiLetter || c.isAsciiDigit || c.isOneOf "-._~!$&'()*+,;=:@/"

/-- The value of a hexadecimal digit. -/
def hexValue? (c : CodePoint) : Option Nat := if c.isAsciiDigit then c.digit? else c.hexLetter?

end CodePoint

/-- A scheme, and the path after it as it is written. -/
structure Address where
  scheme : Text
  path : Text

namespace Address

/-- The bytes of a sequence of marks, and of hexadecimal digits in pairs after a percent sign. -/
def bytes? (isMark : CodePoint → Bool) : Text → Option (List UInt8)
  | [] => some []
  | .scalar '%' :: a :: b :: r => do
    let byte := 16 * (← a.hexValue?) + (← b.hexValue?)
    pure (UInt8.ofNat byte :: (← bytes? isMark r))
  | c :: r => if isMark c then do pure (UInt8.ofNat c.toNat :: (← bytes? isMark r)) else none

/-- A text before and after the first occurrence of a mark, which takes part in neither. -/
def cut (mark : Char) (t : Text) : Text × Option Text :=
  let before := t.takeWhile (· ≠ .scalar mark)
  (before, (t.drop before.length).tail?)

/-- The path of what follows a scheme, if that is a path, possibly with a query and a fragment. -/
def pathOf? (t : Text) : Option Text :=
  let isQuery (t : Text) := (bytes? (fun c => c.isAddressMark || c = .scalar '?') t).isSome
  let (before, fragment) := cut '#' t
  let (path, query) := cut '?' before
  if (bytes? CodePoint.isAddressMark path).isSome && query.all isQuery && fragment.all isQuery then
    some path
  else none

/-- Whether a text is a scheme. -/
def isScheme : Text → Bool
  | [] => false
  | c :: r => c.isAsciiLetter && r.all CodePoint.isSchemeMark

/-- The address that a text spells. -/
def ofText? (t : Text) : Option Address :=
  match cut ':' t with
  | (scheme, some rest) =>
    if isScheme scheme then (pathOf? rest).map fun path => ⟨scheme, path⟩ else none
  | (_, none) => none

/-- The fewest letters by which a scheme is recognized; a lone one may name a drive. -/
def shortestScheme : Nat := 2

/-- The most letters by which a scheme is recognized. -/
def longestScheme : Nat := 36

/-- Whether a text begins like an address. -/
def resembles (t : Text) : Bool :=
  match cut ':' t with
  | (scheme, some _) =>
    shortestScheme ≤ scheme.length && scheme.length ≤ longestScheme && isScheme scheme
  | (_, none) => false

/-- The schemes of files. -/
def fileSchemes : List Text := [("file" : Text), ("local" : Text)]

/-- The schemes of stores that cannot be reached. -/
def clusterSchemes : List Text := [("hdfs" : Text), ("viewfs" : Text)]

/-- The path of an address, decoded. -/
def decodedPath? (a : Address) : Except Error Text :=
  match Utf8.decode? ((bytes? CodePoint.isAddressMark a.path).getD []) with
  | .ok chars => .ok (chars.map .scalar)
  | .error fault => .error (.undecodable fault)

/-- Refuses a text of a path that no file can be opened by. -/
def ensureFile (t : Text) : Except Error Unit :=
  ensure (!resembles t && !t.contains (.scalar '\x00')) .foreignAddress

/-- The path of a text without a slash in front. -/
def dropSlash : Text → Text
  | .scalar '/' :: r => r
  | t => t

/-- The path of the file that an address names. A store of the scheme `mock` is new and empty. -/
def file? (a : Address) : Except Error Text := do
  if fileSchemes.any (· = a.scheme) then
    ensure (a.scheme ≠ ("file" : Text) || a.path.head? = some (.scalar '/')) .foreignAddress
    let t ← a.decodedPath?
    ensureFile t
    pure t
  else if a.scheme = ("mock" : Text) then
    let t := dropSlash (← a.decodedPath?)
    ensure (!resembles t) .foreignAddress
    .error (.missingFile t)
  else .error (if clusterSchemes.any (· = a.scheme) then .storeUnavailable else .foreignAddress)

end Address
end Turmite
