/-!
# Reading UTF-8

Bytes are read character by character. Where they stop being characters, a fault tells which bytes
are none and why: the first one begins no character, a later one does not go on with what was begun,
or the bytes end inside a character.
-/

namespace Turmite

/-- Why bytes are no character. -/
inductive DecodingCause where
  | start
  | continuation
  | ending
  deriving DecidableEq

/-- Bytes that are no character: the place and value of the first, and how many they are. -/
structure DecodingFault where
  place : Nat
  byte : UInt8
  count : Nat
  cause : DecodingCause
  deriving DecidableEq

namespace Utf8

/-- The number of bytes of a character that begins with a byte. -/
def width? (b : UInt8) : Option Nat :=
  let n := b.toNat
  if n < 0x80 then some 1
  else if n < 0xC2 then none
  else if n < 0xE0 then some 2
  else if n < 0xF0 then some 3
  else if n < 0xF5 then some 4
  else none

/-- Whether a byte may stand inside a character. -/
def isContinuation (b : UInt8) : Bool := 0x80 ≤ b.toNat && b.toNat < 0xC0

/-- Whether a byte may come second after a given first one. Overlong forms, surrogates and numbers
that are too large are left out. -/
def maySecond (first b : UInt8) : Bool :=
  isContinuation b &&
    match first.toNat with
    | 0xE0 => 0xA0 ≤ b.toNat
    | 0xED => b.toNat < 0xA0
    | 0xF0 => 0x90 ≤ b.toNat
    | 0xF4 => b.toNat < 0x90
    | _ => true

/-- How many of the bytes after a first one go on with its character. -/
def goodCount (first : UInt8) : List UInt8 → Nat
  | [] => 0
  | b :: r => if maySecond first b then 1 + (r.takeWhile isContinuation).length else 0

/-- The bits of the first byte of a character of some width that belong to its number. -/
def leadBits (width : Nat) (b : UInt8) : Nat :=
  if width = 1 then b.toNat else b.toNat % Nat.pow 2 (7 - width)

/-- The character of a first byte and the others. -/
def charOf (first : UInt8) (others : List UInt8) : Char :=
  Char.ofNat (others.foldl (fun n b => n * 64 + b.toNat % 64) (leadBits (others.length + 1) first))

/-- The characters of bytes that begin at a place. -/
def decodeFrom (place : Nat) : List UInt8 → Except DecodingFault (List Char)
  | [] => .ok []
  | first :: rest =>
    match width? first with
    | none => .error ⟨place, first, 1, .start⟩
    | some width =>
      let others := rest.take (width - 1)
      let good := goodCount first others
      if good < others.length then .error ⟨place, first, 1 + good, .continuation⟩
      else if others.length < width - 1 then .error ⟨place, first, 1 + good, .ending⟩
      else do pure (charOf first others :: (← decodeFrom (place + width) (rest.drop (width - 1))))
termination_by bytes => bytes.length
decreasing_by
  simp only [List.length_drop, List.length_cons]
  omega

/-- The characters of bytes. -/
def decode? (bytes : List UInt8) : Except DecodingFault (List Char) := decodeFrom 0 bytes

end Utf8
end Turmite
