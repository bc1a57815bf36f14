import Turmite.Text.CodePoint

/-!
# Classes of code points

A *space* has the Unicode property White_Space; it may stand around a numeral. A *blank* is a space
or one of the four information separators; it is trimmed from a field. The decimal digits of all
scripts, the code points of the general category Nd, come in runs of ten, from zero to nine; the
table lists the zeros, as of Unicode 14.
-/

namespace Turmite

namespace CodePoint

/-! ## Blanks -/

/-- The code points with the property White_Space, as ranges. -/
def spaceRanges : List (Nat × Nat) :=
  [(0x9, 0xD), (0x20, 0x20), (0x85, 0x85), (0xA0, 0xA0), (0x1680, 0x1680), (0x2000, 0x200A),
   (0x2028, 0x2029), (0x202F, 0x202F), (0x205F, 0x205F), (0x3000, 0x3000)]

/-- The property White_Space. -/
def isSpace (c : CodePoint) : Bool :=
  spaceRanges.any fun (first, last) => first ≤ c.toNat && c.toNat ≤ last

/-- A space, or an information separator (U+001C to U+001F). -/
def isBlank (c : CodePoint) : Bool :=
  c.isSpace || (0x1C ≤ c.toNat && c.toNat ≤ 0x1F)

/-! ## Digits -/

/-- The zeros of the runs of decimal digits. -/
def digitZeros : List Nat :=
  [0x30, 0x660, 0x6F0, 0x7C0, 0x966, 0x9E6, 0xA66, 0xAE6, 0xB66, 0xBE6, 0xC66, 0xCE6, 0xD66,
   0xDE6, 0xE50, 0xED0, 0xF20, 0x1040, 0x1090, 0x17E0, 0x1810, 0x1946, 0x19D0, 0x1A80, 0x1A90,
   0x1B50, 0x1BB0, 0x1C40, 0x1C50, 0xA620, 0xA8D0, 0xA900, 0xA9D0, 0xA9F0, 0xAA50, 0xABF0, 0xFF10,
   0x104A0, 0x10D30, 0x11066, 0x110F0, 0x11136, 0x111D0, 0x112F0, 0x11450, 0x114D0, 0x11650,
   0x116C0, 0x11730, 0x118E0, 0x11950, 0x11C50, 0x11D50, 0x11DA0, 0x16A60, 0x16AC0, 0x16B50,
   0x1D7CE, 0x1D7D8, 0x1D7E2, 0x1D7EC, 0x1D7F6, 0x1E140, 0x1E2F0, 0x1E950, 0x1FBF0]

/-- The value of a decimal digit. -/
def digit? (c : CodePoint) : Option Nat :=
  (digitZeros.find? fun start => start ≤ c.toNat && c.toNat < start + 10).map (c.toNat - ·)

theorem digit?_lt {c : CodePoint} {d : Nat} (h : c.digit? = some d) : d < 10 := by
  simp only [digit?, Option.map_eq_some_iff] at h
  obtain ⟨start, hs, rfl⟩ := h
  have := List.find?_some hs
  simp only [Bool.and_eq_true, decide_eq_true_eq] at this
  omega

/-- The value of a letter A to F or a to f as a digit. -/
def hexLetter? (c : CodePoint) : Option Nat :=
  let n := c.toNat
  if 0x41 ≤ n ∧ n ≤ 0x46 then some (n - 0x37)
  else if 0x61 ≤ n ∧ n ≤ 0x66 then some (n - 0x57)
  else none

end CodePoint

namespace Text

/-- The text without the code points of a class at its two ends. -/
def trimBy (drop : CodePoint → Bool) (t : Text) : Text :=
  ((t.dropWhile drop).reverse.dropWhile drop).reverse

/-- The text without blanks at its two ends. -/
def trim (t : Text) : Text := t.trimBy CodePoint.isBlank

/-- The text without spaces at its two ends. -/
def trimSpaces (t : Text) : Text := t.trimBy CodePoint.isSpace

end Text
end Turmite
