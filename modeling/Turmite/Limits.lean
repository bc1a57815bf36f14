/-!
# Limits

How long an integer numeral may be, how deep a JSON text may nest, and how many words there are in
memory. The standard limits hold wherever a document or an argument is read; without limits every
numeral and every text is read. All that is made of cells or moves is made for a machine with any
memory.
-/

namespace Turmite

/-- The most digits of an integer numeral and the most levels of a JSON text, if there is a most. -/
structure Limits where
  digits : Option Nat
  depth : Option Nat

namespace Limits

/-- No limits. -/
def unbounded : Limits := ⟨none, none⟩

/-- The limits of the program. -/
def standard : Limits := ⟨some 4300, some 990⟩

/-- Whether a numeral may have so many digits. -/
def allowsDigits (limits : Limits) (count : Nat) : Bool := limits.digits.all (count ≤ ·)

@[simp] theorem allowsDigits_unbounded (count : Nat) : unbounded.allowsDigits count = true := rfl

/-- Whether a text may nest so deep. -/
def allowsDepth (limits : Limits) (depth : Nat) : Bool := limits.depth.all (depth ≤ ·)

@[simp] theorem allowsDepth_unbounded (depth : Nat) : unbounded.allowsDepth depth = true := rfl

end Limits

/-! ## Memory -/

/-- The memory of a machine: the most words of 64 bits that an array or a list holds. -/
class Memory where
  words : Nat
  words_lt : words < Nat.pow 2 60

namespace Memory

/-- The memory that the program is run with. -/
instance standard : Memory := ⟨Nat.pow 2 33, by decide⟩

/-- The number of words from which on no memory could be addressed. -/
def unaddressable : Nat := Nat.pow 2 60

end Memory
end Turmite
