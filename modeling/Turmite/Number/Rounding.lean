/-!
# Rounding of quotients

Quotients are rounded to the nearest integer and an exact half to the even neighbour. Rounding to a
number of significant bits rounds a multiple of a power of two.
-/

namespace Turmite

/-- The integer nearest to `num / den`, the even one of two that are equally near. -/
def roundQuotient (num den : Nat) : Nat :=
  let quotient := num / den
  let twice := 2 * (num % den)
  if twice < den then quotient
  else if den < twice then quotient + 1
  else quotient + quotient % 2

theorem roundQuotient_one (n : Nat) : roundQuotient n 1 = n := by
  simp [roundQuotient, Nat.mod_one]

theorem roundQuotient_zero (den : Nat) : roundQuotient 0 den = 0 := by
  unfold roundQuotient
  simp

theorem le_roundQuotient (num den : Nat) : num / den ≤ roundQuotient num den := by
  simp only [roundQuotient]
  split
  · exact Nat.le_refl _
  · split <;> omega

theorem roundQuotient_le (num den : Nat) : roundQuotient num den ≤ num / den + 1 := by
  simp only [roundQuotient]
  split
  · omega
  · split <;> omega

/-- The nearest number with at most `bits` significant bits; an exact half goes to the even one. A
number that has no more bits is kept. -/
def roundSignificant (bits n : Nat) : Nat :=
  if n.log2 < bits then n
  else
    let unit := Nat.pow 2 (n.log2 + 1 - bits)
    roundQuotient n unit * unit

/-- A number that fits is kept. -/
theorem roundSignificant_of_lt {bits n : Nat} (h : n < Nat.pow 2 bits) :
    roundSignificant bits n = n := by
  by_cases hn : n = 0
  · subst hn
    simp [roundSignificant, roundQuotient_zero]
  · exact if_pos ((Nat.log2_lt hn).2 h)

theorem roundSignificant_le {bits : Nat} (hbits : 0 < bits) (n : Nat) :
    roundSignificant bits n ≤ 2 * n := by
  unfold roundSignificant
  split
  · omega
  · rename_i hlong
    have hn : n ≠ 0 := by
      rintro rfl
      exact hlong (by simpa using hbits)
    have hunit : Nat.pow 2 (n.log2 + 1 - bits) ≤ n :=
      Nat.le_trans (Nat.pow_le_pow_right (by decide) (by omega)) (Nat.log2_self_le hn)
    calc roundQuotient n (Nat.pow 2 (n.log2 + 1 - bits)) * Nat.pow 2 (n.log2 + 1 - bits)
        ≤ (n / Nat.pow 2 (n.log2 + 1 - bits) + 1) * Nat.pow 2 (n.log2 + 1 - bits) :=
          Nat.mul_le_mul_right _ (roundQuotient_le _ _)
      _ = n / Nat.pow 2 (n.log2 + 1 - bits) * Nat.pow 2 (n.log2 + 1 - bits) +
            Nat.pow 2 (n.log2 + 1 - bits) := by rw [Nat.add_mul, Nat.one_mul]
      _ ≤ n + n := Nat.add_le_add (Nat.div_mul_le_self _ _) hunit
      _ = 2 * n := (Nat.two_mul n).symm

end Turmite
