import Mathlib.Data.Int.Log
import Mathlib.Data.Rat.Floor
import Mathlib.Tactic.Linarith
import Mathlib.Tactic.FieldSimp
import Mathlib.Tactic.Ring
import Mathlib.Tactic.NormNum
import Mathlib.Algebra.Order.Field.Power
import Turmite.Number.Binary64

/-!
# Nearest binary64 values

A magnitude is told by its bits, and its value by how many times the least positive value it is. The
bits of the value nearest to a quotient are monotone in the quotient, and a binary64 value is its
own nearest one. Where the quotient is no subnormal value, the nearest one is too small by half a
unit in the last place at most.
-/

namespace Turmite

/-- Rounding sees a quotient and not its two sides, and is monotone in it. -/
theorem roundQuotient_mono {a b c d : Nat} (hb : 0 < b) (hd : 0 < d) (h : a * d ≤ c * b) :
    roundQuotient a b ≤ roundQuotient c d := by
  by_cases hq : a / b < c / d
  · have h₁ := roundQuotient_le a b
    have h₂ := le_roundQuotient c d
    omega
  · have hle : a / b ≤ c / d := by
      rw [Nat.le_div_iff_mul_le hd]
      have h₁ : a / b * b ≤ a := Nat.div_mul_le_self a b
      have h₂ : a / b * d * b ≤ c * b := by nlinarith
      exact Nat.le_of_mul_le_mul_right h₂ hb
    have hq : a / b = c / d := by omega
    have ha := Nat.div_add_mod a b
    have hc := Nat.div_add_mod c d
    -- the whole parts agree, so that the rests compare as the quotients do
    have hr : a % b * d ≤ c % d * b := by
      rw [← hq] at hc
      nlinarith
    have hlt : d < 2 * (c % d) ∨ 2 * (c % d) = d ∨ 2 * (c % d) < d := by omega
    have h₁ : b ≤ 2 * (a % b) → d ≤ 2 * (c % d) := by
      intro h
      by_contra hn
      nlinarith
    have h₂ : b < 2 * (a % b) → d < 2 * (c % d) := by
      intro h
      by_contra hn
      nlinarith
    simp only [roundQuotient, ← hq]
    split_ifs <;> omega

theorem roundQuotient_congr {a b c d : Nat} (hb : 0 < b) (hd : 0 < d) (h : a * d = c * b) :
    roundQuotient a b = roundQuotient c d :=
  Nat.le_antisymm (roundQuotient_mono hb hd h.le) (roundQuotient_mono hd hb h.ge)

/-- What is rounded is off by at most a half. -/
theorem roundQuotient_close (a : Nat) {b : Nat} (hb : 0 < b) :
    2 * a ≤ 2 * (roundQuotient a b * b) + b ∧ 2 * (roundQuotient a b * b) ≤ 2 * a + b := by
  have ha : a / b * b + a % b = a := Nat.div_add_mod' a b
  have hr := Nat.mod_lt a hb
  have hs : (a / b + 1) * b = a / b * b + b := Nat.succ_mul _ _
  simp only [roundQuotient]
  split_ifs with h₁ h₂
  · omega
  · omega
  · obtain hp | hp : a / b % 2 = 0 ∨ a / b % 2 = 1 := by omega
    · rw [hp, Nat.add_zero]
      omega
    · rw [hp]
      omega

namespace Binary64

/-- How many times the least positive value one is. -/
def unitsOfOne : Nat := 2 ^ (-leastExponent).toNat

theorem unitsOfOne_pos : 0 < unitsOfOne := Nat.pow_pos (by decide)

theorem unitsOfOne_cast : (unitsOfOne : ℚ) = 2 ^ (-leastExponent) := by
  unfold unitsOfOne
  rw [Nat.cast_pow, Nat.cast_ofNat, ← zpow_natCast, Int.toNat_of_nonneg (by decide)]

/-- How many times the least positive value the value of some bits is. -/
def units (bits : Nat) : Nat :=
  if bits < 2 ^ 52 then bits else (2 ^ 52 + bits % 2 ^ 52) * 2 ^ (bits / 2 ^ 52 - 1)

@[simp]
theorem units_zero : units 0 = 0 := rfl

@[simp]
theorem nearestBits_zero (den : Nat) : nearestBits 0 den = 0 := if_pos rfl

/-- A significand and the exponent that goes with it. A significand that is rounded up to the next
power of two counts in the exponent. -/
theorem units_add (i : Nat) {r : Nat} (hr : r ≤ 2 ^ 53) (h : 2 ^ 52 ≤ r ∨ i = 0) :
    units (i * 2 ^ 52 + r) = r * 2 ^ i := by
  unfold units
  by_cases hs : r < 2 ^ 52
  · obtain rfl : i = 0 := by omega
    rw [if_pos (by omega)]
    simp
  · rw [if_neg (by omega)]
    by_cases hc : r = 2 ^ 53
    · have hm : (i * 2 ^ 52 + r) % 2 ^ 52 = 0 := by omega
      have hd : (i * 2 ^ 52 + r) / 2 ^ 52 - 1 = i + 1 := by omega
      rw [hm, hd, hc]
      ring
    · have hm : (i * 2 ^ 52 + r) % 2 ^ 52 = r - 2 ^ 52 := by omega
      have hd : (i * 2 ^ 52 + r) / 2 ^ 52 - 1 = i := by omega
      rw [hm, hd, Nat.add_sub_of_le (by omega)]

/-- Every magnitude is a significand and an exponent. -/
theorem exists_units (bits : Nat) :
    ∃ i r, bits = i * 2 ^ 52 + r ∧ r < 2 ^ 53 ∧ (2 ^ 52 ≤ r ∨ i = 0) ∧
      units bits = r * 2 ^ i := by
  by_cases h : bits < 2 ^ 52
  · refine ⟨0, bits, by omega, by omega, .inr rfl, ?_⟩
    unfold units
    rw [if_pos h]
    simp
  · refine ⟨bits / 2 ^ 52 - 1, 2 ^ 52 + bits % 2 ^ 52, by omega, by omega, .inl (by omega), ?_⟩
    unfold units
    rw [if_neg h]

theorem scaled_pos (num : Nat) {den : Nat} (hd : 0 < den) (e : Int) :
    0 < (scaled num den e).2 :=
  Nat.mul_pos hd (Nat.pow_pos (by decide))

/-- Scaling multiplies a quotient by a power of two. -/
theorem scaled_ratio (num den : Nat) (e : Int) :
    ((scaled num den e).1 : ℚ) / (scaled num den e).2 = num / den * 2 ^ e := by
  simp only [scaled, Nat.pow_eq, Nat.cast_mul, Nat.cast_pow, Nat.cast_ofNat]
  obtain ⟨k, rfl | rfl⟩ := Int.eq_nat_or_neg e
  · simp only [Int.toNat_natCast, Int.toNat_neg_natCast, pow_zero, mul_one, zpow_natCast]
    ring
  · simp only [Int.toNat_natCast, Int.toNat_neg_natCast, pow_zero, mul_one, neg_neg, zpow_neg,
      zpow_natCast]
    field_simp

/-- The order of a quotient is its binary logarithm. -/
theorem binaryOrder_spec {num den : Nat} (hn : 0 < num) (hd : 0 < den) :
    (2 : ℚ) ^ binaryOrder num den ≤ num / den ∧
      (num : ℚ) / den < 2 ^ (binaryOrder num den + 1) := by
  have hd' : (0 : ℚ) < den := by exact_mod_cast hd
  have hn₁ : (2 : ℚ) ^ num.log2 ≤ num := by exact_mod_cast Nat.log2_self_le (by omega)
  have hn₂ : (num : ℚ) < 2 ^ (num.log2 + 1) := by exact_mod_cast Nat.lt_log2_self
  have hd₁ : (2 : ℚ) ^ den.log2 ≤ den := by exact_mod_cast Nat.log2_self_le (by omega)
  have hd₂ : (den : ℚ) < 2 ^ (den.log2 + 1) := by exact_mod_cast Nat.lt_log2_self
  generalize hg : (num.log2 : Int) - den.log2 = g
  -- the guess from the lengths of the two sides is the order or the one above it
  have hlow : (2 : ℚ) ^ (g - 1) ≤ num / den := by
    rw [le_div_iff₀ hd', ← hg]
    calc (2 : ℚ) ^ ((num.log2 : Int) - den.log2 - 1) * den
        ≤ 2 ^ ((num.log2 : Int) - den.log2 - 1) * 2 ^ (den.log2 + 1) := by gcongr
      _ = 2 ^ num.log2 := by
        rw [← zpow_natCast, ← zpow_natCast, ← zpow_add₀ (by norm_num)]
        congr 1
        push_cast
        ring
      _ ≤ num := hn₁
  have hhigh : (num : ℚ) / den < 2 ^ (g + 1) := by
    rw [div_lt_iff₀ hd', ← hg]
    calc (num : ℚ) < 2 ^ (num.log2 + 1) := hn₂
      _ = 2 ^ ((num.log2 : Int) - den.log2 + 1) * 2 ^ den.log2 := by
        rw [← zpow_natCast, ← zpow_natCast, ← zpow_add₀ (by norm_num)]
        congr 1
        push_cast
        ring
      _ ≤ 2 ^ ((num.log2 : Int) - den.log2 + 1) * den := by gcongr
  have hs : (0 : ℚ) < (scaled num den (-g)).2 := by exact_mod_cast scaled_pos num hd (-g)
  have hle : (scaled num den (-g)).2 ≤ (scaled num den (-g)).1 ↔ (2 : ℚ) ^ g ≤ num / den := by
    have h := scaled_ratio num den (-g)
    rw [zpow_neg, ← div_eq_mul_inv] at h
    rw [← Nat.cast_le (α := ℚ), ← one_le_div hs, h, one_le_div (by positivity)]
  simp only [binaryOrder, hg, hle]
  split_ifs with h
  · exact ⟨h, hhigh⟩
  · rw [sub_add_cancel]
    exact ⟨hlow, lt_of_not_ge h⟩

/-- A significand has at most 53 bits, or is the next power of two. -/
theorem roundQuotient_le_two_pow {a den i : Nat} (hd : 0 < den) (h : a < den * 2 ^ (i + 53)) :
    roundQuotient a (den * 2 ^ i) ≤ 2 ^ 53 := by
  have hp : 0 < den * 2 ^ i := Nat.mul_pos hd (Nat.pow_pos (by decide))
  rw [← roundQuotient_one (2 ^ 53)]
  apply roundQuotient_mono hp Nat.one_pos
  calc a * 1 ≤ den * 2 ^ (i + 53) := by omega
    _ = 2 ^ 53 * (den * 2 ^ i) := by ring

/-- At an exponent that is not the least one a significand has all its bits. -/
theorem two_pow_le_roundQuotient {a den i : Nat} (hd : 0 < den)
    (h : i = 0 ∨ den * 2 ^ (i + 52) ≤ a) : 2 ^ 52 ≤ roundQuotient a (den * 2 ^ i) ∨ i = 0 := by
  obtain rfl | h := h
  · exact .inr rfl
  · left
    have hp : 0 < den * 2 ^ i := Nat.mul_pos hd (Nat.pow_pos (by decide))
    rw [← roundQuotient_one (2 ^ 52)]
    apply roundQuotient_mono Nat.one_pos hp
    calc 2 ^ 52 * (den * 2 ^ i) = den * 2 ^ (i + 52) := by ring
      _ ≤ a * 1 := by omega

/-- The nearest value is a significand that is rounded at some exponent: the least one, or the one
at which it has all its bits. -/
theorem nearestBits_spec (num : Nat) {den : Nat} (hd : 0 < den) :
    ∃ i, nearestBits num den = i * 2 ^ 52 + roundQuotient (num * unitsOfOne) (den * 2 ^ i) ∧
      num * unitsOfOne < den * 2 ^ (i + 53) ∧ (i = 0 ∨ den * 2 ^ (i + 52) ≤ num * unitsOfOne) := by
  by_cases hn : num = 0
  · refine ⟨0, ?_, ?_, .inl rfl⟩
    · simp [hn, roundQuotient_zero]
    · simp [hn, hd]
  obtain ⟨hlow, hhigh⟩ := binaryOrder_spec (Nat.pos_of_ne_zero hn) hd
  have hd' : (0 : ℚ) < den := by exact_mod_cast hd
  generalize ho : binaryOrder num den = o at hlow hhigh
  generalize he : max (o - 52) leastExponent = e
  obtain ⟨i, hi⟩ : ∃ i : Nat, (i : Int) = e + -leastExponent :=
    ⟨(e + -leastExponent).toNat, by omega⟩
  -- the quotient in units of the last place of a value at this exponent
  have hlast : (num * unitsOfOne : ℚ) = num / den * 2 ^ (-e) * (den * 2 ^ i) := by
    have h : (2 : ℚ) ^ (-e) * 2 ^ i = unitsOfOne := by
      rw [← zpow_natCast, ← zpow_add₀ (by norm_num), unitsOfOne_cast, hi,
        neg_add_cancel_left]
    rw [← h]
    field_simp
  refine ⟨i, ?_, ?_, ?_⟩
  · have hs := scaled_pos num hd (-e)
    have hs' : (0 : ℚ) < (scaled num den (-e)).2 := by exact_mod_cast hs
    have hi' : (e - leastExponent).toNat = i := by omega
    simp only [nearestBits, if_neg hn, ho, he, hi', Nat.pow_eq]
    refine congrArg (i * 2 ^ 52 + ·) ?_
    apply roundQuotient_congr hs (Nat.mul_pos hd (Nat.pow_pos (by decide)))
    have h := scaled_ratio num den (-e)
    rw [div_eq_iff hs'.ne'] at h
    rw [← Nat.cast_inj (R := ℚ)]
    push_cast
    rw [hlast, h]
    ring
  · rw [← Nat.cast_lt (α := ℚ)]
    push_cast
    have hb : (num : ℚ) / den * 2 ^ (-e) < 2 ^ 53 := by
      rw [zpow_neg, ← div_eq_mul_inv, div_lt_iff₀ (by positivity)]
      refine lt_of_lt_of_le hhigh ?_
      rw [← zpow_natCast, ← zpow_add₀ (by norm_num)]
      apply zpow_le_zpow_right₀ (by norm_num)
      push_cast
      omega
    calc (num * unitsOfOne : ℚ) = num / den * 2 ^ (-e) * (den * 2 ^ i) := hlast
      _ < 2 ^ 53 * (den * 2 ^ i) := by gcongr
      _ = den * 2 ^ (i + 53) := by ring
  · by_cases hz : i = 0
    · exact .inl hz
    · right
      rw [← Nat.cast_le (α := ℚ)]
      push_cast
      have hb : (2 : ℚ) ^ 52 ≤ num / den * 2 ^ (-e) := by
        rw [zpow_neg, ← div_eq_mul_inv, le_div_iff₀ (by positivity)]
        refine le_trans (le_of_eq ?_) hlow
        rw [← zpow_natCast, ← zpow_add₀ (by norm_num)]
        congr 1
        push_cast
        omega
      calc (den : ℚ) * 2 ^ (i + 52) = 2 ^ 52 * (den * 2 ^ i) := by ring
        _ ≤ num / den * 2 ^ (-e) * (den * 2 ^ i) := by gcongr
        _ = num * unitsOfOne := hlast.symm

/-- The value of the nearest bits is the rounded significand at its exponent. -/
theorem units_nearestBits (num : Nat) {den : Nat} (hd : 0 < den) :
    ∃ i, units (nearestBits num den) =
        roundQuotient (num * unitsOfOne) (den * 2 ^ i) * 2 ^ i ∧
      num * unitsOfOne < den * 2 ^ (i + 53) ∧ (i = 0 ∨ den * 2 ^ (i + 52) ≤ num * unitsOfOne) := by
  obtain ⟨i, hb, hr, hi⟩ := nearestBits_spec num hd
  refine ⟨i, ?_, hr, hi⟩
  rw [hb]
  exact units_add i (roundQuotient_le_two_pow hd hr) (two_pow_le_roundQuotient hd hi)

/-- The nearest value is monotone in the quotient. -/
theorem nearestBits_mono {a b c d : Nat} (hb : 0 < b) (hd : 0 < d) (h : a * d ≤ c * b) :
    nearestBits a b ≤ nearestBits c d := by
  obtain ⟨i, hi, hir, hil⟩ := nearestBits_spec a hb
  obtain ⟨j, hj, hjr, hjl⟩ := nearestBits_spec c hd
  have hr := roundQuotient_le_two_pow hb hir
  rw [hi, hj]
  obtain hlt | rfl | hlt := Nat.lt_trichotomy i j
  · -- the larger quotient has the larger exponent
    obtain hs | h0 := two_pow_le_roundQuotient hd hjl
    · have hle : (i + 1) * 2 ^ 52 ≤ j * 2 ^ 52 := Nat.mul_le_mul_right _ hlt
      omega
    · omega
  · apply Nat.add_le_add_left
    have hp : 0 < 2 ^ i := Nat.two_pow_pos i
    apply roundQuotient_mono (Nat.mul_pos hb hp) (Nat.mul_pos hd hp)
    calc a * unitsOfOne * (d * 2 ^ i) = a * d * (unitsOfOne * 2 ^ i) := by ring
      _ ≤ c * b * (unitsOfOne * 2 ^ i) := Nat.mul_le_mul_right _ h
      _ = c * unitsOfOne * (b * 2 ^ i) := by ring
  · have hil : b * 2 ^ (i + 52) ≤ a * unitsOfOne := by
      obtain h0 | hil := hil
      · omega
      · exact hil
    have hpow : 2 ^ (j + 53) ≤ 2 ^ (i + 52) := Nat.pow_le_pow_right (by decide) (by omega)
    have hlt : b * (c * unitsOfOne) < b * (c * unitsOfOne) := by
      calc b * (c * unitsOfOne) < b * (d * 2 ^ (j + 53)) := Nat.mul_lt_mul_of_pos_left hjr hb
        _ ≤ b * (d * 2 ^ (i + 52)) := by gcongr
        _ = d * (b * 2 ^ (i + 52)) := by ring
        _ ≤ d * (a * unitsOfOne) := by gcongr
        _ = a * d * unitsOfOne := by ring
        _ ≤ c * b * unitsOfOne := Nat.mul_le_mul_right _ h
        _ = b * (c * unitsOfOne) := by ring
    exact absurd hlt (Nat.lt_irrefl _)

theorem nearestBits_natCast_mono {k l : Nat} (h : k ≤ l) : nearestBits k 1 ≤ nearestBits l 1 :=
  nearestBits_mono Nat.one_pos Nat.one_pos (Nat.mul_le_mul_right 1 h)

theorem nearestBits_congr {a b c d : Nat} (hb : 0 < b) (hd : 0 < d) (h : a * d = c * b) :
    nearestBits a b = nearestBits c d :=
  Nat.le_antisymm (nearestBits_mono hb hd h.le) (nearestBits_mono hd hb h.ge)

/-- A quotient that is a binary64 value is its own nearest value. -/
theorem nearestBits_units (bits : Nat) : nearestBits (units bits) unitsOfOne = bits := by
  obtain ⟨i, r, hb, hr, hi, hu⟩ := exists_units bits
  obtain ⟨j, hj, hjr, hjl⟩ := nearestBits_spec (units bits) unitsOfOne_pos
  have hlt : r * 2 ^ i < 2 ^ (j + 53) := by
    rw [hu, Nat.mul_comm] at hjr
    exact Nat.lt_of_mul_lt_mul_left hjr
  have hle : j = 0 ∨ 2 ^ (j + 52) ≤ r * 2 ^ i := by
    refine hjl.imp_right fun h => ?_
    rw [hu, Nat.mul_comm (r * 2 ^ i)] at h
    exact Nat.le_of_mul_le_mul_left h unitsOfOne_pos
  have hij : j = i := by
    by_contra hne
    obtain h | h : i < j ∨ j < i := by omega
    · have hpow : 2 ^ (i + 53) ≤ 2 ^ (j + 52) := Nat.pow_le_pow_right (by decide) (by omega)
      have hr' : r * 2 ^ i < 2 ^ 53 * 2 ^ i := Nat.mul_lt_mul_of_pos_right hr (Nat.two_pow_pos i)
      rw [← Nat.pow_add, Nat.add_comm 53] at hr'
      omega
    · have hpow : 2 ^ (j + 53) ≤ 2 ^ (i + 52) := Nat.pow_le_pow_right (by decide) (by omega)
      have hr' : 2 ^ 52 * 2 ^ i ≤ r * 2 ^ i := Nat.mul_le_mul_right _ (by omega)
      rw [← Nat.pow_add, Nat.add_comm 52] at hr'
      omega
  subst hij
  have hq : roundQuotient (r * 2 ^ j * unitsOfOne) (unitsOfOne * 2 ^ j) = r := by
    rw [← roundQuotient_one r]
    apply roundQuotient_congr (Nat.mul_pos unitsOfOne_pos (Nat.two_pow_pos j)) Nat.one_pos
    rw [roundQuotient_one]
    ring
  rw [hj, hu, hq]
  exact hb.symm

theorem units_le_units {a b : Nat} (h : a ≤ b) : units a ≤ units b := by
  by_contra hn
  have hle : b ≤ a := by
    rw [← nearestBits_units a, ← nearestBits_units b]
    apply nearestBits_mono unitsOfOne_pos unitsOfOne_pos
    exact Nat.mul_le_mul_right _ (by omega)
  obtain rfl : a = b := by omega
  exact hn (Nat.le_refl _)

/-- A whole number of few significant bits is a binary64 value. -/
theorem units_nearestBits_scaled {m : Nat} (hm : m < 2 ^ 53) (t : Nat) :
    units (nearestBits (m * 2 ^ t) 1) = m * 2 ^ t * unitsOfOne := by
  obtain ⟨i, hu, -, hi⟩ := units_nearestBits (m * 2 ^ t) Nat.one_pos
  rw [Nat.one_mul] at hu
  have hdvd : 2 ^ i ∣ m * 2 ^ t * unitsOfOne := by
    obtain rfl | hi := hi
    · exact one_dvd _
    · have hlt : 2 ^ (i + 52) < 2 ^ (53 + t + (-leastExponent).toNat) := by
        calc 2 ^ (i + 52) ≤ m * 2 ^ t * unitsOfOne := by omega
          _ < 2 ^ 53 * 2 ^ t * unitsOfOne := by
            have ht := Nat.mul_pos (Nat.two_pow_pos t) unitsOfOne_pos
            rw [Nat.mul_assoc, Nat.mul_assoc]
            exact Nat.mul_lt_mul_of_pos_right hm ht
          _ = 2 ^ (53 + t + (-leastExponent).toNat) := by
            rw [unitsOfOne, ← Nat.pow_add, ← Nat.pow_add]
      have hle := (Nat.pow_lt_pow_iff_right (by decide)).1 hlt
      rw [Nat.mul_assoc, unitsOfOne, ← Nat.pow_add]
      exact (Nat.pow_dvd_pow 2 (by omega)).mul_left m
  obtain ⟨q, hq⟩ := hdvd
  rw [hu, hq]
  have hr : roundQuotient (2 ^ i * q) (2 ^ i) = q := by
    rw [← roundQuotient_one q]
    apply roundQuotient_congr (Nat.two_pow_pos i) Nat.one_pos
    rw [roundQuotient_one]
    ring
  rw [hr, Nat.mul_comm]

/-- Integers up to `2 ^ 53` are binary64 values. -/
theorem units_nearestBits_natCast {n : Nat} (hn : n ≤ 2 ^ 53) :
    units (nearestBits n 1) = n * unitsOfOne := by
  by_cases h : n = 2 ^ 53
  · have h' := units_nearestBits_scaled (show 1 < 2 ^ 53 by decide) 53
    rw [Nat.one_mul] at h'
    rw [h]
    exact h'
  · have h' := units_nearestBits_scaled (show n < 2 ^ 53 by omega) 0
    rw [Nat.pow_zero, Nat.mul_one] at h'
    exact h'

/-- The value nearest to a quotient that is no subnormal value is too small by at most one part in
`2 ^ 53`. -/
theorem units_nearestBits_ge {num den : Nat} (hd : 0 < den)
    (h : den * 2 ^ 52 ≤ num * unitsOfOne) :
    (2 ^ 53 - 1) * (num * unitsOfOne) ≤ 2 ^ 53 * (units (nearestBits num den) * den) := by
  obtain ⟨i, hu, -, hi⟩ := units_nearestBits num hd
  have hlast : den * 2 ^ (i + 52) ≤ num * unitsOfOne := by
    obtain rfl | hi := hi
    · exact h
    · exact hi
  have hclose := (roundQuotient_close (num * unitsOfOne) (Nat.mul_pos hd (Nat.two_pow_pos i))).1
  rw [hu]
  have hp : den * 2 ^ (i + 52) = 2 ^ 52 * (den * 2 ^ i) := by ring
  have hr : roundQuotient (num * unitsOfOne) (den * 2 ^ i) * 2 ^ i * den =
      roundQuotient (num * unitsOfOne) (den * 2 ^ i) * (den * 2 ^ i) := by ring
  rw [hr]
  omega

end Binary64
end Turmite
