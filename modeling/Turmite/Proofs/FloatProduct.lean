import Mathlib
import Turmite.Proofs.NearestValue

/-!
# Products of binary64 values

The product of two values that are not negative is the value nearest to the exact product, or an
infinity where this is too large. Values are unpacked into a significand at an exponent, the
significands are multiplied, and what is shifted out of the result is kept in two bits: the first of
the bits that fall away, and whether any other does. They tell how to round.
-/

namespace Turmite.Binary64

open Float.Model
open Float.Model.UnpackedFloat

/-- A magnitude, unpacked into a significand at an exponent. -/
def unpacked (i r : Nat) : UnpackedFloat :=
  if h : r = 0 then .zero .positive
  else .finite .positive r (i + leastExponent) (Nat.pos_of_ne_zero h)

/-- The two bits tell a rest that is less than a half, a half or more, and zero. -/
theorem shiftRight_exact (m k : Nat) :
    ExtendedMantissa.ofMantissaAndAccuracy m .exact >>> k =
      ⟨m / 2 ^ k, decide (2 ^ k ≤ 2 * (m % 2 ^ k)), decide (2 * (m % 2 ^ k) % 2 ^ k ≠ 0)⟩ := by
  change Nat.repeat ExtendedMantissa.shiftRightOne k _ = _
  induction k with
  | zero => simp [Nat.repeat, ExtendedMantissa.ofMantissaAndAccuracy, Nat.mod_one]
  | succ k ih =>
    rw [Nat.repeat, ih]
    have hp : 0 < 2 ^ k := Nat.two_pow_pos k
    have hlt : m % 2 ^ k < 2 ^ k := Nat.mod_lt _ hp
    have hsplit : m % 2 ^ (k + 1) = m % 2 ^ k + 2 ^ k * (m / 2 ^ k % 2) := by
      rw [Nat.pow_succ, Nat.mod_mul]
    have hpow : 2 ^ (k + 1) = 2 * 2 ^ k := by ring
    have hdouble : 2 * (m % 2 ^ (k + 1)) % 2 ^ (k + 1) = 2 * (m % 2 ^ k) := by
      rw [hpow, Nat.mul_mod_mul_left, ← hpow, Nat.mod_mod_of_dvd _ (Nat.pow_dvd_pow 2 (by omega))]
    simp only [ExtendedMantissa.shiftRightOne]
    rw [hdouble, hsplit, hpow]
    congr 1
    · rw [Nat.div_div_eq_div_mul, Nat.mul_comm]
    · obtain hb | hb : m / 2 ^ k % 2 = 0 ∨ m / 2 ^ k % 2 = 1 := by omega
      · simp only [hb]
        simp
        omega
      · simp [hb]
    · have hr : 2 * (m % 2 ^ k) % 2 ^ k ≠ 0 ∨ 2 ^ k ≤ 2 * (m % 2 ^ k) ↔
          2 * (m % 2 ^ k) ≠ 0 := by
        by_cases h : 2 ^ k ≤ 2 * (m % 2 ^ k)
        · have := hp
          constructor
          · omega
          · exact fun _ => .inr h
        · rw [Nat.mod_eq_of_lt (by omega)]
          omega
      rw [← Bool.decide_or]
      simp only [decide_eq_decide]
      rw [or_comm, hr]

/-- Shifting out bits and rounding is rounding the quotient. -/
theorem roundedMantissa_shiftRight (m k : Nat) :
    (ExtendedMantissa.ofMantissaAndAccuracy m .exact >>> k).roundedMantissa =
      roundQuotient m (2 ^ k) := by
  have hlt : m % 2 ^ k < 2 ^ k := Nat.mod_lt _ (Nat.two_pow_pos k)
  rw [shiftRight_exact]
  simp only [ExtendedMantissa.roundedMantissa, roundQuotient]
  by_cases h₁ : 2 * (m % 2 ^ k) < 2 ^ k
  · by_cases h₂ : m % 2 ^ k = 0
    · simp [h₂, ExtendedMantissa.accuracy, Accuracy.roundToNearestEven]
    · have hm : 2 * (m % 2 ^ k) % 2 ^ k ≠ 0 := by
        rw [Nat.mod_eq_of_lt h₁]
        omega
      rw [decide_eq_false (by omega), decide_eq_true hm, if_pos h₁]
      rfl
  · rw [decide_eq_true (by omega), if_neg h₁]
    by_cases h₂ : 2 ^ k < 2 * (m % 2 ^ k)
    · have hm : 2 * (m % 2 ^ k) % 2 ^ k ≠ 0 := by
        rw [Nat.mod_eq_sub_mod (by omega), Nat.mod_eq_of_lt (by omega)]
        omega
      rw [decide_eq_true hm, if_pos h₂]
      rfl
    · have hm : ¬2 * (m % 2 ^ k) % 2 ^ k ≠ 0 := by
        rw [show 2 * (m % 2 ^ k) = 2 ^ k by omega, Nat.mod_self]
        exact not_not_intro rfl
      rw [decide_eq_false hm, if_neg h₂]
      rfl

/-- The exponent at which a significand is kept. -/
theorem targetExponent_eq (m : Nat) (e : Int) :
    Format.binary64.targetExponent (totalExponent m e) = max (m.log2 + e - 52) leastExponent := by
  simp only [Format.targetExponent, totalExponent, Format.mantissaBits, Format.minExponent,
    leastExponent]
  norm_num
  omega

/-- A significand that is kept at its exponent, or is rounded up to a power of two. -/
theorem shiftToTargetExponent_eq (i : Nat) {r : Nat} (hr : r ≤ 2 ^ 53) :
    shiftToTargetExponent .binary64 r (i + leastExponent) .exact =
      if r = 2 ^ 53 then (⟨2 ^ 52, false, false⟩, (i + 1 : Nat) + leastExponent)
      else (⟨r, false, false⟩, i + leastExponent) := by
  unfold shiftToTargetExponent shiftToExponent
  simp only [targetExponent_eq]
  split_ifs with h
  · have hs : (max ((r.log2 : Int) + (i + leastExponent) - 52) leastExponent -
        (i + leastExponent)).toNat = 1 := by
      rw [h, Nat.log2_two_pow]
      omega
    rw [hs, shiftRight_exact, h]
    simp
    omega
  · have hlog : r.log2 ≤ 52 := by
      by_cases h0 : r = 0
      · simp [h0]
      · have hl := (Nat.log2_lt h0).2 (show r < 2 ^ 53 by omega)
        omega
    have hs : (max ((r.log2 : Int) + (i + leastExponent) - 52) leastExponent -
        (i + leastExponent)).toNat = 0 := by omega
    rw [hs, shiftRight_exact]
    simp [Nat.mod_one]

/-- Rounding at an exponent that no bit is missing for. -/
theorem roundWithAccuracy_eq {i s m : Nat} (hs : s ≤ i + (-leastExponent).toNat)
    (hr : roundQuotient m (2 ^ (i + (-leastExponent).toNat - s)) ≤ 2 ^ 53)
    (hi : (i : Int) = max ((m.log2 : Int) + s + leastExponent - 52) 0) :
    let r := roundQuotient m (2 ^ (i + (-leastExponent).toNat - s))
    roundWithAccuracy .binary64 .positive m (s + leastExponent + leastExponent) .exact =
      if r = 2 ^ 53 then unpacked (i + 1) (2 ^ 52) else unpacked i r := by
  intro r
  have hfirst : shiftToTargetExponent .binary64 m (s + leastExponent + leastExponent) .exact =
      (ExtendedMantissa.ofMantissaAndAccuracy m .exact >>> (i + (-leastExponent).toNat - s),
        i + leastExponent) := by
    unfold shiftToTargetExponent shiftToExponent
    simp only [targetExponent_eq]
    have hk : (max ((m.log2 : Int) + (s + leastExponent + leastExponent) - 52) leastExponent -
        (s + leastExponent + leastExponent)).toNat = i + (-leastExponent).toNat - s := by
      unfold leastExponent at *
      omega
    rw [hk]
    congr 1
    unfold leastExponent at *
    omega
  have hsecond := shiftToTargetExponent_eq i hr
  unfold roundWithAccuracy unpacked
  by_cases h : r = 2 ^ 53
  · rw [if_pos h] at hsecond
    simp only [hfirst, roundedMantissa_shiftRight, hsecond, if_pos h]
  · rw [if_neg h] at hsecond
    simp only [hfirst, roundedMantissa_shiftRight, hsecond, if_neg h]
    rfl

theorem toNat_packComponents (e : BitVec 11) (m : BitVec 52) :
    (packComponents .binary64 .positive e m).toNat = e.toNat * 2 ^ 52 + m.toNat := by
  have h : (Sign.positive.toBitVec ++ e ++ m).toNat = e.toNat * 2 ^ 52 + m.toNat := by
    rw [BitVec.toNat_append, BitVec.toNat_append, ← Nat.shiftLeft_add_eq_or_of_lt m.isLt]
    simp [Nat.shiftLeft_eq, Sign.toBitVec]
  exact h

/-- Packing gives the bits back, or the ones of infinity. -/
theorem toNat_pack {i r : Nat} (hr : r < 2 ^ 53) (hi : 2 ^ 52 ≤ r ∨ i = 0) :
    (UnpackedFloat.pack .binary64 (unpacked i r)).toNat = min infinityBits (i * 2 ^ 52 + r) := by
  unfold unpacked infinityBits
  split_ifs with h0
  · obtain rfl : i = 0 := by omega
    subst h0
    rfl
  · have hb : ((i : Int) + leastExponent + Format.binary64.exponentBias +
        Format.binary64.mantissaBitsWithoutImplicit).toNat = i + 1 := by
      show ((i : Int) + -1074 + 1023 + 52).toNat = i + 1
      omega
    have hbits : Format.binary64.mantissaBits = 53 := rfl
    have hexp : 2 ^ Format.binary64.exponentBits = 2048 := rfl
    simp only [UnpackedFloat.pack]
    rw [hb, hbits, hexp]
    split_ifs with h₁ h₂
    · show 0x7FF0000000000000 = _
      omega
    · have hle : 2 ^ 52 ≤ r := by
        rw [← show r.log2 = 52 by omega]
        exact Nat.log2_self_le h0
      rw [toNat_packComponents, BitVec.toNat_ofNat, BitVec.toNat_ofNat]
      omega
    · have hlt : r < 2 ^ 52 := by
        by_contra hn
        have hle : r.log2 = 52 := (Nat.log2_eq_iff h0).2 ⟨by omega, hr⟩
        omega
      rw [toNat_packComponents, BitVec.toNat_ofNat, BitVec.toNat_ofNat]
      omega

/-- The bits of a magnitude are unpacked into its significand and exponent. -/
theorem unpack_magnitude {b : BitVec Format.binary64.numBits} {i r : Nat} (hr : r < 2 ^ 53)
    (hi : 2 ^ 52 ≤ r ∨ i = 0) (hn : b.toNat = i * 2 ^ 52 + r) (hb : b.toNat < infinityBits) :
    UnpackedFloat.unpack .binary64 b = unpacked i r := by
  unfold infinityBits at hb
  have hm : (unpackMantissa b).toNat = b.toNat % 2 ^ 52 := by
    unfold unpackMantissa
    rw [BitVec.toNat_cast, BitVec.extractLsb_toNat]
    rfl
  have he : (unpackExponent b).toNat = b.toNat / 2 ^ 52 := by
    unfold unpackExponent
    rw [BitVec.toNat_cast, BitVec.extractLsb_toNat, Nat.shiftRight_eq_div_pow]
    show b.toNat / 2 ^ 52 % 2 ^ 11 = _
    omega
  have hs : Sign.ofBitVec (unpackSign b) = .positive := by
    have h : unpackSign b = 0#1 := by
      apply BitVec.eq_of_toNat_eq
      unfold unpackSign
      rw [BitVec.toNat_cast, BitVec.extractLsb_toNat, Nat.shiftRight_eq_div_pow]
      show b.toNat / 2 ^ 63 % 2 ^ 1 = 0
      omega
    rw [h]
    rfl
  have hall : unpackExponent b ≠ -BitVec.ofNat Format.binary64.exponentBits 1 := by
    intro h
    have ht := congrArg BitVec.toNat h
    rw [he] at ht
    have hone : (-BitVec.ofNat Format.binary64.exponentBits 1).toNat = 2047 := rfl
    omega
  have hbias : Format.binary64.exponentBias = 1023 := rfl
  simp only [UnpackedFloat.unpack, if_neg hall, hs, hbias]
  unfold unpacked leastExponent
  by_cases h : r < 2 ^ 52
  · obtain rfl : i = 0 := by omega
    have hz : unpackExponent b = BitVec.ofNat Format.binary64.exponentBits 0 := by
      apply BitVec.eq_of_toNat_eq
      rw [he]
      show _ = 0
      omega
    rw [if_pos hz]
    by_cases h0 : r = 0
    · have hmz : unpackMantissa b = BitVec.ofNat Format.binary64.mantissaBitsWithoutImplicit 0 := by
        apply BitVec.eq_of_toNat_eq
        rw [hm]
        show _ = 0
        omega
      rw [dif_pos hmz, dif_pos h0]
    · have hmz : unpackMantissa b ≠ BitVec.ofNat Format.binary64.mantissaBitsWithoutImplicit 0 := by
        intro hz
        have ht : (unpackMantissa b).toNat = 0 := congrArg BitVec.toNat hz
        omega
      rw [dif_neg hmz, dif_neg h0]
      simp only [UnpackedFloat.finite.injEq, true_and]
      rw [hz, hm]
      show _ ∧ (((0 : Nat) : Int) - (1023 + 52) + 1 = ((0 : Nat) : Int) + -1074)
      omega
  · have hz : unpackExponent b ≠ BitVec.ofNat Format.binary64.exponentBits 0 := by
      intro hz
      have ht : (unpackExponent b).toNat = 0 := congrArg BitVec.toNat hz
      omega
    rw [if_neg hz, dif_neg (by omega)]
    have happ : (1#1 ++ unpackMantissa b).toNat = 2 ^ 52 + (unpackMantissa b).toNat := by
      rw [BitVec.toNat_append, ← Nat.shiftLeft_add_eq_or_of_lt (unpackMantissa b).isLt]
      rfl
    simp only [UnpackedFloat.finite.injEq, true_and]
    rw [happ, hm, he]
    show _ ∧ (((b.toNat / 2 ^ 52 : Nat) : Int) - (1023 + 52) = (i : Int) + -1074)
    omega

theorem unpack_toModel {x : Float} {i r : Nat} (hr : r < 2 ^ 53) (hi : 2 ^ 52 ≤ r ∨ i = 0)
    (hx : x.toBits.toNat = i * 2 ^ 52 + r) (hb : i * 2 ^ 52 + r < infinityBits) :
    x.toModel.unpack = unpacked i r := by
  have hx' : x.toModel.toBits.toBitVec.toNat = i * 2 ^ 52 + r := hx
  exact unpack_magnitude hr hi hx' (by omega)

/-- A float keeps the bits it is made of. -/
theorem toNat_toBits_ofBits {b : Nat} (hb : b < infinityBits) :
    (ofBits false b).toBits.toNat = b := by
  obtain ⟨i, r, hbits, hr, hi, -⟩ := exists_units b
  have hn : (UInt64.ofNat (0 + b)).toBitVec.toNat = i * 2 ^ 52 + r := by
    show (0 + b) % 2 ^ 64 = _
    unfold infinityBits at hb
    omega
  show (UnpackedFloat.pack .binary64
    (UnpackedFloat.unpack .binary64 (UInt64.ofNat (0 + b)).toBitVec)).toNat = b
  rw [unpack_magnitude hr hi hn (by omega), toNat_pack hr hi]
  omega

/-- A significand times a power of two is rounded at the exponent that its length tells. -/
theorem nearestBits_dyadic {m : Nat} (hm : 0 < m) (s : Nat) :
    ∃ k : Nat, (k : Int) = max ((m.log2 : Int) + s + leastExponent - 52) 0 ∧
      nearestBits (m * 2 ^ s) (unitsOfOne * unitsOfOne) =
        k * 2 ^ 52 +
          roundQuotient (m * 2 ^ s * unitsOfOne) (unitsOfOne * unitsOfOne * 2 ^ k) ∧
      roundQuotient (m * 2 ^ s * unitsOfOne) (unitsOfOne * unitsOfOne * 2 ^ k) ≤ 2 ^ 53 ∧
      (2 ^ 52 ≤ roundQuotient (m * 2 ^ s * unitsOfOne) (unitsOfOne * unitsOfOne * 2 ^ k) ∨
        k = 0) := by
  have hd : 0 < unitsOfOne * unitsOfOne := Nat.mul_pos unitsOfOne_pos unitsOfOne_pos
  obtain ⟨k, hk, hlt, hle⟩ := nearestBits_spec (m * 2 ^ s) hd
  refine ⟨k, ?_, hk, roundQuotient_le_two_pow hd hlt, two_pow_le_roundQuotient hd hle⟩
  have hlow : 2 ^ (m.log2 + s) ≤ m * 2 ^ s := by
    rw [Nat.pow_add]
    exact Nat.mul_le_mul_right _ (Nat.log2_self_le (by omega))
  have hhigh : m * 2 ^ s < 2 ^ (m.log2 + 1 + s) := by
    rw [Nat.pow_add]
    exact Nat.mul_lt_mul_of_pos_right Nat.lt_log2_self (Nat.two_pow_pos s)
  have hupper : 2 ^ (m.log2 + s) < 2 ^ ((-leastExponent).toNat + (k + 53)) := by
    refine Nat.lt_of_le_of_lt hlow ?_
    rw [Nat.pow_add, ← unitsOfOne]
    rw [Nat.mul_comm, Nat.mul_assoc] at hlt
    exact Nat.lt_of_mul_lt_mul_left hlt
  have hupper := (Nat.pow_lt_pow_iff_right (by decide)).1 hupper
  have hL : leastExponent = -((-leastExponent).toNat : Int) := by decide
  obtain rfl | hle := hle
  · omega
  · have hlower : 2 ^ ((-leastExponent).toNat + (k + 52)) < 2 ^ (m.log2 + 1 + s) := by
      refine Nat.lt_of_le_of_lt ?_ hhigh
      rw [Nat.pow_add, ← unitsOfOne]
      rw [Nat.mul_comm (m * 2 ^ s), Nat.mul_assoc] at hle
      exact Nat.le_of_mul_le_mul_left hle unitsOfOne_pos
    have hlower := (Nat.pow_lt_pow_iff_right (by decide)).1 hlower
    omega

/-- Rounding a product of significands at the exponent of the product. -/
theorem toNat_pack_round {m : Nat} (hm : 0 < m) {s : Nat}
    (hs : 52 ≤ m.log2 ∨ s ≤ (-leastExponent).toNat) :
    (UnpackedFloat.pack .binary64 (roundWithAccuracy .binary64 .positive m
      (s + leastExponent + leastExponent) .exact)).toNat =
      min infinityBits (nearestBits (m * 2 ^ s) (unitsOfOne * unitsOfOne)) := by
  obtain ⟨k, hk, hn, hr, hi⟩ := nearestBits_dyadic hm s
  have hL : leastExponent = -((-leastExponent).toNat : Int) := by decide
  have hle : s ≤ k + (-leastExponent).toNat := by omega
  have hq : roundQuotient (m * 2 ^ s * unitsOfOne) (unitsOfOne * unitsOfOne * 2 ^ k) =
      roundQuotient m (2 ^ (k + (-leastExponent).toNat - s)) := by
    have hp : 0 < unitsOfOne * unitsOfOne * 2 ^ k :=
      Nat.mul_pos (Nat.mul_pos unitsOfOne_pos unitsOfOne_pos) (Nat.two_pow_pos k)
    apply roundQuotient_congr hp (Nat.two_pow_pos _)
    have hpow : 2 ^ s * 2 ^ (k + (-leastExponent).toNat - s) = 2 ^ k * unitsOfOne := by
      rw [unitsOfOne, ← Nat.pow_add, ← Nat.pow_add, Nat.add_sub_of_le hle]
    calc m * 2 ^ s * unitsOfOne * 2 ^ (k + (-leastExponent).toNat - s)
        = m * unitsOfOne * (2 ^ s * 2 ^ (k + (-leastExponent).toNat - s)) := by ring
      _ = m * (unitsOfOne * unitsOfOne * 2 ^ k) := by rw [hpow]; ring
  rw [hq] at hn hr hi
  rw [roundWithAccuracy_eq hle hr hk, hn]
  split_ifs with h
  · have hcarry : (k + 1) * 2 ^ 52 + 2 ^ 52 = k * 2 ^ 52 + 2 ^ 53 := by ring
    rw [toNat_pack (by decide) (.inl (Nat.le_refl _)), h, hcarry]
  · exact toNat_pack (by omega) hi

/-- A product is the value nearest to the exact product, up to infinity. -/
theorem toNat_toBits_mul {x y : Float} {a b : Nat} (hx : x.toBits.toNat = a)
    (hy : y.toBits.toNat = b) (ha : a < infinityBits) (hb : b < infinityBits) :
    (x * y).toBits.toNat =
      min infinityBits (nearestBits (units a * units b) (unitsOfOne * unitsOfOne)) := by
  obtain ⟨i, r, hai, hr, hi, hua⟩ := exists_units a
  obtain ⟨j, t, hbj, ht, hj, hub⟩ := exists_units b
  have hux := unpack_toModel hr hi (hx.trans hai) (by omega)
  have huy := unpack_toModel ht hj (hy.trans hbj) (by omega)
  have hmul : (x * y).toBits.toNat = (UnpackedFloat.pack .binary64
      (UnpackedFloat.mul .binary64 x.toModel.unpack y.toModel.unpack)).toNat := rfl
  rw [hmul, hux, huy, hua, hub]
  unfold unpacked
  by_cases hr0 : r = 0
  · have hz : nearestBits (r * 2 ^ i * (t * 2 ^ j)) (unitsOfOne * unitsOfOne) = 0 := by
      simp [hr0]
    rw [hz, dif_pos hr0]
    by_cases ht0 : t = 0
    · rw [dif_pos ht0]
      rfl
    · rw [dif_neg ht0]
      rfl
  · rw [dif_neg hr0]
    by_cases ht0 : t = 0
    · have hz : nearestBits (r * 2 ^ i * (t * 2 ^ j)) (unitsOfOne * unitsOfOne) = 0 := by
        simp [ht0]
      rw [hz, dif_pos ht0]
      rfl
    · rw [dif_neg ht0]
      have hm : 0 < r * t := Nat.mul_pos (Nat.pos_of_ne_zero hr0) (Nat.pos_of_ne_zero ht0)
      have hexp : (i + leastExponent) + (j + leastExponent) =
          ((i + j : Nat) : Int) + leastExponent + leastExponent := by
        push_cast
        ring
      have hunits : r * 2 ^ i * (t * 2 ^ j) = r * t * 2 ^ (i + j) := by ring
      rw [hunits, ← toNat_pack_round hm]
      · simp only [UnpackedFloat.mul, hexp]
        rfl
      · -- a factor that is no subnormal value makes the product long enough
        obtain hlong | rfl := hi
        · left
          exact (Nat.le_log2 (by omega)).2 (le_trans hlong (Nat.le_mul_of_pos_right r (by omega)))
        · obtain hlong | rfl := hj
          · left
            exact (Nat.le_log2 (by omega)).2 (le_trans hlong (Nat.le_mul_of_pos_left t (by omega)))
          · right
            decide

/-- A magnitude is opened into its significand and exponent. -/
theorem ofFloat_eq {x : Float} {i r : Nat} (hr : r < 2 ^ 53) (hi : 2 ^ 52 ≤ r ∨ i = 0)
    (hx : x.toBits.toNat = i * 2 ^ 52 + r) (hb : i * 2 ^ 52 + r < infinityBits) :
    ofFloat x = .finite false r (leastExponent + i) := by
  have hpow : Nat.pow 2 52 = 2 ^ 52 ∧ Nat.pow 2 11 = 2 ^ 11 ∧ signBit = 2 ^ 63 := ⟨rfl, rfl, rfl⟩
  unfold infinityBits at hb
  simp only [ofFloat, hx, hpow]
  have hneg : decide (2 ^ 63 ≤ i * 2 ^ 52 + r) = false := by
    apply decide_eq_false
    omega
  rw [hneg, if_neg (by omega)]
  split_ifs with h
  · obtain rfl : i = 0 := by omega
    simp only [finite.injEq, true_and]
    omega
  · simp only [finite.injEq, true_and]
    omega

/-- Cutting a magnitude to an integer. -/
theorem truncate_eq (i r : Nat) :
    truncate false r (leastExponent + i) = (r * 2 ^ i / unitsOfOne : Nat) := by
  simp only [truncate, unitsOfOne, Nat.pow_eq]
  generalize hs : (-leastExponent).toNat = s
  have hL : leastExponent = -(s : Int) := by
    rw [← hs]
    decide
  rw [hL, if_neg (by decide)]
  congr 1
  by_cases h : i ≤ s
  · have h₁ : (-(s : Int) + i).toNat = 0 := by omega
    have h₂ : (-(-(s : Int) + i)).toNat = s - i := by omega
    have h₃ : 2 ^ s = 2 ^ (s - i) * 2 ^ i := by rw [← Nat.pow_add, Nat.sub_add_cancel h]
    rw [h₁, h₂, h₃, Nat.pow_zero, Nat.mul_one, Nat.mul_div_mul_right _ _ (Nat.two_pow_pos i)]
  · have h₁ : (-(s : Int) + i).toNat = i - s := by omega
    have h₂ : (-(-(s : Int) + i)).toNat = 0 := by omega
    have h₃ : 2 ^ i = 2 ^ (i - s) * 2 ^ s := by rw [← Nat.pow_add, Nat.sub_add_cancel (by omega)]
    rw [h₁, h₂, h₃, Nat.pow_zero, Nat.div_one, ← Nat.mul_assoc,
      Nat.mul_div_cancel _ (Nat.two_pow_pos s)]

/-- The bits of a value, those of zero if it is too large. -/
def held (bits : Nat) : Nat := if bits < infinityBits then bits else 0

theorem held_lt (bits : Nat) : held bits < infinityBits := by
  unfold held
  split
  · assumption
  · decide

@[simp]
theorem held_zero : held 0 = 0 := rfl

theorem held_of_lt {bits : Nat} (h : bits < infinityBits) : held bits = bits := if_pos h

theorem toNat_toBits_ofRatio? (num den : Nat) :
    ((ofRatio? false num den).getD 0.0).toBits.toNat = held (nearestBits num den) := by
  simp only [ofRatio?, held]
  split
  · rename_i h
    exact toNat_toBits_ofBits h
  · rfl

end Turmite.Binary64
