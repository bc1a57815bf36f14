import Turmite.Proofs.Distance
import Turmite.Proofs.NearestValue
import Turmite.Proofs.Success

/-!
# Travel along axes of any size

The travel along an axis is the one of its kind in the window of one size that ends at the half of
the axis, as far as it is known to 53 bits (`delta?_eq_ok_iff`). It is the shortest way exactly if
the window is that of the shortest ways (`isShortest_iff`), hence if the known half has the integer
part of the half. Else it misses by one part in `2 ^ 53` at most (`roundedSize_close`), and the ways
there and back differ (`delta?_isShortest_iff`).
-/

namespace Turmite

/-! ## Half of an axis -/

/-- Rounding to some bits moves a number by the last of them at most. -/
theorem roundSignificant_close (bits n : Nat) :
    2 ^ bits * roundSignificant bits n ≤ 2 ^ bits * n + n ∧
      2 ^ bits * n ≤ 2 ^ bits * roundSignificant bits n + n := by
  unfold roundSignificant
  split_ifs with hshort
  · omega
  rcases Nat.eq_zero_or_pos n with rfl | hn
  · simp [roundQuotient_zero]
  have hunit : 2 ^ bits * Nat.pow 2 (n.log2 + 1 - bits) ≤ 2 * n := by
    have hpow : 2 ^ bits * Nat.pow 2 (n.log2 + 1 - bits) = 2 ^ (n.log2 + 1) := by
      rw [Nat.pow_eq, ← Nat.pow_add]
      congr 1
      omega
    rw [hpow, Nat.pow_succ, Nat.mul_comm]
    exact Nat.mul_le_mul_left 2 (Nat.log2_self_le (Nat.ne_of_gt hn))
  obtain ⟨hlow, hhigh⟩ :=
    roundQuotient_close n (b := Nat.pow 2 (n.log2 + 1 - bits)) (Nat.pow_pos (by decide))
  have hlow := Nat.mul_le_mul_left (2 ^ bits) hlow
  have hhigh := Nat.mul_le_mul_left (2 ^ bits) hhigh
  rw [Nat.mul_add] at hlow hhigh
  constructor <;> nlinarith

theorem roundedSize_close (size : Nat) :
    2 ^ 53 * roundedSize size ≤ 2 ^ 53 * size + size ∧
      2 ^ 53 * size ≤ 2 ^ 53 * roundedSize size + size :=
  roundSignificant_close 53 size

/-- The whole cells in half of an axis, as far as the half is known. -/
def halfSize (size : Nat) : Nat := roundedSize size / 2

theorem halfSize_lt {size : Nat} (hpos : 0 < size) : halfSize size < size := by
  have hclose := (roundedSize_close size).1
  unfold halfSize
  omega

theorem halfSize_of_le {size : Nat} (h : size ≤ Nat.pow 2 53) : halfSize size = size / 2 := by
  unfold halfSize
  rw [roundedSize_of_le h]

/-! ## Ways round an axis -/

/-- Two ways between the same cells differ by turns round the axis. -/
theorem exists_turns {p q d k : Int} {size : Nat} (hd : (p + d - q) % size = 0)
    (hk : (p + k - q) % size = 0) : ∃ turns, k = d + size * turns := by
  obtain ⟨turns, hturns⟩ := Int.dvd_sub (Int.dvd_of_emod_eq_zero hk) (Int.dvd_of_emod_eq_zero hd)
  exact ⟨turns, by omega⟩

theorem turns_cases (size : Nat) (turns : Int) :
    turns = 0 ∨ (size : Int) ≤ size * turns ∨ size * turns ≤ -(size : Int) := by
  rcases lt_trichotomy turns 0 with h | h | h
  · exact Or.inr (Or.inr (by nlinarith))
  · exact Or.inl h
  · exact Or.inr (Or.inl (by nlinarith))

/-- A way that no other is shorter than; of two that are equally short, the positive one. -/
def IsShortest (size : Nat) (p q d : Int) : Prop :=
  (p + d - q) % size = 0 ∧
    ∀ k, (p + k - q) % size = 0 → d.natAbs ≤ k.natAbs ∧ (k.natAbs = d.natAbs → k ≤ d)

/-- The shortest way is the one that goes no further than half round the axis. -/
theorem isShortest_iff {size : Nat} (hpos : 0 < size) {p q d : Int} :
    IsShortest size p q d ↔ (p + d - q) % size = 0 ∧ -(size : Int) < 2 * d ∧ 2 * d ≤ size := by
  constructor
  · rintro ⟨hd, hleast⟩
    have hback := hleast (d - size) (by rw [← hd, ← Int.sub_emod_right (p + d - q)]; congr 1; omega)
    have hon := hleast (d + size) (by rw [← hd, ← Int.add_emod_right (p + d - q)]; congr 1; omega)
    exact ⟨hd, by omega⟩
  · rintro ⟨hd, hlow, hhigh⟩
    refine ⟨hd, fun k hk => ?_⟩
    obtain ⟨turns, rfl⟩ := exists_turns hd hk
    rcases turns_cases size turns with rfl | h | h <;> omega

/-! ## The travel -/

theorem delta?_natCast (p q : Int) {size : Nat} (hpos : 0 < size) :
    delta? p q size = if sizeFits size then .ok (axisDelta p q size) else .error .overflow := by
  have hne : (size : Int) ≠ 0 := by omega
  have hnonneg : ¬ (size : Int) < 0 := by omega
  unfold delta? axisDelta
  simp only [Int.natAbs_natCast, Int.fmod_eq_emod_of_nonneg _ (Int.natCast_nonneg size), hnonneg,
    if_false, ensure, ne_eq, hne, not_false_eq_true, decide_true, if_true]
  by_cases h : sizeFits size = true
  · rw [if_pos h, if_pos h]
    rfl
  · rw [if_neg h, if_neg h]
    rfl

/-- The travel is the one way in the window of one size that ends at the half of the axis. -/
theorem axisDelta_eq_iff {size : Nat} (hpos : 0 < size) {p q d : Int} :
    axisDelta p q size = d ↔
      (p + d - q) % size = 0 ∧ (halfSize size : Int) - size < d ∧ d ≤ halfSize size := by
  have hwindow : (p + axisDelta p q size - q) % size = 0 ∧
      (halfSize size : Int) - size < axisDelta p q size ∧ axisDelta p q size ≤ halfSize size := by
    have hlow := Int.emod_nonneg (q - p) (Int.ne_of_gt (Int.natCast_pos.2 hpos))
    have hhigh := Int.emod_lt_of_pos (q - p) (Int.natCast_pos.2 hpos)
    have hhalf := halfSize_lt hpos
    refine ⟨Int.emod_eq_emod_iff_emod_sub_eq_zero.1 (emod_add_axisDelta p q size), ?_⟩
    rw [axisDelta_eq_emod]
    unfold halfSize at hhalf ⊢
    split_ifs <;> omega
  constructor
  · rintro rfl
    exact hwindow
  · rintro ⟨hd, hlow, hhigh⟩
    obtain ⟨turns, hturns⟩ := exists_turns hwindow.1 hd
    rcases turns_cases size turns with rfl | h | h <;> omega

/-- On an axis with the right half the travel is the shortest way. -/
theorem isShortest_axisDelta {size : Nat} (hpos : 0 < size) (h : halfSize size = size / 2)
    (p q : Int) : IsShortest size p q (axisDelta p q size) := by
  obtain ⟨hd, hlow, hhigh⟩ := (axisDelta_eq_iff hpos).1 (Eq.refl (axisDelta p q size))
  exact (isShortest_iff hpos).2 ⟨hd, by omega⟩

theorem delta?_eq_ok_iff {size : Nat} (hpos : 0 < size) {p q d : Int} :
    delta? p q size = .ok d ↔ sizeFits size = true ∧
      (p + d - q) % size = 0 ∧ (halfSize size : Int) - size < d ∧ d ≤ halfSize size := by
  rw [delta?_natCast p q hpos, ← axisDelta_eq_iff hpos]
  split_ifs with h <;> simp [h]

section Fits

variable {size : Nat} (hpos : 0 < size) (hfits : sizeFits size = true)

include hpos hfits

theorem exists_delta?_eq_ok (p q : Int) : ∃ d, delta? p q size = .ok d :=
  ⟨axisDelta p q size, by rw [delta?_natCast p q hpos, if_pos hfits]⟩

/-- Every way in the window is the travel between some cells. -/
theorem delta?_zero_eq_ok {d : Int} (hlow : (halfSize size : Int) - size < d)
    (hhigh : d ≤ halfSize size) : delta? 0 d size = .ok d :=
  (delta?_eq_ok_iff hpos).2 ⟨hfits, by rw [Int.zero_add, Int.sub_self, Int.zero_emod], hlow, hhigh⟩

/-- Travel is the shortest way just on an axis with the right half. -/
theorem forall_isShortest_iff :
    (∀ p q d, delta? p q size = .ok d → IsShortest size p q d) ↔ halfSize size = size / 2 := by
  have hhalf := halfSize_lt hpos
  constructor
  · intro h
    simp only [isShortest_iff hpos] at h
    have hlast := h 0 _ _ (delta?_zero_eq_ok hpos hfits (d := halfSize size) (by omega) (by omega))
    have hfirst := h 0 _ _
      (delta?_zero_eq_ok hpos hfits (d := halfSize size - size + 1) (by omega) (by omega))
    omega
  · intro h p q d hd
    obtain rfl := (axisDelta_eq_iff hpos).2 ((delta?_eq_ok_iff hpos).1 hd).2
    exact isShortest_axisDelta hpos h p q

/-- Travel there and back is equally long also on an axis of even size with a half that is one too
small, where the two ways half round it both go backwards. -/
theorem forall_natAbs_eq_iff :
    (∀ p q d d', delta? p q size = .ok d → delta? q p size = .ok d' → d.natAbs = d'.natAbs) ↔
      halfSize size = size / 2 ∨ size % 2 = 0 ∧ halfSize size + 1 = size / 2 := by
  have hhalf := halfSize_lt hpos
  constructor
  · intro h
    rcases Nat.lt_or_ge (2 * halfSize size) size with hshort | hlong
    · by_cases hodd : 2 * halfSize size + 1 = size
      · exact Or.inl (by omega)
      -- The first way of the window, and the way back, outside of the window by a turn.
      have hback : delta? (halfSize size - size + 1) 0 size = .ok (-(halfSize size + 1)) := by
        refine (delta?_eq_ok_iff hpos).2 ⟨hfits, ?_, by omega, by omega⟩
        rw [show (halfSize size - size + 1 + -(halfSize size + 1) - 0 : Int) = -size by omega,
          Int.neg_emod_self]
      have hfirst := h 0 _ _ _ (delta?_zero_eq_ok hpos hfits (by omega) (by omega)) hback
      omega
    · -- The last way of the window; the way back is in the window only after a turn.
      have hback : delta? (halfSize size) 0 size = .ok (size - halfSize size) := by
        refine (delta?_eq_ok_iff hpos).2 ⟨hfits, ?_, by omega, by omega⟩
        rw [show (halfSize size + (size - halfSize size) - 0 : Int) = size by omega, Int.emod_self]
      have hlast := h 0 _ _ _ (delta?_zero_eq_ok hpos hfits (by omega) (Int.le_refl _)) hback
      omega
  · intro h p q d d' hd hd'
    obtain ⟨-, hd, hlow, hhigh⟩ := (delta?_eq_ok_iff hpos).1 hd
    obtain ⟨-, hd', hlow', hhigh'⟩ := (delta?_eq_ok_iff hpos).1 hd'
    have hsame : (p + -d' - q) % size = 0 := by
      rw [show p + -d' - q = -(q + d' - p) by omega]
      exact Int.emod_eq_zero_of_dvd (Int.dvd_neg.2 (Int.dvd_of_emod_eq_zero hd'))
    obtain ⟨turns, hturns⟩ := exists_turns hd hsame
    rcases turns_cases size turns with rfl | hon | hback <;> omega

end Fits

/-- On every axis that can be measured the travel leads to its goal by the one way in the window of
one size that ends at the half, as it is known to 53 bits, and goes no further than half round the
axis by more than one part in `2 ^ 53`. It is the shortest way for all cells, and keeps to half of
the axis, exactly if the known half has the integer part of the half, as it has up to `2 ^ 53`
cells; and it is equally long both ways for all cells only then, or where the ways half round both
go backwards. -/
theorem delta?_isShortest_iff {size : Nat} (hpos : 0 < size) :
    (∀ p q d, delta? p q size = .ok d ↔ sizeFits size = true ∧
      (p + d - q) % size = 0 ∧ (halfSize size : Int) - size < d ∧ d ≤ halfSize size) ∧
    (∀ p q d, delta? p q size = .ok d → 2 ^ 54 * d.natAbs ≤ (2 ^ 53 + 1) * size) ∧
    (sizeFits size = true →
      (∀ p q, ∃ d, delta? p q size = .ok d) ∧
      ((∀ p q d, delta? p q size = .ok d → -(size : Int) < 2 * d ∧ 2 * d ≤ size) ↔
        halfSize size = size / 2) ∧
      ((∀ p q d, delta? p q size = .ok d → IsShortest size p q d) ↔ halfSize size = size / 2) ∧
      ((∀ p q d d', delta? p q size = .ok d → delta? q p size = .ok d' →
          d.natAbs = d'.natAbs) ↔
        halfSize size = size / 2 ∨ size % 2 = 0 ∧ halfSize size + 1 = size / 2)) ∧
    (size ≤ Nat.pow 2 53 → sizeFits size = true ∧ halfSize size = size / 2) := by
  refine ⟨fun p q d => delta?_eq_ok_iff hpos, fun p q d hd => ?_, fun hfits => ?_, fun hle => ?_⟩
  · obtain ⟨-, -, hlow, hhigh⟩ := (delta?_eq_ok_iff hpos).1 hd
    have hclose := roundedSize_close size
    unfold halfSize at hlow hhigh
    omega
  · have hshortest := forall_isShortest_iff hpos hfits
    refine ⟨exists_delta?_eq_ok hpos hfits, ?_, hshortest, forall_natAbs_eq_iff hpos hfits⟩
    rw [← hshortest]
    simp only [isShortest_iff hpos]
    exact ⟨fun h p q d hd => ⟨((delta?_eq_ok_iff hpos).1 hd).2.1, h p q d hd⟩,
      fun h p q d hd => (h p q d hd).2⟩
  · exact ⟨sizeFits_of_lt (Nat.lt_of_le_of_lt hle (by decide)), halfSize_of_le hle⟩

/-- An odd size beyond `2 ^ 53` with a half that is rounded down, on which the travel is the
shortest way between any two cells. -/
theorem delta?_isShortest_beyond_exact :
    (0 : Nat) < Nat.pow 2 53 + 1 ∧ halfSize (Nat.pow 2 53 + 1) = (Nat.pow 2 53 + 1) / 2 ∧
    ∀ p q, ∃ d, delta? p q (Nat.pow 2 53 + 1 : Nat) = .ok d ∧
      IsShortest (Nat.pow 2 53 + 1) p q d := by
  have hpos : (0 : Nat) < Nat.pow 2 53 + 1 := by decide
  have hhalf : halfSize (Nat.pow 2 53 + 1) = (Nat.pow 2 53 + 1) / 2 := by decide
  obtain ⟨hreturns, -, hshortest, -⟩ := (delta?_isShortest_iff hpos).2.2.1 (by decide +kernel)
  refine ⟨hpos, hhalf, fun p q => ?_⟩
  obtain ⟨d, hd⟩ := hreturns p q
  exact ⟨d, hd, hshortest.2 hhalf p q d hd⟩

/-- On the next odd size the half is rounded up: travel goes the longer way round, and is shorter
the other way. -/
theorem delta?_longer_way_round :
    delta? 0 4503599627370498 9007199254740995 = .ok 4503599627370498 ∧
    delta? 4503599627370498 0 9007199254740995 = .ok 4503599627370497 ∧
    (9007199254740995 : Int) < 2 * 4503599627370498 ∧
    ¬ IsShortest 9007199254740995 0 4503599627370498 4503599627370498 := by
  have hpos : (0 : Nat) < 9007199254740995 := by decide
  have hfits : sizeFits 9007199254740995 = true := by decide +kernel
  have hhalf : (halfSize 9007199254740995 : Int) = 4503599627370498 := by decide
  refine ⟨(delta?_eq_ok_iff hpos).2 ⟨hfits, by decide, by omega, by omega⟩,
    (delta?_eq_ok_iff hpos).2 ⟨hfits, by decide, by omega, by omega⟩, by decide, fun h => ?_⟩
  have hother := h.2 (-4503599627370497) (by decide)
  omega

end Turmite
