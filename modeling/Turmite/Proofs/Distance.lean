import Mathlib.Tactic.SplitIfs
import Turmite.Geometry.Reading

/-!
# Distances and lengths of paths

Up to `2 ^ 53` cells the half of an axis is exact. Then the travel along it is equally long both
ways (`natAbs_axisDelta_comm`), so distances are symmetric (`Metric.distance_comm`) and a path
backwards is as long as forwards (`Metric.pathLength_reverse`). On an axis of any size the travel
leads to its goal (`emod_add_axisDelta`).
-/

namespace Turmite

/-! ## An axis -/

theorem roundedSize_of_le {size : Nat} (h : size ≤ Nat.pow 2 53) : roundedSize size = size := by
  rcases Nat.lt_or_eq_of_le h with h | rfl
  · exact roundedSize_of_lt h
  · decide

theorem sizeFits_of_lt {size : Nat} (h : size < Nat.pow 2 60) : sizeFits size := by
  have hrounded : roundedSize size ≤ 2 * size := roundSignificant_le (by decide) size
  have htwice : 2 * size < Nat.pow 2 61 := Nat.mul_lt_mul_of_pos_left h (by decide)
  have hlt : ∀ k, 61 ≤ k → roundedSize size < Nat.pow 2 k := fun k hk =>
    Nat.lt_of_lt_of_le (Nat.lt_of_le_of_lt hrounded htwice) (Nat.pow_le_pow_right (by decide) hk)
  unfold sizeFits
  generalize hk : 1025 = k
  rw [decide_eq_true_eq]
  exact hlt k (by omega)

theorem axisDelta_eq_emod (p q : Int) (size : Nat) :
    axisDelta p q size =
      if (roundedSize size : Int) < 2 * ((q - p) % size) then (q - p) % size - size
      else (q - p) % size := by
  unfold axisDelta
  rw [Int.add_emod_right]

/-- The travel leads to its goal, whichever way round it goes. -/
theorem emod_add_axisDelta (p q : Int) (size : Nat) :
    (p + axisDelta p q size) % size = q % size := by
  have h : (p + (q - p) % size) % size = q % size := by
    rw [Int.add_emod_emod, show p + (q - p) = q by omega]
  rw [axisDelta_eq_emod]
  split_ifs
  · rw [show p + ((q - p) % size - size) = p + (q - p) % size - size by omega,
      Int.sub_emod_right, h]
  · exact h

/-- The remainders of opposite differences are both zero or add up to the size. -/
theorem emod_sub_comm (p q : Int) (size : Nat) :
    (p - q) % size = if (q - p) % size = 0 then 0 else size - (q - p) % size := by
  rw [show p - q = -(q - p) by omega, Int.neg_emod, Int.natAbs_natCast]
  simp only [Int.dvd_iff_emod_eq_zero]

theorem natAbs_axisDelta_comm {size : Nat} (hpos : 0 < size) (hle : size ≤ Nat.pow 2 53)
    (p q : Int) :
    (axisDelta p q size).natAbs = (axisDelta q p size).natAbs := by
  have hs : (0 : Int) < size := Int.natCast_pos.2 hpos
  have hlow := Int.emod_nonneg (q - p) (Int.ne_of_gt hs)
  have hhigh := Int.emod_lt_of_pos (q - p) hs
  rw [axisDelta_eq_emod, axisDelta_eq_emod, roundedSize_of_le hle, emod_sub_comm p q]
  split_ifs <;> omega

namespace Metric

/-- Boards on which half of each axis is exact. -/
def Exact (m : Metric) : Prop := m.cols ≤ Nat.pow 2 53 ∧ m.rows ≤ Nat.pow 2 53

instance (m : Metric) : Decidable m.Exact := by
  unfold Exact
  infer_instance

variable {m : Metric}

theorem measurable_of_sizes_lt (hcols : m.cols < Nat.pow 2 60) (hrows : m.rows < Nat.pow 2 60) :
    m.measurable := by
  unfold measurable
  rw [sizeFits_of_lt hcols, sizeFits_of_lt hrows]
  simp

theorem Exact.measurable (h : m.Exact) : m.measurable :=
  measurable_of_sizes_lt (Nat.lt_of_le_of_lt h.1 (by decide)) (Nat.lt_of_le_of_lt h.2 (by decide))

theorem ensureMeasurable_of_measurable (h : m.measurable) : m.ensureMeasurable = .ok () := if_pos h

theorem ensureLegs_of_measurable (h : m.measurable) (tour : List Point) :
    m.ensureLegs tour = .ok () := by
  unfold ensureLegs
  split_ifs
  · rfl
  · exact ensureMeasurable_of_measurable h

/-! ## Distances -/

theorem distance_comm (h : m.Exact) (p q : Point) : m.distance p q = m.distance q p := by
  unfold distance displacement Displacement.length
  split_ifs
  · simp only
    rw [natAbs_axisDelta_comm m.cols_pos h.1 p.x, natAbs_axisDelta_comm m.rows_pos h.2 p.y]
  · simp only
    omega

/-! ## Lengths of paths -/

theorem pathLength_cons_cons (p q : Point) (r : List Point) :
    m.pathLength (p :: q :: r) = m.distance p q + m.pathLength (q :: r) := rfl

/-- A path that is cut at one of its points is as long as both parts. -/
theorem pathLength_append_cons (r s : List Point) (p : Point) :
    m.pathLength (r ++ p :: s) = m.pathLength (r ++ [p]) + m.pathLength (p :: s) := by
  induction r with
  | nil => simp [pathLength]
  | cons q r ih =>
    cases r with
    | nil => simp [pathLength]
    | cons q' r =>
      simp only [List.cons_append, pathLength_cons_cons] at ih ⊢
      rw [ih, Nat.add_assoc]

theorem pathLength_reverse (h : m.Exact) (tour : List Point) :
    m.pathLength tour.reverse = m.pathLength tour := by
  induction tour with
  | nil => rfl
  | cons p r ih =>
    cases r with
    | nil => rfl
    | cons q r =>
      have hcut : (p :: q :: r).reverse = r.reverse ++ q :: [p] := by simp
      rw [hcut, pathLength_append_cons, ← List.reverse_cons, ih, pathLength_cons_cons p q r,
        distance_comm h p q, Nat.add_comm]
      rfl

/-- The length of a path around an inner segment. -/
theorem pathLength_around (a d : Point) (r s : List Point) {segment : List Point}
    (h : segment ≠ []) :
    m.pathLength (r ++ a :: (segment ++ d :: s)) =
      m.pathLength (r ++ [a]) + m.distance a (segment.head h) + m.pathLength segment +
        m.distance (segment.getLast h) d + m.pathLength (d :: s) := by
  obtain ⟨b, rest, rfl⟩ := List.exists_cons_of_ne_nil h
  obtain ⟨front, c, hc⟩ : ∃ front c, b :: rest = front ++ [c] :=
    ⟨_, _, (List.dropLast_concat_getLast h).symm⟩
  have hinner : m.pathLength (b :: rest ++ d :: s) =
      m.pathLength (b :: rest) + m.distance c d + m.pathLength (d :: s) := by
    rw [hc, List.append_assoc, List.singleton_append, pathLength_append_cons,
      pathLength_cons_cons, Nat.add_assoc]
  have hlast : (b :: rest).getLast h = c := by simp only [hc, List.getLast_concat]
  rw [pathLength_append_cons, hlast, List.head_cons, List.cons_append, pathLength_cons_cons,
    ← List.cons_append, hinner]
  omega

end Metric
end Turmite
