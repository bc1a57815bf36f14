import Mathlib.Order.Bounds.Basic
import Turmite.Proofs.AxisTravel
import Turmite.Proofs.Expansion
import Turmite.Proofs.Walk
import Turmite.Tour.TwoOpt

/-!
# Distances as least numbers of steps

On a board whose halves are exact no way round an axis is shorter than the travel along it
(`natAbs_axisDelta_le`), so distances obey the triangle inequality (`Metric.distance_triangle`) and
a step leads at most one cell away (`Metric.distance_step_le`). The distance between two points is
thus the least number of steps from the cell of one to the cell of the other, however often they
wrap or are clamped, and the moves of the displacement are that many steps
(`Metric.distance_isLeast`).
-/

namespace Turmite

/-! ## An axis -/

/-- No other way to the goal is shorter than the travel. -/
theorem natAbs_axisDelta_le {size : Nat} (hpos : 0 < size) (hle : size ≤ Nat.pow 2 53)
    {p q k : Int} (h : (p + k) % size = q % size) : (axisDelta p q size).natAbs ≤ k.natAbs :=
  ((isShortest_axisDelta hpos (halfSize_of_le hle) p q).2 k
    (Int.emod_eq_emod_iff_emod_sub_eq_zero.1 h)).1

theorem axisDelta_emod (p q : Int) (size : Nat) :
    axisDelta (p % size) (q % size) size = axisDelta p q size := by
  rw [axisDelta_eq_emod, axisDelta_eq_emod, ← Int.sub_emod]

theorem axisDelta_self (p : Int) (size : Nat) : axisDelta p p size = 0 := by
  rw [axisDelta_eq_emod, Int.sub_self, Int.zero_emod, if_neg (by omega)]

/-- Travel along an axis of any size stays within it. -/
theorem natAbs_axisDelta_lt {size : Nat} (hpos : 0 < size) (p q : Int) :
    (axisDelta p q size).natAbs < size := by
  have hlow := Int.emod_nonneg (q - p) (Int.ofNat_ne_zero.2 (Nat.ne_of_gt hpos))
  have hhigh := Int.emod_lt_of_pos (q - p) (Int.natCast_pos.2 hpos)
  rw [axisDelta_eq_emod]
  split_ifs <;> omega

namespace Metric

variable {m : Metric}

/-! ## Distances -/

/-- Points between which travel is that of their cells. -/
def Travels (m : Metric) (p q : Point) : Prop := m.looping ∨ m.Contains p ∧ m.Contains q

instance (m : Metric) (p q : Point) : Decidable (m.Travels p q) := by
  unfold Travels
  infer_instance

theorem displacement_normalize {p q : Point} (h : m.Travels p q) :
    m.displacement (m.normalize p) (m.normalize q) = m.displacement p q := by
  by_cases hl : m.looping
  · unfold displacement normalize
    rw [if_pos hl, if_pos hl, if_pos hl, if_pos hl, axisDelta_emod, axisDelta_emod]
  · obtain ⟨hp, hq⟩ := h.resolve_left hl
    rw [m.normalize_of_contains hp, m.normalize_of_contains hq]

/-- The moves of a displacement lead from the cell of one point to the cell of the other. -/
theorem follow_displacement_normalize {p q : Point} (h : m.Travels p q) :
    m.follow (m.normalize p) (m.displacement p q).moves = m.normalize q := by
  rw [← displacement_normalize h]
  exact follow_displacement (m.contains_normalize p) (m.contains_normalize q)

/-- Travel across a board stays within its size. -/
theorem natAbs_displacement_lt {p q : Point} (h : m.Travels p q) :
    (m.displacement p q).dx.natAbs < m.cols ∧ (m.displacement p q).dy.natAbs < m.rows := by
  unfold displacement
  split_ifs with hl
  · exact ⟨natAbs_axisDelta_lt m.cols_pos _ _, natAbs_axisDelta_lt m.rows_pos _ _⟩
  · obtain ⟨hp, hq⟩ := h.resolve_left hl
    unfold Contains at hp hq
    simp only
    omega

theorem distance_self (p : Point) : m.distance p p = 0 := by
  simp [distance, displacement, Displacement.length, axisDelta_self]

section Exact

-- On a bounded board the size of an axis does not matter.
variable (hm : m.looping → m.Exact)

include hm

theorem distance_triangle (p q r : Point) :
    m.distance p r ≤ m.distance p q + m.distance q r := by
  unfold distance displacement Displacement.length
  split_ifs with hl
  · have haround : ∀ (p q r : Int) {size : Nat}, 0 < size → size ≤ Nat.pow 2 53 →
        (axisDelta p r size).natAbs ≤ (axisDelta p q size + axisDelta q r size).natAbs := by
      intro p q r size hpos hle
      refine natAbs_axisDelta_le hpos hle ?_
      rw [← Int.add_assoc, Int.add_emod, emod_add_axisDelta, ← Int.add_emod, emod_add_axisDelta]
    have hx := haround p.x q.x r.x m.cols_pos (hm hl).1
    have hy := haround p.y q.y r.y m.rows_pos (hm hl).2
    simp only
    omega
  · simp only
    omega

/-- A step leads to a neighbour, unless it is clamped. -/
theorem distance_step_le {p : Point} (hp : m.Contains p) (d : Direction) :
    m.distance p (m.step p d) ≤ 1 := by
  have hunit : d.dx.natAbs + d.dy.natAbs = 1 := by cases d <;> rfl
  unfold distance displacement Displacement.length step normalize
  split_ifs with hl
  · have hx := natAbs_axisDelta_le m.cols_pos (hm hl).1 (Int.emod_emod (p.x + d.dx) m.cols).symm
    have hy := natAbs_axisDelta_le m.rows_pos (hm hl).2 (Int.emod_emod (p.y + d.dy) m.rows).symm
    simp only [Point.neighbour_x, Point.neighbour_y]
    omega
  · unfold Contains at hp
    simp only [Point.neighbour_x, Point.neighbour_y]
    omega

/-- However often steps wrap or are clamped, they lead no further than there are steps. -/
theorem distance_follow_le {p : Point} (hp : m.Contains p) (moves : List Direction) :
    m.distance p (m.follow p moves) ≤ moves.length := by
  induction moves generalizing p with
  | nil =>
    rw [follow_nil, distance_self]
    exact Nat.zero_le _
  | cons d moves ih =>
    rw [follow_cons, List.length_cons, Nat.add_comm]
    exact Nat.le_trans (distance_triangle hm p (m.step p d) _)
      (Nat.add_le_add (distance_step_le hm hp d) (ih (m.contains_step p d)))

theorem distance_le_of_follow {p q : Point} (h : m.Travels p q) {moves : List Direction}
    (hmoves : m.follow (m.normalize p) moves = m.normalize q) :
    m.distance p q ≤ moves.length := by
  have hsame : m.distance (m.normalize p) (m.normalize q) = m.distance p q :=
    congrArg Displacement.length (displacement_normalize h)
  rw [← hsame, ← hmoves]
  exact distance_follow_le hm (m.contains_normalize p) moves

end Exact

section Moves

variable (hm : m.Exact)

include hm

/-- The moves across a board whose halves are exact have indices. -/
theorem indexed_displacement {p q : Point} (h : m.Travels p q) : (m.displacement p q).Indexed := by
  have hindex : ∀ {count size}, count < size → size ≤ Nat.pow 2 53 → count < unindexableRun :=
    fun hlt hle => Nat.lt_trans (Nat.lt_of_lt_of_le hlt hle) (by decide)
  obtain ⟨hx, hy⟩ := natAbs_displacement_lt h
  exact ⟨hindex hx hm.1, hindex hy hm.2⟩

/-- There may be no memory for the moves across a board whose halves are exact. -/
theorem moves?_displacement_eq [Memory] {p q : Point} (h : m.Travels p q) :
    (m.displacement p q).moves? =
      if m.distance p q ≤ Memory.words then .ok (m.displacement p q).moves
      else .error .outOfMemory := by
  unfold Displacement.moves?
  split_ifs with hfits
  · rw [Displacement.ensureFits_of_fits hfits]
    rfl
  · obtain ⟨e, -, heq, hmemory⟩ := Displacement.ensureFits_eq_error hfits
    rw [heq, hmemory (indexed_displacement hm h)]
    rfl

end Moves

/-- The distance between two points is the least number of steps from the cell of one to the cell of
the other, and the moves of the displacement, if the list of them fits in memory, are such steps. -/
theorem distance_isLeast [Memory] (hm : m.Exact) {p q : Point}
    (h : m.looping ∨ m.Contains p ∧ m.Contains q) :
    m.displacement? p q = .ok (m.displacement p q) ∧
    IsLeast {n | ∃ moves : List Direction,
      m.follow (m.normalize p) moves = m.normalize q ∧ moves.length = n} (m.distance p q) ∧
    (m.distance p q ≤ Memory.words →
      ∃ moves, (m.displacement p q).moves? = .ok moves ∧
        m.follow (m.normalize p) moves = m.normalize q ∧ moves.length = m.distance p q) ∧
    (Memory.words < m.distance p q → (m.displacement p q).moves? = .error .outOfMemory) := by
  have harrives := follow_displacement_normalize h
  have hlength : (m.displacement p q).moves.length = m.distance p q :=
    Displacement.length_moves _
  have hmoves := moves?_displacement_eq hm h
  refine ⟨?_, ⟨⟨_, harrives, hlength⟩, ?_⟩, fun hfits => ?_, fun hmisfit => ?_⟩
  · unfold displacement?
    rw [ensureMeasurable_of_measurable hm.measurable]
    rfl
  · rintro n ⟨moves, hmoves, rfl⟩
    exact distance_le_of_follow (fun _ => hm) h hmoves
  · exact ⟨_, hmoves.trans (if_pos hfits), harrives, hlength⟩
  · exact hmoves.trans (if_neg (Nat.not_le.2 hmisfit))

/-- Two points off a torus, both ways along one axis equally long and the other across the seam. -/
theorem distance_isLeast_across_seam :
    (⟨4, 3, by decide, by decide, true⟩ : Metric).Exact ∧
    (⟨4, 3, by decide, by decide, true⟩ : Metric).looping ∧
    IsLeast {n | ∃ moves : List Direction,
      (⟨4, 3, by decide, by decide, true⟩ : Metric).follow ⟨3, 0⟩ moves = ⟨1, 2⟩ ∧
        moves.length = n} 3 ∧
    3 ≤ Memory.words ∧ ∃ moves,
      ((⟨4, 3, by decide, by decide, true⟩ : Metric).displacement ⟨-1, 3⟩ ⟨5, -1⟩).moves? =
        .ok moves ∧
      (⟨4, 3, by decide, by decide, true⟩ : Metric).follow ⟨3, 0⟩ moves = ⟨1, 2⟩ ∧
      moves.length = 3 := by
  have hm : (⟨4, 3, by decide, by decide, true⟩ : Metric).Exact := by decide
  obtain ⟨-, hleast, hmoves, -⟩ :=
    distance_isLeast hm (p := ⟨-1, 3⟩) (q := ⟨5, -1⟩) (Or.inl rfl)
  have hp : (⟨4, 3, by decide, by decide, true⟩ : Metric).normalize ⟨-1, 3⟩ = ⟨3, 0⟩ := by decide
  have hq : (⟨4, 3, by decide, by decide, true⟩ : Metric).normalize ⟨5, -1⟩ = ⟨1, 2⟩ := by decide
  have hd : (⟨4, 3, by decide, by decide, true⟩ : Metric).distance ⟨-1, 3⟩ ⟨5, -1⟩ = 3 := by decide
  rw [hp, hq, hd] at hleast hmoves
  have hfits : 3 ≤ Memory.words := by decide
  exact ⟨hm, rfl, hleast, hfits, hmoves hfits⟩

/-- Half a row of the widest board is a distance, but no list of moves. -/
theorem moves_refused_across_vast_board :
    (⟨Nat.pow 2 53, 1, by decide, by decide, false⟩ : Metric).Exact ∧
    (⟨Nat.pow 2 53, 1, by decide, by decide, false⟩ : Metric).Contains ⟨0, 0⟩ ∧
    (⟨Nat.pow 2 53, 1, by decide, by decide, false⟩ : Metric).Contains ⟨Nat.pow 2 52, 0⟩ ∧
    ((⟨Nat.pow 2 53, 1, by decide, by decide, false⟩ : Metric).displacement ⟨0, 0⟩
      ⟨Nat.pow 2 52, 0⟩).moves? = .error .outOfMemory ∧
    (Tour.twoOpt ⟨Nat.pow 2 53, 1, by decide, by decide, false⟩ .detailed).runOn
        [⟨0, 0⟩, ⟨1, 0⟩, ⟨2, 0⟩, ⟨Nat.pow 2 52, 0⟩] =
      (.error .outOfMemory, [⟨0, 0⟩, ⟨1, 0⟩, ⟨2, 0⟩, ⟨Nat.pow 2 52, 0⟩]) :=
  ⟨by decide, by decide, by decide, rfl, rfl⟩

end Metric
end Turmite
