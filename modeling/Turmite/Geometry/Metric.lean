import Turmite.Geometry.Point
import Turmite.Number.Rounding

/-!
# The metric of a board

A board of `cols` by `rows` cells is a torus, on which coordinates wrap, or bounded, and then they
are clamped. A displacement is the signed travel on each axis; on a torus it goes the shorter way
round, to the right or down when both ways are equally long. Half the size of an axis is taken to
53 significant bits, which is exact up to `2 ^ 53` cells.
-/

namespace Turmite

/-- Twice the half of an axis, to 53 significant bits. -/
def roundedSize (size : Nat) : Nat := roundSignificant 53 size

theorem roundedSize_of_lt {size : Nat} (h : size < Nat.pow 2 53) : roundedSize size = size :=
  roundSignificant_of_lt h

/-- Whether half of the rounded size is a binary64 value. -/
def sizeFits (size : Nat) : Bool := roundedSize size < Nat.pow 2 1025

/-- The signed displacement from `p` to `q` on a looping axis, the shortest one where half of the
axis is exact. -/
def axisDelta (p q : Int) (size : Nat) : Int :=
  let d := (q - p + size) % size
  if (roundedSize size : Int) < 2 * d then d - size else d

/-- Signed travel on each axis. -/
structure Displacement where
  dx : Int
  dy : Int
  deriving DecidableEq

namespace Displacement

/-- The Manhattan length. -/
def length (d : Displacement) : Nat := d.dx.natAbs + d.dy.natAbs

/-- The unit moves of a displacement, along `x` first. -/
def moves (d : Displacement) : List Direction :=
  List.replicate d.dx.natAbs (if 0 < d.dx then .right else .left) ++
    List.replicate d.dy.natAbs (if 0 < d.dy then .down else .up)

@[simp] theorem length_moves (d : Displacement) : d.moves.length = d.length := by
  simp [moves, length]

end Displacement

/-- The size of a board, and whether it loops. -/
structure Metric where
  cols : Nat
  rows : Nat
  cols_pos : 0 < cols
  rows_pos : 0 < rows
  looping : Bool
  deriving DecidableEq

namespace Metric

variable (m : Metric)

/-- Whether displacements can be measured: half of each looping axis is a binary64 value. -/
def measurable : Bool := !m.looping || (sizeFits m.cols && sizeFits m.rows)

/-- The cell of the board that a point stands for. -/
def normalize (p : Point) : Point :=
  if m.looping then ⟨p.x % m.cols, p.y % m.rows⟩
  else ⟨min (max p.x 0) (m.cols - 1), min (max p.y 0) (m.rows - 1)⟩

/-- The points that are cells of the board. -/
def Contains (p : Point) : Prop :=
  (0 ≤ p.x ∧ p.x < m.cols) ∧ 0 ≤ p.y ∧ p.y < m.rows

instance (p : Point) : Decidable (m.Contains p) := by
  unfold Contains
  infer_instance

theorem contains_normalize (p : Point) : m.Contains (m.normalize p) := by
  have hc : (0 : Int) < m.cols := Int.natCast_pos.2 m.cols_pos
  have hr : (0 : Int) < m.rows := Int.natCast_pos.2 m.rows_pos
  unfold Contains normalize
  split
  · exact ⟨⟨Int.emod_nonneg _ (by omega), Int.emod_lt_of_pos _ hc⟩,
      Int.emod_nonneg _ (by omega), Int.emod_lt_of_pos _ hr⟩
  · simp only
    omega

theorem normalize_of_contains {p : Point} (h : m.Contains p) : m.normalize p = p := by
  obtain ⟨⟨hx, hx'⟩, hy, hy'⟩ := h
  unfold normalize
  split
  · rw [Int.emod_eq_of_lt hx hx', Int.emod_eq_of_lt hy hy']
  · have h1 : min (max p.x 0) (m.cols - 1) = p.x := by omega
    have h2 : min (max p.y 0) (m.rows - 1) = p.y := by omega
    rw [h1, h2]

@[simp] theorem normalize_normalize (p : Point) : m.normalize (m.normalize p) = m.normalize p :=
  m.normalize_of_contains (m.contains_normalize p)

/-- The travel from `p` to `q`. -/
def displacement (p q : Point) : Displacement :=
  if m.looping then ⟨axisDelta p.x q.x m.cols, axisDelta p.y q.y m.rows⟩
  else ⟨q.x - p.x, q.y - p.y⟩

/-- The length of the travel from `p` to `q`. -/
def distance (p q : Point) : Nat := (m.displacement p q).length

/-- The cell after one move. -/
def step (p : Point) (d : Direction) : Point := m.normalize (p.neighbour d)

theorem contains_step (p : Point) (d : Direction) : m.Contains (m.step p d) :=
  m.contains_normalize _

/-! ## Walks through the points of a tour -/

/-- The length of an open path through the points. -/
def pathLength : List Point → Nat
  | [] => 0
  | [_] => 0
  | p :: q :: r => m.distance p q + pathLength (q :: r)

/-- The unit moves of an open path through the points. -/
def expandMoves : List Point → List Direction
  | [] => []
  | [_] => []
  | p :: q :: r => (m.displacement p q).moves ++ expandMoves (q :: r)

theorem length_expandMoves (tour : List Point) :
    (m.expandMoves tour).length = m.pathLength tour := by
  induction tour with
  | nil => rfl
  | cons p r ih =>
    cases r with
    | nil => rfl
    | cons q r => simpa [expandMoves, pathLength, distance] using ih

end Metric
end Turmite
