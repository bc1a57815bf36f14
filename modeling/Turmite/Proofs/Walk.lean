import Mathlib.Tactic.Ring
import Turmite.Proofs.Distance

/-!
# Walks of unit moves

The moves of a displacement lead from one cell to the other, on both topologies and for sizes of any
magnitude (`Metric.follow_displacement`), so the moves of a tour lead through its cells to the last
one (`Metric.follow_expandMoves`), and every cell but the last is left by one of them
(`Metric.mem_departures_expandMoves`).
-/

namespace Turmite

@[ext] theorem Point.ext {p q : Point} (hx : p.x = q.x) (hy : p.y = q.y) : p = q := by
  cases p
  cases q
  simp_all

@[simp] theorem Point.neighbour_x (p : Point) (d : Direction) : (p.neighbour d).x = p.x + d.dx := rfl

@[simp] theorem Point.neighbour_y (p : Point) (d : Direction) : (p.neighbour d).y = p.y + d.dy := rfl

@[simp] theorem Point.shift_x (p : Point) (dx dy : Int) : (p.shift dx dy).x = p.x + dx := rfl

@[simp] theorem Point.shift_y (p : Point) (dx dy : Int) : (p.shift dx dy).y = p.y + dy := rfl

namespace Metric

variable (m : Metric)

/-- Where moves lead from a cell. -/
def follow (p : Point) (moves : List Direction) : Point := moves.foldl m.step p

/-- The cells that moves leave, one for each move. -/
def departures (p : Point) : List Direction → List Point
  | [] => []
  | d :: moves => p :: departures (m.step p d) moves

variable {m}

@[simp] theorem follow_nil (p : Point) : m.follow p [] = p := rfl

@[simp] theorem follow_cons (p : Point) (d : Direction) (moves : List Direction) :
    m.follow p (d :: moves) = m.follow (m.step p d) moves := rfl

theorem follow_append (p : Point) (moves moves' : List Direction) :
    m.follow p (moves ++ moves') = m.follow (m.follow p moves) moves' :=
  List.foldl_append

@[simp] theorem departures_nil (p : Point) : m.departures p [] = [] := rfl

@[simp] theorem departures_cons (p : Point) (d : Direction) (moves : List Direction) :
    m.departures p (d :: moves) = p :: m.departures (m.step p d) moves := rfl

@[simp] theorem length_departures (p : Point) (moves : List Direction) :
    (m.departures p moves).length = moves.length := by
  induction moves generalizing p with
  | nil => rfl
  | cons d moves ih => simp [ih]

theorem departures_append (p : Point) (moves moves' : List Direction) :
    m.departures p (moves ++ moves') =
      m.departures p moves ++ m.departures (m.follow p moves) moves' := by
  induction moves generalizing p with
  | nil => rfl
  | cons d moves ih => simp [ih]

theorem contains_follow {p : Point} (h : m.Contains p) (moves : List Direction) :
    m.Contains (m.follow p moves) := by
  induction moves generalizing p with
  | nil => exact h
  | cons d moves ih => exact ih (m.contains_step p d)

theorem contains_of_mem_departures {p q : Point} (h : m.Contains p) {moves : List Direction}
    (hq : q ∈ m.departures p moves) : m.Contains q := by
  induction moves generalizing p with
  | nil => simp at hq
  | cons d moves ih =>
    rw [departures_cons, List.mem_cons] at hq
    rcases hq with rfl | hq
    · exact h
    · exact ih (m.contains_step p d) hq

/-! ## Moves in one direction -/

theorem normalize_shift_normalize (h : m.looping) (p : Point) (dx dy : Int) :
    m.normalize ((m.normalize p).shift dx dy) = m.normalize (p.shift dx dy) := by
  unfold normalize
  rw [if_pos h, if_pos h, if_pos h]
  ext <;> simp

theorem follow_replicate_of_looping (h : m.looping) (n : Nat) (p : Point) (d : Direction) :
    m.follow (m.normalize p) (List.replicate n d) = m.normalize (p.shift (n * d.dx) (n * d.dy)) := by
  induction n generalizing p with
  | zero => simp
  | succ n ih =>
    have hstep : m.step (m.normalize p) d = m.normalize (p.neighbour d) :=
      normalize_shift_normalize h p d.dx d.dy
    have hshift : (p.neighbour d).shift (n * d.dx) (n * d.dy) =
        p.shift ((n + 1 : Nat) * d.dx) ((n + 1 : Nat) * d.dy) := by
      ext <;> simp <;> ring
    rw [List.replicate_succ, follow_cons, hstep, ih, hshift]

/-- Between two cells of a row or a column no move is clamped. -/
theorem follow_replicate_of_contains {n : Nat} {p : Point} {d : Direction} (hp : m.Contains p)
    (hq : m.Contains (p.shift (n * d.dx) (n * d.dy))) :
    m.follow p (List.replicate n d) = p.shift (n * d.dx) (n * d.dy) := by
  induction n generalizing p with
  | zero => simp
  | succ n ih =>
    have hshift : (p.neighbour d).shift (n * d.dx) (n * d.dy) =
        p.shift ((n + 1 : Nat) * d.dx) ((n + 1 : Nat) * d.dy) := by
      ext <;> simp <;> ring
    have hn : m.Contains (p.neighbour d) := by
      unfold Contains at hp hq ⊢
      simp only [Point.shift_x, Point.shift_y, Point.neighbour_x, Point.neighbour_y] at hq ⊢
      cases d <;> simp only [Direction.dx, Direction.dy] at hq ⊢ <;> omega
    rw [List.replicate_succ, follow_cons, step, normalize_of_contains m hn,
      ih hn (hshift ▸ hq), hshift]

/-! ## The moves of a displacement -/

theorem horizontal_dx (n : Int) :
    (n.natAbs : Int) * (if 0 < n then Direction.right else Direction.left).dx = n := by
  split <;> simp only [Direction.dx] <;> omega

theorem horizontal_dy (n : Int) :
    (n.natAbs : Int) * (if 0 < n then Direction.right else Direction.left).dy = 0 := by
  split <;> simp [Direction.dy]

theorem vertical_dx (n : Int) :
    (n.natAbs : Int) * (if 0 < n then Direction.down else Direction.up).dx = 0 := by
  split <;> simp [Direction.dx]

theorem vertical_dy (n : Int) :
    (n.natAbs : Int) * (if 0 < n then Direction.down else Direction.up).dy = n := by
  split <;> simp only [Direction.dy] <;> omega

/-- On a torus the moves of any displacement lead to what it shifts to. -/
theorem follow_moves_of_looping (h : m.looping) {p : Point} (hp : m.Contains p)
    (d : Displacement) : m.follow p d.moves = m.normalize (p.shift d.dx d.dy) := by
  have hrow := follow_replicate_of_looping h d.dx.natAbs p (if 0 < d.dx then .right else .left)
  have hcolumn := follow_replicate_of_looping h d.dy.natAbs (p.shift d.dx 0)
    (if 0 < d.dy then .down else .up)
  rw [m.normalize_of_contains hp, horizontal_dx, horizontal_dy] at hrow
  rw [vertical_dx, vertical_dy] at hcolumn
  unfold Displacement.moves
  rw [follow_append, hrow, hcolumn]
  congr 1
  ext <;> simp

/-- On any board the moves of a displacement that stays on it lead to what it shifts to. -/
theorem follow_moves_of_contains {p : Point} {d : Displacement} (hp : m.Contains p)
    (hq : m.Contains (p.shift d.dx d.dy)) : m.follow p d.moves = p.shift d.dx d.dy := by
  have hcorner : m.Contains (p.shift d.dx 0) := by
    unfold Contains at hp hq ⊢
    simp only [Point.shift_x, Point.shift_y, Int.add_zero] at hq ⊢
    omega
  have hcorner_shift : (p.shift d.dx 0).shift 0 d.dy = p.shift d.dx d.dy := by
    ext <;> simp
  unfold Displacement.moves
  rw [follow_append, follow_replicate_of_contains hp (by rwa [horizontal_dx, horizontal_dy]),
    horizontal_dx, horizontal_dy,
    follow_replicate_of_contains hcorner (by rwa [vertical_dx, vertical_dy, hcorner_shift]),
    vertical_dx, vertical_dy, hcorner_shift]

/-- Travel from one cell to another arrives. -/
theorem follow_displacement {p q : Point} (hp : m.Contains p) (hq : m.Contains q) :
    m.follow p (m.displacement p q).moves = q := by
  by_cases h : m.looping
  · rw [follow_moves_of_looping h hp]
    unfold displacement
    rw [if_pos h]
    conv_rhs => rw [← m.normalize_of_contains hq]
    unfold normalize
    rw [if_pos h, if_pos h]
    ext
    · exact emod_add_axisDelta p.x q.x m.cols
    · exact emod_add_axisDelta p.y q.y m.rows
  · have hshift : p.shift (m.displacement p q).dx (m.displacement p q).dy = q := by
      unfold displacement
      rw [if_neg h]
      ext <;> simp
    rw [follow_moves_of_contains hp (by rwa [hshift]), hshift]

/-! ## The moves of a tour -/

theorem expandMoves_cons_cons (p q : Point) (r : List Point) :
    m.expandMoves (p :: q :: r) = (m.displacement p q).moves ++ m.expandMoves (q :: r) := rfl

theorem follow_expandMoves {p : Point} {r : List Point} (h : ∀ q ∈ p :: r, m.Contains q) :
    m.follow p (m.expandMoves (p :: r)) = (p :: r).getLast (List.cons_ne_nil p r) := by
  induction r generalizing p with
  | nil => rfl
  | cons q r ih =>
    rw [expandMoves_cons_cons, follow_append,
      follow_displacement (h p List.mem_cons_self) (h q (by simp)),
      ih fun q' hq' => h q' (List.mem_cons_of_mem p hq'), List.getLast_cons_cons]

/-- Each cell of a tour is left by a move, or is its last one. -/
theorem mem_departures_expandMoves {p q : Point} {r : List Point}
    (h : ∀ q ∈ p :: r, m.Contains q) (hq : q ∈ p :: r) :
    q ∈ m.departures p (m.expandMoves (p :: r)) ∨
      q = (p :: r).getLast (List.cons_ne_nil p r) := by
  induction r generalizing p with
  | nil => exact Or.inr (by simpa using hq)
  | cons q' r ih =>
    have hleg := follow_displacement (h p List.mem_cons_self) (h q' (by simp))
    have hrest := ih fun s hs => h s (List.mem_cons_of_mem p hs)
    rw [expandMoves_cons_cons, departures_append, hleg, List.mem_append, List.getLast_cons_cons]
    rcases List.mem_cons.1 hq with rfl | hq
    · cases hmoves : (m.displacement q q').moves with
      | nil =>
        -- The leg is empty, so its goal is `q` itself.
        rw [hmoves, follow_nil] at hleg
        subst hleg
        exact (hrest List.mem_cons_self).imp_left Or.inr
      | cons d moves =>
        rw [departures_cons]
        exact Or.inl (Or.inl List.mem_cons_self)
    · exact (hrest hq).imp_left Or.inr

end Metric
end Turmite
