import Turmite.Proofs.Execution

/-!
# Trails

The cells that moves stand on, from the first to the last (`Metric.track`), and the moves that a
program makes from a state on (`Program.itinerary`): a turmite does not look at the colors of cells,
so what it finds has no influence on where it goes. A run that is not refused stands on the track of
its itinerary (`Program.trail_runFrom`). On the track of a tour each of its points is found at the
length of the path to it (`Metric.getElem?_track_expandMoves`).
-/

namespace Turmite

namespace Metric

variable (m : Metric)

/-- The cells that moves stand on. -/
def track (p : Point) : List Direction → List Point
  | [] => [p]
  | d :: moves => p :: track (m.step p d) moves

variable {m}

@[simp] theorem track_nil (p : Point) : m.track p [] = [p] := rfl

@[simp] theorem track_cons (p : Point) (d : Direction) (moves : List Direction) :
    m.track p (d :: moves) = p :: m.track (m.step p d) moves := rfl

@[simp] theorem length_track (p : Point) (moves : List Direction) :
    (m.track p moves).length = moves.length + 1 := by
  induction moves generalizing p with
  | nil => rfl
  | cons d moves ih => simp [ih]

theorem track_append (p : Point) (moves moves' : List Direction) :
    m.track p (moves ++ moves') = m.departures p moves ++ m.track (m.follow p moves) moves' := by
  induction moves generalizing p with
  | nil => rfl
  | cons d moves ih => simp [ih]

/-- Every cell of a track but the last is left. -/
theorem track_eq_concat (p : Point) (moves : List Direction) :
    m.track p moves = m.departures p moves ++ [m.follow p moves] := by
  rw [← track_nil, ← track_append, List.append_nil]

theorem head?_track (p : Point) (moves : List Direction) : (m.track p moves).head? = some p := by
  cases moves <;> rfl

theorem getLast?_track (p : Point) (moves : List Direction) :
    (m.track p moves).getLast? = some (m.follow p moves) := by
  rw [track_eq_concat, List.getLast?_concat]

/-- Tracks are joined at the cell that they share. -/
theorem track_append_tail (p : Point) (moves moves' : List Direction) :
    m.track p moves ++ (m.track (m.follow p moves) moves').tail = m.track p (moves ++ moves') := by
  rw [track_append, track_eq_concat p, List.append_assoc]
  congr 1
  cases moves' <;> rfl

/-- A track shows where the first moves lead. -/
theorem getElem?_track {p : Point} {moves : List Direction} {n : Nat} (h : n ≤ moves.length) :
    (m.track p moves)[n]? = some (m.follow p (moves.take n)) := by
  induction moves generalizing p n with
  | nil =>
    obtain rfl := Nat.le_zero.1 h
    rfl
  | cons d moves ih =>
    cases n with
    | zero => rfl
    | succ n =>
      rw [track_cons, List.getElem?_cons_succ, List.take_succ_cons, follow_cons]
      exact ih (Nat.le_of_succ_le_succ h)

/-! ## The track of a tour -/

/-- A tour that is cut at one of its points has the moves of both parts. -/
theorem expandMoves_append_cons (r s : List Point) (p : Point) :
    m.expandMoves (r ++ p :: s) = m.expandMoves (r ++ [p]) ++ m.expandMoves (p :: s) := by
  induction r with
  | nil => rfl
  | cons q r ih =>
    cases r with
    | nil => simp [expandMoves]
    | cons q' r =>
      simp only [List.cons_append, expandMoves_cons_cons] at ih ⊢
      rw [ih, List.append_assoc]

/-- The moves to a point of a tour come first. -/
theorem take_expandMoves (front back : List Point) (p : Point) (after : List Direction) :
    (m.expandMoves (front ++ p :: back) ++ after).take (m.pathLength (front ++ [p])) =
      m.expandMoves (front ++ [p]) := by
  rw [expandMoves_append_cons, List.append_assoc, ← length_expandMoves, List.take_left]

/-- Each point of a tour of cells is reached after the length of the path to it. -/
theorem getElem?_track_expandMoves {p : Point} {r : List Point} (h : ∀ q ∈ p :: r, m.Contains q)
    {n : Nat} {cell : Point} (hcell : (p :: r)[n]? = some cell) (after : List Direction) :
    (m.track p (m.expandMoves (p :: r) ++ after))[m.pathLength ((p :: r).take (n + 1))]? =
      some cell := by
  obtain ⟨hn, rfl⟩ := List.getElem?_eq_some_iff.1 hcell
  have htake : (p :: r).take (n + 1) = (p :: r).take n ++ [(p :: r)[n]] :=
    (List.take_append_getElem hn).symm
  have hcut : p :: r = (p :: r).take n ++ (p :: r)[n] :: (p :: r).drop (n + 1) := by
    rw [← List.drop_eq_getElem_cons hn, List.take_append_drop]
  have hmoves := take_expandMoves (m := m) ((p :: r).take n) ((p :: r).drop (n + 1)) (p :: r)[n] after
  rw [← hcut, ← htake] at hmoves
  have hle : m.pathLength ((p :: r).take (n + 1)) ≤ (m.expandMoves (p :: r) ++ after).length := by
    rw [← length_expandMoves, ← hmoves]
    exact List.length_take_le' _ _
  have hfront : ∀ q ∈ p :: r.take n, m.Contains q := fun q hq =>
    h q (List.mem_of_mem_take (i := n + 1) hq)
  have hlast : (p :: r.take n).getLast (List.cons_ne_nil _ _) = (p :: r)[n] := by
    rw [← Option.some_inj, ← List.getLast?_eq_some_getLast, ← List.take_succ_cons, htake,
      List.getLast?_concat]
  rw [getElem?_track hle, hmoves, List.take_succ_cons, follow_expandMoves hfront, hlast]

end Metric

namespace Program

/-- The moves that a turmite makes from a state on, at most `limit` of them. -/
def itinerary (p : Program) : (limit : Nat) → (state : Int) → List Direction
  | 0, _ => []
  | limit + 1, state =>
    match p.nextRule state with
    | .ok (.ok rule) => rule.move :: itinerary p limit rule.next
    | _ => []

section

variable [Memory] {config : GridConfig}

/-- A run stands on the track of its itinerary. -/
theorem trail_runFrom {p : Program} {limit : Nat} {state : Int} {position : Point}
    {trail : List Point} {g g' : Grid config} {replay : Replay}
    (h : (p.runFrom limit state position trail).runOn g = (.ok replay, g')) :
    replay.trail = trail.reverse ++ config.track position (p.itinerary limit state) := by
  induction limit generalizing state position trail g with
  | zero =>
    rw [runFrom] at h
    cases hrule : p.nextRule state with
    | error reason =>
      simp only [hrule] at h
      cases h
      simp [itinerary]
    | ok first =>
      simp only [hrule] at h
      cases h
      simp [itinerary]
  | succ limit ih =>
    rw [runFrom] at h
    cases hrule : p.nextRule state with
    | error reason =>
      simp only [hrule] at h
      cases h
      simp [itinerary, hrule]
    | ok first =>
      simp only [hrule, Procedure.runOn_ofExcept_bind_eq_ok] at h
      obtain ⟨rule, rfl, h⟩ := h
      obtain ⟨_, _, -, h⟩ := Procedure.runOn_bind_eq_ok.1 h
      rw [ih h]
      simp [itinerary, hrule]

theorem trail_replay {p : Program} {start : Point} {startState maxSteps : Int}
    {g g' : Grid config} {replay : Replay}
    (h : (p.replay start startState maxSteps).runOn g = (.ok replay, g')) :
    replay.trail = config.track (config.normalize start)
      (p.itinerary maxSteps.toNat startState) := by
  obtain ⟨-, h⟩ := Procedure.runOn_require_bind_eq_ok.1 h
  exact trail_runFrom h

end

/-- The itinerary of a program that performs a walk and stops is the walk, as far as it goes. -/
theorem itinerary_of_performs {p : Program} {m : Metric} {color : Point → Int} {state final : Int}
    {cell : Point} {moves : List Direction} (h : Performs p m color final state cell moves)
    {reason : HaltReason} (hstop : p.nextRule final = .error reason) (limit : Nat) :
    p.itinerary limit state = moves.take limit := by
  induction h generalizing limit with
  | done cell => cases limit <;> simp [itinerary, hstop]
  | @move state cell rule moves hrule hcolor rest ih =>
    cases limit with
    | zero => rfl
    | succ limit =>
      rw [itinerary, List.take_succ_cons]
      simp only [hrule]
      rw [ih]

end Program
end Turmite
