import Turmite.Proofs.Success
import Turmite.Proofs.Walk
import Turmite.Replay

/-!
# Execution of a walk

A program that `Performs` a walk writes to each cell that it leaves the color of that cell, whatever
the canvas held before. Its replay runs through the cells of the walk, repaints them and goes on
from the state in which the walk ends (`Program.runFrom_of_performs`); there it stops for the reason
that the program gives (`Program.replay_of_performs`).
-/

namespace Turmite

/-! ## Repainted cells -/

namespace Canvas

variable [Memory] {config : GridConfig} {color : Point → Int}

/-- Each of the cells is given its color. -/
def repaint (color : Point → Int) (c : Canvas config) (cells : List Point) : Canvas config :=
  cells.foldl (fun c p => c.set p (color p)) c

theorem get_repaint (hw : ∀ p, config.Contains p → fitsWord (color p)) (c : Canvas config)
    {cells : List Point} (hcells : ∀ p ∈ cells, config.Contains p) {q : Point}
    (hq : config.Contains q) :
    (c.repaint color cells).get q = if q ∈ cells then color q else c.get q := by
  unfold repaint
  induction cells generalizing c with
  | nil => rfl
  | cons p cells ih =>
    have hp := hcells p List.mem_cons_self
    rw [List.foldl_cons, ih _ fun p' hp' => hcells p' (List.mem_cons_of_mem p hp')]
    by_cases hmem : q ∈ cells
    · rw [if_pos hmem, if_pos (List.mem_cons_of_mem p hmem)]
    · rw [if_neg hmem]
      by_cases heq : p = q
      · subst heq
        rw [if_pos List.mem_cons_self, get_set_self c hp (hw p hp)]
      · have hnot : q ∉ p :: cells := fun h => hmem ((List.mem_cons.1 h).resolve_left (Ne.symm heq))
        rw [if_neg hnot, get_set_of_ne c hp hq heq]

end Canvas

namespace Grid

theorem runOn_paint [Memory] {config : GridConfig} (c : Canvas config) {p : Point}
    (hp : config.Contains p)
    {color : Int} (h0 : 0 ≤ color) (hw : fitsWord color) :
    (Grid.paint p color).runOn ⟨some c⟩ = (.ok color, ⟨some (c.set p color)⟩) := by
  have hcolor : ensureColor color = .ok () := by
    unfold ensureColor ensure
    rw [if_pos (by simpa using h0)]
  unfold Grid.paint
  rw [hcolor, hw, config.normalize_of_contains hp]
  rfl

end Grid

namespace Program

variable {config : GridConfig}

/-! ## Programs that perform a walk -/

/-- From a state and a cell the program makes the moves, writing to each cell that it leaves the
color of that cell, and takes the state `final`. -/
inductive Performs (p : Program) (m : Metric) (color : Point → Int) (final : Int) :
    Int → Point → List Direction → Prop where
  | done (cell : Point) : Performs p m color final final cell []
  | move {state : Int} {cell : Point} {rule : Rule} {moves : List Direction}
      (h : p.nextRule state = .ok (.ok rule)) (hcolor : rule.color = color cell)
      (rest : Performs p m color final rule.next (m.step cell rule.move) moves) :
      Performs p m color final state cell (rule.move :: moves)

variable {p : Program} {color : Point → Int} {state final : Int} {cell : Point}
  {moves : List Direction}

theorem Performs.append {m : Metric} {middle : Int} {moves' : List Direction}
    (h : Performs p m color middle state cell moves)
    (h' : Performs p m color final middle (m.follow cell moves) moves') :
    Performs p m color final state cell (moves ++ moves') := by
  induction h with
  | done cell => exact h'
  | move hrule hcolor rest ih => exact Performs.move hrule hcolor (ih h')

/-! ## Replays of a walk -/

variable [Memory]

/-- A run repaints the cells that the walk leaves and goes on where it ends. -/
theorem runFrom_of_performs (h : Performs p config.toMetric color final state cell moves)
    (hcolor : ∀ p, config.Contains p → 0 ≤ color p ∧ fitsWord (color p))
    (hcell : config.Contains cell) (limit : Nat) (trail : List Point) (c : Canvas config) :
    (p.runFrom (moves.length + limit) state cell trail).runOn ⟨some c⟩ =
      (p.runFrom limit final (config.follow cell moves)
        ((config.departures cell moves).reverse ++ trail)).runOn
          ⟨some (c.repaint color (config.departures cell moves))⟩ := by
  induction h generalizing trail c with
  | done cell =>
    rw [List.length_nil, Nat.zero_add]
    rfl
  | @move state cell rule moves hrule hwrite rest ih =>
    have hpaint := Grid.runOn_paint c hcell (hcolor cell hcell).1 (hcolor cell hcell).2
    have hlen : (rule.move :: moves).length + limit = (moves.length + limit) + 1 := by
      rw [List.length_cons]
      omega
    rw [hlen, runFrom]
    simp only [hrule]
    rw [Procedure.runOn_bind_of_eq_ok (Procedure.runOn_ofExcept _ _), hwrite,
      Procedure.runOn_bind_of_eq_ok hpaint, ih (config.contains_step cell rule.move),
      Metric.departures_cons, List.reverse_cons, List.append_assoc, Metric.follow_cons]
    rfl

/-- A replay of a walk ends where the walk does, if the program stops there. -/
theorem replay_of_performs {start : Point} {reason : HaltReason} {limit : Int}
    (hstart : cell = config.normalize start)
    (h : Performs p config.toMetric color final state cell moves)
    (hcolor : ∀ p, config.Contains p → 0 ≤ color p ∧ fitsWord (color p))
    (hstop : p.nextRule final = .error reason) (hlimit : moves.length ≤ limit)
    (c : Canvas config) :
    (p.replay start state limit).runOn ⟨some c⟩ =
      (.ok ⟨config.follow cell moves, moves.length, final, reason,
          config.departures cell moves ++ [config.follow cell moves]⟩,
        ⟨some (c.repaint color (config.departures cell moves))⟩) := by
  obtain ⟨extra, hextra⟩ : ∃ extra, limit.toNat = moves.length + extra :=
    ⟨limit.toNat - moves.length, by omega⟩
  have hpositive : decide (0 ≤ limit) = true := by
    rw [decide_eq_true_eq]
    omega
  have hcell : config.Contains cell := by
    rw [hstart]
    exact config.contains_normalize start
  unfold Program.replay
  rw [hpositive, Procedure.runOn_bind_of_eq_ok (Procedure.runOn_require_true _ _), hextra, ← hstart,
    runFrom_of_performs h hcolor hcell, runFrom]
  simp only [hstop]
  rw [Procedure.runOn_pure, List.append_nil, List.length_reverse, Metric.length_departures,
    List.reverse_cons, List.reverse_reverse]

/-- A run of a walk that ends in a stop is not refused, however short it is cut. -/
theorem exists_runFrom_of_performs (h : Performs p config.toMetric color final state cell moves)
    (hcolor : ∀ p, config.Contains p → 0 ≤ color p ∧ fitsWord (color p))
    (hcell : config.Contains cell) {reason : HaltReason} (hstop : p.nextRule final = .error reason)
    (limit : Nat) (trail : List Point) (c : Canvas config) :
    ∃ replay c', (p.runFrom limit state cell trail).runOn ⟨some c⟩ = (.ok replay, ⟨some c'⟩) := by
  induction h generalizing limit trail c with
  | done cell =>
    rw [runFrom]
    simp only [hstop]
    exact ⟨_, c, Procedure.runOn_pure _ _⟩
  | @move state cell rule moves hrule hwrite rest ih =>
    rw [runFrom]
    cases limit with
    | zero =>
      simp only [hrule]
      exact ⟨_, c, Procedure.runOn_pure _ _⟩
    | succ limit =>
      have hpaint := Grid.runOn_paint c hcell (hcolor cell hcell).1 (hcolor cell hcell).2
      simp only [hrule]
      rw [Procedure.runOn_bind_of_eq_ok (Procedure.runOn_ofExcept _ _), hwrite,
        Procedure.runOn_bind_of_eq_ok hpaint]
      exact ih (config.contains_step cell rule.move) limit _ _

theorem exists_replay_of_performs {start : Point} {limit : Int}
    (hstart : cell = config.normalize start)
    (h : Performs p config.toMetric color final state cell moves)
    (hcolor : ∀ p, config.Contains p → 0 ≤ color p ∧ fitsWord (color p))
    {reason : HaltReason} (hstop : p.nextRule final = .error reason) (hlimit : 0 ≤ limit)
    (c : Canvas config) :
    ∃ replay c', (p.replay start state limit).runOn ⟨some c⟩ = (.ok replay, ⟨some c'⟩) := by
  have hcell : config.Contains cell := by
    rw [hstart]
    exact config.contains_normalize start
  unfold Program.replay
  rw [decide_eq_true hlimit, Procedure.runOn_bind_of_eq_ok (Procedure.runOn_require_true _ _),
    ← hstart]
  exact exists_runFrom_of_performs h hcolor hcell hstop _ _ c

end Program
end Turmite
