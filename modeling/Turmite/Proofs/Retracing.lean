import Turmite.Proofs.Compilation
import Turmite.Proofs.Trail

/-!
# Tours from their programs

The program of a compiled tour leads a turmite along the tour on any canvas of the same board, from
point to point and then a step back and forth, and what it leaves on the canvas is the picture of
the compiled grid along its trail (`Grid.replay_retraces`). The points need not be cells, nor cover
the paint of the grid.
-/

namespace Turmite

namespace Emit

variable {m : Metric}

/-- The track of a walk ends with a step off the last cell and the step back. -/
theorem track_walk {p : Point} {r : List Point} (h : ∀ q ∈ p :: r, m.Contains q)
    {heading : Direction} {goal : Point}
    (hgoal : (p :: r).getLast (List.cons_ne_nil p r) = goal) (henter : m.Enterable goal heading) :
    m.track p (walk m (p :: r) heading) =
      m.departures p (m.expandMoves (p :: r)) ++ [goal, m.step goal heading.opposite, goal] := by
  subst hgoal
  unfold walk
  rw [Metric.track_append, Metric.follow_expandMoves h, Metric.track_cons, Metric.track_cons,
    Metric.track_nil, Metric.step_opposite_step (h _ (List.getLast_mem _)) henter]

/-- Every cell on the track of a walk is left by one of its moves. -/
theorem mem_departures_walk_iff {p q : Point} {r : List Point} (h : ∀ q ∈ p :: r, m.Contains q)
    {heading : Direction}
    (henter : m.Enterable ((p :: r).getLast (List.cons_ne_nil p r)) heading) :
    q ∈ m.departures p (walk m (p :: r) heading) ↔ q ∈ m.track p (walk m (p :: r) heading) := by
  rw [Metric.track_eq_concat, follow_walk h henter, List.mem_append, List.mem_singleton]
  constructor
  · exact Or.inl
  · rintro (hq | rfl)
    · exact hq
    · exact mem_departures_walk h heading (List.getLast_mem _)

end Emit

namespace Grid

open Emit (walk)

section

variable [Memory] {config : GridConfig} {c : Canvas config}

/-- The program of a tour retraces it on any canvas of the board. The trail passes through the cells
of the tour, each after the length of the path to it, and ends with a step off the last one and the
step back in the direction of the heading. Where it has been the canvas has the colors of the
compiled grid, elsewhere its own. -/
theorem replay_retraces (hcolors : ∀ p, config.Contains p → 0 ≤ c.get p) {start : Point}
    {others : List Point} {heading : Direction} {offset : Int} {stopAfterDone : Bool}
    {result : Compiled} {g : Grid config}
    (h : (compileTour ((start :: others).map Stop.point) heading offset stopAfterDone).runOn
      ⟨some c⟩ = (.ok result, g))
    {lazyInit : Bool} (canvas : Canvas ⟨config.toMetric, lazyInit⟩) {limit : Int}
    (hlimit : result.program.ruleCount ≤ limit) :
    ∃ cells goal replay final, cells = (start :: others).map config.normalize ∧
      cells.getLast? = some goal ∧
      (result.program.replay start offset limit).runOn ⟨some canvas⟩ =
        (.ok replay, ⟨some final⟩) ∧
      replay.haltedBy ≠ .maxSteps ∧
      (∀ i cell, cells[i]? = some cell →
        replay.trail[config.pathLength (cells.take (i + 1))]? = some cell) ∧
      replay.trail.length = config.pathLength cells + 3 ∧
      [goal, config.normalize (goal.neighbour heading.opposite), goal] <:+ replay.trail ∧
      replay.trail = config.track (config.normalize start)
        (result.program.itinerary limit.toNat offset) ∧
      (result.program.itinerary limit.toNat offset).getLast? = some heading ∧
      ∀ q, config.Contains q →
        final.get q = if q ∈ replay.trail then c.get q else canvas.get q := by
  obtain ⟨p, r, hcells, h0, henter, rfl, -⟩ := compileTour_eq_ok h
  have hcontains : ∀ q ∈ p :: r, config.Contains q := by
    intro q hq
    rw [← hcells] at hq
    obtain ⟨q', -, rfl⟩ := List.mem_map.1 hq
    exact config.contains_normalize q'
  have hstart : p = config.normalize start := (List.cons.inj hcells).1.symm
  rw [ruleCount_emitted c hcontains] at hlimit
  have hperforms := emitted_performs c hcontains heading offset stopAfterDone h0
  have hstop := nextRule_emitted c hcontains heading offset stopAfterDone h0
  have henters : p = (⟨config.toMetric, lazyInit⟩ : GridConfig).normalize start := hstart
  have hreplay := Program.replay_of_performs henters hperforms
    (fun q hq => ⟨hcolors q hq, c.fitsWord_get q⟩) hstop hlimit canvas
  have hitinerary := Program.itinerary_of_performs hperforms hstop limit.toNat
  have htrail := Program.trail_replay hreplay
  rw [List.take_of_length_le (by omega)] at hitinerary
  rw [hitinerary, ← hstart] at htrail
  refine ⟨p :: r, _, _, _, hcells.symm, List.getLast?_eq_some_getLast (List.cons_ne_nil p r), hreplay,
    ?_, ?_, ?_, ?_, ?_, ?_, ?_⟩
  · exact reasonAfter_ne_maxSteps stopAfterDone
  · intro i cell hcell
    rw [htrail]
    exact Metric.getElem?_track_expandMoves hcontains hcell _
  · rw [htrail, Metric.length_track, Emit.length_walk]
  · rw [htrail, Emit.track_walk hcontains rfl henter]
    exact List.suffix_append _ _
  · rw [htrail, hitinerary, ← hstart]
  · rw [hitinerary, Emit.walk_eq_concat, List.getLast?_concat]
  · intro q hq
    have hdepartures : ∀ q ∈ config.departures p (walk config.toMetric (p :: r) heading),
        config.Contains q := fun q hq =>
      config.contains_of_mem_departures (hcontains p List.mem_cons_self) hq
    have hwords : ∀ q, (⟨config.toMetric, lazyInit⟩ : GridConfig).Contains q →
        fitsWord (c.get q) := fun q _ => c.fitsWord_get q
    rw [Canvas.get_repaint hwords canvas hdepartures hq, htrail]
    exact if_congr (Emit.mem_departures_walk_iff hcontains henter) rfl rfl

end

/-- A closed board of four columns and two rows. -/
def strip : Metric := ⟨4, 2, Nat.succ_pos 3, Nat.succ_pos 1, false⟩

/-- The board with paint in one cell. -/
def spot : Canvas ⟨strip, false⟩ := (Canvas.blank (by decide)).set ⟨1, 0⟩ 2

theorem nonneg_spot : ∀ p, strip.Contains p → 0 ≤ spot.get p := by
  have hall : ∀ p ∈ GridConfig.points ⟨strip, false⟩, 0 ≤ spot.get p := by decide +kernel
  exact fun p hp => hall p ((GridConfig.mem_points _).2 hp)

/-- The board with another color in every cell. -/
def coat : Canvas ⟨strip, true⟩ := Canvas.filled 7 (by decide)

/-- The compilation of a tour over the spot, from a start below the board. -/
def compiledSpot : Except Error Compiled × Grid ⟨strip, false⟩ :=
  (compileTour (([⟨0, 5⟩, ⟨1, -3⟩, ⟨0, 0⟩] : List Point).map Stop.point) .left 3 false).runOn
    ⟨some spot⟩

theorem replay_retraces_spot :
    (∀ p, strip.Contains p → 0 ≤ spot.get p) ∧
    ∃ result g, compiledSpot = (.ok result, g) ∧
      ∃ replay, ∃ final : Canvas ⟨strip, true⟩,
        (result.program.replay ⟨0, 5⟩ 3 result.program.ruleCount).runOn ⟨some coat⟩ =
          (.ok replay, ⟨some final⟩) ∧
        replay.trail[2]? = some ⟨1, 0⟩ ∧ replay.trail.length = 6 ∧
        ∀ q, strip.Contains q →
          final.get q = if q ∈ replay.trail then spot.get q else coat.get q := by
  have hok : compiledSpot.1.isOk = true := by decide +kernel
  rcases h : compiledSpot with ⟨_ | result, g⟩
  · rw [h] at hok
    cases hok
  · obtain ⟨cells, _, replay, final, hcells, -, hreplay, -, hvisits, hlength, -, -, -, hpicture⟩ :=
      replay_retraces nonneg_spot h coat (Int.le_refl _)
    have heq : cells = [⟨0, 1⟩, ⟨1, 0⟩, ⟨0, 0⟩] := hcells.trans (by decide)
    subst heq
    exact ⟨nonneg_spot, result, g, rfl, replay, final, hreplay, hvisits 1 ⟨1, 0⟩ rfl, hlength,
      hpicture⟩

end Grid
end Turmite
