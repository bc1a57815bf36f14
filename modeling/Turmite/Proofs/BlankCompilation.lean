import Turmite.Proofs.Unclamped

/-!
# Grids without paint

A grid without paint is compiled to the epilogue of its end, which writes background wherever it
is followed. From the start it leads a step off the start and, where that step is not clamped, back
(`Metric.follow_turns`), so a replay ends where it began or beside it, and hardly ever at the end
(`Bench.replay_without_paint`), to which only the program of a tour leads.
-/

namespace Turmite

/-- A program that writes the same color to all cells performs its walk from any cell. -/
theorem Program.Performs.from_cell {p : Program} {m : Metric} {color : Point → Int}
    {state final k : Int} {cell : Point} {moves : List Direction}
    (h : p.Performs m color final state cell moves) (hcolor : ∀ q, m.Contains q → color q = k)
    (hcell : m.Contains cell) (cell' : Point) :
    p.Performs m (fun _ => k) final state cell' moves := by
  induction h generalizing cell' with
  | done cell => exact .done cell'
  | @move state cell rule moves hrule hwrite rest ih =>
    exact .move hrule (hwrite.trans (hcolor cell hcell)) (ih (m.contains_step cell rule.move) _)

/-- A step off a cell and back ends beside the cell if the first step is clamped. -/
theorem Metric.follow_turns {m : Metric} {p : Point} (hp : m.Contains p) (d : Direction) :
    m.follow p [d.opposite, d] =
      if m.looping = false ∧ m.EdgeBehind p d then m.step p d else p := by
  rw [follow_cons, follow_cons, follow_nil]
  split_ifs with hedge
  · rw [(step_opposite_eq_self_iff hedge.1 hp).2 hedge.2]
  · exact step_opposite_step hp ((enterable_iff hp).2 hedge)

namespace Canvas

variable [Memory] {config : GridConfig} {c : Canvas config}

/-- A blank canvas to which background is written stays blank. -/
theorem repaint_background (c : Canvas config) {cells : List Point}
    (hcells : ∀ p ∈ cells, config.Contains p) :
    c.cleared.repaint (fun _ => background) cells = c.cleared := by
  refine eq_of_get_eq fun p hp => ?_
  rw [get_repaint (fun _ _ => by decide) _ hcells hp, cleared, get_blank c.fits hp, ite_self]

theorem painted_of_blank (hblank : ∀ p, config.Contains p → c.get p = background) :
    c.painted = [] := by
  rw [List.eq_nil_iff_forall_not_mem]
  intro p hp
  obtain ⟨hcell, hpaint⟩ := mem_painted.1 hp
  rw [hblank p hcell] at hpaint
  exact absurd hpaint (by decide)

end Canvas

namespace Grid

variable [Memory] {config : GridConfig} {c : Canvas config}

/-- Without paint, the program of a tour of one cell is the same for every cell: a rule for the step
back and one for the step in the direction of the heading. -/
theorem program_emitted_singleton (hblank : ∀ p, config.Contains p → c.get p = background)
    {p : Point} (hp : config.Contains p) (heading : Direction) (offset : Int)
    (stopAfterDone : Bool) :
    (emitted c p [] heading offset stopAfterDone).program =
      ⟨[(offset, [⟨background, heading.opposite, offset + 1⟩]),
        (offset + 1, [⟨background, heading, stateAfter stopAfterDone (offset + 1 + 1)⟩])]⟩ := by
  have hfirst : c.get p = background := hblank p hp
  have hsecond : c.get (config.step p heading.opposite) = background :=
    hblank _ (config.contains_step p heading.opposite)
  have hrules : emittedRules c p [] heading offset stopAfterDone =
      [(offset, ⟨c.get p, heading.opposite, offset + 1⟩),
        (offset + 1, ⟨c.get (config.step p heading.opposite), heading,
          stateAfter stopAfterDone (offset + 1 + 1)⟩)] := rfl
  rw [program_emitted c (List.forall_mem_singleton.2 hp), hrules, hfirst, hsecond]
  rfl

/-- The program of a tour without paint takes its walk from wherever it is started, and paints
nothing. -/
theorem replay_emitted_of_blank (hblank : ∀ p, config.Contains p → c.get p = background)
    {p : Point} {r : List Point} (hcontains : ∀ q ∈ p :: r, config.Contains q)
    {heading : Direction} {offset : Int} (h0 : 0 ≤ offset) {stopAfterDone : Bool} (start : Point)
    {limit : Int}
    (hlimit : (emitted c p r heading offset stopAfterDone).program.ruleCount ≤ limit) :
    ∃ replay, ((emitted c p r heading offset stopAfterDone).program.replay start offset
        limit).runOn ⟨some c.cleared⟩ = (.ok replay, ⟨some c.cleared⟩) ∧
      replay.position =
        config.follow (config.normalize start) (Emit.walk config.toMetric (p :: r) heading) := by
  have hperforms := (emitted_performs c hcontains heading offset stopAfterDone h0).from_cell hblank
    (hcontains p List.mem_cons_self) (config.normalize start)
  have hstop := nextRule_emitted c hcontains heading offset stopAfterDone h0
  rw [ruleCount_emitted c hcontains] at hlimit
  have hreplay := Program.replay_of_performs rfl hperforms (fun _ _ => by decide) hstop hlimit
    c.cleared
  rw [Canvas.repaint_background c fun q hq =>
    config.contains_of_mem_departures (config.contains_normalize start) hq] at hreplay
  exact ⟨_, hreplay, rfl⟩

end Grid

namespace Bench

open Grid (compileTour)

section

variable [Memory] {config : GridConfig} {c : Canvas config} {heading : Direction}
  {settings : CompileConfig} {clock : Clock} {result : Compiled} {bench : Bench config}

/-- The program of a grid without paint is the epilogue alone, whichever the start and the end are,
and leaves a blank copy blank. A replay from the start ends on the cell of the start, or, on the
edge of a bounded board behind the heading, one step from it in the direction of the heading, so on
the cell of the end only where that is the same cell. The program of the tour from the start to the
end, which then is compiled too, ends on the cell of the end. -/
theorem replay_without_paint (hblank : ∀ p, config.Contains p → c.get p = background)
    (start finish : Point)
    (h : (compile (some (.point start)) (some (.point finish)) heading settings).runOn
      ⟨⟨some c⟩, clock⟩ = (.ok result, bench)) :
    let here := config.normalize start
    let goal := config.normalize finish
    let clamped := config.looping = false ∧ config.EdgeBehind here heading
    result.program =
      ⟨[(settings.stateOffset, [⟨background, heading.opposite, settings.stateOffset + 1⟩]),
        (settings.stateOffset + 1, [⟨background, heading,
          if settings.stopAfterDone then haltState else settings.stateOffset + 1 + 1⟩])]⟩ ∧
    result.program.ruleCount = 2 ∧ ∃ blank, bench.grid.blankCopy = .ok ⟨some blank⟩ ∧
      (∀ p, config.Contains p → blank.get p = background) ∧
      (∀ limit : Int, result.program.ruleCount ≤ limit →
        ∃ replay, (result.program.replay start settings.stateOffset limit).runOn ⟨some blank⟩ =
            (.ok replay, ⟨some blank⟩) ∧
          replay.position = (if clamped then config.step here heading else here) ∧
          (replay.position = goal ↔ here = goal ∨ clamped ∧ config.step here heading = goal)) ∧
      ∃ tour, (compileTour ([start, finish].map Stop.point) heading settings.stateOffset
          settings.stopAfterDone).runOn bench.grid = (.ok tour, bench.grid) ∧
        ∀ limit : Int, tour.program.ruleCount ≤ limit →
          ∃ replay, (tour.program.replay start settings.stateOffset limit).runOn ⟨some blank⟩ =
              (.ok replay, ⟨some blank⟩) ∧ replay.position = goal := by
  intro here goal clamped
  have hcompiled : (compile ((some start).map Stop.point) ((some finish).map Stop.point) heading
      settings).runOn ⟨⟨some c⟩, clock⟩ = (.ok result, bench) := h
  obtain ⟨henter, rfl, hgrid⟩ :=
    compile_eq_ok_of_blank (Canvas.painted_of_blank hblank) hcompiled
  have hgoal : ∀ q ∈ [goal], config.Contains q := by simpa using config.contains_normalize finish
  have hfree : ¬(config.looping = false ∧ config.EdgeBehind goal heading) :=
    (Metric.enterable_iff (config.contains_normalize finish)).1 henter
  have h0 : (0 : Int) ≤ settings.stateOffset := Int.natCast_nonneg _
  rw [hgrid]
  refine ⟨Grid.program_emitted_singleton hblank (config.contains_normalize finish) heading _ _,
    Grid.ruleCount_emitted c hgoal heading _ _, c.cleared, rfl,
    fun p hp => Canvas.get_blank c.fits hp, fun limit hlimit => ?_, ?_⟩
  · obtain ⟨replay, hreplay, hposition⟩ :=
      Grid.replay_emitted_of_blank hblank hgoal h0 start hlimit
    have hends : replay.position = if clamped then config.step here heading else here :=
      hposition.trans (Metric.follow_turns (config.contains_normalize start) heading)
    refine ⟨replay, hreplay, hends, ?_⟩
    rw [hends]
    split_ifs with hclamped
    · have hne : here ≠ goal := by
        intro heq
        rw [← heq] at hfree
        exact hfree hclamped
      simp [hne, hclamped]
    · simp [hclamped]
  · have hcells : [start, finish].map config.normalize = here :: [goal] := rfl
    have hcontains := GridConfig.contains_of_map_normalize hcells
    refine ⟨_, Grid.runOn_compileTour_of_enterable hcells henter h0 _, fun limit hlimit => ?_⟩
    obtain ⟨replay, hreplay, hposition⟩ :=
      Grid.replay_emitted_of_blank hblank hcontains h0 start hlimit
    exact ⟨replay, hreplay, hposition.trans (Emit.follow_walk hcontains henter)⟩

end

section Strip

open Grid (strip spot)

theorem get_cleared_spot : ∀ p, strip.Contains p → spot.cleared.get p = background :=
  fun _ hp => Canvas.get_blank spot.fits hp

/-- On the edge behind the heading the clamped step shifts the turmite, here just to the end. -/
theorem replay_without_paint_on_edge :
    (∀ p, strip.Contains p → spot.cleared.get p = background) ∧
    ∃ result bench, (compile (some (.point ⟨9, 1⟩)) (some (.point ⟨2, 5⟩)) .left
        ⟨3, true, true, .raw⟩).runOn ⟨⟨some spot.cleared⟩, ⟨[0.0], 0⟩⟩ = (.ok result, bench) ∧
      ∃ blank, bench.grid.blankCopy = .ok ⟨some blank⟩ ∧
        ∃ replay, (result.program.replay ⟨9, 1⟩ 3 2).runOn ⟨some blank⟩ =
            (.ok replay, ⟨some blank⟩) ∧ replay.position = ⟨2, 1⟩ := by
  have henter : (⟨strip, false⟩ : GridConfig).Enterable
      (strip.normalize ((some ⟨2, 5⟩ : Option Point).getD (Grid.defaultStart ⟨strip, false⟩)))
      .left := .inr (by decide)
  have hclock : (⟨[0.0], 0⟩ : Clock).readings ≠ [] := List.cons_ne_nil _ _
  obtain ⟨result, bench, hcompiled⟩ := exists_compile (c := spot.cleared) hclock henter
    (some ⟨9, 1⟩) ⟨3, true, true, .raw⟩
  obtain ⟨-, hcount, blank, hcopy, -, hends, -⟩ :=
    replay_without_paint get_cleared_spot ⟨9, 1⟩ ⟨2, 5⟩ hcompiled
  obtain ⟨replay, hreplay, hposition, -⟩ := hends 2 (by omega)
  exact ⟨get_cleared_spot, result, bench, hcompiled, blank, hcopy, replay, hreplay,
    hposition.trans (by decide)⟩

/-- A grid without paint is compiled for a start and an end apart, and a replay on a blank copy ends
on the start. -/
theorem replay_misses_end :
    (∀ p, strip.Contains p → spot.cleared.get p = background) ∧
    ∃ result bench, (compile (some (.point ⟨0, 0⟩)) (some (.point ⟨2, 1⟩)) .left
        ⟨3, false, true, .raw⟩).runOn ⟨⟨some spot.cleared⟩, ⟨[0.0], 0⟩⟩ = (.ok result, bench) ∧
      ∃ blank, bench.grid.blankCopy = .ok ⟨some blank⟩ ∧
        ∃ replay, (result.program.replay ⟨0, 0⟩ 3 result.program.ruleCount).runOn ⟨some blank⟩ =
            (.ok replay, ⟨some blank⟩) ∧
          replay.position ≠ strip.normalize ⟨2, 1⟩ := by
  have henter : (⟨strip, false⟩ : GridConfig).Enterable
      (strip.normalize ((some ⟨2, 1⟩ : Option Point).getD (Grid.defaultStart ⟨strip, false⟩)))
      .left := .inr (by decide)
  have hclock : (⟨[0.0], 0⟩ : Clock).readings ≠ [] := List.cons_ne_nil _ _
  obtain ⟨result, bench, hcompiled⟩ := exists_compile (c := spot.cleared) hclock henter
    (some ⟨0, 0⟩) ⟨3, false, true, .raw⟩
  obtain ⟨-, rfl, hgrid⟩ :=
    compile_eq_ok_of_blank (Canvas.painted_of_blank get_cleared_spot) hcompiled
  have hgoal : ∀ q ∈ [strip.normalize ⟨2, 1⟩], strip.Contains q := by decide
  obtain ⟨replay, hreplay, hposition⟩ := Grid.replay_emitted_of_blank (c := spot.cleared)
    get_cleared_spot hgoal (Int.natCast_nonneg 3) ⟨0, 0⟩ (Int.le_refl _)
  refine ⟨get_cleared_spot, _, bench, hcompiled, spot.cleared, ?_, replay, hreplay, ?_⟩
  · rw [hgrid]
    rfl
  · rw [hposition]
    decide

end Strip

end Bench
end Turmite
