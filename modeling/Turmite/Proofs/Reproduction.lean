import Turmite.Proofs.Compilation
import Turmite.Proofs.PlannedTour

/-!
# Grids from their programs

A compiled grid is reproduced by its program: on a blank copy of the grid the turmite paints every
cell as it was, and stops on the end cell after its last rule (`Bench.replay_reproduces`). What a
compilation that succeeds has gone through is told by `Bench.compile_eq_ok`.
-/

namespace Turmite

namespace GridConfig

theorem map_normalize_of_contains {config : GridConfig} {points : List Point}
    (h : ∀ p ∈ points, config.Contains p) : points.map config.normalize = points := by
  conv_rhs => rw [← List.map_id points]
  exact List.map_congr_left fun p hp => config.normalize_of_contains (h p hp)

end GridConfig

namespace Canvas

variable [Memory] {config : GridConfig} {c : Canvas config}

theorem mem_painted {p : Point} : p ∈ c.painted ↔ config.Contains p ∧ 0 < c.get p := by
  unfold painted background
  rw [List.mem_filter, config.mem_points, decide_eq_true_eq]

/-- Cells without negative colors are reproduced on a blank canvas once every painted cell is
painted again, and others only with their own colors. -/
theorem repaint_cleared (hcolors : ∀ p, config.Contains p → 0 ≤ c.get p) {cells : List Point}
    (hcells : ∀ p ∈ cells, config.Contains p) (hpainted : ∀ p ∈ c.painted, p ∈ cells) :
    c.cleared.repaint c.get cells = c := by
  refine eq_of_get_eq fun p hp => ?_
  rw [get_repaint (fun q _ => c.fitsWord_get q) _ hcells hp]
  by_cases hmem : p ∈ cells
  · rw [if_pos hmem]
  · have hblank : ¬ 0 < c.get p := fun h0 => hmem (hpainted p (mem_painted.2 ⟨hp, h0⟩))
    have hzero : c.get p = 0 := Int.le_antisymm (Int.not_lt.1 hblank) (hcolors p hp)
    rw [if_neg hmem, hzero]
    exact get_blank c.fits hp

end Canvas

/-! ## What a compilation goes through -/

namespace Grid

variable [Memory] {config : GridConfig} {c : Canvas config}

theorem runOn_dirtyPoints (c : Canvas config) :
    (dirtyPoints : Procedure (Grid config) _).runOn ⟨some c⟩ = (.ok c.painted, ⟨some c⟩) := rfl

end Grid

namespace Bench

theorem endCell_point (config : GridConfig) (role : String) (stop : Option Point) :
    endCell config role (stop.map Stop.point) =
      .ok (config.normalize (stop.getD (Grid.defaultStart config))) := by
  cases stop <;> rfl

section

variable [Memory] {config : GridConfig} {c : Canvas config} {start finish : Option Point}
  {heading : Direction} {settings : CompileConfig} {clock : Clock} {result : Compiled}
  {bench : Bench config}

/-- A grid with paint is compiled by planning a tour and compiling it. -/
theorem compile_eq_ok (hpainted : c.painted ≠ [])
    (h : (compile (start.map Stop.point) (finish.map Stop.point) heading settings).runOn
      ⟨⟨some c⟩, clock⟩ = (.ok result, bench)) :
    ∃ plan p r clock',
      (Tour.plan config.toMetric ⟨config.normalize (start.getD (Grid.defaultStart config)),
        config.normalize (finish.getD (Grid.defaultStart config)), settings.mode,
        settings.optimize⟩ c.painted).runOn clock = (.ok plan, clock') ∧
      plan.tour.map config.normalize = p :: r ∧
      config.Enterable ((p :: r).getLast (List.cons_ne_nil p r)) heading ∧
      result = { Grid.emitted c p r heading settings.stateOffset settings.stopAfterDone with
        plan := some plan } ∧
      bench = ⟨⟨some c⟩, clock'⟩ := by
  have hsome : c.painted.isEmpty = false := by
    rw [List.isEmpty_eq_false_iff]
    exact hpainted
  unfold compile at h
  rw [endCell_point, endCell_point, Procedure.runOn_bind_of_eq_ok (Procedure.runOn_ofExcept _ _),
    Procedure.runOn_bind_of_eq_ok (Procedure.runOn_ofExcept _ _)] at h
  obtain ⟨_, -, h⟩ := Procedure.runOn_ofExcept_bind_eq_ok.1 h
  obtain ⟨_, _, hdirty, h⟩ := Procedure.runOn_within_bind_eq_ok.1 h
  rw [Grid.runOn_dirtyPoints] at hdirty
  obtain ⟨heq, rfl⟩ := Prod.mk.inj hdirty
  obtain rfl := Except.ok.inj heq
  rw [hsome, if_neg Bool.false_ne_true] at h
  obtain ⟨plan, clock', hplan, h⟩ := Procedure.runOn_within_bind_eq_ok.1 h
  obtain ⟨_, _, htour, h⟩ := Procedure.runOn_within_bind_eq_ok.1 h
  obtain ⟨p, r, hcells, -, henter, rfl, rfl⟩ := Grid.compileTour_eq_ok htour
  rw [Procedure.runOn_pure] at h
  obtain ⟨h1, rfl⟩ := Prod.mk.inj h
  exact ⟨plan, p, r, clock', hplan, hcells, henter, (Except.ok.inj h1).symm, rfl⟩

/-- A plan between cells visits cells only. -/
theorem contains_of_mem_plan {mode : Tour.Mode} {optimize : Bool} {plan : Tour.Plan}
    {clock' : Clock} {p q : Point}
    (h : (Tour.plan config.toMetric ⟨config.normalize p, config.normalize q, mode, optimize⟩
      c.painted).runOn clock = (.ok plan, clock')) :
    ∀ cell ∈ plan.tour, config.Contains cell := by
  intro cell hcell
  rcases ((Tour.plan_eq_ok h).2.2 cell).1 hcell with rfl | rfl | hcell
  · exact config.contains_normalize _
  · exact config.contains_normalize _
  · exact (Canvas.mem_painted.1 hcell).1

/-- A grid with paint is compiled from a tour of its cells between the ends, through every painted
cell. -/
theorem exists_tour_of_compile (hpainted : c.painted ≠ [])
    (h : (compile (start.map Stop.point) (finish.map Stop.point) heading settings).runOn
      ⟨⟨some c⟩, clock⟩ = (.ok result, bench)) :
    ∃ p r plan, p = config.normalize (start.getD (Grid.defaultStart config)) ∧
      (p :: r).getLast (List.cons_ne_nil p r) =
        config.normalize (finish.getD (Grid.defaultStart config)) ∧
      (∀ q ∈ p :: r, config.Contains q) ∧ (∀ q ∈ c.painted, q ∈ p :: r) ∧
      config.Enterable ((p :: r).getLast (List.cons_ne_nil p r)) heading ∧
      result = { Grid.emitted c p r heading settings.stateOffset settings.stopAfterDone with
        plan := plan } ∧
      bench.grid = ⟨some c⟩ := by
  obtain ⟨plan, p, r, clock', hplan, hcells, henter, rfl, rfl⟩ := compile_eq_ok hpainted h
  obtain ⟨hhead, hlast, hmem⟩ := Tour.plan_eq_ok hplan
  have hcontains := contains_of_mem_plan hplan
  rw [GridConfig.map_normalize_of_contains hcontains] at hcells
  rw [hcells] at hhead hlast hmem hcontains
  rw [List.getLast?_eq_some_getLast (List.cons_ne_nil p r)] at hlast
  exact ⟨p, r, some plan, Option.some.inj hhead, Option.some.inj hlast, hcontains,
    fun q hq => (hmem q).2 (Or.inr (Or.inr hq)), henter, rfl, rfl⟩

/-- A compiled program reproduces its grid. Wherever the ends of the tour are, whatever the heading
and the settings, the program that a grid with paint is compiled to paints a blank copy of the grid
like the grid itself, and stops on the end cell after one step for each of its rules. -/
theorem replay_reproduces (hcolors : ∀ p, config.Contains p → 0 ≤ c.get p)
    (hpaint : ∃ p, config.Contains p ∧ 0 < c.get p)
    (h : (compile (start.map Stop.point) (finish.map Stop.point) heading settings).runOn
      ⟨⟨some c⟩, clock⟩ = (.ok result, bench))
    {limit : Int} (hlimit : result.program.ruleCount ≤ limit) :
    bench.grid = ⟨some c⟩ ∧ ∃ blank replay, bench.grid.blankCopy = .ok blank ∧
      (result.program.replay (start.getD (Grid.defaultStart config)) settings.stateOffset
        limit).runOn blank = (.ok replay, ⟨some c⟩) ∧
      replay.position = config.normalize (finish.getD (Grid.defaultStart config)) ∧
      replay.steps = result.program.ruleCount ∧
      (replay.haltedBy, replay.state) =
        if settings.stopAfterDone then (.haltState, -1) else (.missingState, result.nextState) := by
  obtain ⟨painted, hpainted⟩ := hpaint
  have hsome : c.painted ≠ [] := List.ne_nil_of_mem (Canvas.mem_painted.2 hpainted)
  obtain ⟨p, r, plan, hstart, hlast, hcontains, hcover, henter, rfl, hgrid⟩ :=
    exists_tour_of_compile hsome h
  rw [hgrid]
  refine ⟨rfl, ⟨some c.cleared⟩, ?_⟩
  simp only at hlimit ⊢
  rw [Grid.ruleCount_emitted c hcontains] at hlimit ⊢
  -- The walk leaves only cells, and every cell of the tour among them.
  have hwalk : ∀ q ∈ config.departures p (Emit.walk config.toMetric (p :: r) heading),
      config.Contains q := fun q hq =>
    config.contains_of_mem_departures (hcontains p List.mem_cons_self) hq
  have hcovered : ∀ q ∈ c.painted,
      q ∈ config.departures p (Emit.walk config.toMetric (p :: r) heading) := fun q hq =>
    Emit.mem_departures_walk hcontains heading (hcover q hq)
  have hperforms := Grid.emitted_performs c hcontains heading settings.stateOffset
    settings.stopAfterDone (Int.natCast_nonneg _)
  have hstop := Grid.nextRule_emitted c hcontains heading settings.stateOffset
    settings.stopAfterDone (Int.natCast_nonneg _)
  have hreplay := Program.replay_of_performs hstart hperforms
    (fun q hq => ⟨hcolors q hq, c.fitsWord_get q⟩) hstop hlimit c.cleared
  rw [Emit.follow_walk hcontains henter, Canvas.repaint_cleared hcolors hwalk hcovered]
    at hreplay
  refine ⟨_, rfl, hreplay, hlast, rfl, ?_⟩
  unfold stateAfter reasonAfter
  cases settings.stopAfterDone <;> rfl

end

/-- A closed board of three columns and two rows, painted in two corners. -/
def corners : Canvas ⟨⟨3, 2, by decide, by decide, false⟩, false⟩ :=
  ((Canvas.blank (by decide)).set ⟨0, 0⟩ 1).set ⟨2, 1⟩ 2

/-- The compilation of the two corners, from a start below the board. -/
def compiledCorners : Except Error Compiled × Bench ⟨⟨3, 2, by decide, by decide, false⟩, false⟩ :=
  (compile ((some ⟨0, 5⟩ : Option Point).map Stop.point) ((none : Option Point).map Stop.point)
    .right ⟨3, true, true, .detailed⟩).runOn ⟨⟨some corners⟩, ⟨[0.0], 0⟩⟩

theorem replay_reproduces_corners :
    (∀ p, Metric.Contains ⟨3, 2, by decide, by decide, false⟩ p → 0 ≤ corners.get p) ∧
    (∃ p, Metric.Contains ⟨3, 2, by decide, by decide, false⟩ p ∧ 0 < corners.get p) ∧
    ∃ result bench, compiledCorners = (.ok result, bench) ∧
      ∃ blank replay, bench.grid.blankCopy = .ok blank ∧
        (result.program.replay ⟨0, 5⟩ 3 result.program.ruleCount).runOn blank =
          (.ok replay, ⟨some corners⟩) ∧
        replay.position = ⟨1, 1⟩ ∧ replay.haltedBy = .haltState := by
  have hcolors : ∀ p, Metric.Contains ⟨3, 2, by decide, by decide, false⟩ p →
      0 ≤ corners.get p := by
    have hall : ∀ p ∈ GridConfig.points ⟨⟨3, 2, by decide, by decide, false⟩, false⟩,
        0 ≤ corners.get p := by decide +kernel
    exact fun p hp => hall p ((GridConfig.mem_points _).2 hp)
  have hpaint : ∃ p, Metric.Contains ⟨3, 2, by decide, by decide, false⟩ p ∧ 0 < corners.get p :=
    ⟨⟨0, 0⟩, by decide +kernel⟩
  have hok : compiledCorners.1.isOk = true := by decide +kernel
  rcases h : compiledCorners with ⟨_ | result, bench⟩
  · rw [h] at hok
    cases hok
  · obtain ⟨-, blank, replay, hblank, hreplay, hposition, -, hhalted⟩ :=
      replay_reproduces hcolors hpaint h (Int.le_refl _)
    exact ⟨hcolors, hpaint, result, bench, rfl, blank, replay, hblank, hreplay, hposition,
      congrArg (·.1) hhalted⟩

end Bench
end Turmite
