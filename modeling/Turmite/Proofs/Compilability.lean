import Turmite.Proofs.RuleTables

/-!
# When a grid is compiled

A tour on a canvas is compiled if its last cell can be entered in the direction of the heading, and
else refused (`Grid.runOn_compileTour`). A plan is a tour, so a grid with a canvas is compiled
(`Bench.exists_compile`) unless its end cannot be entered, and then it is refused before a reading
of the clock is taken (`Bench.runOn_compile_of_not_enterable`).
-/

namespace Turmite

/-- The moves of a leg between cells fit in memory with the grid. -/
theorem GridConfig.Fits.ensureDeparture [Memory] {config : GridConfig} (h : config.Fits)
    {tour : List Point} (hcells : ∀ p ∈ tour, config.Contains p) :
    config.ensureDeparture tour = .ok () := by
  fun_induction config.toMetric.ensureDeparture tour with
  | case1 => rfl
  | case2 => rfl
  | case3 p q r hzero ih => exact ih (List.forall_mem_cons.1 hcells).2
  | case4 p q r hne =>
    exact Displacement.ensureFits_of_fits
      (h.fits_displacement (hcells p (by simp)) (hcells q (by simp)))

namespace Grid

theorem ensureReachable_of_enterable {m : Metric} {last : Point} {heading : Direction}
    (h : m.Enterable last heading) : ensureReachable m last heading = .ok () :=
  ensureReachable_eq_ok.2 h

theorem ensureReachable_of_not_enterable {m : Metric} {last : Point} {heading : Direction}
    (h : ¬m.Enterable last heading) :
    ensureReachable m last heading =
      .error (InvalidArgument.headingUnreachable heading last) := by
  have hfalse := mt (fun hr => (ensureReachable_eq_ok (u := ())).1 (ensure_eq_ok.2 hr)) h
  unfold ensureReachable ensure
  rw [if_neg hfalse]

section Tours

variable [Memory] {config : GridConfig} {c : Canvas config} {heading : Direction}
  {points : List Point} {p : Point} {r : List Point} {offset : Int}

/-- A tour on a canvas is compiled unless its last cell is refused. -/
theorem runOn_compileTour (hcells : points.map config.normalize = p :: r) (h0 : 0 ≤ offset)
    (stopAfterDone : Bool) :
    (compileTour (points.map Stop.point) heading offset stopAfterDone).runOn ⟨some c⟩ =
      (ensureReachable config.toMetric ((p :: r).getLast (List.cons_ne_nil p r)) heading |>.map
          fun _ => emitted c p r heading offset stopAfterDone, ⟨some c⟩) := by
  have hcontains := GridConfig.contains_of_map_normalize hcells
  have hne : (!(points.map Stop.point).isEmpty) = true := by
    have hpoints : points ≠ [] := by
      rintro rfl
      cases hcells
    simpa using hpoints
  have hlast : (p :: r).getLastD default = (p :: r).getLast (List.cons_ne_nil p r) := by
    rw [List.getLastD_cons, List.getLast_eq_getLastD]
  unfold compileTour
  rw [decide_eq_true h0, hne, Stop.mapM_require,
    Procedure.runOn_bind_of_eq_ok (Procedure.runOn_require_true _ _),
    Procedure.runOn_bind_of_eq_ok (Procedure.runOn_require_true _ _),
    Procedure.runOn_bind_of_eq_ok (Procedure.runOn_ofExcept _ _)]
  simp only [hcells, hlast]
  cases hreach : ensureReachable config.toMetric
      ((p :: r).getLast (List.cons_ne_nil p r)) heading with
  | error e => rfl
  | ok _ =>
    rw [Procedure.runOn_bind_of_eq_ok (Procedure.runOn_ofExcept _ _),
      Metric.ensureLegs_of_measurable c.fits.measurable,
      Procedure.runOn_bind_of_eq_ok (Procedure.runOn_ofExcept _ _),
      c.fits.ensureDeparture hcontains,
      Procedure.runOn_bind_of_eq_ok (Procedure.runOn_ofExcept _ _),
      Procedure.runOn_bind_of_eq_ok (runOn_requireCells c)]
    rfl

theorem runOn_compileTour_of_enterable (hcells : points.map config.normalize = p :: r)
    (henter : config.Enterable ((p :: r).getLast (List.cons_ne_nil p r)) heading)
    (h0 : 0 ≤ offset) (stopAfterDone : Bool) :
    (compileTour (points.map Stop.point) heading offset stopAfterDone).runOn ⟨some c⟩ =
      (.ok (emitted c p r heading offset stopAfterDone), ⟨some c⟩) := by
  rw [runOn_compileTour hcells h0, ensureReachable_of_enterable henter]
  rfl

theorem runOn_compileTour_of_not_enterable (hcells : points.map config.normalize = p :: r)
    (henter : ¬config.Enterable ((p :: r).getLast (List.cons_ne_nil p r)) heading)
    (h0 : 0 ≤ offset) (stopAfterDone : Bool) :
    (compileTour (points.map Stop.point) heading offset stopAfterDone).runOn ⟨some c⟩ =
      (.error (InvalidArgument.headingUnreachable heading
        ((p :: r).getLast (List.cons_ne_nil p r))), ⟨some c⟩) := by
  rw [runOn_compileTour hcells h0, ensureReachable_of_not_enterable henter]
  rfl

/-- A tour of cells that ends where the heading can be entered is compiled. -/
theorem exists_compileTour (hcells : ∀ q ∈ p :: r, config.Contains q)
    (henter : config.Enterable ((p :: r).getLast (List.cons_ne_nil p r)) heading) (offset : Nat)
    (stopAfterDone : Bool) :
    ∃ result, (compileTour ((p :: r).map Stop.point) heading offset stopAfterDone).runOn
      ⟨some c⟩ = (.ok result, ⟨some c⟩) :=
  ⟨_, runOn_compileTour_of_enterable (GridConfig.map_normalize_of_contains hcells) henter
    (Int.natCast_nonneg _) stopAfterDone⟩

end Tours

end Grid

namespace Bench

variable [Memory] {config : GridConfig} {c : Canvas config} {start finish : Option Point}
  {heading : Direction} {settings : CompileConfig} {clock : Clock}

theorem runOn_onGrid_bind_of_eq_ok {α β : Type} {p : Procedure (Grid config) α} {a : α}
    {f : α → Procedure (Bench config) β} (h : p.runOn ⟨some c⟩ = (.ok a, ⟨some c⟩))
    (clock : Clock) : (onGrid p >>= f).runOn ⟨⟨some c⟩, clock⟩ = (f a).runOn ⟨⟨some c⟩, clock⟩ := by
  rw [Procedure.runOn_bind, onGrid, Procedure.runOn_within, h]

/-- The painted cells have a plan: a tour of cells that ends at the end. -/
theorem exists_plan (hclock : clock.readings ≠ []) (start finish : Option Point)
    (settings : CompileConfig) :
    ∃ plan clock' p r, (Tour.plan config.toMetric
        ⟨config.normalize (start.getD (Grid.defaultStart config)),
          config.normalize (finish.getD (Grid.defaultStart config)), settings.mode,
          settings.optimize⟩ c.painted).runOn clock = (.ok plan, clock') ∧
      plan.tour = p :: r ∧ (∀ q ∈ p :: r, config.Contains q) ∧
      (p :: r).getLast (List.cons_ne_nil p r) =
        config.normalize (finish.getD (Grid.defaultStart config)) := by
  obtain ⟨plan, clock', hplan⟩ := Tour.exists_planWith c.fits.measurable
    ⟨config.normalize (start.getD (Grid.defaultStart config)),
      config.normalize (finish.getD (Grid.defaultStart config)), settings.mode,
      settings.optimize⟩ c.painted Tour.reversing hclock
  obtain ⟨hhead, hlast, -⟩ := Tour.plan_eq_ok hplan
  have hcells := contains_of_mem_plan hplan
  obtain ⟨r, htour⟩ := List.head?_eq_some_iff.1 hhead
  rw [htour] at hlast hcells
  rw [List.getLast?_eq_some_getLast (List.cons_ne_nil _ r)] at hlast
  exact ⟨plan, clock', _, r, hplan, htour, hcells, Option.some.inj hlast⟩

/-- A grid with a canvas is compiled if its end can be entered. -/
theorem exists_compile (hclock : clock.readings ≠ [])
    (henter : config.Enterable (config.normalize (finish.getD (Grid.defaultStart config)))
      heading) (start : Option Point) (settings : CompileConfig) :
    ∃ result bench, (compile (start.map Stop.point) (finish.map Stop.point) heading
      settings).runOn ⟨⟨some c⟩, clock⟩ = (.ok result, bench) := by
  unfold compile
  rw [endCell_point, endCell_point,
    Procedure.runOn_bind_of_eq_ok (Procedure.runOn_ofExcept _ _),
    Procedure.runOn_bind_of_eq_ok (Procedure.runOn_ofExcept _ _),
    Grid.ensureReachable_of_enterable henter,
    Procedure.runOn_bind_of_eq_ok (Procedure.runOn_ofExcept _ _),
    runOn_onGrid_bind_of_eq_ok (Grid.runOn_dirtyPoints c)]
  by_cases hblank : c.painted = []
  · have hcells : ∀ q ∈ [config.normalize (finish.getD (Grid.defaultStart config))],
        config.Contains q := by
      simpa using config.contains_normalize _
    obtain ⟨result, hresult⟩ := Grid.exists_compileTour (c := c) hcells henter
      settings.stateOffset settings.stopAfterDone
    rw [hblank, List.isEmpty_nil, if_pos rfl]
    exact ⟨_, _, (runOn_onGrid_bind_of_eq_ok hresult clock).trans (Procedure.runOn_pure _ _)⟩
  · obtain ⟨plan, clock', p, r, hplan, htour, hcells, hlast⟩ :=
      exists_plan (c := c) hclock start finish settings
    rw [← hlast] at henter
    obtain ⟨result, hresult⟩ := Grid.exists_compileTour (c := c) hcells henter
      settings.stateOffset settings.stopAfterDone
    rw [List.isEmpty_eq_false_iff.2 hblank, if_neg Bool.false_ne_true, Procedure.runOn_bind,
      onClock, Procedure.runOn_within, hplan]
    simp only
    rw [htour, runOn_onGrid_bind_of_eq_ok hresult]
    exact ⟨_, _, Procedure.runOn_pure _ _⟩

/-- A grid whose end cannot be entered is refused. -/
theorem runOn_compile_of_not_enterable
    (henter : ¬config.Enterable (config.normalize (finish.getD (Grid.defaultStart config)))
      heading) (start : Option Point) (settings : CompileConfig) :
    (compile (start.map Stop.point) (finish.map Stop.point) heading settings).runOn
        ⟨⟨some c⟩, clock⟩ =
      (.error (InvalidArgument.headingUnreachable heading
        (config.normalize (finish.getD (Grid.defaultStart config)))), ⟨⟨some c⟩, clock⟩) := by
  unfold compile
  rw [endCell_point, endCell_point,
    Procedure.runOn_bind_of_eq_ok (Procedure.runOn_ofExcept _ _),
    Procedure.runOn_bind_of_eq_ok (Procedure.runOn_ofExcept _ _),
    Grid.ensureReachable_of_not_enterable henter]
  rfl

end Bench
end Turmite
