import Turmite.LooseGrid.Program
import Turmite.Proofs.NearestNeighbour
import Turmite.Proofs.PlannedTour
import Turmite.Tour.Stops
import Mathlib.Data.List.InsertIdx

/-!
# Stops that are points

Tours of stops are found and shortened by distances that are taken one by one, and compiled by cells
that are found one by one. Where the stops are points and a metric tells their distances, this comes
to what is done with points: the scan for the least distance stops at the point that is taken out
(`leastPlace?_extractLeast`), so stop by stop the same points are visited (`visitStops?_points`);
the same reversals are made (`improveStops?_points`); and the plans are the same
(`planDistances_points`). A tour of points that stand for the same cells on a loose grid and on the
one around its canvas has the same program on both (`LooseGrid.compileTour_eq`).
-/

namespace Turmite

/-- The unit moves of travel by integers are those of the displacement. -/
theorem Travel.moves?_ofDisplacement [Memory] (d : Displacement) :
    (ofDisplacement d).moves? = d.moves? := by
  have hrun (n : Int) : run? (.int n) = (do Displacement.ensureRun n.natAbs; pure n) := rfl
  unfold moves? Displacement.moves? Displacement.ensureFits
  simp only [ofDisplacement, hrun, bind_assoc, pure_bind]

namespace Surface

variable {s : Surface} {m : Metric} (hs : s.measure? = some m)

include hs

/-- Where a metric tells the travel on a surface it tells that between points. -/
theorem travelBetween?_points (p q : Point) :
    s.travelBetween? p q = (do pure (.ofDisplacement (← m.displacement? p q))) := by
  match s, hs with
  | .regular m, rfl => rfl
  | .irregular _ _ false, rfl => rfl

theorem distance?_points (p q : Point) :
    s.distance? p q = (do m.ensureMeasurable; pure (.int (m.distance p q))) := by
  unfold distance?
  rw [travelBetween?_points hs]
  unfold Metric.displacement?
  cases m.ensureMeasurable <;> rfl

/-- Points are a path of integer travel. -/
theorem exactPath?_points (points : List Point) :
    s.exactPath? (points.map .point) = some (m, points) := by
  unfold exactPath?
  rw [hs, Stop.points?_points]
  rfl

theorem pathLength?_points (tour : List Point) :
    s.pathLength? (tour.map .point) = (m.pathLength? tour).map fun n => .int n := by
  unfold pathLength?
  rw [exactPath?_points hs]
  show (do pure (Json.int (← m.pathLength? tour))) = _
  cases m.pathLength? tour <;> rfl

variable (hm : m.measurable = true)

include hm

/-- On a board that can be measured all distances can be taken. -/
theorem distance?_of_measurable (p q : Point) :
    s.distance? p q = .ok (.int (m.distance p q)) := by
  rw [distance?_points hs, Metric.ensureMeasurable_of_measurable hm]
  rfl

/-- Leg by leg a path through points is as long as it is for the metric. -/
theorem pathLengthFrom?_points (length : Nat) (points : List Point) :
    s.pathLengthFrom? (.int length) (points.map .point) =
      .ok (.int (length + m.pathLength points : Nat)) := by
  induction points generalizing length with
  | nil => rfl
  | cons p r ih =>
    cases r with
    | nil => rfl
    | cons q r =>
      have hrest := ih (length + m.distance p q)
      rw [Nat.add_assoc] at hrest
      simp only [List.map_cons, pathLengthFrom?, distance?_of_measurable hs hm, Json.sum?_natCast,
        bind, Except.bind]
      exact hrest

/-- Leg by leg points have the moves that they have for the metric, where there is memory for
them. -/
theorem legMoves?_points [Memory] (held : Nat) (points : List Point) :
    s.legMoves? held (points.map .point) =
      (m.ensureRuns held points).map fun _ => m.expandMoves points := by
  induction points generalizing held with
  | nil => rfl
  | cons p r ih =>
    cases r with
    | nil => rfl
    | cons q r =>
      have hrest := ih (held + m.distance p q)
      have hmoves : (do (← s.travelBetween? p q).moves?) = (m.displacement p q).moves? := by
        rw [travelBetween?_points hs, Metric.displacement?,
          Metric.ensureMeasurable_of_measurable hm]
        exact Travel.moves?_ofDisplacement _
      simp only [List.map_cons] at hrest ⊢
      unfold legMoves? Metric.ensureRuns
      rw [← bind_assoc, hmoves]
      unfold Displacement.moves?
      cases (m.displacement p q).ensureFits with
      | error e => rfl
      | ok _ =>
        simp only [bind, Except.bind, pure, Except.pure, Displacement.length_moves]
        unfold Metric.distance at hrest ⊢
        cases ensureRoom (held + (m.displacement p q).length) with
        | error e => rfl
        | ok _ =>
          simp only
          rw [hrest]
          cases m.ensureRuns (held + (m.displacement p q).length) (q :: r) <;> rfl

end Surface

namespace Tour

/-! ## Nearest neighbours -/

theorem newStops_points (seen points : List Point) :
    newStops (seen.map .point) (points.map .point) =
      (firstOccurrences seen points).map .point := by
  induction points generalizing seen with
  | nil => rfl
  | cons p r ih =>
    have hseen : (seen.map Stop.point).any (Stop.point p).isSame = decide (p ∈ seen) := by
      rw [List.any_map, Bool.eq_iff_iff]
      simp [Stop.isSame]
    rw [List.map_cons, newStops, hseen, firstOccurrences]
    by_cases hp : p ∈ seen
    · simp [hp, ih seen]
    · simpa [hp] using ih (p :: seen)

/-- Nothing after the least is less. -/
theorem leastPlace?_of_le {cost : Point → Nat} {best : Nat} (place next : Nat)
    {after : List Point} (h : ∀ q ∈ after, best ≤ cost q) :
    leastPlace? place (.int best) next (after.map fun q => .int (cost q)) = .ok place := by
  induction after generalizing next with
  | nil => rfl
  | cons q after ih =>
    obtain ⟨hq, hafter⟩ := List.forall_mem_cons.1 h
    rw [List.map_cons, leastPlace?, Json.isLess?_natCast, decide_eq_false (Nat.not_lt.2 hq)]
    exact ih (next + 1) hafter

/-- The scan passes what costs more than the least, and stays there. -/
theorem leastPlace?_append {cost : Point → Nat} {current : Nat} {p : Point} (place next : Nat)
    {before after : List Point} (hcurrent : cost p < current)
    (hbefore : ∀ q ∈ before, cost p < cost q) (hafter : ∀ q ∈ after, cost p ≤ cost q) :
    leastPlace? place (.int current) next ((before ++ p :: after).map fun q => .int (cost q)) =
      .ok (next + before.length) := by
  induction before generalizing place current next with
  | nil =>
    rw [List.nil_append, List.map_cons, leastPlace?, Json.isLess?_natCast,
      decide_eq_true hcurrent]
    exact leastPlace?_of_le next (next + 1) hafter
  | cons q before ih =>
    obtain ⟨hq, hbefore⟩ := List.forall_mem_cons.1 hbefore
    have hplace : next + (q :: before).length = next + 1 + before.length := by
      rw [List.length_cons]
      omega
    rw [List.cons_append, List.map_cons, leastPlace?, Json.isLess?_natCast, hplace]
    cases decide (cost q < current) with
    | true => exact ih next (next + 1) hq hbefore
    | false => exact ih place (next + 1) hcurrent hbefore

/-- The scan stops at the point of least cost that is taken out. -/
theorem leastPlace?_extractLeast (cost : Point → Nat) (p : Point) (r : List Point) :
    ∃ place, leastPlace? 0 (.int (cost p)) 1 (r.map fun q => .int (cost q)) = .ok place ∧
      (p :: r)[place]? = some (extractLeast cost p r).1 ∧
      (p :: r).eraseIdx place = (extractLeast cost p r).2 := by
  obtain ⟨before, after, hsplit, hothers, hbefore, hafter⟩ := extractLeast_split cost p r
  generalize (extractLeast cost p r).1 = best at hsplit hbefore hafter ⊢
  refine ⟨before.length, ?_, ?_, ?_⟩
  · cases before with
    | nil =>
      obtain ⟨rfl, rfl⟩ := List.cons.inj hsplit
      exact leastPlace?_of_le 0 1 hafter
    | cons _ before =>
      obtain ⟨rfl, rfl⟩ := List.cons.inj hsplit
      obtain ⟨hp, hbefore⟩ := List.forall_mem_cons.1 hbefore
      rw [List.length_cons, Nat.add_comm]
      exact leastPlace?_append 0 1 hp hbefore hafter
  · rw [hsplit, List.getElem?_append_right (Nat.le_refl _), Nat.sub_self, List.getElem?_cons_zero]
  · rw [hsplit, hothers, List.eraseIdx_append_of_length_le (Nat.le_refl _), Nat.sub_self,
      List.eraseIdx_cons_zero]

theorem reverseSegment_map {α β : Type} (f : α → β) (tour : Array α) (i k : Nat) :
    reverseSegment (tour.map f) i k = (reverseSegment tour i k).map f := by
  unfold reverseSegment
  simp only [Array.map_append, Array.map_reverse, Array.map_extract, Array.size_map]

section

variable {s : Surface} {m : Metric} (hs : s.measure? = some m)

include hs

theorem stopVisits?_points (hm : m.measurable = true) (current : Point) (points : List Point) :
    stopVisits? s points.length current (points.map .point) =
      .ok ((visits m current points).map .point) := by
  induction current, points using visits.induct m with
  | case1 current => rw [visits]; rfl
  | case2 current p r found ih =>
    obtain ⟨place, hplace, hnearest, hothers⟩ :=
      leastPlace?_extractLeast (m.distance current) p r
    have hdistances : ((p :: r).map Stop.point).mapM (s.distance? current) =
        .ok ((p :: r).map fun q => .int (m.distance current q)) :=
      mapM_map_eq_ok fun q _ => Surface.distance?_of_measurable hs hm current q
    have hstop : ((p :: r).map Stop.point).getD place current = .point found.1 := by
      rw [List.getD_eq_getElem?_getD, List.getElem?_map, hnearest]
      rfl
    have hlength : r.length = found.2.length := (length_extractLeast _ p r).symm
    rw [visits, List.length_cons, stopVisits?, hdistances]
    simp only [bind, Except.bind, List.map_cons, hplace]
    rw [← List.map_cons, hstop, List.eraseIdx_map, hothers, hlength, ih]
    rfl

/-- Stop by stop the tour is the nearest-neighbour tour of the points. -/
theorem visitStops?_points (points : List Point) (start finish : Point) :
    visitStops? s (points.map .point) start finish =
      (greedy? m points start finish).map (List.map .point) := by
  have hnew : newStops [.point start, .point finish] (points.map .point) =
      (distinctPoints points start finish).map .point := newStops_points [start, finish] points
  simp only [visitStops?, greedy?, greedy, hnew, List.length_map]
  cases hvisited : distinctPoints points start finish with
  | nil =>
    rw [visits]
    rfl
  | cons p r =>
    cases hm : m.measurable with
    | true =>
      rw [stopVisits?_points hs hm]
      simp [bind, Except.bind, pure, Except.pure, Except.map, ensure]
    | false =>
      have hfirst : s.distance? start p = .error .overflow := by
        rw [Surface.distance?_points hs, Metric.ensureMeasurable, hm]
        rfl
      have hdistances : ((p :: r).map Stop.point).mapM (s.distance? start) =
          .error .overflow := by
        rw [List.map_cons, List.mapM_cons, hfirst]
        rfl
      rw [List.length_cons, stopVisits?, hdistances]
      rfl

/-- Nearest-neighbour tours of points are those of stops. -/
theorem greedyStops?_points (points : List Point) (start finish : Point) :
    greedyStops? s (points.map .point) start finish =
      (greedy? m points start finish).map (List.map .point) := by
  have hkeys : ((start :: finish :: points).map Stop.point).forM Stop.ensureKey = .ok () := by
    refine forM_eq_ok.2 fun stop hstop => ?_
    obtain ⟨p, -, rfl⟩ := List.mem_map.1 hstop
    rfl
  unfold greedyStops?
  rw [← List.map_cons, ← List.map_cons, hkeys, Surface.exactPath?_points hs]
  rfl

/-! ## Reversals -/

/-- An exchange of edges between points is judged by their distances. -/
theorem stopExchangeShortens?_points (hm : m.measurable = true) {tour : Array Point} {i k : Nat}
    (hik : Inner tour.size i k) :
    stopExchangeShortens? s (tour.map .point) i k = .ok (exchangeShortens m tour i k) := by
  have hstop (place : Nat) (h : place < tour.size) :
      (tour.map Stop.point).getD place (.other .null) = .point (tour.getD place default) := by
    simp [h]
  obtain ⟨h0, hlt, hk⟩ := hik
  have hbefore := hstop (i - 1) (by omega)
  have hfirst := hstop i (by omega)
  have hlast := hstop k (by omega)
  have hafter := hstop (k + 1) (by omega)
  simp only [stopExchangeShortens?, hbefore, hfirst, hlast, hafter,
    Surface.distance?_of_measurable hs hm, bind, Except.bind, Json.sum?_natCast,
    Json.isLess?_natCast]
  rfl

/-- Stop by stop the same reversals are made as by the edges between the points. -/
theorem improveStops?_points [Memory] (hm : m.measurable = true) (limit : Nat)
    (tour : Array Point) :
    ∃ stats final, (improve m limit .edges).runOn tour = (.ok stats, final) ∧
      improveStops? s limit (tour.map .point) = .ok (final.map .point, stats) := by
  induction limit generalizing tour with
  | zero => exact ⟨⟨0, 1⟩, tour, rfl, rfl⟩
  | succ limit ih =>
    obtain ⟨found, hfirst⟩ : ∃ found, firstReversal? m .edges tour = .ok found := by
      cases hfirst : firstReversal? m .edges tour with
      | ok found => exact ⟨found, rfl⟩
      | error e =>
        obtain ⟨i, k, -, haccept⟩ := findPair?_eq_error hfirst
        cases haccept
    have hfind : findPair? (stopExchangeShortens? s (tour.map .point))
        (innerPairs (tour.map Stop.point).size) = .ok found := by
      rw [Array.size_map]
      refine findPair?_eq_ok_of_imp (fun i k shorter hmem haccept => ?_) hfirst
      rw [stopExchangeShortens?_points hs hm (mem_innerPairs.1 hmem)]
      exact haccept
    rw [runOn_improve_succ, hfirst, improveStops?, hfind]
    rcases found with _ | ⟨i, k⟩
    · exact ⟨⟨0, 1⟩, tour, rfl, rfl⟩
    · obtain ⟨stats, final, hrun, hstops⟩ := ih (reverseSegment tour i k)
      refine ⟨⟨stats.swaps + 1, stats.passes + 1⟩, final, ?_, ?_⟩
      · simp only [Judge.next, hrun]
        rfl
      · simp only [bind, Except.bind, reverseSegment_map, hstops]
        rfl

/-- Reversals of points are those of stops. -/
theorem twoOptStops?_points [Memory] (mode : Mode) (tour : List Point) :
    twoOptStops? s mode (tour.map .point) =
      (twoOpt? m mode tour).map fun (final, stats) => (final.map .point, stats) := by
  unfold twoOptStops?
  rw [List.length_map, Surface.exactPath?_points hs]
  by_cases hshort : tour.length < 4
  · unfold twoOpt? twoOpt
    rw [if_pos hshort, Procedure.runOn_bind_of_eq_ok (Procedure.runOn_get tour), if_pos hshort]
    rfl
  · rw [if_neg hshort]
    show (do let (final, stats) ← twoOpt? m mode tour; pure (final.map Stop.point, stats)) = _
    cases twoOpt? m mode tour <;> rfl

/-! ## Plans -/

omit hs in
/-- A nearest-neighbour tour has a leg, so it has a length only on a board that can be measured. -/
theorem measurable_of_greedy? {points tour : List Point} {start finish : Point} {n : Nat}
    (htour : greedy? m points start finish = .ok tour) (hlength : m.pathLength? tour = .ok n) :
    m.measurable = true := by
  obtain ⟨_, -, htour⟩ := bind_eq_ok.1 htour
  obtain rfl := pure_eq_ok.1 htour
  obtain ⟨_, hlegs, -⟩ := bind_eq_ok.1 hlength
  have htwo : ¬(greedy m points start finish).length < 2 := by
    unfold greedy
    rw [List.length_append, List.length_cons, List.length_singleton]
    omega
  unfold Metric.ensureLegs at hlegs
  rw [if_neg htwo] at hlegs
  exact ensure_eq_ok.1 hlegs

/-- What reversals leave of a tour of points is what they leave of the stops. -/
theorem settleStops_points [Memory] (works : Bool) (mode : Mode) (tour : List Point) :
    settleStops (tour.map .point)
        (if works then twoOptStops? s mode (tour.map .point) else .error .outOfMemory) =
      let (final, stats, optimized) :=
        settle tour ((if works then reversing else failing) m mode tour)
      (final.map .point, stats, optimized) := by
  cases works with
  | false => rfl
  | true =>
    rw [if_pos rfl, if_pos rfl, twoOptStops?_points hs]
    unfold reversing twoOpt?
    rcases (twoOpt m mode).runOn tour with ⟨_ | stats, final⟩ <;> rfl

/-- Stop by stop the plan for points is the one of the points. -/
theorem planDistances_points [Memory] (works : Bool) (request : Request) (points : List Point) :
    planDistances works s ⟨request.start, request.finish, request.mode, request.optimize⟩
        (points.map .point) =
      StopPlan.ofPlan <$> planWith (if works then reversing else failing) m request points := by
  unfold planDistances planWith
  simp only [map_bind, greedyStops?_points hs]
  refine bind_congr fun before => ?_
  cases htour : greedy? m points request.start request.finish with
  | error e => rfl
  | ok tour =>
    simp only [Except.map, Procedure.ofExcept_ok_bind]
    refine bind_congr fun after => ?_
    rw [Surface.pathLength?_points hs]
    cases hlength : m.pathLength? tour with
    | error e => rfl
    | ok n =>
      simp only [Except.map, Procedure.ofExcept_ok_bind]
      cases request.optimize with
      | false => rfl
      | true =>
        have hm : m.measurable = true := measurable_of_greedy? htour hlength
        simp only [if_true, map_bind, settleStops_points hs, Surface.pathLength?_points hs,
          pathLength?_eq_ok hm]
        rfl

/-- Plans for points are those of stops. -/
theorem planStops_points [Memory] (works : Bool) (request : Request) (points : List Point) :
    planStops works s ⟨request.start, request.finish, request.mode, request.optimize⟩
        (points.map .point) =
      StopPlan.ofPlan <$> planWith (if works then reversing else failing) m request points := by
  have hpath := Surface.exactPath?_points hs (request.start :: request.finish :: points)
  unfold planStops
  rw [List.map_cons, List.map_cons] at hpath
  rw [map_eq_pure_bind]
  simp only [hpath]

end

end Tour

/-! ## Compiled tours -/

theorem Metric.ensureDeparture_of_bounded [Memory] {m : Metric} (hm : m.looping = false)
    (tour : List Point) : Surface.leastBounded.ensureDeparture tour = m.ensureDeparture tour := by
  have hsame (p q : Point) : Surface.leastBounded.displacement p q = m.displacement p q := by
    simp [displacement, hm, Surface.leastBounded]
  induction tour with
  | nil => rfl
  | cons p r ih =>
    cases r with
    | nil => rfl
    | cons q r =>
      unfold ensureDeparture distance
      rw [hsame, ih]

namespace LooseGrid

theorem runOn_requireCells_of_sheet [Memory] {g : LooseGrid} {s : Sheet} (h : g.sheet = some s) :
    (requireCells : Procedure LooseGrid Sheet).runOn g = (.ok s, g) := by
  unfold requireCells
  rw [Procedure.runOn_bind_of_eq_ok (Procedure.runOn_get g), h]
  rfl

/-- The turmite can step off the last cell of a bounded loose grid where it can on a board on which
the same cell lies behind. -/
theorem ensureReachable_eq [Memory] {g : LooseGrid} {m : Metric} {last : Point}
    {heading : Direction} (hloose : g.looping = false) (hbounded : m.looping = false)
    (hback : g.surface.step? last heading.opposite = .ok (m.step last heading.opposite)) :
    g.ensureReachable last heading = Grid.ensureReachable m last heading := by
  unfold ensureReachable Grid.ensureReachable
  rw [hloose, hback, hbounded]
  rfl

/-- A bounded loose grid gives a tour the program, or the error, of the grid around its canvas, if
the points of the tour stand for the same cells on both, and so does the point before the last cell.
-/
theorem compileTour_eq [Memory] {g : LooseGrid} {config : GridConfig} {c : Canvas config}
    (hsheet : g.sheet = some ⟨config, c⟩) (hloose : g.looping = false)
    (hbounded : config.looping = false) {points : List Point}
    (hcells : ∀ p ∈ points, g.surface.normalize? p = .ok (config.normalize p))
    {heading : Direction}
    (hback : let last := (points.map config.normalize).getLastD default
      g.surface.step? last heading.opposite = .ok (config.step last heading.opposite))
    (offset : Int) (stopAfterDone : Bool) :
    (compileTour (points.map .point) heading offset stopAfterDone).runOn g =
      (((Grid.compileTour (points.map .point) heading offset stopAfterDone).runOn ⟨some c⟩).1,
        g) := by
  have hmapped : (points.map Stop.point).mapM
      (fun s => do g.surface.normalize? (← s.require "tour point")) =
        .ok (points.map config.normalize) := mapM_map_eq_ok hcells
  have hpoints : (points.map Stop.point).mapM (Stop.require "tour point") = .ok points := by
    simpa using mapM_map_eq_ok (f := Stop.require "tour point") (r := id) (l := points)
      fun p _ => rfl
  have hmeasurable : config.measurable = true := by
    unfold Metric.measurable
    rw [hbounded]
    rfl
  have hlegs := Metric.ensureLegs_of_measurable hmeasurable (points.map config.normalize)
  unfold compileTour Grid.compileTour
  cases !(points.map Stop.point).isEmpty with
  | false => rfl
  | true =>
    rw [Procedure.runOn_bind_of_eq_ok (Procedure.runOn_require_true _ _),
      Procedure.runOn_bind_of_eq_ok (Procedure.runOn_require_true _ _)]
    cases decide (0 ≤ offset) with
    | false => rfl
    | true =>
      rw [Procedure.runOn_bind_of_eq_ok (Procedure.runOn_require_true _ _),
        Procedure.runOn_bind_of_eq_ok (Procedure.runOn_require_true _ _),
        Procedure.runOn_bind_of_eq_ok (Procedure.runOn_get g), hmapped, hpoints]
      simp only [Procedure.ofExcept_ok_bind, ensureReachable_eq hloose hbounded hback, hlegs,
        Metric.ensureDeparture_of_bounded hbounded]
      cases Grid.ensureReachable config.toMetric _ heading with
      | error e => rfl
      | ok _ =>
        cases config.ensureDeparture (points.map config.normalize) with
        | error e => rfl
        | ok _ =>
          simp only [Procedure.ofExcept_ok_bind]
          rw [Procedure.runOn_bind_of_eq_ok (runOn_requireCells_of_sheet hsheet)]
          rfl

/-- A point short of the far edges stands for the same cell where a size is a number of binary64. -/
example : (Surface.irregular (.float 3.0) (.int 2) false).normalize? ⟨-1, 1⟩ =
    .ok ((⟨3, 2, by decide, by decide, false⟩ : Metric).normalize ⟨-1, 1⟩) := by
  rfl

end LooseGrid

end Turmite
