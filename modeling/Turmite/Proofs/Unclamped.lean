import Turmite.Proofs.Compilability
import Turmite.Proofs.Retracing

/-!
# Moves that are not clamped

On a bounded board a heading is refused just on the edge behind it (`Metric.enterable_iff`). A walk
that is as short as its ends allow is nowhere clamped, since a clamped step would be wasted
(`Metric.unclamped_of_le_distance`); the legs of a tour are such walks, and the steps off the last
cell and back are not clamped where the heading is not refused (`Emit.unclamped_walk`). So a turmite
that follows the program of a tour is on another cell, beside the last one, after each step
(`Grid.heading_decided`).
-/

namespace Turmite

/-- Cells next to each other in a row or a column. -/
def Point.Beside (p q : Point) : Prop := (q.x - p.x).natAbs + (q.y - p.y).natAbs = 1

instance (p q : Point) : Decidable (p.Beside q) := by
  unfold Point.Beside
  infer_instance

theorem Point.beside_neighbour (p : Point) (d : Direction) : p.Beside (p.neighbour d) := by
  unfold Beside
  rw [neighbour_x, neighbour_y]
  cases d <;> simp only [Direction.dx, Direction.dy] <;> omega

namespace Metric

variable {m : Metric} {p : Point} {d : Direction} {moves : List Direction}

/-! ## The edge behind a heading -/

/-- A cell from which a step against the direction would leave the board. -/
def EdgeBehind (m : Metric) (p : Point) : Direction → Prop
  | .right => p.x = 0
  | .left => p.x = m.cols - 1
  | .up => p.y = m.rows - 1
  | .down => p.y = 0

instance (m : Metric) (p : Point) (d : Direction) : Decidable (m.EdgeBehind p d) :=
  match d with
  | .right => inferInstanceAs (Decidable (p.x = 0))
  | .left => inferInstanceAs (Decidable (p.x = m.cols - 1))
  | .up => inferInstanceAs (Decidable (p.y = m.rows - 1))
  | .down => inferInstanceAs (Decidable (p.y = 0))

/-- On a bounded board a step is taken or leads nowhere. -/
theorem step_eq_or (hl : m.looping = false) (hp : m.Contains p) (d : Direction) :
    m.step p d = p.neighbour d ∨ m.step p d = p := by
  unfold Contains at hp
  unfold step normalize
  rw [hl, if_neg Bool.false_ne_true]
  rcases d with _ | _ | _ | _ <;>
    simp only [Point.ext_iff, Point.neighbour_x, Point.neighbour_y, Direction.dx,
      Direction.dy] <;> omega

theorem step_opposite_eq_self_iff (hl : m.looping = false) (hp : m.Contains p) :
    m.step p d.opposite = p ↔ m.EdgeBehind p d := by
  unfold Contains at hp
  unfold step normalize
  rw [hl, if_neg Bool.false_ne_true]
  rcases d with _ | _ | _ | _ <;>
    simp only [Point.ext_iff, Point.neighbour_x, Point.neighbour_y, Direction.dx, Direction.dy,
      Direction.opposite, EdgeBehind] <;> omega

theorem enterable_iff (hp : m.Contains p) :
    m.Enterable p d ↔ ¬(m.looping = false ∧ m.EdgeBehind p d) := by
  unfold Enterable
  cases hl : m.looping
  · rw [← step_opposite_eq_self_iff hl hp]
    simp
  · simp

/-! ## Walks that are not clamped -/

/-- Each of the moves from a cell leads to the neighbour in its direction. -/
def Unclamped (m : Metric) (p : Point) : List Direction → Prop
  | [] => True
  | d :: moves => m.step p d = p.neighbour d ∧ m.Unclamped (m.step p d) moves

theorem unclamped_append {moves' : List Direction} (h : m.Unclamped p moves)
    (h' : m.Unclamped (m.follow p moves) moves') : m.Unclamped p (moves ++ moves') := by
  induction moves generalizing p with
  | nil => exact h'
  | cons d moves ih => exact ⟨h.1, ih h.2 h'⟩

theorem Unclamped.take (h : m.Unclamped p moves) (n : Nat) : m.Unclamped p (moves.take n) := by
  induction moves generalizing p n with
  | nil =>
    rw [List.take_nil]
    trivial
  | cons d moves ih =>
    cases n with
    | zero => trivial
    | succ n => exact ⟨h.1, ih h.2 n⟩

/-- A track without clamped moves goes from cell to cell. -/
theorem Unclamped.isChain_track (h : m.Unclamped p moves) :
    (m.track p moves).IsChain Point.Beside := by
  induction moves generalizing p with
  | nil => exact List.IsChain.singleton p
  | cons d moves ih =>
    rw [track_cons, List.isChain_cons]
    refine ⟨fun q hq => ?_, ih h.2⟩
    rw [head?_track, Option.mem_some_iff] at hq
    rw [← hq, h.1]
    exact p.beside_neighbour d

/-- A walk between cells that could not be shorter is not clamped. -/
theorem unclamped_of_le_distance (hl : m.looping = false) (hp : m.Contains p)
    (h : moves.length ≤ m.distance p (m.follow p moves)) : m.Unclamped p moves := by
  have hm : m.looping → m.Exact := fun h => absurd h (by simp [hl])
  induction moves generalizing p with
  | nil => trivial
  | cons d moves ih =>
    rw [follow_cons, List.length_cons] at h
    have hthrough := distance_triangle hm p (m.step p d) (m.follow (m.step p d) moves)
    have hstep := distance_step_le hm hp d
    have hrest := distance_follow_le hm (m.contains_step p d) moves
    -- A clamped first step would leave the whole distance to one move less.
    refine ⟨(step_eq_or hl hp d).resolve_right fun hstay => ?_,
      ih (m.contains_step p d) (by omega)⟩
    rw [hstay, distance_self] at hthrough
    rw [hstay] at hrest h
    omega

theorem unclamped_displacement (hl : m.looping = false) {q : Point}
    (hp : m.Contains p) (hq : m.Contains q) : m.Unclamped p (m.displacement p q).moves := by
  refine unclamped_of_le_distance hl hp ?_
  rw [follow_displacement hp hq, Displacement.length_moves]
  exact Nat.le_refl _

theorem unclamped_expandMoves (hl : m.looping = false) {r : List Point}
    (h : ∀ q ∈ p :: r, m.Contains q) : m.Unclamped p (m.expandMoves (p :: r)) := by
  induction r generalizing p with
  | nil => trivial
  | cons q r ih =>
    have hp := h p List.mem_cons_self
    have hrest := fun q' hq' => h q' (List.mem_cons_of_mem p hq')
    rw [expandMoves_cons_cons]
    refine unclamped_append (unclamped_displacement hl hp (hrest q List.mem_cons_self)) ?_
    rw [follow_displacement hp (hrest q List.mem_cons_self)]
    exact ih hrest

/-- Where the heading can be entered neither the step off the cell nor the step back is clamped. -/
theorem unclamped_turns (hl : m.looping = false) (hp : m.Contains p) (h : m.Enterable p d) :
    m.Unclamped p [d.opposite, d] := by
  have hoff : m.step p d.opposite = p.neighbour d.opposite :=
    (step_eq_or hl hp d.opposite).resolve_right (h.resolve_left (by simp [hl]))
  refine ⟨hoff, ?_, trivial⟩
  rw [step_opposite_step hp h, hoff]
  ext <;> simp [Direction.dx_opposite, Direction.dy_opposite]

end Metric

theorem Emit.unclamped_walk {m : Metric} (hl : m.looping = false) {p : Point}
    {r : List Point} (h : ∀ q ∈ p :: r, m.Contains q) {heading : Direction}
    (henter : m.Enterable ((p :: r).getLast (List.cons_ne_nil p r)) heading) :
    m.Unclamped p (walk m (p :: r) heading) := by
  refine Metric.unclamped_append (Metric.unclamped_expandMoves hl h) ?_
  rw [Metric.follow_expandMoves h]
  exact Metric.unclamped_turns hl (h _ (List.getLast_mem _)) henter

namespace Grid

section

variable [Memory] {config : GridConfig} {c : Canvas config}

/-- The program of a tour on a bounded board never leads the turmite against an edge, on whatever
canvas it runs and wherever its run is cut. -/
theorem unclamped_emitted (hl : config.looping = false)
    (hcolors : ∀ p, config.Contains p → 0 ≤ c.get p) {start p : Point} {r : List Point}
    (hcontains : ∀ q ∈ p :: r, config.Contains q) (hstart : p = config.normalize start)
    {heading : Direction}
    (henter : config.Enterable ((p :: r).getLast (List.cons_ne_nil p r)) heading) {offset : Int}
    (h0 : 0 ≤ offset) (stopAfterDone : Bool) {lazyInit : Bool}
    (canvas : Canvas ⟨config.toMetric, lazyInit⟩) {limit : Int} (hlimit : 0 ≤ limit) :
    let program := (emitted c p r heading offset stopAfterDone).program
    ∃ replay final, (program.replay start offset limit).runOn ⟨some canvas⟩ =
        (.ok replay, ⟨some final⟩) ∧
      config.Unclamped (config.normalize start) (program.itinerary limit.toNat offset) ∧
      replay.trail.length = min limit.toNat program.ruleCount + 1 ∧
      replay.trail.IsChain Point.Beside := by
  subst hstart
  intro program
  have hperforms := emitted_performs c hcontains heading offset stopAfterDone h0
  have hstop := nextRule_emitted c hcontains heading offset stopAfterDone h0
  have henters : config.normalize start =
      (⟨config.toMetric, lazyInit⟩ : GridConfig).normalize start := rfl
  obtain ⟨replay, final, hreplay⟩ := Program.exists_replay_of_performs henters hperforms
    (fun q hq => ⟨hcolors q hq, c.fitsWord_get q⟩) hstop hlimit canvas
  have hitinerary := Program.itinerary_of_performs hperforms hstop limit.toNat
  have hwalk := (Emit.unclamped_walk hl hcontains henter).take limit.toNat
  have htrail := Program.trail_replay hreplay
  rw [← hitinerary] at hwalk
  refine ⟨replay, final, hreplay, hwalk, ?_, ?_⟩
  · rw [htrail, Metric.length_track, hitinerary, List.length_take, ruleCount_emitted c hcontains]
  · rw [htrail]
    exact hwalk.isChain_track

/-- A tour is refused for its heading just on a bounded board, where its last cell is on the edge
behind the heading, and else compiled. On a bounded board the program never leads the turmite
against an edge: in each step of a replay from the start of the tour, it goes to a cell beside the
one it stands on. -/
theorem heading_decided (hcolors : ∀ p, config.Contains p → 0 ≤ c.get p) (start : Point)
    (others : List Point) (heading : Direction) {offset : Int} (h0 : 0 ≤ offset)
    (stopAfterDone : Bool) :
    let last := config.normalize ((start :: others).getLast (List.cons_ne_nil start others))
    let compiled := (compileTour ((start :: others).map Stop.point) heading offset
      stopAfterDone).runOn ⟨some c⟩
    (compiled.1 = .error (InvalidArgument.headingUnreachable heading last) ↔
      config.looping = false ∧ config.EdgeBehind last heading) ∧
    (¬(config.looping = false ∧ config.EdgeBehind last heading) →
      ∃ result, compiled = (.ok result, ⟨some c⟩)) ∧
    ∀ result g, compiled = (.ok result, g) → config.looping = false →
      ∀ (lazyInit : Bool) (canvas : Canvas ⟨config.toMetric, lazyInit⟩) (limit : Int), 0 ≤ limit →
        ∃ replay final, (result.program.replay start offset limit).runOn ⟨some canvas⟩ =
            (.ok replay, ⟨some final⟩) ∧
          config.Unclamped (config.normalize start)
            (result.program.itinerary limit.toNat offset) ∧
          replay.trail.length = min limit.toNat result.program.ruleCount + 1 ∧
          replay.trail.IsChain Point.Beside := by
  intro last compiled
  have hcells : (start :: others).map config.normalize =
      config.normalize start :: others.map config.normalize := rfl
  have hcontains := GridConfig.contains_of_map_normalize hcells
  have hlast : (config.normalize start :: others.map config.normalize).getLast
      (List.cons_ne_nil _ _) = last :=
    List.getLast_map (f := config.normalize) (l := start :: others) (List.cons_ne_nil _ _)
  have henter : config.Enterable last heading ↔ _ :=
    Metric.enterable_iff (config.contains_normalize _)
  rw [← hlast] at henter
  by_cases hedge : config.looping = false ∧ config.EdgeBehind last heading
  · have hrefused := runOn_compileTour_of_not_enterable (c := c) hcells
      (fun h => henter.1 h (hlast ▸ hedge)) h0 stopAfterDone
    rw [hlast] at hrefused
    refine ⟨iff_of_true (congrArg Prod.fst hrefused) hedge, absurd hedge, fun result g hok => ?_⟩
    cases hrefused.symm.trans hok
  · have henter := henter.2 (hlast ▸ hedge)
    have hok := runOn_compileTour_of_enterable (c := c) hcells henter h0 stopAfterDone
    refine ⟨iff_of_false (fun herror => ?_) hedge, fun _ => ⟨_, hok⟩, ?_⟩
    · cases (congrArg Prod.fst hok).symm.trans herror
    · rintro result g hresult hl lazyInit canvas limit hlimit
      obtain ⟨heq, -⟩ := Prod.mk.inj (hok.symm.trans hresult)
      obtain rfl := Except.ok.inj heq
      exact unclamped_emitted hl hcolors hcontains rfl henter h0 stopAfterDone canvas hlimit

end

/-- A tour to the upper right corner is refused if it is to end to the left, and compiled if it is
to end upwards; a replay that is cut short goes from cell to cell too. -/
theorem heading_decided_corner :
    (∀ p, strip.Contains p → 0 ≤ spot.get p) ∧ (0 : Int) ≤ 3 ∧ strip.EdgeBehind ⟨3, 0⟩ .left ∧
    ((compileTour (([⟨0, 5⟩, ⟨9, -3⟩] : List Point).map Stop.point) .left 3 false).runOn
        ⟨some spot⟩).1 = .error (InvalidArgument.headingUnreachable .left ⟨3, 0⟩) ∧
    ¬strip.EdgeBehind ⟨3, 0⟩ .up ∧
    ∃ result, (compileTour (([⟨0, 5⟩, ⟨9, -3⟩] : List Point).map Stop.point) .up 3 true).runOn
        ⟨some spot⟩ = (.ok result, ⟨some spot⟩) ∧
      ∃ replay, ∃ final : Canvas ⟨strip, true⟩,
        (result.program.replay ⟨0, 5⟩ 3 5).runOn ⟨some coat⟩ = (.ok replay, ⟨some final⟩) ∧
        replay.trail.length = min 5 result.program.ruleCount + 1 ∧
        replay.trail.IsChain Point.Beside := by
  have hleft : strip.EdgeBehind ⟨3, 0⟩ .left := by decide
  have hup : ¬strip.EdgeBehind ⟨3, 0⟩ .up := by decide
  obtain ⟨hrefused, -, -⟩ := heading_decided (c := spot) nonneg_spot ⟨0, 5⟩ [⟨9, -3⟩] .left
    (show (0 : Int) ≤ 3 by decide) false
  obtain ⟨-, hcompiled, hreplayed⟩ := heading_decided (c := spot) nonneg_spot ⟨0, 5⟩ [⟨9, -3⟩] .up
    (show (0 : Int) ≤ 3 by decide) true
  obtain ⟨result, hresult⟩ := hcompiled fun h => hup h.2
  obtain ⟨replay, final, hreplay, -, hlength, hchain⟩ :=
    hreplayed result _ hresult rfl true coat 5 (by decide)
  exact ⟨nonneg_spot, by decide, hleft, hrefused.2 ⟨rfl, hleft⟩, hup, result, hresult, replay,
    final, hreplay, hlength, hchain⟩

end Grid
end Turmite
