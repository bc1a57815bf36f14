import Turmite.Proofs.Retracing

/-!
# What a replay leaves

A turmite follows the first rules of the states that it takes (`Program.course`), whatever the
colors of the cells are. Where a run is not refused, these rules tell its states, its cells and the
colors that it gives them, one after the other (`Program.outcome_runFrom`), and of the colors that a
cell is given it has the last one (`Canvas.get_paintEach_of_last`). So what a replay does to the
grid is determined by its trail and its states (`Program.replay_determined`).
-/

namespace Turmite

/-! ## Cells painted one after the other -/

namespace Canvas

variable [Memory] {config : GridConfig} {paints : List (Point × Int)} {q : Point}

/-- Cells are given colors, one after the other. -/
def paintEach (c : Canvas config) (paints : List (Point × Int)) : Canvas config :=
  paints.foldl (fun c paint => c.set paint.1 paint.2) c

theorem paintEach_cons (c : Canvas config) (paint : Point × Int) (paints : List (Point × Int)) :
    c.paintEach (paint :: paints) = (c.set paint.1 paint.2).paintEach paints := rfl

/-- Cells that are not painted keep their colors. -/
theorem get_paintEach_of_forall_ne (c : Canvas config)
    (hcells : ∀ paint ∈ paints, config.Contains paint.1) (hq : config.Contains q)
    (h : ∀ paint ∈ paints, paint.1 ≠ q) : (c.paintEach paints).get q = c.get q := by
  induction paints generalizing c with
  | nil => rfl
  | cons paint paints ih =>
    rw [List.forall_mem_cons] at hcells h
    rw [paintEach_cons, ih _ hcells.2 h.2, get_set_of_ne c hcells.1 hq h.1]

/-- A cell has the last color that it was given. -/
theorem get_paintEach_of_last (c : Canvas config)
    (hcells : ∀ paint ∈ paints, config.Contains paint.1) (hw : ∀ paint ∈ paints, fitsWord paint.2)
    {i : Nat} {color : Int} (hi : paints[i]? = some (q, color))
    (hlast : ∀ j paint, i < j → paints[j]? = some paint → paint.1 ≠ q) :
    (c.paintEach paints).get q = color := by
  induction paints generalizing c i with
  | nil => cases hi
  | cons paint paints ih =>
    rw [List.forall_mem_cons] at hcells hw
    rw [paintEach_cons]
    cases i with
    | zero =>
      obtain rfl : paint = (q, color) := Option.some.inj hi
      have hlater : ∀ later ∈ paints, later.1 ≠ q := by
        intro later hmem
        obtain ⟨j, hj⟩ := List.getElem?_of_mem hmem
        exact hlast (j + 1) later (Nat.succ_pos j) hj
      rw [get_paintEach_of_forall_ne _ hcells.2 hcells.1 hlater, get_set_self c hcells.1 hw.1]
    | succ i =>
      exact ih _ hcells.2 hw.2 hi fun j later hj hlater =>
        hlast (j + 1) later (Nat.succ_lt_succ hj) hlater

end Canvas

theorem Grid.runOn_paint_eq_ok [Memory] {config : GridConfig} {c : Canvas config} {p : Point}
    (hp : config.Contains p) {color a : Int} {g : Grid config}
    (h : (paint p color).runOn ⟨some c⟩ = (.ok a, g)) :
    fitsWord color ∧ g = ⟨some (c.set p color)⟩ := by
  unfold paint at h
  obtain ⟨_, -, h⟩ := Procedure.runOn_ofExcept_bind_eq_ok.1 h
  rw [Procedure.runOn_bind_of_eq_ok (runOn_requireCells c),
    Procedure.runOn_require_bind_eq_ok, config.normalize_of_contains hp] at h
  exact ⟨h.1, (Prod.mk.inj h.2).2.symm⟩

namespace Metric

variable {m : Metric} {p : Point} {moves : List Direction}

theorem contains_of_mem_track (hp : m.Contains p) : ∀ q ∈ m.track p moves, m.Contains q := by
  rw [track_eq_concat]
  refine List.forall_mem_append.2 ⟨fun q => contains_of_mem_departures hp, ?_⟩
  rw [List.forall_mem_singleton]
  exact contains_follow hp moves

/-- The cells of a track before the last one are those that are left. -/
theorem getElem?_track_of_lt (p : Point) {i : Nat} (h : i < moves.length) :
    (m.track p moves)[i]? = (m.departures p moves)[i]? := by
  rw [track_eq_concat, List.getElem?_append_left (by rwa [length_departures])]

/-- A track goes on from each cell that is left by the move there. -/
theorem exists_getElem?_track (p : Point) {i : Nat} {d : Direction} (h : moves[i]? = some d) :
    ∃ cell, (m.departures p moves)[i]? = some cell ∧ (m.track p moves)[i]? = some cell ∧
      (m.track p moves)[i + 1]? = some (m.step cell d) := by
  obtain ⟨hi, rfl⟩ := List.getElem?_eq_some_iff.1 h
  have hhere := getElem?_track (m := m) (p := p) (Nat.le_of_lt hi)
  refine ⟨m.follow p (moves.take i), ?_, hhere, ?_⟩
  · rw [← getElem?_track_of_lt p hi, hhere]
  · rw [getElem?_track hi, ← List.take_append_getElem hi, follow_append, follow_cons, follow_nil]

end Metric

namespace Program

variable {p : Program} {limit : Nat} {state : Int}

/-! ## The rules that are followed -/

/-- The rules that a turmite follows from a state on, at most `limit` of them. -/
def course (p : Program) : (limit : Nat) → (state : Int) → List Rule
  | 0, _ => []
  | limit + 1, state =>
    match p.nextRule state with
    | .ok (.ok rule) => rule :: course p limit rule.next
    | _ => []

/-- The states that a turmite is in, from a state on, as it follows rules. -/
def history (state : Int) (rules : List Rule) : List Int := state :: rules.map (·.next)

theorem course_succ (p : Program) (limit : Nat) (state : Int) :
    p.course (limit + 1) state =
      match p.nextRule state with
      | .ok (.ok rule) => rule :: p.course limit rule.next
      | _ => [] := rfl

theorem course_succ_of_follows {rule : Rule} (h : p.nextRule state = .ok (.ok rule)) (limit : Nat) :
    p.course (limit + 1) state = rule :: p.course limit rule.next := by
  rw [course_succ, h]

theorem course_of_stops {reason : HaltReason} (h : p.nextRule state = .error reason) (limit : Nat) :
    p.course limit state = [] := by
  cases limit with
  | zero => rfl
  | succ limit => rw [course_succ, h]

theorem map_move_course (p : Program) (limit : Nat) (state : Int) :
    (p.course limit state).map (·.move) = p.itinerary limit state := by
  induction limit generalizing state with
  | zero => rfl
  | succ limit ih =>
    rw [course_succ, itinerary]
    rcases p.nextRule state with _ | _ | rule
    · rfl
    · rfl
    · exact congrArg (rule.move :: ·) (ih rule.next)

theorem length_course_le (p : Program) (limit : Nat) (state : Int) :
    (p.course limit state).length ≤ limit := by
  induction limit generalizing state with
  | zero => exact Nat.le_refl 0
  | succ limit ih =>
    rw [course_succ]
    split
    · exact Nat.succ_le_succ (ih _)
    · exact Nat.zero_le _

/-- Each rule of a course is the one to follow in the state before it. -/
theorem nextRule_of_getElem?_course {i : Nat} {rule : Rule}
    (h : (p.course limit state)[i]? = some rule) :
    ∃ s, (history state (p.course limit state))[i]? = some s ∧ p.nextRule s = .ok (.ok rule) := by
  induction limit generalizing state i with
  | zero => cases h
  | succ limit ih =>
    rw [course_succ] at h ⊢
    split at h
    · rename_i first hrule
      cases i with
      | zero =>
        obtain rfl := Option.some.inj h
        exact ⟨state, rfl, hrule⟩
      | succ i => exact ih h
    · cases h

theorem nextRule_eq_error {reason : HaltReason} (h : p.nextRule state = .error reason) :
    reason = .haltState ∧ state = haltState ∨
      reason = .missingState ∧ state ≠ haltState ∧ p.contains state = false := by
  unfold nextRule at h
  unfold contains
  split_ifs at h with hhalt
  · exact .inl ⟨(Except.error.inj h).symm, hhalt⟩
  · split at h
    · cases h
    · cases h
    · rename_i hrules
      exact .inr ⟨(Except.error.inj h).symm, hhalt, by rw [hrules, Option.isSome_none]⟩

theorem nextRule_eq_ok {first : Except Error Rule} (h : p.nextRule state = .ok first) :
    state ≠ haltState ∧ p.contains state = true := by
  unfold nextRule at h
  unfold contains
  split_ifs at h with hhalt
  refine ⟨hhalt, ?_⟩
  split at h
  · rename_i hrules
    rw [hrules, Option.isSome_some]
  · rename_i hrules
    rw [hrules, Option.isSome_some]
  · cases h

theorem rules?_of_nextRule {rule : Rule} (h : p.nextRule state = .ok (.ok rule)) :
    ∃ rest, p.rules? state = some (rule :: rest) := by
  unfold nextRule at h
  split_ifs at h
  split at h
  · rename_i first rest hrules
    obtain rfl := Except.ok.inj (Except.ok.inj h)
    exact ⟨rest, hrules⟩
  · cases h
  · cases h

/-- In step `i` a turmite goes on from a state and a cell by the first rule of the state. -/
def StepsBy (p : Program) (m : Metric) (states : List Int) (trail : List Point) (i : Nat)
    (cell : Point) (rule : Rule) : Prop :=
  (∃ state rest, states[i]? = some state ∧ state ≠ haltState ∧
    p.rules? state = some (rule :: rest)) ∧
  trail[i]? = some cell ∧ states[i + 1]? = some rule.next ∧
  trail[i + 1]? = some (m.step cell rule.move)

/-- Each step of a course is by its rule. -/
theorem stepsBy_of_getElem?_course (m : Metric) (position : Point) {i : Nat} {rule : Rule}
    (h : (p.course limit state)[i]? = some rule) :
    ∃ cell, (m.departures position (p.itinerary limit state))[i]? = some cell ∧
      p.StepsBy m (history state (p.course limit state))
        (m.track position (p.itinerary limit state)) i cell rule := by
  obtain ⟨s, hs, hrule⟩ := nextRule_of_getElem?_course h
  obtain ⟨rest, hrules⟩ := rules?_of_nextRule hrule
  have hmove : (p.itinerary limit state)[i]? = some rule.move := by
    rw [← map_move_course, List.getElem?_map, h, Option.map_some]
  have hnext : (history state (p.course limit state))[i + 1]? = some rule.next := by
    rw [history, List.getElem?_cons_succ, List.getElem?_map, h, Option.map_some]
  obtain ⟨cell, hcell, hhere, hthere⟩ := Metric.exists_getElem?_track (m := m) position hmove
  exact ⟨cell, hcell, ⟨s, rest, hs, (nextRule_eq_ok hrule).1, hrules⟩, hhere, hnext, hthere⟩

/-! ## Runs that are not refused -/

section Outcomes

variable [Memory] {config : GridConfig}

/-- What a run has come to that was not refused: it has followed a course, painting the cells that
it left, and it stops for the reason that its state and the number of its steps give. -/
structure Outcome (p : Program) (limit : Nat) (state : Int) (position : Point)
    (trail : List Point) (c : Canvas config) (replay : Replay) (g : Grid config) : Prop where
  position_eq : replay.position = config.follow position (p.itinerary limit state)
  steps_eq : replay.steps = trail.length + (p.course limit state).length
  state_eq : (history state (p.course limit state)).getLast? = some replay.state
  stops : p.nextRule replay.state = .error replay.haltedBy ∨
    (∃ first, p.nextRule replay.state = .ok first) ∧ replay.haltedBy = .maxSteps ∧
      (p.course limit state).length = limit
  fits : ∀ rule ∈ p.course limit state, fitsWord rule.color
  grid_eq : g = ⟨some (c.paintEach ((config.departures position (p.itinerary limit state)).zip
    ((p.course limit state).map (·.color))))⟩

/-- A run that stops at once has come to nothing. -/
theorem outcome_stop {position : Point} {trail cells : List Point} {c : Canvas config}
    {reason : HaltReason} (hcourse : p.course limit state = [])
    (hstops : p.nextRule state = .error reason ∨
      (∃ first, p.nextRule state = .ok first) ∧ reason = .maxSteps ∧ limit = 0) :
    p.Outcome limit state position trail c ⟨position, trail.length, state, reason, cells⟩
      ⟨some c⟩ := by
  have hitinerary : p.itinerary limit state = [] := by
    rw [← map_move_course, hcourse, List.map_nil]
  constructor
  · rw [hitinerary, Metric.follow_nil]
  · rw [hcourse, List.length_nil, Nat.add_zero]
  · rw [hcourse]
    rfl
  · rw [hcourse]
    exact hstops.imp_right fun h => ⟨h.1, h.2.1, h.2.2.symm⟩
  · rw [hcourse]
    simp
  · rw [hcourse, hitinerary]
    rfl

/-- A step of a run leaves the rest of it to the next state and the next cell. -/
theorem Outcome.step {position : Point} {trail : List Point} {c : Canvas config}
    {replay : Replay} {g : Grid config} {rule : Rule} (hrule : p.nextRule state = .ok (.ok rule))
    (hw : fitsWord rule.color)
    (h : p.Outcome limit rule.next (config.step position rule.move) (position :: trail)
      (c.set position rule.color) replay g) :
    p.Outcome (limit + 1) state position trail c replay g := by
  have hcourse := course_succ_of_follows hrule limit
  have hitinerary : p.itinerary (limit + 1) state = rule.move :: p.itinerary limit rule.next := by
    rw [← map_move_course, ← map_move_course, hcourse, List.map_cons]
  constructor
  · rw [hitinerary, Metric.follow_cons, h.position_eq]
  · rw [hcourse, h.steps_eq, List.length_cons, List.length_cons]
    omega
  · rw [hcourse, ← h.state_eq]
    rfl
  · rw [hcourse, List.length_cons]
    exact h.stops.imp_right fun ⟨hfirst, hreason, hlimit⟩ => ⟨hfirst, hreason, congrArg (· + 1) hlimit⟩
  · rw [hcourse]
    exact List.forall_mem_cons.2 ⟨hw, h.fits⟩
  · rw [hcourse, hitinerary, h.grid_eq]
    rfl

theorem outcome_runFrom {position : Point} {trail : List Point} {c : Canvas config}
    {replay : Replay} {g : Grid config} (hp : config.Contains position)
    (h : (p.runFrom limit state position trail).runOn ⟨some c⟩ = (.ok replay, g)) :
    p.Outcome limit state position trail c replay g := by
  induction limit generalizing state position trail c with
  | zero =>
    rw [runFrom] at h
    rcases hrule : p.nextRule state with reason | first
    · simp only [hrule] at h
      cases h
      exact outcome_stop rfl (.inl hrule)
    · simp only [hrule] at h
      cases h
      exact outcome_stop rfl (.inr ⟨⟨first, hrule⟩, rfl, rfl⟩)
  | succ limit ih =>
    rw [runFrom] at h
    rcases hrule : p.nextRule state with reason | first
    · simp only [hrule] at h
      cases h
      exact outcome_stop (course_of_stops hrule _) (.inl hrule)
    · simp only [hrule, Procedure.runOn_ofExcept_bind_eq_ok] at h
      obtain ⟨rule, rfl, h⟩ := h
      obtain ⟨_, _, hpaint, h⟩ := Procedure.runOn_bind_eq_ok.1 h
      obtain ⟨hw, rfl⟩ := Grid.runOn_paint_eq_ok hp hpaint
      exact .step hrule hw (ih (config.contains_step position rule.move) h)

variable {position : Point} {trail : List Point} {c final : Canvas config} {replay : Replay}

/-- Why a run stops, and that it is not stopped before its limit. -/
theorem Outcome.haltedBy_eq {g : Grid config}
    (h : p.Outcome limit state position trail c replay g) :
    replay.haltedBy = (if replay.state = haltState then .haltState
      else if p.contains replay.state then .maxSteps else .missingState) ∧
    (replay.haltedBy = .maxSteps → (p.course limit state).length = limit) := by
  rcases h.stops with hstops | ⟨⟨first, hfirst⟩, hreason, hlimit⟩
  · rcases nextRule_eq_error hstops with ⟨hreason, hhalt⟩ | ⟨hreason, hhalt, hmissing⟩
    · rw [hreason, if_pos hhalt]
      exact ⟨rfl, nofun⟩
    · rw [hreason, if_neg hhalt, hmissing]
      exact ⟨rfl, nofun⟩
  · obtain ⟨hhalt, hcontains⟩ := nextRule_eq_ok hfirst
    rw [hreason, if_neg hhalt, hcontains]
    exact ⟨rfl, fun _ => hlimit⟩

variable (hp : config.Contains position)
  (h : p.Outcome limit state position trail c replay ⟨some final⟩)

include hp h

/-- A cell that is left and not left again has the color of the rule followed there. -/
theorem Outcome.get_eq_color {i : Nat} {cell : Point} {rule : Rule}
    (hrule : (p.course limit state)[i]? = some rule)
    (hcell : (config.departures position (p.itinerary limit state))[i]? = some cell)
    (hlast : ∀ j, i < j →
      (config.departures position (p.itinerary limit state))[j]? ≠ some cell) :
    final.get cell = rule.color := by
  obtain rfl := Option.some.inj (Grid.mk.inj h.grid_eq)
  have hcolor : ((p.course limit state).map (·.color))[i]? = some rule.color := by
    rw [List.getElem?_map, hrule, Option.map_some]
  refine Canvas.get_paintEach_of_last c ?_ ?_
    (List.getElem?_zip_eq_some.2 ⟨hcell, hcolor⟩) fun j paint hj hpaint heq => ?_
  · exact fun paint hmem => config.contains_of_mem_departures hp (List.of_mem_zip hmem).1
  · intro paint hmem
    obtain ⟨rule, hmem, heq⟩ := List.mem_map.1 (List.of_mem_zip hmem).2
    rw [← heq]
    exact h.fits rule hmem
  · obtain ⟨hj', -⟩ := List.getElem?_zip_eq_some.1 hpaint
    exact hlast j hj (heq ▸ hj')

/-- A cell that is not left keeps its color. -/
theorem Outcome.get_eq_get {q : Point} (hq : config.Contains q)
    (hnot : q ∉ config.departures position (p.itinerary limit state)) :
    final.get q = c.get q := by
  obtain rfl := Option.some.inj (Grid.mk.inj h.grid_eq)
  refine Canvas.get_paintEach_of_forall_ne c ?_ hq fun paint hmem heq => ?_
  · exact fun paint hmem => config.contains_of_mem_departures hp (List.of_mem_zip hmem).1
  · exact hnot (heq ▸ (List.of_mem_zip hmem).1)

end Outcomes

/-- A replay that is not refused goes from cell to cell of the grid, in each step by the first rule
of the state that it is in, until it comes to the halting state, to a state that the program does
not have, or to the greatest number of steps. A cell has the color of the rule that was followed
when it was left for the last time, or, if it was not left, the one that it had. -/
theorem replay_determined [Memory] {config : GridConfig} {start : Point}
    {startState maxSteps : Int} {c : Canvas config} {replay : Replay} {g : Grid config}
    (h : (p.replay start startState maxSteps).runOn ⟨some c⟩ = (.ok replay, g)) :
    ∃ (final : Canvas config) (states : List Int), g = ⟨some final⟩ ∧
      replay.steps ≤ maxSteps ∧ replay.trail.length = replay.steps + 1 ∧
      (∀ q ∈ replay.trail, config.Contains q) ∧
      replay.trail.head? = some (config.normalize start) ∧
      replay.trail.getLast? = some replay.position ∧
      states.length = replay.steps + 1 ∧ states.head? = some startState ∧
      states.getLast? = some replay.state ∧
      (∀ i < replay.steps, ∃ cell rule,
        p.StepsBy config.toMetric states replay.trail i cell rule ∧
        ((∀ j, i < j → j < replay.steps → replay.trail[j]? ≠ some cell) →
          final.get cell = rule.color)) ∧
      (∀ q, config.Contains q → (∀ i < replay.steps, replay.trail[i]? ≠ some q) →
        final.get q = c.get q) ∧
      replay.haltedBy = (if replay.state = haltState then .haltState
        else if p.contains replay.state then .maxSteps else .missingState) ∧
      (replay.haltedBy = .maxSteps → replay.steps = maxSteps) := by
  have htrail := trail_replay h
  obtain ⟨hlimit, h⟩ := Procedure.runOn_require_bind_eq_ok.1 h
  rw [decide_eq_true_eq] at hlimit
  have hstart := config.contains_normalize start
  have houtcome := outcome_runFrom hstart h
  obtain ⟨final, rfl⟩ : ∃ final : Canvas config, g = ⟨some final⟩ := ⟨_, houtcome.grid_eq⟩
  have hmoves : (p.itinerary maxSteps.toNat startState).length = replay.steps := by
    rw [houtcome.steps_eq, ← map_move_course, List.length_map, List.length_nil, Nat.zero_add]
  have hrules : (p.course maxSteps.toNat startState).length = replay.steps := by
    rw [houtcome.steps_eq, List.length_nil, Nat.zero_add]
  have hleft {i : Nat} {q : Point} (hi : (config.departures (config.normalize start)
      (p.itinerary maxSteps.toNat startState))[i]? = some q) :
      i < replay.steps ∧ replay.trail[i]? = some q := by
    have hlt := (List.getElem?_eq_some_iff.1 hi).1
    rw [Metric.length_departures] at hlt
    rw [htrail, Metric.getElem?_track_of_lt _ hlt]
    exact ⟨hmoves ▸ hlt, hi⟩
  have hlength := length_course_le p maxSteps.toNat startState
  refine ⟨final, history startState (p.course maxSteps.toNat startState), rfl, by omega, ?_, ?_, ?_,
    ?_, ?_, rfl, houtcome.state_eq, fun i hi => ?_, fun q hq hnot => ?_, houtcome.haltedBy_eq.1,
    fun hreason => ?_⟩
  · rw [htrail, Metric.length_track, hmoves]
  · rw [htrail]
    exact Metric.contains_of_mem_track hstart
  · rw [htrail, Metric.head?_track]
  · rw [htrail, Metric.getLast?_track, houtcome.position_eq]
  · rw [history, List.length_cons, List.length_map, hrules]
  · have hrule := List.getElem?_eq_getElem (hrules ▸ hi)
    obtain ⟨cell, hcell, hstep⟩ :=
      stepsBy_of_getElem?_course config.toMetric (config.normalize start) hrule
    rw [← htrail] at hstep
    exact ⟨cell, _, hstep, fun hlast => houtcome.get_eq_color hstart hrule hcell
      fun j hj hagain => hlast j hj (hleft hagain).1 (hleft hagain).2⟩
  · refine houtcome.get_eq_get hstart hq fun hmem => ?_
    obtain ⟨i, hi⟩ := List.getElem?_of_mem hmem
    exact hnot i (hleft hi).1 (hleft hi).2
  · have := houtcome.haltedBy_eq.2 hreason
    omega

/-- A program that paces up and down at the left edge, and does not look at a second rule. -/
def pacing : Program :=
  ⟨[(0, [⟨3, .left, 1⟩, ⟨9, .up, 7⟩]), (1, [⟨5, .right, 2⟩]), (2, [⟨4, .left, 3⟩])]⟩

/-- Its first step is clamped, so that the cell is painted again in the second one, and the limit is
reached together with a state that the program does not have. -/
theorem replay_determined_pacing :
    ∃ replay final, (pacing.replay ⟨0, 5⟩ 0 3).runOn (⟨some Grid.spot⟩ : Grid ⟨Grid.strip, false⟩) =
        (.ok replay, ⟨some final⟩) ∧
      replay.trail = [⟨0, 1⟩, ⟨0, 1⟩, ⟨1, 1⟩, ⟨0, 1⟩] ∧ replay.haltedBy = .missingState ∧
      final.get ⟨0, 1⟩ = 5 ∧ final.get ⟨1, 0⟩ = 2 := by
  have hrun : (pacing.replay ⟨0, 5⟩ 0 3).runOn (⟨some Grid.spot⟩ : Grid ⟨Grid.strip, false⟩) =
      (.ok ⟨⟨0, 1⟩, 3, 3, .missingState, [⟨0, 1⟩, ⟨0, 1⟩, ⟨1, 1⟩, ⟨0, 1⟩]⟩, _) := rfl
  obtain ⟨final, states, hfinal, -, -, -, -, -, -, hfirst, -, hsteps, hframe, hreason, -⟩ :=
    replay_determined hrun
  rw [hfinal] at hrun
  refine ⟨_, final, hrun, rfl, hreason, ?_, ?_⟩
  · -- The states of the first steps tell the rule of the second one, after which the cell is not left.
    obtain ⟨_, first, ⟨⟨s, _, hs, -, hrule⟩, -, hnext, -⟩, -⟩ := hsteps 0 (by decide)
    obtain rfl : 0 = s := Option.some.inj (hfirst.symm.trans (List.head?_eq_getElem?.trans hs))
    obtain rfl := (List.cons.inj (Option.some.inj hrule)).1
    obtain ⟨cell, second, ⟨⟨s, _, hs, -, hrule⟩, hcell, -⟩, hcolor⟩ := hsteps 1 (by decide)
    obtain rfl : 1 = s := Option.some.inj (hnext.symm.trans hs)
    obtain rfl := (List.cons.inj (Option.some.inj hrule)).1
    obtain rfl : ⟨0, 1⟩ = cell := Option.some.inj hcell
    refine hcolor fun j hj (hlt : j < 3) => ?_
    obtain rfl : j = 2 := by omega
    decide
  · exact hframe ⟨1, 0⟩ (by decide) (by decide)

end Program
end Turmite
