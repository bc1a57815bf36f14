import Turmite.Proofs.Emission
import Turmite.Proofs.Execution

/-!
# Compiled tours

A tour that compiles becomes a program that performs one walk, the moves of the tour and a step back
and forth, and stops after it (`Grid.emitted_performs`, `Grid.nextRule_emitted`). The walk ends
where the tour does (`Emit.follow_walk`). It is what a compilation that succeeds gives
(`Grid.compileTour_eq_ok`).
-/

namespace Turmite

/-! ## The step back and forth -/

namespace Metric

variable {m : Metric}

/-- A cell can be stepped off against a direction, to be entered in it. -/
def Enterable (m : Metric) (p : Point) (d : Direction) : Prop :=
  m.looping ∨ m.step p d.opposite ≠ p

/-- A step that is not clamped can be taken back. -/
theorem step_opposite_step {p : Point} (hp : m.Contains p) {d : Direction}
    (h : m.Enterable p d) : m.step (m.step p d.opposite) d = p := by
  have hback : (p.neighbour d.opposite).neighbour d = p := by
    ext <;> simp [Direction.dx_opposite, Direction.dy_opposite]
  by_cases hl : m.looping
  · show m.normalize ((m.normalize (p.neighbour d.opposite)).shift d.dx d.dy) = p
    rw [normalize_shift_normalize hl]
    show m.normalize ((p.neighbour d.opposite).neighbour d) = p
    rw [hback, m.normalize_of_contains hp]
  · have hne := h.resolve_left hl
    have hinside : m.Contains (p.neighbour d.opposite) := by
      by_contra hout
      refine hne ?_
      unfold step normalize
      unfold Contains at hp hout
      rw [if_neg hl]
      simp only [Point.neighbour_x, Point.neighbour_y] at hout
      ext <;> cases d <;> simp only [Point.neighbour_x, Point.neighbour_y, Direction.dx,
        Direction.dy, Direction.opposite] at hout ⊢ <;> omega
    rw [step, step, m.normalize_of_contains hinside, hback, m.normalize_of_contains hp]

end Metric

/-! ## Programs of one walk -/

namespace Program

open Emit (movesFrom)

variable {p : Program} {m : Metric} {color : Point → Int}

/-- Rules of a walk that are found are followed. -/
theorem performs_movesFrom {state : Int} {cell : Point} {moves : List Direction}
    (h : ∀ s rule, (s, rule) ∈ movesFrom m color state cell moves → p.nextRule s = .ok (.ok rule)) :
    p.Performs m color (state + moves.length) state cell moves := by
  induction moves generalizing state cell with
  | nil =>
    rw [List.length_nil, Int.natCast_zero, Int.add_zero]
    exact Performs.done cell
  | cons d moves ih =>
    have hfinal : state + ((d :: moves).length : Nat) = state + 1 + (moves.length : Nat) := by
      rw [List.length_cons]
      omega
    rw [hfinal]
    exact Performs.move (h state ⟨color cell, d, state + 1⟩ List.mem_cons_self) rfl
      (ih fun s rule hmem => h s rule (List.mem_cons_of_mem _ hmem))

theorem nextRule_single_of_mem {rules : List (Int × Rule)} (hnodup : (rules.map (·.1)).Nodup)
    {state : Int} {rule : Rule} (hmem : (state, rule) ∈ rules) (h0 : 0 ≤ state) :
    (single rules).nextRule state = .ok (.ok rule) := by
  have hne : state ≠ haltState := by
    unfold haltState
    omega
  unfold nextRule
  rw [if_neg hne, rules?_single_of_mem hnodup hmem]

theorem nextRule_single_of_not_mem {rules : List (Int × Rule)} {state : Int}
    (hmem : state ∉ rules.map (·.1)) (h0 : 0 ≤ state) :
    (single rules).nextRule state = .error .missingState := by
  have hne : state ≠ haltState := by
    unfold haltState
    omega
  unfold nextRule
  rw [if_neg hne, rules?_single_of_not_mem hmem]

theorem nextRule_haltState : p.nextRule haltState = .error .haltState := if_pos rfl

end Program

namespace Emit

variable {m : Metric}

theorem length_walk (tour : List Point) (heading : Direction) :
    (walk m tour heading).length = m.pathLength tour + 2 := by
  unfold walk
  rw [List.length_append, Metric.length_expandMoves]
  rfl

/-- The walk of a tour without its last move. -/
def approach (m : Metric) (tour : List Point) (heading : Direction) : List Direction :=
  m.expandMoves tour ++ [heading.opposite]

theorem walk_eq_concat (tour : List Point) (heading : Direction) :
    walk m tour heading = approach m tour heading ++ [heading] := by
  unfold walk approach
  rw [List.append_assoc]
  rfl

/-- The walk of a tour ends on its last cell, if the step off it can be taken. -/
theorem follow_walk {p : Point} {r : List Point} (h : ∀ q ∈ p :: r, m.Contains q)
    {heading : Direction}
    (henter : m.Enterable ((p :: r).getLast (List.cons_ne_nil p r)) heading) :
    m.follow p (walk m (p :: r) heading) = (p :: r).getLast (List.cons_ne_nil p r) := by
  unfold walk
  rw [Metric.follow_append, Metric.follow_expandMoves h, Metric.follow_cons, Metric.follow_cons,
    Metric.follow_nil, Metric.step_opposite_step (h _ (List.getLast_mem _)) henter]

/-- Every cell of the tour is left in the walk, the last one by the step off it. -/
theorem mem_departures_walk {p q : Point} {r : List Point} (h : ∀ q ∈ p :: r, m.Contains q)
    (heading : Direction) (hq : q ∈ p :: r) : q ∈ m.departures p (walk m (p :: r) heading) := by
  unfold walk
  rw [Metric.departures_append, Metric.follow_expandMoves h, List.mem_append,
    Metric.departures_cons, List.mem_cons]
  rcases Metric.mem_departures_expandMoves h hq with hq | rfl
  · exact Or.inl hq
  · exact Or.inr (Or.inl rfl)

end Emit

/-! ## Emitted programs -/

/-- The state that follows a walk. -/
def stateAfter (stopAfterDone : Bool) (next : Int) : Int :=
  if stopAfterDone then haltState else next

/-- Why a turmite stops after a walk. -/
def reasonAfter (stopAfterDone : Bool) : HaltReason :=
  if stopAfterDone then .haltState else .missingState

theorem reasonAfter_ne_maxSteps (stopAfterDone : Bool) : reasonAfter stopAfterDone ≠ .maxSteps := by
  cases stopAfterDone <;> decide

namespace Grid

open Emit Program

variable [Memory] {config : GridConfig} (c : Canvas config) {p : Point} {r : List Point}
  (h : ∀ q ∈ p :: r, config.Contains q) (heading : Direction) (offset : Int) (stopAfterDone : Bool)

/-- The compilation of a tour of cells. -/
def emitted (c : Canvas config) (p : Point) (r : List Point) (heading : Direction) (offset : Int)
    (stopAfterDone : Bool) : Compiled :=
  emit c (p :: r) ((p :: r).getLast (List.cons_ne_nil p r)) heading offset stopAfterDone

/-- The rules of a walk with its states; the last one halts if the turmite is to stop. -/
def emittedRules (c : Canvas config) (p : Point) (r : List Point) (heading : Direction)
    (offset : Int) (stopAfterDone : Bool) : List (Int × Rule) :=
  let moves := approach config.toMetric (p :: r) heading
  let last := offset + moves.length
  movesFrom config.toMetric c.get offset p moves ++
    [(last, ⟨c.get (config.follow p moves), heading, stateAfter stopAfterDone (last + 1)⟩)]

theorem states_emittedRules :
    (emittedRules c p r heading offset stopAfterDone).map (·.1) =
      (movesFrom config.toMetric c.get offset p
        (walk config.toMetric (p :: r) heading)).map (·.1) := by
  unfold emittedRules
  rw [walk_eq_concat, movesFrom_append, List.map_append, List.map_append]
  rfl

theorem nodup_states_emittedRules :
    ((emittedRules c p r heading offset stopAfterDone).map (·.1)).Nodup := by
  rw [states_emittedRules]
  exact nodup_states_movesFrom offset p _

theorem nextRule_of_mem_emittedRules (h0 : 0 ≤ offset) {state : Int} {rule : Rule}
    (hmem : (state, rule) ∈ emittedRules c p r heading offset stopAfterDone) :
    (single (emittedRules c p r heading offset stopAfterDone)).nextRule state = .ok (.ok rule) := by
  have hstate : state ∈ (emittedRules c p r heading offset stopAfterDone).map (·.1) :=
    List.mem_map.2 ⟨_, hmem, rfl⟩
  rw [states_emittedRules, mem_states_movesFrom] at hstate
  exact nextRule_single_of_mem (nodup_states_emittedRules c heading offset stopAfterDone) hmem
    (Int.le_trans h0 hstate.1)

include h

/-- An emitted program has one rule for each state, in the order of the walk; only the last rule
depends on whether it halts. -/
theorem program_emitted :
    (emitted c p r heading offset stopAfterDone).program =
      single (emittedRules c p r heading offset stopAfterDone) := by
  unfold emitted emit emittedRules
  simp only
  rw [legs_append_turns h, ofRules_eq_single (nodup_states_movesFrom offset p _), walk_eq_concat,
    movesFrom_append]
  cases stopAfterDone
  · rfl
  · rw [if_pos rfl]
    exact haltAfterLast_single_concat _ _ _

theorem nextState_emitted :
    (emitted c p r heading offset stopAfterDone).nextState =
      offset + (walk config.toMetric (p :: r) heading).length := by
  unfold emitted emit walk
  simp only
  rw [legs_eq_movesFrom h, length_movesFrom, List.length_append, Int.natCast_add, ← Int.add_assoc]
  rfl

theorem ruleCount_emitted :
    (emitted c p r heading offset stopAfterDone).program.ruleCount =
      (walk config.toMetric (p :: r) heading).length := by
  rw [program_emitted c h, ruleCount_single, ← List.length_map (·.1), states_emittedRules,
    List.length_map, length_movesFrom]

/-- The emitted program performs the walk. -/
theorem emitted_performs (h0 : 0 ≤ offset) :
    (emitted c p r heading offset stopAfterDone).program.Performs config.toMetric c.get
      (stateAfter stopAfterDone (emitted c p r heading offset stopAfterDone).nextState) offset p
      (walk config.toMetric (p :: r) heading) := by
  rw [program_emitted c h, nextState_emitted c h, walk_eq_concat, List.length_append,
    List.length_singleton, Int.natCast_add, ← Int.add_assoc]
  -- Only the last rule may lead elsewhere than to the next state.
  have hfront : (single (emittedRules c p r heading offset stopAfterDone)).Performs config.toMetric
      c.get (offset + (approach config.toMetric (p :: r) heading).length) offset p
      (approach config.toMetric (p :: r) heading) :=
    performs_movesFrom fun s rule hmem =>
      nextRule_of_mem_emittedRules c heading offset stopAfterDone h0 (List.mem_append_left _ hmem)
  have hlast : (single (emittedRules c p r heading offset stopAfterDone)).nextRule
      (offset + (approach config.toMetric (p :: r) heading).length) = .ok (.ok _) :=
    nextRule_of_mem_emittedRules c heading offset stopAfterDone h0
      (List.mem_append_right _ List.mem_cons_self)
  exact hfront.append (Performs.move hlast rfl (Performs.done _))

/-- After the walk the turmite stops. -/
theorem nextRule_emitted (h0 : 0 ≤ offset) :
    (emitted c p r heading offset stopAfterDone).program.nextRule
      (stateAfter stopAfterDone (emitted c p r heading offset stopAfterDone).nextState) =
        .error (reasonAfter stopAfterDone) := by
  rw [program_emitted c h, nextState_emitted c h]
  unfold stateAfter reasonAfter
  cases stopAfterDone
  · rw [if_neg Bool.false_ne_true, if_neg Bool.false_ne_true]
    refine nextRule_single_of_not_mem ?_ (by omega)
    rw [states_emittedRules, mem_states_movesFrom]
    simp
  · exact nextRule_haltState

end Grid

/-! ## What a compilation goes through -/

theorem GridConfig.contains_of_map_normalize {config : GridConfig} {points cells : List Point}
    (h : points.map config.normalize = cells) : ∀ q ∈ cells, config.Contains q := by
  subst h
  intro q hq
  obtain ⟨p, -, rfl⟩ := List.mem_map.1 hq
  exact config.contains_normalize p

theorem Stop.mapM_require (role : String) (points : List Point) :
    (points.map Stop.point).mapM (Stop.require role) = .ok points := by
  induction points with
  | nil => rfl
  | cons p r ih =>
    rw [List.map_cons, List.mapM_cons, ih]
    rfl

namespace Grid

theorem ensureReachable_eq_ok {m : Metric} {last : Point} {heading : Direction} {u : Unit} :
    ensureReachable m last heading = .ok u ↔ m.Enterable last heading := by
  unfold ensureReachable Metric.Enterable Metric.step
  rw [ensure_eq_ok, Bool.or_eq_true, decide_eq_true_eq]

variable [Memory] {config : GridConfig} {c : Canvas config}

theorem runOn_requireCells (c : Canvas config) :
    (requireCells : Procedure (Grid config) _).runOn ⟨some c⟩ = (.ok c, ⟨some c⟩) := rfl

theorem compileTour_eq_ok {points : List Point} {heading : Direction} {offset : Int}
    {stopAfterDone : Bool} {result : Compiled} {g : Grid config}
    (h : (compileTour (points.map Stop.point) heading offset stopAfterDone).runOn ⟨some c⟩ =
      (.ok result, g)) :
    ∃ p r, points.map config.normalize = p :: r ∧ 0 ≤ offset ∧
      config.Enterable ((p :: r).getLast (List.cons_ne_nil p r)) heading ∧
      result = emitted c p r heading offset stopAfterDone ∧ g = ⟨some c⟩ := by
  unfold compileTour at h
  obtain ⟨hne, h⟩ := Procedure.runOn_require_bind_eq_ok.1 h
  obtain ⟨h0, h⟩ := Procedure.runOn_require_bind_eq_ok.1 h
  rw [Stop.mapM_require, Procedure.runOn_bind_of_eq_ok (Procedure.runOn_ofExcept _ _)] at h
  obtain ⟨_, henter, h⟩ := Procedure.runOn_ofExcept_bind_eq_ok.1 h
  obtain ⟨_, -, h⟩ := Procedure.runOn_ofExcept_bind_eq_ok.1 h
  obtain ⟨_, -, h⟩ := Procedure.runOn_ofExcept_bind_eq_ok.1 h
  rw [Procedure.runOn_bind_of_eq_ok (runOn_requireCells c), Procedure.runOn_pure] at h
  cases hcells : points.map config.normalize with
  | nil =>
    rw [List.map_eq_nil_iff] at hcells
    subst hcells
    simp at hne
  | cons p r =>
    have hlast : (p :: r).getLastD default = (p :: r).getLast (List.cons_ne_nil p r) := by
      rw [List.getLastD_eq_getLast?, List.getLast?_eq_some_getLast, Option.getD_some]
    rw [hcells, hlast] at h henter
    obtain ⟨h1, h2⟩ := Prod.mk.inj h
    exact ⟨p, r, rfl, of_decide_eq_true h0, ensureReachable_eq_ok.1 henter,
      (Except.ok.inj h1).symm, h2.symm⟩

end Grid
end Turmite
