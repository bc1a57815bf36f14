import Mathlib.Data.List.Nodup
import Turmite.Proofs.Compilation
import Turmite.Proofs.Trail

/-!
# Chained programs

Two programs without a common state may be held in one (`Program.Joins`): in each state it has the
rule that one of them has (`Program.Joins.nextRule_left`, `Program.Joins.nextRule_right`), so it
performs the walks of both. Compiled tours take the states from their offset up to the next free one
(`Grid.mem_states_emitted`). If the second tour starts in the state and on the cell that the first
one ends with, the joined program runs through both, one after the other (`Grid.replay_chained`).
-/

namespace Turmite

namespace Program

/-! ## Joined programs -/

/-- A program with the states and rules of two others, in any order. -/
def Joins (p a b : Program) : Prop := p.entries.Perm (a.entries ++ b.entries)

/-- The program with all rules of another added to it, one after the other. -/
def addAll (p q : Program) : Program := q.flat.foldl (fun p (state, rule) => p.add state rule) p

variable {p q a b : Program} {state : Int}

theorem rules?_eq_none_iff : p.rules? state = none ↔ state ∉ p.states := by
  unfold rules? states
  rw [Option.map_eq_none_iff, List.find?_eq_none, List.mem_map]
  simp only [decide_eq_true_eq]
  exact ⟨fun h ⟨entry, hmem, heq⟩ => h entry hmem heq, fun h entry hmem heq => h ⟨entry, hmem, heq⟩⟩

/-- Where no state stands twice, a state has the rules that stand beside it. -/
theorem rules?_eq_some_iff (h : p.states.Nodup) {rules : List Rule} :
    p.rules? state = some rules ↔ (state, rules) ∈ p.entries := by
  obtain ⟨entries⟩ := p
  unfold states at h
  unfold rules?
  induction entries with
  | nil => simp
  | cons head r ih =>
    obtain ⟨s, rules'⟩ := head
    obtain ⟨hnew, hr⟩ := List.nodup_cons.1 h
    by_cases hs : s = state
    · subst hs
      have hnot : (s, rules) ∉ r := fun hmem => hnew (List.mem_map.2 ⟨_, hmem, rfl⟩)
      simp [hnot, eq_comm]
    · simpa [hs, Ne.symm hs] using ih hr

theorem rules?_eq_of_perm (h : p.entries.Perm q.entries) (hp : p.states.Nodup) :
    p.rules? state = q.rules? state := by
  have hq : q.states.Nodup := (h.map Prod.fst).nodup_iff.1 hp
  ext rules
  rw [rules?_eq_some_iff hp, rules?_eq_some_iff hq, h.mem_iff]

theorem mem_states_of_nextRule {rule : Rule} (h : p.nextRule state = .ok (.ok rule)) :
    state ∈ p.states := by
  by_contra hmem
  unfold nextRule at h
  rw [rules?_eq_none_iff.2 hmem] at h
  split_ifs at h

namespace Joins

variable (h : p.Joins a b)

include h

theorem nodup_states (ha : a.states.Nodup) (hb : b.states.Nodup)
    (hdisjoint : a.states.Disjoint b.states) : p.states.Nodup := by
  unfold states
  rw [(h.map Prod.fst).nodup_iff, List.map_append]
  exact List.Nodup.append ha hb hdisjoint

/-- A state has its rules in one of the programs. -/
theorem rules? (hp : p.states.Nodup) :
    p.rules? state = (a.rules? state).or (b.rules? state) := by
  rw [rules?_eq_of_perm (q := ⟨a.entries ++ b.entries⟩) h hp]
  unfold Program.rules?
  rw [List.find?_append, Option.map_or]

theorem nextRule_left (hp : p.states.Nodup) (hstate : state ∉ b.states) :
    p.nextRule state = a.nextRule state := by
  unfold nextRule
  rw [h.rules? hp, rules?_eq_none_iff.2 hstate, Option.or_none]

theorem nextRule_right (hp : p.states.Nodup) (hstate : state ∉ a.states) :
    p.nextRule state = b.nextRule state := by
  unfold nextRule
  rw [h.rules? hp, rules?_eq_none_iff.2 hstate, Option.none_or]

end Joins

/-! ## Programs with one rule for each state -/

/-- Other states are added behind those that are there. -/
theorem joins_addAll_single {rules rules' : List (Int × Rule)}
    (h : (single rules).states.Nodup) (h' : (single rules').states.Nodup)
    (hdisjoint : (single rules).states.Disjoint (single rules').states) :
    ((single rules).addAll (single rules')).Joins (single rules) (single rules') := by
  have hnodup : ((rules ++ rules').map (·.1)).Nodup := by
    rw [List.map_append, ← states_single, ← states_single]
    exact List.Nodup.append h h' hdisjoint
  unfold addAll Joins
  rw [flat_single, foldl_add_eq_single rules hnodup]
  unfold single
  rw [List.map_append]

/-! ## Walks one after the other -/

section Walks

variable {m : Metric} {color color' : Point → Int} {middle final : Int} {cell : Point}
  {moves moves' : List Direction}

/-- A program that has the rules of another performs its walks. -/
theorem Performs.mono (hpq : ∀ s rule, p.nextRule s = .ok (.ok rule) → q.nextRule s = .ok (.ok rule))
    (h : p.Performs m color final state cell moves) :
    q.Performs m color final state cell moves := by
  induction h with
  | done cell => exact Performs.done cell
  | move hrule hcolor rest ih => exact Performs.move (hpq _ _ hrule) hcolor ih

namespace Joins

variable (h : p.Joins a b) (hp : p.states.Nodup) (hdisjoint : a.states.Disjoint b.states)

include h hp hdisjoint

theorem performs_left (hwalk : a.Performs m color final state cell moves) :
    p.Performs m color final state cell moves := by
  refine hwalk.mono fun s rule hrule => ?_
  rw [h.nextRule_left hp fun hs => hdisjoint (mem_states_of_nextRule hrule) hs, hrule]

theorem performs_right (hwalk : b.Performs m color final state cell moves) :
    p.Performs m color final state cell moves := by
  refine hwalk.mono fun s rule hrule => ?_
  rw [h.nextRule_right hp fun hs => hdisjoint hs (mem_states_of_nextRule hrule), hrule]

end Joins

/-- A replay of two walks, the second of which begins where the first one ends. -/
theorem replay_of_performs_performs [Memory] {config : GridConfig} {start goal : Point}
    {reason : HaltReason} {limit : Int} (hstart : cell = config.normalize start)
    (h : p.Performs config.toMetric color middle state cell moves)
    (hgoal : config.follow cell moves = goal)
    (h' : p.Performs config.toMetric color' final middle goal moves')
    (hcolor : ∀ q, config.Contains q → 0 ≤ color q ∧ fitsWord (color q))
    (hcolor' : ∀ q, config.Contains q → 0 ≤ color' q ∧ fitsWord (color' q))
    (hstop : p.nextRule final = .error reason) (hlimit : moves.length + moves'.length ≤ limit)
    (c : Canvas config) :
    (p.replay start state limit).runOn ⟨some c⟩ =
      (.ok ⟨config.follow goal moves', moves.length + moves'.length, final, reason,
          config.track cell moves ++ (config.track goal moves').tail⟩,
        ⟨some ((c.repaint color (config.departures cell moves)).repaint color'
          (config.departures goal moves'))⟩) := by
  subst hgoal
  obtain ⟨extra, hextra⟩ : ∃ extra, limit.toNat = moves.length + (moves'.length + extra) :=
    ⟨limit.toNat - moves.length - moves'.length, by omega⟩
  have hpositive : decide (0 ≤ limit) = true := by
    rw [decide_eq_true_eq]
    omega
  have hcell : config.Contains cell := by
    rw [hstart]
    exact config.contains_normalize start
  unfold Program.replay
  rw [hpositive, Procedure.runOn_bind_of_eq_ok (Procedure.runOn_require_true _ _), hextra, ← hstart,
    runFrom_of_performs h hcolor hcell,
    runFrom_of_performs h' hcolor' (Metric.contains_follow hcell moves), runFrom]
  simp only [hstop]
  rw [Procedure.runOn_pure, Metric.track_append_tail, Metric.track_append, Metric.track_eq_concat]
  simp [Nat.add_comm]

end Walks

end Program

/-! ## Chained tours -/

namespace Grid

open Program

section Emitted

variable [Memory] {config : GridConfig} (c : Canvas config) {p : Point} {r : List Point}
  (h : ∀ q ∈ p :: r, config.Contains q) (heading : Direction) (offset : Int) (stopAfterDone : Bool)

include h

/-- An emitted program has the states from its offset up to the next free one. -/
theorem mem_states_emitted {state : Int} :
    state ∈ (emitted c p r heading offset stopAfterDone).program.states ↔
      offset ≤ state ∧ state < (emitted c p r heading offset stopAfterDone).nextState := by
  rw [program_emitted c h, states_single, states_emittedRules, Emit.mem_states_movesFrom,
    nextState_emitted c h]

theorem nodup_states_emitted :
    (emitted c p r heading offset stopAfterDone).program.states.Nodup := by
  rw [program_emitted c h, states_single]
  exact nodup_states_emittedRules c heading offset stopAfterDone

end Emitted

section Behind

variable [Memory] {m : Metric} {lazyA lazyB : Bool} (cA : Canvas ⟨m, lazyA⟩) (cB : Canvas ⟨m, lazyB⟩)
  {pA pB : Point} {rA rB : List Point} (hA : ∀ q ∈ pA :: rA, m.Contains q)
  (hB : ∀ q ∈ pB :: rB, m.Contains q) (headingA headingB : Direction) {offset next : Int}
  (stopAfterDone : Bool) (hnext : (emitted cA pA rA headingA offset false).nextState ≤ next)

include hA hB hnext

/-- Programs whose states lie one behind the other have none in common. -/
theorem disjoint_states_emitted :
    (emitted cA pA rA headingA offset false).program.states.Disjoint
      (emitted cB pB rB headingB next stopAfterDone).program.states := by
  intro state hstateA hstateB
  rw [mem_states_emitted cA hA] at hstateA
  rw [mem_states_emitted cB hB] at hstateB
  exact Int.not_lt.2 (Int.le_trans hnext hstateB.1) hstateA.2

theorem joins_addAll_emitted :
    ((emitted cA pA rA headingA offset false).program.addAll
        (emitted cB pB rB headingB next stopAfterDone).program).Joins
      (emitted cA pA rA headingA offset false).program
      (emitted cB pB rB headingB next stopAfterDone).program := by
  have hnodupA := nodup_states_emitted cA hA headingA offset false
  have hnodupB := nodup_states_emitted cB hB headingB next stopAfterDone
  have hdisjoint := disjoint_states_emitted cA cB hA hB headingA headingB stopAfterDone hnext
  rw [program_emitted cA hA] at hnodupA hdisjoint ⊢
  rw [program_emitted cB hB] at hnodupB hdisjoint ⊢
  exact joins_addAll_single hnodupA hnodupB hdisjoint

/-- The state in which the second program stops is none of the first. -/
theorem stateAfter_not_mem_states_emitted (h0 : 0 ≤ offset) :
    stateAfter stopAfterDone (emitted cB pB rB headingB next stopAfterDone).nextState ∉
      (emitted cA pA rA headingA offset false).program.states := by
  rw [mem_states_emitted cA hA, nextState_emitted cB hB]
  rintro ⟨hlow, hhigh⟩
  cases stopAfterDone with
  | false =>
    have : next ≤ next + (Emit.walk m (pB :: rB) headingB).length :=
      Int.le_add_of_nonneg_right (Int.natCast_nonneg _)
    exact Int.not_lt.2 (Int.le_trans hnext this) hhigh
  | true => exact absurd (Int.le_trans h0 hlow : 0 ≤ haltState) (by decide)

end Behind

section

variable [Memory] {m : Metric} {lazyA lazyB lazyInit : Bool} {cA : Canvas ⟨m, lazyA⟩}
  {cB : Canvas ⟨m, lazyB⟩}

/-- Two compiled tours of a board are chained by the next state of the first, if the second begins
on the cell where the first one ends. Their programs have no state in common, and any program that
holds the rules of both leads a turmite through the first tour and then through the second. -/
theorem replay_chained (hcolorsA : ∀ p, m.Contains p → 0 ≤ cA.get p)
    (hcolorsB : ∀ p, m.Contains p → 0 ≤ cB.get p) {startA startB : Point}
    {othersA othersB : List Point} {headingA headingB : Direction} {offset : Int}
    {stopAfterDone : Bool} {a b : Compiled} {gA : Grid ⟨m, lazyA⟩} {gB : Grid ⟨m, lazyB⟩}
    (hA : (compileTour ((startA :: othersA).map Stop.point) headingA offset false).runOn
      ⟨some cA⟩ = (.ok a, gA))
    (hB : (compileTour ((startB :: othersB).map Stop.point) headingB a.nextState
      stopAfterDone).runOn ⟨some cB⟩ = (.ok b, gB))
    (hmeet : b.tour.head? = a.tour.getLast?) (canvas : Canvas ⟨m, lazyInit⟩)
    {limitA limitB limit : Int} (hlimitA : a.program.ruleCount ≤ limitA)
    (hlimitB : b.program.ruleCount ≤ limitB)
    (hlimit : a.program.ruleCount + b.program.ruleCount ≤ limit) :
    a.program.states.Disjoint b.program.states ∧
    (a.program.addAll b.program).Joins a.program b.program ∧
    ∃ first second middle final,
      (a.program.replay startA offset limitA).runOn ⟨some canvas⟩ = (.ok first, ⟨some middle⟩) ∧
      (b.program.replay startB a.nextState limitB).runOn ⟨some middle⟩ =
        (.ok second, ⟨some final⟩) ∧
      first.haltedBy ≠ .maxSteps ∧ second.haltedBy ≠ .maxSteps ∧
      first.trail.getLast? = second.trail.head? ∧
      ∀ p : Program, p.Joins a.program b.program →
        (p.replay startA offset limit).runOn ⟨some canvas⟩ =
          (.ok ⟨second.position, first.steps + second.steps, second.state, second.haltedBy,
            first.trail ++ second.trail.tail⟩, ⟨some final⟩) := by
  obtain ⟨pA, rA, hcellsA, h0, henterA, rfl, -⟩ := compileTour_eq_ok hA
  obtain ⟨pB, rB, hcellsB, hnext, henterB, rfl, -⟩ := compileTour_eq_ok hB
  have hcontainsA := GridConfig.contains_of_map_normalize hcellsA
  have hcontainsB := GridConfig.contains_of_map_normalize hcellsB
  have hstartA : pA = (⟨m, lazyInit⟩ : GridConfig).normalize startA :=
    (List.cons.inj hcellsA).1.symm
  have hstartB : pB = (⟨m, lazyInit⟩ : GridConfig).normalize startB :=
    (List.cons.inj hcellsB).1.symm
  have hpaintA : ∀ q, m.Contains q → 0 ≤ cA.get q ∧ fitsWord (cA.get q) = true :=
    fun q hq => ⟨hcolorsA q hq, cA.fitsWord_get q⟩
  have hpaintB : ∀ q, m.Contains q → 0 ≤ cB.get q ∧ fitsWord (cB.get q) = true :=
    fun q hq => ⟨hcolorsB q hq, cB.fitsWord_get q⟩
  rw [ruleCount_emitted cA hcontainsA] at hlimitA hlimit
  rw [ruleCount_emitted cB hcontainsB] at hlimitB hlimit
  -- Each program runs through its own walk, and the first one ends where the second one begins.
  have hwalkA := emitted_performs cA hcontainsA headingA offset false h0
  have hwalkB := emitted_performs cB hcontainsB headingB _ stopAfterDone hnext
  have hstopA := nextRule_emitted cA hcontainsA headingA offset false h0
  have hstopB := nextRule_emitted cB hcontainsB headingB _ stopAfterDone hnext
  have hreplayA := replay_of_performs hstartA hwalkA hpaintA hstopA hlimitA canvas
  have hreplayB := replay_of_performs hstartB hwalkB hpaintB hstopB hlimitB
    (canvas.repaint cA.get (m.departures pA (Emit.walk m (pA :: rA) headingA)))
  rw [← Metric.track_eq_concat] at hreplayA hreplayB
  have hgoal : m.follow pA (Emit.walk m (pA :: rA) headingA) = pB := by
    have hlast : some pB = some ((pA :: rA).getLast (List.cons_ne_nil pA rA)) :=
      hmeet.trans (List.getLast?_eq_some_getLast _)
    rw [Option.some.inj hlast]
    exact Emit.follow_walk hcontainsA henterA
  have hbehind := Int.le_refl (emitted cA pA rA headingA offset false).nextState
  have hdisjoint := disjoint_states_emitted cA cB hcontainsA hcontainsB headingA headingB
    stopAfterDone hbehind
  refine ⟨hdisjoint, joins_addAll_emitted cA cB hcontainsA hcontainsB headingA headingB
    stopAfterDone hbehind, _, _, _, _, hreplayA, hreplayB, reasonAfter_ne_maxSteps false,
    reasonAfter_ne_maxSteps stopAfterDone, ?_, fun p hp => ?_⟩
  · rw [Metric.getLast?_track, Metric.head?_track, hgoal]
  · have hnodup := hp.nodup_states (nodup_states_emitted cA hcontainsA headingA offset false)
      (nodup_states_emitted cB hcontainsB headingB _ stopAfterDone) hdisjoint
    have hstop := hp.nextRule_right hnodup (stateAfter_not_mem_states_emitted cA cB hcontainsA
      hcontainsB headingA headingB stopAfterDone hbehind h0)
    exact replay_of_performs_performs hstartA (hp.performs_left hnodup hdisjoint hwalkA) hgoal
      (hp.performs_right hnodup hdisjoint hwalkB) hpaintA hpaintB (hstop.trans hstopB) hlimit canvas

end

/-- A closed row of three cells. -/
def row : Metric := ⟨3, 1, Nat.succ_pos 2, Nat.succ_pos 0, false⟩

/-- The row with paint in the middle. -/
def paintedRow (color : Int) : Canvas ⟨row, false⟩ := (Canvas.blank (by decide)).set ⟨1, 0⟩ color

/-- The compilation of a step to the middle, from a start beside the row. -/
def compiledThere : Except Error Compiled × Grid ⟨row, false⟩ :=
  (compileTour (([⟨-2, 0⟩, ⟨1, 0⟩] : List Point).map Stop.point) .right 4 false).runOn
    ⟨some (paintedRow 5)⟩

/-- The compilation of a step back from the middle. -/
def compiledBack (offset : Int) : Except Error Compiled × Grid ⟨row, false⟩ :=
  (compileTour (([⟨1, 0⟩, ⟨0, 0⟩] : List Point).map Stop.point) .left offset true).runOn
    ⟨some (paintedRow 6)⟩

theorem replay_chained_there_and_back :
    (∀ p, row.Contains p → 0 ≤ (paintedRow 5).get p) ∧
    (∀ p, row.Contains p → 0 ≤ (paintedRow 6).get p) ∧
    ∃ a b gA gB, compiledThere = (.ok a, gA) ∧ compiledBack a.nextState = (.ok b, gB) ∧
      b.tour.head? = a.tour.getLast? ∧
      ∃ replay final,
        ((a.program.addAll b.program).replay ⟨-2, 0⟩ 4
          (a.program.ruleCount + b.program.ruleCount)).runOn ⟨some (paintedRow 7)⟩ =
            (.ok replay, ⟨some final⟩) ∧
        replay.haltedBy ≠ .maxSteps := by
  have hcolors : ∀ color ∈ [5, 6], ∀ p, row.Contains p → 0 ≤ (paintedRow color).get p := by
    have hall : ∀ color ∈ [5, 6], ∀ p ∈ GridConfig.points ⟨row, false⟩,
        0 ≤ (paintedRow color).get p := by decide +kernel
    exact fun color hcolor p hp => hall color hcolor p ((GridConfig.mem_points _).2 hp)
  have hthere : compiledThere =
      (.ok (emitted (paintedRow 5) ⟨0, 0⟩ [⟨1, 0⟩] .right 4 false), ⟨some (paintedRow 5)⟩) := rfl
  have hback : compiledBack (emitted (paintedRow 5) ⟨0, 0⟩ [⟨1, 0⟩] .right 4 false).nextState =
      (.ok (emitted (paintedRow 6) ⟨1, 0⟩ [⟨0, 0⟩] .left 7 true), ⟨some (paintedRow 6)⟩) := rfl
  have hcolorsA := hcolors 5 (by decide)
  have hcolorsB := hcolors 6 (by decide)
  obtain ⟨-, hjoins, _, second, _, final, -, -, -, hhalted, -, hreplay⟩ :=
    replay_chained hcolorsA hcolorsB hthere hback rfl (paintedRow 7) (Int.le_refl _)
      (Int.le_refl _) (Int.le_refl _)
  exact ⟨hcolorsA, hcolorsB, _, _, _, _, hthere, hback, rfl, _, final, hreplay _ hjoins, hhalted⟩

end Grid
end Turmite
