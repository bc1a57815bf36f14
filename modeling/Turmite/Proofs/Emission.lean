import Turmite.Program.Compile
import Turmite.Proofs.Walk

/-!
# Emitted rules

The rules of a tour and of its epilogue are those of one walk, the moves of the tour followed by a
step back and forth (`Emit.legs_append_turns`): where each leg begins is where the last one ended,
and the offsets of the epilogue are where its moves lead. Their states are consecutive, so each gets
one rule (`Program.ofRules_eq_single`).
-/

namespace Turmite

/-! ## Walks as rules -/

namespace Emit

variable {m : Metric} {color : Point → Int}

theorem movesFrom_append (state : Int) (cell : Point) (moves moves' : List Direction) :
    movesFrom m color state cell (moves ++ moves') =
      movesFrom m color state cell moves ++
        movesFrom m color (state + moves.length) (m.follow cell moves) moves' := by
  induction moves generalizing state cell with
  | nil => simp [movesFrom]
  | cons d moves ih =>
    have hstate : state + 1 + moves.length = state + (d :: moves).length := by
      rw [List.length_cons]
      omega
    rw [List.cons_append, movesFrom, movesFrom, ih, hstate, Metric.follow_cons, List.cons_append]

theorem legs_cons_cons (state : Int) (p q : Point) (r : List Point) :
    legs m color state (p :: q :: r) =
      movesFrom m color state p (m.displacement p q).moves ++
        legs m color (state + (m.displacement p q).moves.length) (q :: r) := by
  rw [legs, length_movesFrom]

/-- Each leg begins where the last one ends. -/
theorem legs_eq_movesFrom {p : Point} {r : List Point} (h : ∀ q ∈ p :: r, m.Contains q)
    (state : Int) :
    legs m color state (p :: r) = movesFrom m color state p (m.expandMoves (p :: r)) := by
  induction r generalizing p state with
  | nil => rfl
  | cons q r ih =>
    rw [legs_cons_cons, ih fun q' hq' => h q' (List.mem_cons_of_mem p hq'),
      Metric.expandMoves_cons_cons, movesFrom_append,
      Metric.follow_displacement (h p List.mem_cons_self) (h q (by simp))]

/-- The offsets of the epilogue are where its moves lead. -/
theorem turns_eq_movesFrom {last : Point} (h : m.Contains last) (state : Int)
    (heading : Direction) :
    turns m color state last (epilogue heading) =
      movesFrom m color state last [heading.opposite, heading] := by
  unfold epilogue
  simp only [turns, movesFrom, Point.shift_zero, m.normalize_of_contains h]
  rfl

/-- The moves of a tour that ends in the direction of the heading. -/
def walk (m : Metric) (tour : List Point) (heading : Direction) : List Direction :=
  m.expandMoves tour ++ [heading.opposite, heading]

theorem legs_append_turns {p : Point} {r : List Point} (h : ∀ q ∈ p :: r, m.Contains q)
    (state : Int) (heading : Direction) :
    legs m color state (p :: r) ++
        turns m color (state + (legs m color state (p :: r)).length)
          ((p :: r).getLast (List.cons_ne_nil p r)) (epilogue heading) =
      movesFrom m color state p (walk m (p :: r) heading) := by
  unfold walk
  rw [turns_eq_movesFrom (h _ (List.getLast_mem _)), legs_eq_movesFrom h, length_movesFrom,
    movesFrom_append, Metric.follow_expandMoves h]

/-! ## States -/

theorem states_movesFrom (state : Int) (cell : Point) (moves : List Direction) :
    (movesFrom m color state cell moves).map (·.1) =
      (List.range moves.length).map fun k : Nat => state + k := by
  induction moves generalizing state cell with
  | nil => rfl
  | cons d moves ih =>
    rw [movesFrom, List.map_cons, ih, List.length_cons, List.range_succ_eq_map, List.map_cons,
      List.map_map]
    congr 1
    · simp
    · refine List.map_congr_left fun k _ => ?_
      rw [Function.comp_apply, Nat.cast_succ]
      omega

/-- Each rule of a walk leads to the state behind its own. -/
theorem next_of_mem_movesFrom {state s : Int} {rule : Rule} {cell : Point} {moves : List Direction}
    (h : (s, rule) ∈ movesFrom m color state cell moves) : rule.next = s + 1 := by
  induction moves generalizing state cell with
  | nil => simp [movesFrom] at h
  | cons d moves ih =>
    rcases List.mem_cons.1 h with heq | hmem
    · cases heq
      rfl
    · exact ih hmem

theorem mem_states_movesFrom {state s : Int} {cell : Point} {moves : List Direction} :
    s ∈ (movesFrom m color state cell moves).map (·.1) ↔ state ≤ s ∧ s < state + moves.length := by
  rw [states_movesFrom, List.mem_map]
  constructor
  · rintro ⟨k, hk, rfl⟩
    have := List.mem_range.1 hk
    omega
  · rintro ⟨hlow, hhigh⟩
    exact ⟨(s - state).toNat, List.mem_range.2 (by omega), by omega⟩

theorem nodup_states_movesFrom (state : Int) (cell : Point) (moves : List Direction) :
    ((movesFrom m color state cell moves).map (·.1)).Nodup := by
  rw [states_movesFrom]
  refine List.pairwise_map.2 (List.pairwise_lt_range.imp fun hlt => ?_)
  omega

end Emit

/-! ## Programs with one rule for each state -/

namespace Program

/-- The program with one rule for each of the states. -/
def single (rules : List (Int × Rule)) : Program := ⟨rules.map fun (state, rule) => (state, [rule])⟩

/-- A rule of a state that does not stand in front goes behind what does. -/
theorem addTo_append_of_not_mem {state : Int} {front : List (Int × List Rule)}
    (h : state ∉ front.map (·.1)) (rule : Rule) (r : List (Int × List Rule)) :
    addTo state rule (front ++ r) = front ++ addTo state rule r := by
  induction front with
  | nil => rfl
  | cons head front ih =>
    obtain ⟨s, rules⟩ := head
    rw [List.map_cons, List.mem_cons, not_or] at h
    rw [List.cons_append, addTo, if_neg (Ne.symm h.1), ih h.2, List.cons_append]

theorem addTo_of_not_mem {state : Int} {entries : List (Int × List Rule)}
    (h : state ∉ entries.map (·.1)) (rule : Rule) :
    addTo state rule entries = entries ++ [(state, [rule])] := by
  have hadd := addTo_append_of_not_mem h rule []
  rwa [List.append_nil] at hadd

theorem foldl_add_eq_single (front : List (Int × Rule)) {rules : List (Int × Rule)}
    (h : ((front ++ rules).map (·.1)).Nodup) :
    rules.foldl (fun p (state, rule) => p.add state rule) (single front) =
      single (front ++ rules) := by
  induction rules generalizing front with
  | nil => rw [List.append_nil, List.foldl_nil]
  | cons head r ih =>
    obtain ⟨state, rule⟩ := head
    have hnew : state ∉ (front.map fun (s, r) => (s, [r])).map (·.1) := by
      rw [List.map_append, List.map_cons] at h
      have := (List.nodup_append.1 h).2.2
      rw [List.map_map]
      exact fun hmem => this state hmem state List.mem_cons_self rfl
    have hadd : (single front).add state rule = single (front ++ [(state, rule)]) := by
      unfold Program.add single
      rw [addTo_of_not_mem hnew, List.map_append]
      rfl
    rw [List.foldl_cons]
    simp only [hadd]
    rw [ih _ (by simpa using h), List.append_assoc, List.singleton_append]

theorem ofRules_eq_single {rules : List (Int × Rule)} (h : (rules.map (·.1)).Nodup) :
    ofRules rules = single rules :=
  foldl_add_eq_single [] h

theorem states_single (rules : List (Int × Rule)) : (single rules).states = rules.map (·.1) := by
  unfold states single
  rw [List.map_map]
  rfl

theorem flat_single (rules : List (Int × Rule)) : (single rules).flat = rules := by
  unfold flat single
  rw [List.flatMap_map]
  exact List.flatMap_singleton' rules

theorem ruleCount_single (rules : List (Int × Rule)) : (single rules).ruleCount = rules.length := by
  unfold ruleCount single
  induction rules with
  | nil => rfl
  | cons head r ih =>
    rw [List.map_cons, List.flatMap_cons, List.length_append, ih]
    exact Nat.add_comm 1 r.length

theorem rules?_single_of_mem {rules : List (Int × Rule)} (h : (rules.map (·.1)).Nodup)
    {state : Int} {rule : Rule} (hmem : (state, rule) ∈ rules) :
    (single rules).rules? state = some [rule] := by
  unfold rules? single
  induction rules with
  | nil => simp at hmem
  | cons head r ih =>
    obtain ⟨s, rule'⟩ := head
    rw [List.map_cons, List.nodup_cons] at h
    rcases List.mem_cons.1 hmem with heq | hmem
    · cases heq
      simp
    · have hne : s ≠ state := by
        rintro rfl
        exact h.1 (List.mem_map.2 ⟨_, hmem, rfl⟩)
      simpa [hne] using ih h.2 hmem

theorem rules?_single_of_not_mem {rules : List (Int × Rule)} {state : Int}
    (h : state ∉ rules.map (·.1)) : (single rules).rules? state = none := by
  unfold rules? single
  rw [Option.map_eq_none_iff, List.find?_eq_none]
  intro entry hentry
  obtain ⟨⟨s, rule⟩, hmem, rfl⟩ := List.mem_map.1 hentry
  simp only [decide_eq_true_eq]
  rintro rfl
  exact h (List.mem_map.2 ⟨_, hmem, rfl⟩)

theorem updateLast_concat {α : Type} (f : α → α) (l : List α) (a : α) :
    updateLast f (l ++ [a]) = l ++ [f a] := by
  induction l with
  | nil => rfl
  | cons b l ih =>
    cases l with
    | nil => rfl
    | cons b' l =>
      rw [List.cons_append, List.cons_append, updateLast, ← List.cons_append, ih]
      rfl

/-- The last rule of the last state is the one that halts. -/
theorem haltAfterLast_concat (front : List (Int × List Rule)) (state : Int) (rules : List Rule)
    (rule : Rule) : haltAfterLast ⟨front ++ [(state, rules ++ [rule])]⟩ =
      ⟨front ++ [(state, rules ++ [rule.halting])]⟩ := by
  unfold haltAfterLast
  rw [updateLast_concat]
  simp only [updateLast_concat]

theorem haltAfterLast_single_concat (rules : List (Int × Rule)) (state : Int) (rule : Rule) :
    (single (rules ++ [(state, rule)])).haltAfterLast =
      single (rules ++ [(state, rule.halting)]) := by
  have h := haltAfterLast_concat (single rules).entries state [] rule
  unfold single at h ⊢
  rw [List.map_append, List.map_append]
  exact h

end Program
end Turmite
