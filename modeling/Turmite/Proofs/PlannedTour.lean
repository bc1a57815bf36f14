import Turmite.Proofs.TwoOpt
import Turmite.Tour.Plan

/-!
# Planned tours

The nearest-neighbour tour goes through the start, each other point once and the end
(`mem_greedy`, `hamiltonian_greedy`), and reversals only rearrange it (`rearranges_outcome`), so a
planned tour visits every point that it was planned for (`plan_eq_ok`). On a board that can be
measured a plan is made (`exists_planWith`). Where halves are exact, it is a path through each of
the points that is not longer than the nearest-neighbour tour, and that tour itself when the
optimizer fails (`plan_hamiltonian`).
-/

namespace Turmite

/-- A clock with readings tells a time, and keeps them. -/
theorem Clock.exists_read {clock : Clock} (h : clock.readings ≠ []) :
    ∃ time clock', Clock.read.runOn clock = (.ok time, clock') ∧ clock'.readings ≠ [] := by
  have hsome : (!clock.readings.isEmpty) = true := by
    rw [Bool.not_eq_true', List.isEmpty_eq_false_iff]
    exact h
  unfold Clock.read
  rw [Procedure.runOn_bind_of_eq_ok (Procedure.runOn_get clock), hsome,
    Procedure.runOn_bind_of_eq_ok (Procedure.runOn_require_true _ _),
    Procedure.runOn_bind_of_eq_ok (Procedure.runOn_set clock _)]
  exact ⟨_, _, Procedure.runOn_pure _ _, h⟩

namespace Tour

/-! ## Nearest neighbours -/

theorem extractLeast_perm (cost : Point → Nat) (p : Point) (points : List Point) :
    ((extractLeast cost p points).1 :: (extractLeast cost p points).2).Perm (p :: points) := by
  induction points generalizing p with
  | nil => exact List.Perm.refl _
  | cons q r ih =>
    simp only [extractLeast]
    split_ifs
    · exact (List.Perm.swap p _ _).trans ((ih q).cons p)
    · exact List.Perm.refl _

theorem visits_perm (m : Metric) (current : Point) (points : List Point) :
    (visits m current points).Perm points := by
  fun_induction visits m current points with
  | case1 => exact List.Perm.refl _
  | case2 current p r found ih =>
    exact (ih.cons _).trans (extractLeast_perm (m.distance current) p r)

theorem mem_greedy {m : Metric} {points : List Point} {start finish q : Point} :
    q ∈ greedy m points start finish ↔ q = start ∨ q = finish ∨ q ∈ points := by
  unfold greedy
  rw [List.mem_append, List.mem_cons, (visits_perm m start _).mem_iff, distinctPoints,
    mem_firstOccurrences]
  simp only [List.mem_cons, List.not_mem_nil, or_false, not_or]
  by_cases hs : q = start
  · simp [hs]
  · by_cases hf : q = finish <;> simp [hs, hf]

theorem head?_greedy (m : Metric) (points : List Point) (start finish : Point) :
    (greedy m points start finish).head? = some start := rfl

theorem getLast?_greedy (m : Metric) (points : List Point) (start finish : Point) :
    (greedy m points start finish).getLast? = some finish :=
  List.getLast?_append_cons _ finish []

/-! ## Paths through each point -/

/-- A path from the start to the end that visits each of the other points once. -/
def Hamiltonian (start finish : Point) (points tour : List Point) : Prop :=
  ∃ interior, tour = start :: interior ++ [finish] ∧ interior.Nodup ∧
    ∀ q, q ∈ interior ↔ q ∈ points ∧ q ≠ start ∧ q ≠ finish

theorem nodup_firstOccurrences (seen points : List Point) :
    (firstOccurrences seen points).Nodup := by
  induction points generalizing seen with
  | nil => exact List.nodup_nil
  | cons p r ih =>
    unfold firstOccurrences
    split_ifs
    · exact ih seen
    · rw [List.nodup_cons, mem_firstOccurrences]
      exact ⟨fun h => h.2 List.mem_cons_self, ih (p :: seen)⟩

theorem hamiltonian_greedy (m : Metric) (points : List Point) (start finish : Point) :
    Hamiltonian start finish points (greedy m points start finish) := by
  have hperm := visits_perm m start (distinctPoints points start finish)
  refine ⟨_, rfl, hperm.nodup_iff.2 (nodup_firstOccurrences _ _), fun q => ?_⟩
  rw [hperm.mem_iff, distinctPoints, mem_firstOccurrences]
  simp only [List.mem_cons, List.not_mem_nil, or_false, not_or]

/-- What has the points and the ends of a path differs from it between the ends only. -/
theorem Rearranges.exists_interior {start finish : Point} {interior tour : List Point}
    (h : Rearranges tour (start :: interior ++ [finish])) :
    ∃ rearranged, tour = start :: rearranged ++ [finish] ∧ rearranged.Perm interior := by
  obtain ⟨hperm, hhead, hlast⟩ := h
  rw [List.cons_append, List.head?_cons] at hhead
  rw [List.getLast?_concat] at hlast
  obtain ⟨rest, rfl⟩ := List.head?_eq_some_iff.1 hhead
  have hrest : rest.Perm (interior ++ [finish]) := hperm.cons_inv
  have hne : rest ≠ [] := by
    rintro rfl
    exact absurd hrest.length_eq (by simp)
  have hfinish : rest.getLast hne = finish := by
    rw [List.getLast?_eq_some_getLast (List.cons_ne_nil _ _), List.getLast_cons hne] at hlast
    exact Option.some.inj hlast
  have hcut : rest.dropLast ++ [finish] = rest := by
    rw [← hfinish, List.dropLast_append_getLast hne]
  refine ⟨rest.dropLast, by rw [List.cons_append, hcut], ?_⟩
  rw [← hcut] at hrest
  exact (List.perm_append_right_iff _).1 hrest

theorem Hamiltonian.of_rearranges {start finish : Point} {points s t : List Point}
    (h : Hamiltonian start finish points t) (hs : Rearranges s t) :
    Hamiltonian start finish points s := by
  obtain ⟨interior, rfl, hnodup, hmem⟩ := h
  obtain ⟨rearranged, rfl, hperm⟩ := hs.exists_interior
  exact ⟨rearranged, rfl, hperm.nodup_iff.2 hnodup, fun q => hperm.mem_iff.trans (hmem q)⟩

/-! ## Plans -/

/-- The tour of a plan, its work and whether the optimizer made it. -/
def outcome (optimizer : Optimizer) (m : Metric) (request : Request) (points : List Point) :
    List Point × Stats × Bool :=
  let tour := greedy m points request.start request.finish
  if request.optimize then settle tour (optimizer m request.mode tour) else (tour, ⟨0, 0⟩, false)

/-- What a plan says does not depend on the times that it took. -/
theorem planWith_eq_ok {optimizer : Optimizer} {m : Metric} {request : Request}
    {points : List Point} {clock clock' : Clock} {plan : Plan}
    (h : (planWith optimizer m request points).runOn clock = (.ok plan, clock')) :
    (plan.tour, plan.stats, plan.optimized) = outcome optimizer m request points ∧
      plan.greedyLength = m.pathLength (greedy m points request.start request.finish) ∧
      plan.length = m.pathLength plan.tour := by
  unfold planWith at h
  obtain ⟨before, c1, -, h⟩ := Procedure.runOn_bind_eq_ok.1 h
  obtain ⟨tour, hgreedy, h⟩ := Procedure.runOn_ofExcept_bind_eq_ok.1 h
  obtain ⟨after, c2, -, h⟩ := Procedure.runOn_bind_eq_ok.1 h
  obtain ⟨length, hlength, h⟩ := Procedure.runOn_ofExcept_bind_eq_ok.1 h
  obtain ⟨_, -, htour⟩ := bind_eq_ok.1 hgreedy
  obtain ⟨_, -, hlen⟩ := bind_eq_ok.1 hlength
  obtain rfl := pure_eq_ok.1 htour
  obtain rfl := pure_eq_ok.1 hlen
  unfold outcome
  simp only
  split_ifs at h ⊢ with hopt
  · obtain ⟨before', c3, -, h⟩ := Procedure.runOn_bind_eq_ok.1 h
    obtain ⟨after', c4, -, h⟩ := Procedure.runOn_bind_eq_ok.1 h
    rw [Procedure.runOn_pure] at h
    cases h
    exact ⟨rfl, rfl, rfl⟩
  · rw [Procedure.runOn_pure] at h
    cases h
    exact ⟨rfl, rfl, rfl⟩

/-- Reversals, and their failure, keep the points and the ends of the nearest-neighbour tour. -/
theorem rearranges_outcome [Memory] (m : Metric) (request : Request) (points : List Point) :
    Rearranges (outcome reversing m request points).1
      (greedy m points request.start request.finish) := by
  unfold outcome
  simp only
  generalize greedy m points request.start request.finish = tour
  split_ifs
  · unfold reversing
    rcases h : (twoOpt m request.mode).runOn tour with ⟨_ | stats, final⟩
    · exact Rearranges.refl tour
    · exact rearranges_twoOpt h
  · exact Rearranges.refl tour

/-- A tour that is planned leads from the start through every point to the end. -/
theorem plan_eq_ok [Memory] {m : Metric} {request : Request} {points : List Point}
    {clock clock' : Clock} {made : Plan}
    (h : (plan m request points).runOn clock = (.ok made, clock')) :
    made.tour.head? = some request.start ∧ made.tour.getLast? = some request.finish ∧
      ∀ q, q ∈ made.tour ↔ q = request.start ∨ q = request.finish ∨ q ∈ points := by
  have htour : made.tour = (outcome reversing m request points).1 :=
    congrArg (·.1) (planWith_eq_ok h).1
  have hsame := rearranges_outcome m request points
  rw [← htour] at hsame
  refine ⟨?_, ?_, fun q => ?_⟩
  · rw [hsame.head_eq, head?_greedy]
  · rw [hsame.last_eq, getLast?_greedy]
  · rw [hsame.perm.mem_iff, mem_greedy]

/-! ## What a plan saves -/

theorem swaps_workOf_le (tour : List Point) (reversals : List (Nat × Nat)) :
    (workOf tour reversals).swaps ≤ reversals.length := by
  unfold workOf
  split_ifs
  · exact Nat.zero_le _
  · exact Nat.le_refl _

/-- An optimizer that fails leaves the tour that it was given in force, whatever it did to it. -/
theorem settle_of_failed {tour : List Point} {result : Optimized} (h : result.stats = none) :
    settle tour result = (tour, ⟨0, 0⟩, false) := by
  unfold settle
  rw [h]

theorem outcome_of_failed {optimizer : Optimizer} {m : Metric} {request : Request}
    {points : List Point}
    (h : (optimizer m request.mode (greedy m points request.start request.finish)).stats = none) :
    outcome optimizer m request points =
      (greedy m points request.start request.finish, ⟨0, 0⟩, false) := by
  unfold outcome
  simp only
  split_ifs
  · exact settle_of_failed h
  · rfl

section Measurable

variable {m : Metric} (hm : m.measurable) (request : Request) (points : List Point)

include hm

theorem greedy?_eq_ok (start finish : Point) :
    greedy? m points start finish = .ok (greedy m points start finish) := by
  unfold greedy? ensure
  rw [hm, Bool.or_true]
  rfl

theorem pathLength?_eq_ok (tour : List Point) :
    m.pathLength? tour = .ok (m.pathLength tour) := by
  unfold Metric.pathLength?
  rw [Metric.ensureLegs_of_measurable hm]
  rfl

/-- A plan is made with any optimizer. -/
theorem exists_planWith (optimizer : Optimizer) {clock : Clock} (hclock : clock.readings ≠ []) :
    ∃ made clock', (planWith optimizer m request points).runOn clock = (.ok made, clock') := by
  obtain ⟨before, clock1, hread1, hclock1⟩ := Clock.exists_read hclock
  obtain ⟨after, clock2, hread2, hclock2⟩ := Clock.exists_read hclock1
  obtain ⟨before', clock3, hread3, hclock3⟩ := Clock.exists_read hclock2
  obtain ⟨after', clock4, hread4, -⟩ := Clock.exists_read hclock3
  unfold planWith
  rw [Procedure.runOn_bind_of_eq_ok hread1, greedy?_eq_ok hm,
    Procedure.runOn_bind_of_eq_ok (Procedure.runOn_ofExcept _ _),
    Procedure.runOn_bind_of_eq_ok hread2, pathLength?_eq_ok hm,
    Procedure.runOn_bind_of_eq_ok (Procedure.runOn_ofExcept _ _)]
  split_ifs
  · rw [Procedure.runOn_bind_of_eq_ok hread3]
    simp only
    rw [Procedure.runOn_bind_of_eq_ok hread4]
    exact ⟨_, _, Procedure.runOn_pure _ _⟩
  · exact ⟨_, _, Procedure.runOn_pure _ _⟩

end Measurable

section Exact

variable [Memory] {m : Metric} (hm : m.Exact) (request : Request) (points : List Point)

include hm

/-- Each reversal that a plan counts saves at least one move. -/
theorem outcome_saves :
    m.pathLength (outcome reversing m request points).1 +
        (outcome reversing m request points).2.1.swaps ≤
      m.pathLength (greedy m points request.start request.finish) := by
  unfold outcome
  simp only
  generalize greedy m points request.start request.finish = tour
  split_ifs
  · obtain ⟨reversals, final, refusal, hcourse, heq⟩ := exists_course hm request.mode tour
    unfold reversing
    rw [heq]
    cases refusal with
    | none =>
      exact Nat.le_trans (Nat.add_le_add_left (swaps_workOf_le tour reversals) _)
        (hcourse.pathLength_add_le hm)
    | some e => exact Nat.le_refl _
  · exact Nat.le_refl _

/-- A plan leads from the start through each other point once to the end, and is not longer than the
nearest-neighbour tour by the moves that its reversals save. An optimizer that fails, in whatever
state it leaves the tour, makes the nearest-neighbour tour the plan. -/
theorem plan_hamiltonian {clock : Clock} (hclock : clock.readings ≠ []) :
    (∃ made clock', (plan m request points).runOn clock = (.ok made, clock') ∧
      Hamiltonian request.start request.finish points made.tour ∧
      made.greedyLength = m.pathLength (greedy m points request.start request.finish) ∧
      made.length = m.pathLength made.tour ∧
      made.length + made.stats.swaps ≤ made.greedyLength) ∧
    ∀ optimizer : Optimizer,
      (optimizer m request.mode (greedy m points request.start request.finish)).stats = none →
      ∃ made clock', (planWith optimizer m request points).runOn clock = (.ok made, clock') ∧
        Hamiltonian request.start request.finish points made.tour ∧
        made.tour = greedy m points request.start request.finish ∧
        made.optimized = false ∧ made.stats = ⟨0, 0⟩ ∧
        made.greedyLength = m.pathLength made.tour ∧ made.length = made.greedyLength := by
  constructor
  · obtain ⟨made, clock', hmade⟩ := exists_planWith hm.measurable request points reversing hclock
    obtain ⟨htold, hgreedy, hlength⟩ := planWith_eq_ok hmade
    have hsaves := outcome_saves hm request points
    have hsame := rearranges_outcome m request points
    rw [← htold] at hsaves hsame
    refine ⟨made, clock', hmade, (hamiltonian_greedy m points _ _).of_rearranges hsame, hgreedy,
      hlength, ?_⟩
    rw [hlength, hgreedy]
    exact hsaves
  · intro optimizer hfailed
    obtain ⟨made, clock', hmade⟩ := exists_planWith hm.measurable request points optimizer hclock
    obtain ⟨htold, hgreedy, hlength⟩ := planWith_eq_ok hmade
    rw [outcome_of_failed hfailed] at htold
    obtain ⟨htour, hstats, hoptimized⟩ : made.tour = _ ∧ made.stats = _ ∧ made.optimized = _ := by
      simpa only [Prod.mk.injEq] using htold
    rw [← htour] at hgreedy
    refine ⟨made, clock', hmade, ?_, htour, hoptimized, hstats, hgreedy, hlength.trans hgreedy.symm⟩
    rw [htour]
    exact hamiltonian_greedy m points _ _

end Exact

/-- A crossing tour that starts and ends on one cell, with a point given twice and the start among
the points; an optimizer that leaves the tour reversed fails on it. -/
theorem plan_hamiltonian_round_trip :
    (⟨5, 5, by decide, by decide, false⟩ : Metric).Exact ∧
    ([0.0] : List Float) ≠ [] ∧
    (failing ⟨5, 5, by decide, by decide, false⟩ .raw (greedy ⟨5, 5, by decide, by decide, false⟩
      [⟨4, 4⟩, ⟨0, 0⟩, ⟨4, 0⟩, ⟨4, 4⟩] ⟨0, 0⟩ ⟨0, 0⟩)).stats = none ∧
    (∃ made clock', (plan ⟨5, 5, by decide, by decide, false⟩ ⟨⟨0, 0⟩, ⟨0, 0⟩, .raw, true⟩
        [⟨4, 4⟩, ⟨0, 0⟩, ⟨4, 0⟩, ⟨4, 4⟩]).runOn ⟨[0.0], 0⟩ = (.ok made, clock') ∧
      Hamiltonian ⟨0, 0⟩ ⟨0, 0⟩ [⟨4, 4⟩, ⟨0, 0⟩, ⟨4, 0⟩, ⟨4, 4⟩] made.tour) ∧
    ∃ made clock', (planWith failing ⟨5, 5, by decide, by decide, false⟩
        ⟨⟨0, 0⟩, ⟨0, 0⟩, .raw, true⟩ [⟨4, 4⟩, ⟨0, 0⟩, ⟨4, 0⟩, ⟨4, 4⟩]).runOn ⟨[0.0], 0⟩ =
          (.ok made, clock') ∧
      made.tour = [⟨0, 0⟩, ⟨4, 0⟩, ⟨4, 4⟩, ⟨0, 0⟩] ∧ made.length = 16 := by
  have hm : (⟨5, 5, by decide, by decide, false⟩ : Metric).Exact := by decide
  have hclock : (⟨[0.0], 0⟩ : Clock).readings ≠ [] := List.cons_ne_nil _ _
  obtain ⟨⟨made, clock', hmade, hpath, -⟩, hfallback⟩ :=
    plan_hamiltonian hm ⟨⟨0, 0⟩, ⟨0, 0⟩, .raw, true⟩ [⟨4, 4⟩, ⟨0, 0⟩, ⟨4, 0⟩, ⟨4, 4⟩] hclock
  obtain ⟨made', clock'', hmade', -, htour, -, -, hgreedy, hlength⟩ := hfallback failing rfl
  have hvisits : greedy ⟨5, 5, by decide, by decide, false⟩ [⟨4, 4⟩, ⟨0, 0⟩, ⟨4, 0⟩, ⟨4, 4⟩]
      ⟨0, 0⟩ ⟨0, 0⟩ = [⟨0, 0⟩, ⟨4, 0⟩, ⟨4, 4⟩, ⟨0, 0⟩] := by decide +kernel
  rw [htour.trans hvisits] at hgreedy
  exact ⟨hm, hclock, rfl, ⟨made, clock', hmade, hpath⟩, made', clock'', hmade',
    htour.trans hvisits, hlength.trans hgreedy⟩

end Tour
end Turmite
