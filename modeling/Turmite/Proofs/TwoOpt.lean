import Turmite.Proofs.LocalSearch

/-!
# The search for a shorter tour

A `Course` is a search of a mode, on a tour of any length. On a board whose halves are exact both
modes make the same reversals (`modes_agree`). The search ends, keeps the points and the ends of the
tour, and saves at least one move with each reversal (`search_saves`). Its tour cannot be shortened
by one more, so a second search changes nothing (`search_locally_optimal`). Only a search by
expansions can be refused, and only if there is no memory for the list of all moves of a tour that
it expands.
-/

namespace Turmite.Tour

open Displacement (Misfit)

variable {m : Metric} {mode : Mode} {tour final : List Point} {reversals : List (Nat × Nat)}
  {refusal : Option Error}

section

theorem length_lt_reversalLimit (m : Metric) (tour : List Point) :
    m.pathLength tour < reversalLimit m tour := by
  have horders : ∀ n, 0 < orders n := by
    intro n
    induction n with
    | zero => decide
    | succ n ih => exact Nat.mul_pos (Nat.succ_pos n) ih
  exact Nat.lt_add_of_pos_left (horders tour.length)

variable [Memory]

/-- On any board, whatever becomes of the search, it keeps the points and the ends of the tour. -/
theorem rearranges_twoOpt {outcome : Except Error Stats}
    (h : (twoOpt m mode).runOn tour = (outcome, final)) : Rearranges final tour := by
  have hfinal : ((twoOpt m mode).runOn tour).2 = final := congrArg (·.2) h
  rw [← hfinal]
  unfold twoOpt
  rw [Procedure.runOn_bind_of_eq_ok (Procedure.runOn_get tour)]
  split_ifs with h4
  · exact Rearranges.refl tour
  · rw [Procedure.runOn_bind, Procedure.runOn_ofExcept]
    cases Judge.initial? m mode tour with
    | error e => exact Rearranges.refl tour
    | ok judge => exact rearranges_improve m (reversalLimit m tour) judge tour.toArray

/-! ## Courses -/

section Initial

variable (hm : m.Exact) {judge : Judge}

include hm

theorem initial?_raw (tour : List Point) : Judge.initial? m .raw tour = .ok .edges := by
  unfold Judge.initial?
  simp only
  rw [Metric.ensureMeasurable_of_measurable hm.measurable]
  rfl

theorem knows_initial? (h : Judge.initial? m mode tour = .ok judge) :
    judge.Knows m tour.toArray := by
  cases mode with
  | raw =>
    rw [initial?_raw hm] at h
    cases h
    exact trivial
  | detailed =>
    obtain ⟨moves, hmoves, h⟩ := bind_eq_ok.1 h
    obtain ⟨_, -, hpure⟩ := bind_eq_ok.1 hmoves
    cases pure_eq_ok.1 hpure
    cases pure_eq_ok.1 h
    exact m.length_expandMoves tour

theorem initial?_eq_error {e : Error} (h : Judge.initial? m mode tour = .error e) :
    mode = .detailed ∧ Misfit e ∧ ¬ m.Expandable tour := by
  cases mode with
  | raw =>
    rw [initial?_raw hm] at h
    cases h
  | detailed =>
    unfold Judge.initial? at h
    simp only at h
    by_cases hx : m.Expandable tour
    · rw [Metric.expandMoves?_of_expandable hm.measurable hx] at h
      cases h
    · obtain ⟨e', he, hrefused⟩ := Metric.exists_expandMoves?_eq_error hm.measurable hx
      rw [hrefused] at h
      cases h
      exact ⟨rfl, he, hx⟩

end Initial

/-- The course of a search: the reversals that it makes, the tour that they lead to, and why it is
refused there, if it is. A tour of fewer than four points stays as it is. -/
inductive Course (m : Metric) (mode : Mode) (tour : List Point) :
    List (Nat × Nat) → List Point → Option Error → Prop where
  | short (h : tour.length < 4) : Course m mode tour [] tour none
  | refused {e : Error} (h4 : 4 ≤ tour.length) (h : Judge.initial? m mode tour = .error e) :
      Course m mode tour [] tour (some e)
  | search {judge : Judge} {reversals : List (Nat × Nat)} {final : Array Point}
      {refusal : Option Error} (h4 : 4 ≤ tour.length)
      (h : Judge.initial? m mode tour = .ok judge)
      (passes : Search m judge tour.toArray reversals final refusal) :
      Course m mode tour reversals final.toList refusal

/-- The work of a search that is not refused. -/
def workOf (tour : List Point) (reversals : List (Nat × Nat)) : Stats :=
  if tour.length < 4 then ⟨0, 0⟩ else ⟨reversals.length, reversals.length + 1⟩

/-- The search of each mode has a course. -/
theorem exists_course (hm : m.Exact) (mode : Mode) (tour : List Point) :
    ∃ reversals final refusal, Course m mode tour reversals final refusal ∧
      (twoOpt m mode).runOn tour = (answer (workOf tour reversals) refusal, final) := by
  unfold twoOpt
  rw [Procedure.runOn_bind_of_eq_ok (Procedure.runOn_get tour)]
  by_cases h4 : tour.length < 4
  · rw [if_pos h4]
    refine ⟨[], tour, none, Course.short h4, ?_⟩
    unfold workOf
    rw [if_pos h4]
    rfl
  · rw [if_neg h4, Procedure.runOn_bind, Procedure.runOn_ofExcept]
    cases h : Judge.initial? m mode tour with
    | error e => exact ⟨[], tour, some e, Course.refused (Nat.not_lt.1 h4) h, rfl⟩
    | ok judge =>
      obtain ⟨reversals, final, refusal, hsearch, heq⟩ :=
        exists_search hm (knows_initial? hm h) (length_lt_reversalLimit m tour)
      refine ⟨reversals, final.toList, refusal, Course.search (Nat.not_lt.1 h4) h hsearch, ?_⟩
      simp only
      rw [Procedure.runOn_within, heq]
      unfold workOf
      rw [if_neg h4]

namespace Course

variable (hm : m.Exact) (h : Course m mode tour reversals final refusal)

include hm h

theorem pathLength_add_le : m.pathLength final + reversals.length ≤ m.pathLength tour := by
  cases h with
  | short h => exact Nat.le_refl _
  | refused h4 h => exact Nat.le_refl _
  | search h4 h passes => exact passes.pathLength_add_le hm (knows_initial? hm h)

/-- A course that is refused ends at a tour too long to be judged by expansions. -/
theorem of_refused {e : Error} (hn : refusal = some e) :
    mode = .detailed ∧ 4 ≤ tour.length ∧ Overlong m final ∧ Misfit e := by
  subst hn
  cases h with
  | refused h4 h =>
    obtain ⟨hmode, he, hx⟩ := initial?_eq_error hm h
    exact ⟨hmode, h4, Or.inl (Nat.lt_of_not_le hx), he⟩
  | search h4 h passes =>
    obtain ⟨he, hlong⟩ := passes.of_refused hm (knows_initial? hm h)
    cases mode with
    | raw =>
      rw [initial?_raw hm] at h
      cases h
      cases passes.refusal_edges
    | detailed => exact ⟨rfl, h4, hlong, he⟩

theorem shortens_eq_false (h4 : 4 ≤ tour.length) (hn : refusal = none) {i k : Nat}
    (hik : Inner final.length i k) : shortens m final.toArray i k = false := by
  subst hn
  cases h with
  | short h => exact absurd h4 (Nat.not_le.2 h)
  | search h4 h passes => exact passes.shortens_eq_false hm (knows_initial? hm h) hik

/-- Every mode makes the reversals of the mode by edges, all of them unless it is refused. -/
theorem prefix_of_raw {all : List (Nat × Nat)} {last : List Point}
    (hraw : Course m .raw tour all last none) :
    reversals <+: all ∧ (refusal = none → reversals = all ∧ final = last) := by
  cases h with
  | short h =>
    cases hraw with
    | short h' => exact ⟨List.nil_prefix, fun _ => ⟨rfl, rfl⟩⟩
    | search h4 h' passes => exact absurd h4 (Nat.not_le.2 h)
  | refused h4 h => exact ⟨List.nil_prefix, fun h => nomatch h⟩
  | search h4 h passes =>
    cases hraw with
    | short h' => exact absurd h4 (Nat.not_le.2 h')
    | search _ h' passes' =>
      rw [initial?_raw hm] at h'
      cases h'
      obtain ⟨hmade, hend⟩ := passes.prefix_of_edges hm (knows_initial? hm h) passes'
      refine ⟨hmade, fun hn => ?_⟩
      obtain ⟨rfl, rfl⟩ := hend hn
      exact ⟨rfl, rfl⟩

/-- Nothing is reversed where no reversal would make the tour shorter. -/
theorem eq_of_shortens_eq_false
    (hoptimal : ∀ i k, Inner tour.length i k → shortens m tour.toArray i k = false) :
    reversals = [] ∧ final = tour := by
  cases h with
  | short h => exact ⟨rfl, rfl⟩
  | refused h4 h => exact ⟨rfl, rfl⟩
  | search h4 h passes =>
    cases passes with
    | last h => exact ⟨rfl, rfl⟩
    | refused h => exact ⟨rfl, rfl⟩
    | pass hfound rest =>
      have hlt := pathLength_lt_of_firstReversal? hm (knows_initial? hm h) hfound
      have hfalse := hoptimal _ _ (inner_of_firstReversal? hfound)
      unfold shortens at hfalse
      exact absurd hlt (of_decide_eq_false hfalse)

end Course

theorem exists_course_raw (hm : m.Exact) (tour : List Point) :
    ∃ reversals final, Course m .raw tour reversals final none ∧
      (twoOpt m .raw).runOn tour = (.ok (workOf tour reversals), final) := by
  obtain ⟨reversals, final, refusal, hcourse, heq⟩ := exists_course hm .raw tour
  cases refusal with
  | none => exact ⟨reversals, final, hcourse, heq⟩
  | some e => cases (hcourse.of_refused hm rfl).1

end

/-! ## Both modes -/

/-- Both modes make the same reversals and the same passes. Only by expansions a search may be
refused on its way, where it has come to a tour that is too long for memory, as it is or with an
inner segment reversed. -/
theorem modes_agree [Memory] (hm : m.Exact) (tour : List Point) :
    ∃ reversals final stats,
      Course m .raw tour reversals final none ∧
      stats.swaps = reversals.length ∧
      (twoOpt m .raw).runOn tour = (.ok stats, final) ∧
      ((Course m .detailed tour reversals final none ∧
          (twoOpt m .detailed).runOn tour = (.ok stats, final)) ∨
        (4 ≤ tour.length ∧
          ∃ e made reached, Misfit e ∧ Overlong m reached ∧ made <+: reversals ∧
            Course m .detailed tour made reached (some e) ∧
            (twoOpt m .detailed).runOn tour = (.error e, reached))) := by
  obtain ⟨reversals, final, hraw, heq⟩ := exists_course_raw hm tour
  refine ⟨reversals, final, _, hraw, ?_, heq, ?_⟩
  · cases hraw with
    | short h =>
      unfold workOf
      rw [if_pos h]
      rfl
    | search h4 h passes =>
      unfold workOf
      rw [if_neg (Nat.not_lt.2 h4)]
  · obtain ⟨made, reached, refusal, hcourse, heq'⟩ := exists_course hm .detailed tour
    obtain ⟨hmade, hend⟩ := hcourse.prefix_of_raw hm hraw
    cases refusal with
    | none =>
      obtain ⟨rfl, rfl⟩ := hend rfl
      exact Or.inl ⟨hcourse, heq'⟩
    | some e =>
      obtain ⟨-, h4, hlong, he⟩ := hcourse.of_refused hm rfl
      exact Or.inr ⟨h4, e, made, reached, he, hlong, hmade, hcourse, heq'⟩

theorem modes_agree_on_torus :
    (⟨10, 10, by decide, by decide, true⟩ : Metric).Exact ∧
    ∃ stats final,
      (twoOpt ⟨10, 10, by decide, by decide, true⟩ .raw).runOn
        [⟨0, 0⟩, ⟨1, 1⟩, ⟨1, 8⟩, ⟨8, 1⟩, ⟨0, 0⟩] = (.ok stats, final) ∧
      (twoOpt ⟨10, 10, by decide, by decide, true⟩ .detailed).runOn
        [⟨0, 0⟩, ⟨1, 1⟩, ⟨1, 8⟩, ⟨8, 1⟩, ⟨0, 0⟩] = (.ok stats, final) := by
  have hm : (⟨10, 10, by decide, by decide, true⟩ : Metric).Exact := by decide
  have hok : ((twoOpt ⟨10, 10, by decide, by decide, true⟩ .detailed).runOn
      [⟨0, 0⟩, ⟨1, 1⟩, ⟨1, 8⟩, ⟨8, 1⟩, ⟨0, 0⟩]).1.isOk = true := by decide +kernel
  obtain ⟨_, final, stats, -, -, hraw, ⟨-, hdetailed⟩ | ⟨-, e, _, _, -, -, -, -, hrefused⟩⟩ :=
    modes_agree hm [⟨0, 0⟩, ⟨1, 1⟩, ⟨1, 8⟩, ⟨8, 1⟩, ⟨0, 0⟩]
  · exact ⟨hm, stats, final, hraw, hdetailed⟩
  · rw [hrefused] at hok
    cases hok

/-- The edges of a tour may be judged where its moves are more than a list can hold. -/
theorem modes_differ_on_unindexable_leg :
    (⟨4, 4, by decide, by decide, false⟩ : Metric).Exact ∧
    (twoOpt ⟨4, 4, by decide, by decide, false⟩ .raw).runOn
        [⟨0, 0⟩, ⟨1, 0⟩, ⟨2, 0⟩, ⟨Nat.pow 2 63 + 2, 0⟩] =
      (.ok ⟨0, 1⟩, [⟨0, 0⟩, ⟨1, 0⟩, ⟨2, 0⟩, ⟨Nat.pow 2 63 + 2, 0⟩]) ∧
    (twoOpt ⟨4, 4, by decide, by decide, false⟩ .detailed).runOn
        [⟨0, 0⟩, ⟨1, 0⟩, ⟨2, 0⟩, ⟨Nat.pow 2 63 + 2, 0⟩] =
      (.error .overflow, [⟨0, 0⟩, ⟨1, 0⟩, ⟨2, 0⟩, ⟨Nat.pow 2 63 + 2, 0⟩]) :=
  ⟨by decide, rfl, rfl⟩

/-! ## What a search saves -/

/-- The search ends, with the points and the ends of the tour, shorter by at least one move for each
reversal. A search that is refused leaves a tour of the same points and ends that is not longer. -/
theorem search_saves [Memory] (hm : m.Exact) (mode : Mode) (tour : List Point) :
    ∃ outcome reversals final,
      (twoOpt m mode).runOn tour = (outcome, final) ∧
      Rearranges final tour ∧
      m.pathLength final + reversals.length ≤ m.pathLength tour ∧
      ((Course m mode tour reversals final none ∧
          ∃ stats, outcome = .ok stats ∧ stats.swaps = reversals.length ∧
            (4 ≤ tour.length → stats.passes = stats.swaps + 1) ∧
            (tour.length < 4 → stats = ⟨0, 0⟩ ∧ final = tour)) ∨
        (mode = .detailed ∧ 4 ≤ tour.length ∧ Overlong m final ∧
          ∃ e, Misfit e ∧ outcome = .error e ∧ Course m mode tour reversals final (some e))) := by
  obtain ⟨reversals, final, refusal, hcourse, heq⟩ := exists_course hm mode tour
  refine ⟨_, reversals, final, heq, rearranges_twoOpt heq, hcourse.pathLength_add_le hm, ?_⟩
  cases refusal with
  | some e =>
    obtain ⟨hmode, h4, hlong, he⟩ := hcourse.of_refused hm rfl
    exact Or.inr ⟨hmode, h4, hlong, e, he, rfl, hcourse⟩
  | none =>
    refine Or.inl ⟨hcourse, _, rfl, ?_⟩
    cases hcourse with
    | short h =>
      unfold workOf
      rw [if_pos h]
      exact ⟨rfl, fun h4 => absurd h4 (Nat.not_le.2 h), fun _ => ⟨rfl, rfl⟩⟩
    | search h4 h passes =>
      unfold workOf
      rw [if_neg (Nat.not_lt.2 h4)]
      exact ⟨rfl, fun _ => rfl, fun h => absurd h4 (Nat.not_le.2 h)⟩

theorem search_saves_on_board :
    (⟨3, 2, by decide, by decide, false⟩ : Metric).Exact ∧
    ∃ stats final,
      (twoOpt ⟨3, 2, by decide, by decide, false⟩ .detailed).runOn
        [⟨0, 0⟩, ⟨2, 0⟩, ⟨2, 0⟩, ⟨1, 1⟩, ⟨-7, 5⟩] = (.ok stats, final) ∧
      Rearranges final [⟨0, 0⟩, ⟨2, 0⟩, ⟨2, 0⟩, ⟨1, 1⟩, ⟨-7, 5⟩] ∧
      stats.passes = stats.swaps + 1 := by
  have hm : (⟨3, 2, by decide, by decide, false⟩ : Metric).Exact := by decide
  have hok : ((twoOpt ⟨3, 2, by decide, by decide, false⟩ .detailed).runOn
      [⟨0, 0⟩, ⟨2, 0⟩, ⟨2, 0⟩, ⟨1, 1⟩, ⟨-7, 5⟩]).1.isOk = true := by decide +kernel
  obtain ⟨outcome, _, final, heq, hkeeps, -, ⟨-, stats, rfl, -, hpasses, -⟩ |
      ⟨-, -, -, e, -, rfl, -⟩⟩ :=
    search_saves hm .detailed [⟨0, 0⟩, ⟨2, 0⟩, ⟨2, 0⟩, ⟨1, 1⟩, ⟨-7, 5⟩]
  · exact ⟨hm, stats, final, heq, hkeeps, hpasses (by decide)⟩
  · rw [heq] at hok
    cases hok

/-- A search that is refused has no work to tell. -/
theorem search_refused_on_unindexable_leg :
    (⟨4, 4, by decide, by decide, false⟩ : Metric).Exact ∧
    (twoOpt ⟨4, 4, by decide, by decide, false⟩ .detailed).runOn
        [⟨0, 0⟩, ⟨Nat.pow 2 63 + 2, 0⟩, ⟨1, 0⟩, ⟨2, 0⟩, ⟨0, 0⟩] =
      (.error .overflow, [⟨0, 0⟩, ⟨Nat.pow 2 63 + 2, 0⟩, ⟨1, 0⟩, ⟨2, 0⟩, ⟨0, 0⟩]) :=
  ⟨by decide, rfl⟩

/-! ## Where a search ends -/

/-- No pair `i < k` of inner indices is left whose reversal would make the tour shorter, so a second
search, in either mode, finds nothing in its only pass, unless it is refused. -/
theorem search_locally_optimal [Memory] (hm : m.Exact) (mode : Mode) {tour : List Point}
    (h4 : 4 ≤ tour.length) :
    (∃ stats final,
      (twoOpt m mode).runOn tour = (.ok stats, final) ∧
      (∀ i k, 1 ≤ i → i < k → k + 2 ≤ final.length →
        m.pathLength final ≤ m.pathLength
          (final.take i ++ ((final.drop i).take (k + 1 - i)).reverse ++ final.drop (k + 1))) ∧
      ∀ mode', (twoOpt m mode').runOn final = (.ok ⟨0, 1⟩, final) ∨
        (mode' = .detailed ∧ Overlong m final ∧
          ∃ e, Misfit e ∧ (twoOpt m mode').runOn final = (.error e, final))) ∨
    (mode = .detailed ∧
      ∃ e reached, Misfit e ∧ Overlong m reached ∧
        (twoOpt m mode).runOn tour = (.error e, reached)) := by
  obtain ⟨reversals, final, refusal, hcourse, heq⟩ := exists_course hm mode tour
  cases refusal with
  | some e =>
    obtain ⟨hmode, -, hlong, he⟩ := hcourse.of_refused hm rfl
    exact Or.inr ⟨hmode, e, final, he, hlong, heq⟩
  | none =>
    have hkeeps := rearranges_twoOpt heq
    have hoptimal : ∀ i k, Inner final.length i k → shortens m final.toArray i k = false :=
      fun i k hik => hcourse.shortens_eq_false hm h4 rfl hik
    refine Or.inl ⟨_, final, heq, fun i k hi hik hk => ?_, fun mode' => ?_⟩
    · have hfalse := hoptimal i k ⟨hi, hik, hk⟩
      unfold shortens at hfalse
      rw [toList_reverseSegment] at hfalse
      exact Nat.le_of_not_lt (of_decide_eq_false hfalse)
    · obtain ⟨reversals', final', refusal', hagain, heq'⟩ := exists_course hm mode' final
      obtain ⟨rfl, rfl⟩ := hagain.eq_of_shortens_eq_false hm hoptimal
      cases refusal' with
      | none =>
        refine Or.inl (heq'.trans ?_)
        unfold workOf
        rw [if_neg (Nat.not_lt.2 (hkeeps.length_eq ▸ h4))]
        rfl
      | some e =>
        obtain ⟨hmode, -, hlong, he⟩ := hagain.of_refused hm rfl
        exact Or.inr ⟨hmode, hlong, e, he, heq'⟩

theorem search_locally_optimal_on_torus :
    (⟨4, 1, by decide, by decide, true⟩ : Metric).Exact ∧
    4 ≤ [⟨0, 0⟩, ⟨2, 0⟩, ⟨1, 0⟩, ⟨3, 0⟩, (⟨0, 0⟩ : Point)].length ∧
    ∃ stats final,
      (twoOpt ⟨4, 1, by decide, by decide, true⟩ .raw).runOn
        [⟨0, 0⟩, ⟨2, 0⟩, ⟨1, 0⟩, ⟨3, 0⟩, ⟨0, 0⟩] = (.ok stats, final) ∧
      (twoOpt ⟨4, 1, by decide, by decide, true⟩ .raw).runOn final = (.ok ⟨0, 1⟩, final) := by
  have hm : (⟨4, 1, by decide, by decide, true⟩ : Metric).Exact := by decide
  have h4 : 4 ≤ [⟨0, 0⟩, ⟨2, 0⟩, ⟨1, 0⟩, ⟨3, 0⟩, (⟨0, 0⟩ : Point)].length := by decide
  obtain ⟨stats, final, heq, -, hagain⟩ | ⟨hmode, -⟩ := search_locally_optimal hm .raw h4
  · rcases hagain .raw with hsecond | ⟨hmode, -⟩
    · exact ⟨hm, h4, stats, final, heq, hsecond⟩
    · cases hmode
  · cases hmode

/-- A search that is refused leaves a tour that a reversal would shorten. -/
theorem search_leaves_crossing_on_unindexable_leg :
    (⟨4, 4, by decide, by decide, false⟩ : Metric).Exact ∧
    (twoOpt ⟨4, 4, by decide, by decide, false⟩ .detailed).runOn
        [⟨0, 0⟩, ⟨2, 0⟩, ⟨1, 0⟩, ⟨Nat.pow 2 63 + 2, 0⟩] =
      (.error .overflow, [⟨0, 0⟩, ⟨2, 0⟩, ⟨1, 0⟩, ⟨Nat.pow 2 63 + 2, 0⟩]) ∧
    (⟨4, 4, by decide, by decide, false⟩ : Metric).pathLength
        [⟨0, 0⟩, ⟨1, 0⟩, ⟨2, 0⟩, ⟨Nat.pow 2 63 + 2, 0⟩] <
      (⟨4, 4, by decide, by decide, false⟩ : Metric).pathLength
        [⟨0, 0⟩, ⟨2, 0⟩, ⟨1, 0⟩, ⟨Nat.pow 2 63 + 2, 0⟩] :=
  ⟨by decide, rfl, by decide⟩

end Turmite.Tour
