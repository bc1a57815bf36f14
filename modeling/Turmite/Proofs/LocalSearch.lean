import Turmite.Proofs.Expansion
import Turmite.Proofs.Reversal

/-!
# Shortening by reversals as a local search

However reversals are judged, they keep the points and the ends of the tour (`rearranges_improve`).
A `Search` is what happens in place: the reversals that are made one after another, the tour that
they lead to, and why the search is refused there, if it is. On a board whose halves are exact every
reversal that is made shortens the tour, so `improve` is such a search and never reaches its bound
(`exists_search`). A search that is not refused ends in a tour that no reversal shortens
(`Search.shortens_eq_false`). The judge of a pass knows the length of its tour, so all judges make
the same reversals for as long as they are not refused (`Search.prefix_of_edges`). A search is
refused only where there is no memory for the moves of a tour that it expands: of the one that it
has come to, or of that one with a segment reversed (`Search.of_refused`).
-/

namespace Turmite.Tour

open Displacement (Misfit)

variable [Memory]

/-! ## Passes -/

theorem inner_of_firstReversal? {m : Metric} {judge : Judge} {tour : Array Point} {i k : Nat}
    (h : firstReversal? m judge tour = .ok (some (i, k))) : Inner tour.size i k :=
  mem_innerPairs.1 (findPair?_eq_some h).1

/-- A pass is the last, is refused, or makes a reversal and counts with what follows. -/
theorem runOn_improve_succ (m : Metric) (limit : Nat) (judge : Judge) (tour : Array Point) :
    (improve m (limit + 1) judge).runOn tour =
      match firstReversal? m judge tour with
      | .error e => (.error e, tour)
      | .ok none => (.ok ⟨0, 1⟩, tour)
      | .ok (some (i, k)) =>
        let reversed := reverseSegment tour i k
        let rest := (improve m limit (judge.next m reversed)).runOn reversed
        (rest.1.map fun stats => ⟨stats.swaps + 1, stats.passes + 1⟩, rest.2) := by
  rw [improve, Procedure.runOn_bind_of_eq_ok (Procedure.runOn_get tour), Procedure.runOn_bind,
    Procedure.runOn_ofExcept]
  rcases firstReversal? m judge tour with e | _ | ⟨i, k⟩
  · rfl
  · rfl
  · simp only
    rw [Procedure.runOn_bind_of_eq_ok (Procedure.runOn_set tour _), Procedure.runOn_bind]
    rcases (improve m limit (judge.next m (reverseSegment tour i k))).runOn
      (reverseSegment tour i k) with ⟨_ | stats, final⟩
    · rfl
    · rfl

/-- On any board, whether its halves are exact or not, and wherever the search stops, the points and
the ends of the tour are kept. -/
theorem rearranges_improve (m : Metric) (limit : Nat) (judge : Judge) (tour : Array Point) :
    Rearranges ((improve m limit judge).runOn tour).2.toList tour.toList := by
  induction limit generalizing judge tour with
  | zero => exact Rearranges.refl _
  | succ limit ih =>
    rw [runOn_improve_succ]
    rcases h : firstReversal? m judge tour with e | _ | ⟨i, k⟩
    · exact Rearranges.refl _
    · exact Rearranges.refl _
    · exact (ih _ _).trans (rearranges_reverseSegment (inner_of_firstReversal? h))

/-! ## Judges -/

/-- There is no memory for the moves of a tour, as it is or with an inner segment reversed. -/
def Overlong (m : Metric) (tour : List Point) : Prop :=
  Memory.words < m.pathLength tour ∨ ∃ i k, Inner tour.length i k ∧
    Memory.words < m.pathLength
      (tour.take i ++ ((tour.drop i).take (k + 1 - i)).reverse ++ tour.drop (k + 1))

/-- An expansion is judged against the length of the tour at hand. -/
def Judge.Knows (m : Metric) (tour : Array Point) : Judge → Prop
  | .edges => True
  | .expansion best => best = m.pathLength tour.toList

omit [Memory] in
/-- The best length and the tour are replaced together. -/
theorem Judge.knows_next (m : Metric) (judge : Judge) (tour : Array Point) :
    (judge.next m tour).Knows m tour := by
  cases judge with
  | edges => exact trivial
  | expansion best => exact m.length_expandMoves tour.toList

section

variable {m : Metric} (hm : m.Exact) {judge : Judge} {tour : Array Point} {i k : Nat}

include hm

theorem accepts?_edges_eq (hik : Inner tour.size i k) :
    Judge.edges.accepts? m tour i k = .ok (shortens m tour i k) := by
  unfold Judge.accepts?
  rw [exchangeShortens_eq hm hik]

/-- A judge accepts a reversal that shortens the tour, unless it would have to expand a tour that
cannot be expanded. -/
theorem accepts?_eq_or (hj : judge.Knows m tour) (hik : Inner tour.size i k) :
    judge.accepts? m tour i k = .ok (shortens m tour i k) ∨
      ¬ m.Expandable (reverseSegment tour i k).toList ∧
        ∃ e, Misfit e ∧ judge.accepts? m tour i k = .error e := by
  cases judge with
  | edges => exact Or.inl (accepts?_edges_eq hm hik)
  | expansion best =>
    unfold Judge.Knows at hj
    subst hj
    unfold Judge.accepts?
    by_cases hx : m.Expandable (reverseSegment tour i k).toList
    · rw [Metric.expandMoves?_of_expandable hm.measurable hx]
      refine Or.inl (congrArg Except.ok ?_)
      rw [Metric.length_expandMoves]
      rfl
    · obtain ⟨e, he, hrefused⟩ := Metric.exists_expandMoves?_eq_error hm.measurable hx
      rw [hrefused]
      exact Or.inr ⟨hx, e, he, rfl⟩

section Known

variable (hj : judge.Knows m tour)

include hj

theorem accepts?_eq_ok (hik : Inner tour.size i k) {b : Bool}
    (h : judge.accepts? m tour i k = .ok b) : b = shortens m tour i k := by
  rcases accepts?_eq_or hm hj hik with heq | ⟨-, e, -, heq⟩
  · exact Except.ok.inj (h.symm.trans heq)
  · rw [h] at heq
    cases heq

/-- What an expansion finds, an exchange of edges finds too. -/
theorem firstReversal?_edges_of_eq_ok {found : Option (Nat × Nat)}
    (h : firstReversal? m judge tour = .ok found) : firstReversal? m .edges tour = .ok found := by
  refine findPair?_eq_ok_of_imp (fun i k b hmem haccept => ?_) h
  have hik := mem_innerPairs.1 hmem
  rw [accepts?_edges_eq hm hik, accepts?_eq_ok hm hj hik haccept]

/-- A reversal is found where the tour becomes shorter. -/
theorem pathLength_lt_of_firstReversal? (h : firstReversal? m judge tour = .ok (some (i, k))) :
    m.pathLength (reverseSegment tour i k).toList < m.pathLength tour.toList := by
  obtain ⟨hmem, haccept⟩ := findPair?_eq_some h
  have hs := accepts?_eq_ok hm hj (mem_innerPairs.1 hmem) haccept
  unfold shortens at hs
  exact of_decide_eq_true hs.symm

theorem firstReversal?_eq_none (h : firstReversal? m judge tour = .ok none)
    (hik : Inner tour.size i k) : shortens m tour i k = false :=
  (accepts?_eq_ok hm hj hik (findPair?_eq_none h (mem_innerPairs.2 hik))).symm

theorem firstReversal?_eq_error {e : Error} (h : firstReversal? m judge tour = .error e) :
    Misfit e ∧ Overlong m tour.toList := by
  obtain ⟨i, k, hmem, haccept⟩ := findPair?_eq_error h
  have hik := mem_innerPairs.1 hmem
  rcases accepts?_eq_or hm hj hik with heq | ⟨hx, e', he, heq⟩
  · rw [haccept] at heq
    cases heq
  · rw [haccept] at heq
    obtain rfl := Except.error.inj heq
    rw [toList_reverseSegment] at hx
    exact ⟨he, Or.inr ⟨i, k, hik, Nat.lt_of_not_le hx⟩⟩

end Known

end

/-! ## Searches -/

/-- A search from a tour. Each pass makes the first reversal that its judge accepts, until one finds
none or is refused. -/
inductive Search (m : Metric) :
    Judge → Array Point → List (Nat × Nat) → Array Point → Option Error → Prop where
  | last {judge : Judge} {tour : Array Point} (h : firstReversal? m judge tour = .ok none) :
      Search m judge tour [] tour none
  | refused {judge : Judge} {tour : Array Point} {e : Error}
      (h : firstReversal? m judge tour = .error e) : Search m judge tour [] tour (some e)
  | pass {judge : Judge} {tour final : Array Point} {i k : Nat} {reversals : List (Nat × Nat)}
      {refusal : Option Error} (h : firstReversal? m judge tour = .ok (some (i, k)))
      (rest : Search m (judge.next m (reverseSegment tour i k)) (reverseSegment tour i k) reversals
        final refusal) :
      Search m judge tour ((i, k) :: reversals) final refusal

/-- What a search answers: its work, unless it is refused. -/
def answer (stats : Stats) : Option Error → Except Error Stats
  | none => .ok stats
  | some e => .error e

/-- A bound above the length of the tour is not felt. -/
theorem exists_search {m : Metric} (hm : m.Exact) {limit : Nat} {judge : Judge}
    {tour : Array Point} (hj : judge.Knows m tour) (hl : m.pathLength tour.toList < limit) :
    ∃ reversals final refusal, Search m judge tour reversals final refusal ∧
      (improve m limit judge).runOn tour =
        (answer ⟨reversals.length, reversals.length + 1⟩ refusal, final) := by
  -- Each reversal leaves a shorter tour.
  induction limit generalizing judge tour with
  | zero => exact absurd hl (Nat.not_lt_zero _)
  | succ limit ih =>
    rw [runOn_improve_succ]
    rcases h : firstReversal? m judge tour with e | _ | ⟨i, k⟩
    · exact ⟨[], tour, some e, Search.refused h, rfl⟩
    · exact ⟨[], tour, none, Search.last h, rfl⟩
    · have hlt := pathLength_lt_of_firstReversal? hm hj h
      obtain ⟨reversals, final, refusal, rest, hrest⟩ :=
        ih (Judge.knows_next m judge _) (Nat.lt_of_lt_of_le hlt (Nat.le_of_lt_succ hl))
      refine ⟨(i, k) :: reversals, final, refusal, Search.pass h rest, ?_⟩
      simp only
      rw [hrest]
      cases refusal <;> rfl

namespace Search

variable {m : Metric} (hm : m.Exact) {judge : Judge} {tour final : Array Point}
  {reversals : List (Nat × Nat)} {refusal : Option Error}

/-- A search by edges is not refused. -/
theorem refusal_edges (h : Search m .edges tour reversals final refusal) : refusal = none := by
  generalize hj : Judge.edges = judge at h
  induction h with
  | last h => rfl
  | refused h =>
    subst hj
    obtain ⟨i, k, hmem, haccept⟩ := findPair?_eq_error h
    cases haccept
  | pass h rest ih =>
    subst hj
    exact ih rfl

include hm

/-- Every reversal saves at least one move. -/
theorem pathLength_add_le (hj : judge.Knows m tour)
    (h : Search m judge tour reversals final refusal) :
    m.pathLength final.toList + reversals.length ≤ m.pathLength tour.toList := by
  induction h with
  | last h => exact Nat.le_refl _
  | refused h => exact Nat.le_refl _
  | pass h rest ih =>
    have hlt := pathLength_lt_of_firstReversal? hm hj h
    have hrest := ih (Judge.knows_next m _ _)
    rw [List.length_cons]
    omega

/-- No pair of inner indices is left that bounds a segment whose reversal would make the tour
shorter. -/
theorem shortens_eq_false (hj : judge.Knows m tour) (h : Search m judge tour reversals final none)
    {i k : Nat} (hik : Inner final.size i k) : shortens m final i k = false := by
  generalize hn : none = refusal at h
  induction h with
  | last h => exact firstReversal?_eq_none hm hj h hik
  | refused h => cases hn
  | pass h rest ih => exact ih (Judge.knows_next m _ _) hik hn

/-- A search is refused only where it has come to a tour too long to be judged by expansions. -/
theorem of_refused (hj : judge.Knows m tour) {e : Error}
    (h : Search m judge tour reversals final (some e)) : Misfit e ∧ Overlong m final.toList := by
  generalize hn : some e = refusal at h
  induction h with
  | last h => cases hn
  | refused h =>
    cases hn
    exact firstReversal?_eq_error hm hj h
  | pass h rest ih => exact ih (Judge.knows_next m _ _) hn

/-- Any search makes the reversals of the search by edges, all of them unless it is refused. -/
theorem prefix_of_edges (hj : judge.Knows m tour) (h : Search m judge tour reversals final refusal)
    {all : List (Nat × Nat)} {last : Array Point} (hedges : Search m .edges tour all last none) :
    reversals <+: all ∧ (refusal = none → reversals = all ∧ final = last) := by
  induction h generalizing all last with
  | last h =>
    have hnone := firstReversal?_edges_of_eq_ok hm hj h
    cases hedges with
    | last h' => exact ⟨List.nil_prefix, fun _ => ⟨rfl, rfl⟩⟩
    | pass h' rest =>
      rw [hnone] at h'
      cases h'
  | refused h => exact ⟨List.nil_prefix, fun h => nomatch h⟩
  | pass h rest ih =>
    have hsome := firstReversal?_edges_of_eq_ok hm hj h
    cases hedges with
    | last h' =>
      rw [hsome] at h'
      cases h'
    | pass h' rest' =>
      rw [hsome] at h'
      cases h'
      obtain ⟨hmade, hend⟩ := ih (Judge.knows_next m _ _) rest'
      refine ⟨List.cons_prefix_cons.2 ⟨rfl, hmade⟩, fun hn => ?_⟩
      obtain ⟨rfl, rfl⟩ := hend hn
      exact ⟨rfl, rfl⟩

end Search

end Turmite.Tour
