import Mathlib.Data.List.Chain
import Turmite.Proofs.Distance
import Turmite.Proofs.Success

/-!
# Tours that can be expanded

The moves of a displacement make one list, and so do those of a tour, leg after leg. A tour can thus
be expanded if the list of all its moves fits in memory, and only then, however short its legs are
(`Metric.expandMoves?_of_expandable`, `Metric.exists_expandMoves?_eq_error`). Where the moves of
each leg have indices, what is wanting is memory.
-/

namespace Turmite

variable [Memory]

theorem ensureRoom_eq_error {count : Nat} (h : Memory.words < count) :
    ensureRoom count = .error .outOfMemory :=
  if_neg fun hle => Nat.not_le.2 h (of_decide_eq_true hle)

namespace Displacement

/-- The refusals of a list of moves that is too long. -/
def Misfit (e : Error) : Prop := e = .overflow ∨ e = .outOfMemory

/-- The moves along each axis have indices. -/
def Indexed (d : Displacement) : Prop :=
  d.dx.natAbs < unindexableRun ∧ d.dy.natAbs < unindexableRun

theorem ensureRun_eq_error {count : Nat} (h : Memory.words < count) :
    ∃ e, Misfit e ∧ ensureRun count = .error e ∧ (count < unindexableRun → e = .outOfMemory) := by
  unfold ensureRun
  rw [ensureRoom_eq_error h]
  by_cases hindex : count < unindexableRun
  · exact ⟨.outOfMemory, Or.inr rfl, by simp [hindex, ensure, bind, Except.bind], fun _ => rfl⟩
  · exact ⟨.overflow, Or.inl rfl, by simp [hindex, ensure, bind, Except.bind],
      fun h => absurd h hindex⟩

theorem ensureFits_eq_error {d : Displacement} (h : ¬ d.Fits) :
    ∃ e, Misfit e ∧ d.ensureFits = .error e ∧ (d.Indexed → e = .outOfMemory) := by
  unfold ensureFits
  by_cases hx : d.dx.natAbs ≤ Memory.words
  · rw [ensureRun_of_le hx]
    by_cases hy : d.dy.natAbs ≤ Memory.words
    · rw [ensureRun_of_le hy, ensureRoom_eq_error (Nat.lt_of_not_le h)]
      exact ⟨.outOfMemory, Or.inr rfl, rfl, fun _ => rfl⟩
    · obtain ⟨e, he, heq, hmemory⟩ := ensureRun_eq_error (Nat.lt_of_not_le hy)
      exact ⟨e, he, by rw [heq]; rfl, fun hindexed => hmemory hindexed.2⟩
  · obtain ⟨e, he, heq, hmemory⟩ := ensureRun_eq_error (Nat.lt_of_not_le hx)
    exact ⟨e, he, by rw [heq]; rfl, fun hindexed => hmemory hindexed.1⟩

end Displacement

namespace Metric

/-- The list of all moves of a tour fits in memory. -/
def Expandable (m : Metric) (tour : List Point) : Prop := m.pathLength tour ≤ Memory.words

instance (m : Metric) (tour : List Point) : Decidable (m.Expandable tour) := by
  unfold Expandable
  infer_instance

variable {m : Metric}

theorem ensureRuns_of_le {held : Nat} {tour : List Point}
    (h : held + m.pathLength tour ≤ Memory.words) : m.ensureRuns held tour = .ok () := by
  fun_induction m.ensureRuns held tour with
  | case1 => rfl
  | case2 => rfl
  | case3 held p q r ih =>
    rw [pathLength_cons_cons, ← Nat.add_assoc] at h
    have hheld : held + m.distance p q ≤ Memory.words := Nat.le_trans (Nat.le_add_right _ _) h
    have hleg : (m.displacement p q).Fits := Nat.le_trans (Nat.le_add_left _ _) hheld
    rw [Displacement.ensureFits_of_fits hleg, ensureRoom_of_le hheld, ih h]
    rfl

/-- What is held grows leg by leg and passes what a list can hold at some leg. -/
theorem ensureRuns_eq_error {held : Nat} {tour : List Point} (hheld : held ≤ Memory.words)
    (h : Memory.words < held + m.pathLength tour) :
    ∃ e, Displacement.Misfit e ∧ m.ensureRuns held tour = .error e ∧
      (tour.IsChain (fun p q => (m.displacement p q).Indexed) → e = .outOfMemory) := by
  fun_induction m.ensureRuns held tour with
  | case1 => exact absurd hheld (Nat.not_le.2 h)
  | case2 => exact absurd hheld (Nat.not_le.2 h)
  | case3 held p q r ih =>
    rw [pathLength_cons_cons, ← Nat.add_assoc] at h
    by_cases hleg : (m.displacement p q).Fits
    · rw [Displacement.ensureFits_of_fits hleg]
      by_cases hnext : held + m.distance p q ≤ Memory.words
      · obtain ⟨e, he, heq, hmemory⟩ := ih hnext h
        rw [ensureRoom_of_le hnext, heq]
        exact ⟨e, he, rfl, fun hindexed => hmemory hindexed.tail⟩
      · rw [ensureRoom_eq_error (Nat.lt_of_not_le hnext)]
        exact ⟨.outOfMemory, Or.inr rfl, rfl, fun _ => rfl⟩
    · obtain ⟨e, he, heq, hmemory⟩ := Displacement.ensureFits_eq_error hleg
      rw [heq]
      exact ⟨e, he, rfl, fun hindexed => hmemory hindexed.rel⟩

section Measurable

variable (hm : m.measurable) {tour : List Point}

include hm

theorem ensureExpandable_of_expandable (h : m.Expandable tour) :
    m.ensureExpandable tour = .ok () := by
  unfold ensureExpandable
  rw [ensureLegs_of_measurable hm, ensureRuns_of_le (by rwa [Nat.zero_add])]
  rfl

theorem ensureExpandable_eq_error (h : ¬ m.Expandable tour) :
    ∃ e, Displacement.Misfit e ∧ m.ensureExpandable tour = .error e ∧
      (tour.IsChain (fun p q => (m.displacement p q).Indexed) → e = .outOfMemory) := by
  obtain ⟨e, he, heq, hmemory⟩ :=
    ensureRuns_eq_error (Nat.zero_le Memory.words) (by
      rw [Nat.zero_add]
      exact Nat.lt_of_not_le h)
  refine ⟨e, he, ?_, hmemory⟩
  unfold ensureExpandable
  rw [ensureLegs_of_measurable hm, heq]
  rfl

theorem expandMoves?_of_expandable (h : m.Expandable tour) :
    m.expandMoves? tour = .ok (m.expandMoves tour) := by
  unfold expandMoves?
  rw [ensureExpandable_of_expandable hm h]
  rfl

theorem exists_expandMoves?_eq_error (h : ¬ m.Expandable tour) :
    ∃ e, Displacement.Misfit e ∧ m.expandMoves? tour = .error e := by
  obtain ⟨e, he, heq, -⟩ := ensureExpandable_eq_error hm h
  refine ⟨e, he, ?_⟩
  unfold expandMoves?
  rw [heq]
  rfl

end Measurable

end Metric
end Turmite
