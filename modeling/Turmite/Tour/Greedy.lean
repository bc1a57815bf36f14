import Turmite.Error
import Turmite.Geometry.Metric

/-!
# Nearest-neighbour tours

A tour is an open path from a start to an end point. Each step goes to the nearest of the points
not yet visited, the first of them when several are equally near. A point that occurs again, or is
the start or the end, is not visited separately.
-/

namespace Turmite.Tour

/-- The points of a list that are not in `seen`, each at its first occurrence. -/
def firstOccurrences : (seen points : List Point) → List Point
  | _, [] => []
  | seen, p :: points =>
    if p ∈ seen then firstOccurrences seen points
    else p :: firstOccurrences (p :: seen) points

theorem mem_firstOccurrences {seen points : List Point} {p : Point} :
    p ∈ firstOccurrences seen points ↔ p ∈ points ∧ p ∉ seen := by
  induction points generalizing seen with
  | nil => simp [firstOccurrences]
  | cons q r ih =>
    unfold firstOccurrences
    split
    · rename_i h
      rw [ih]
      constructor
      · rintro ⟨hp, hs⟩
        exact ⟨List.mem_cons_of_mem _ hp, hs⟩
      · rintro ⟨hp, hs⟩
        rcases List.mem_cons.1 hp with rfl | hp
        · exact absurd h hs
        · exact ⟨hp, hs⟩
    · rename_i h
      rw [List.mem_cons, ih]
      constructor
      · rintro (rfl | ⟨hp, hs⟩)
        · exact ⟨List.mem_cons_self, h⟩
        · exact ⟨List.mem_cons_of_mem _ hp, fun e => hs (List.mem_cons_of_mem _ e)⟩
      · rintro ⟨hp, hs⟩
        by_cases e : p = q
        · exact Or.inl e
        · refine Or.inr ⟨(List.mem_cons.1 hp).resolve_left e, fun e' => ?_⟩
          rcases List.mem_cons.1 e' with e'' | e''
          · exact e e''
          · exact hs e''

/-- The points that a tour from `start` to `finish` has to visit between the two. -/
def distinctPoints (points : List Point) (start finish : Point) : List Point :=
  firstOccurrences [start, finish] points

/-- Takes the first point of least cost out of `p :: points`. -/
def extractLeast (cost : Point → Nat) : (p : Point) → (points : List Point) → Point × List Point
  | p, [] => (p, [])
  | p, q :: r =>
    let (best, others) := extractLeast cost q r
    if cost best < cost p then (best, p :: others) else (p, q :: r)

@[simp] theorem length_extractLeast (cost : Point → Nat) (p : Point) (points : List Point) :
    (extractLeast cost p points).2.length = points.length := by
  induction points generalizing p with
  | nil => rfl
  | cons q r ih =>
    simp only [extractLeast]
    split
    · simp [ih q]
    · simp

/-- The points in the order of visits from `current` on. -/
def visits (m : Metric) (current : Point) (points : List Point) : List Point :=
  match points with
  | [] => []
  | p :: r =>
    let found := extractLeast (m.distance current) p r
    found.1 :: visits m found.1 found.2
termination_by points.length
decreasing_by simp

/-- The nearest-neighbour tour. -/
def greedy (m : Metric) (points : List Point) (start finish : Point) : List Point :=
  start :: visits m start (distinctPoints points start finish) ++ [finish]

/-- The nearest-neighbour tour on a board where the distances it needs can be measured. -/
def greedy? (m : Metric) (points : List Point) (start finish : Point) :
    Except Error (List Point) := do
  ensure ((distinctPoints points start finish).isEmpty || m.measurable) .overflow
  pure (greedy m points start finish)

end Turmite.Tour
