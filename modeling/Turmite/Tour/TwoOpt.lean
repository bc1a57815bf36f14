import Turmite.Geometry.Reading
import Turmite.Procedure

/-!
# Shortening a tour by reversals

Each pass looks for the first reversal of an inner segment that shortens the tour, makes it and
starts again; a pass that finds none is the last. The end points stay. A reversal is judged either
by the two edges that it exchanges or by the expanded moves of the whole tour, against the length
that is kept of the best expansion so far. A search that cannot judge a reversal is refused, and
leaves the tour as far as it has come.
-/

namespace Turmite.Tour

/-- How a reversal is judged. -/
inductive Mode where
  | raw
  | detailed
  deriving DecidableEq, Inhabited

namespace Mode

/-- The name of a mode. -/
def name : Mode → String
  | raw => "raw"
  | detailed => "detailed"

/-- All modes. -/
def all : List Mode := [raw, detailed]

/-- The mode with a name. -/
def ofName? (s : String) : Option Mode := all.find? (·.name = s)

@[simp] theorem ofName?_name (mode : Mode) : ofName? mode.name = some mode := by
  cases mode <;> decide

/-- The mode that a text names. -/
def ofText? (t : Text) : Except Error Mode :=
  match t.string?.bind ofName? with
  | some mode => .ok mode
  | none => .error InvalidArgument.unknownMode

end Mode

/-- The work of a run. -/
structure Stats where
  swaps : Nat
  passes : Nat
  deriving DecidableEq

/-- The tour with the segment from index `i` to index `k` reversed. -/
def reverseSegment {α : Type} (tour : Array α) (i k : Nat) : Array α :=
  tour.extract 0 i ++ (tour.extract i (k + 1)).reverse ++ tour.extract (k + 1) tour.size

/-- Whether exchanging the edges at both ends of the segment makes them shorter together. -/
def exchangeShortens (m : Metric) (tour : Array Point) (i k : Nat) : Bool :=
  let a := tour.getD (i - 1) default
  let b := tour.getD i default
  let c := tour.getD k default
  let d := tour.getD (k + 1) default
  m.distance a c + m.distance b d < m.distance a b + m.distance c d

/-- The pairs `i < k` of indices of inner points of a tour, by `i` and then by `k`. -/
def innerPairs (size : Nat) : List (Nat × Nat) :=
  (List.range' 1 (size - 3)).flatMap fun i => (List.range' (i + 1) (size - 2 - i)).map (i, ·)

/-- The first pair that satisfies a condition, unless it cannot be told of one before it. -/
def findPair? (accept : Nat → Nat → Except Error Bool) : List (Nat × Nat) →
    Except Error (Option (Nat × Nat))
  | [] => .ok none
  | (i, k) :: r => do if ← accept i k then pure (some (i, k)) else findPair? accept r

/-- What a pass judges reversals by: the edges that they exchange, or the least length to which a
tour has been expanded so far. -/
inductive Judge where
  | edges
  | expansion (best : Nat)
  deriving DecidableEq

namespace Judge

variable [Memory]

/-- The judge of the first pass over a tour, if the tour can be measured and, for its length, be
expanded. -/
def initial? (m : Metric) (mode : Mode) (tour : List Point) : Except Error Judge :=
  match mode with
  | .raw => do
    m.ensureMeasurable
    pure edges
  | .detailed => do pure (expansion (← m.expandMoves? tour).length)

/-- Whether a reversal is accepted. There has to be memory for an expansion. -/
def accepts? (m : Metric) (judge : Judge) (tour : Array Point) (i k : Nat) : Except Error Bool :=
  match judge with
  | edges => .ok (exchangeShortens m tour i k)
  | expansion best => do
    pure ((← m.expandMoves? (reverseSegment tour i k).toList).length < best)

/-- The judge of the next pass, after a reversal has been accepted that leads to `tour`. -/
def next (m : Metric) (judge : Judge) (tour : Array Point) : Judge :=
  match judge with
  | edges => edges
  | expansion _ => expansion (m.expandMoves tour.toList).length

end Judge

section

variable [Memory]

/-- The first reversal that a judge accepts. -/
def firstReversal? (m : Metric) (judge : Judge) (tour : Array Point) :
    Except Error (Option (Nat × Nat)) :=
  findPair? (judge.accepts? m tour) (innerPairs tour.size)

/-- Reversals in place, at most `limit` of them, until none is accepted. -/
def improve (m : Metric) : (limit : Nat) → Judge → Procedure (Array Point) Stats
  | 0, _ => pure ⟨0, 1⟩
  | limit + 1, judge => do
    let tour ← get
    match ← Procedure.ofExcept (firstReversal? m judge tour) with
    | none => pure ⟨0, 1⟩
    | some (i, k) =>
      let reversed := reverseSegment tour i k
      set reversed
      let stats ← improve m limit (judge.next m reversed)
      pure ⟨stats.swaps + 1, stats.passes + 1⟩

end

/-- The number of orders of `n` points. -/
def orders : Nat → Nat
  | 0 => 1
  | n + 1 => (n + 1) * orders n

/-- A bound on the reversals of a run that ends. No tour returns, and where distances are symmetric
every reversal makes the tour shorter. -/
def reversalLimit (m : Metric) (tour : List Point) : Nat :=
  orders tour.length + m.pathLength tour

/-- Reverses segments in place until no reversal shortens the tour. A tour of fewer than four points
has no inner segment. -/
def twoOpt [Memory] (m : Metric) (mode : Mode) : Procedure (List Point) Stats := do
  let tour ← get
  if tour.length < 4 then pure ⟨0, 0⟩
  else
    let judge ← Procedure.ofExcept (Judge.initial? m mode tour)
    (improve m (reversalLimit m tour) judge).within List.toArray fun final _ => final.toList

/-- The tour that no reversal shortens, and the work, where reversals can be judged. -/
def twoOpt? [Memory] (m : Metric) (mode : Mode) (tour : List Point) :
    Except Error (List Point × Stats) :=
  match (twoOpt m mode).runOn tour with
  | (.ok stats, final) => .ok (final, stats)
  | (.error e, _) => .error e

end Turmite.Tour
