import Turmite.Geometry.Surface
import Turmite.Tour.Plan

/-!
# Tours of stops

Nearest-neighbour tours, reversals and plans for stops on surfaces. Where all stops are points and
travel is measured in integers, they are those of points. Else distances are taken one by one, in
the order in which they are asked for, and the first that cannot be told refuses the whole.
-/

namespace Turmite.Tour

/-! ## Nearest neighbours -/

/-- The stops of a list that are not among `seen`, each at its first occurrence. -/
def newStops : (seen stops : List Stop) → List Stop
  | _, [] => []
  | seen, a :: r => if seen.any a.isSame then newStops seen r else a :: newStops (a :: seen) r

/-- The place of the first least of `best :: distances`, which stands at `place`; the next one
stands at `next`. -/
def leastPlace? (place : Nat) (best : Json) : (next : Nat) → List Json → Except Error Nat
  | _, [] => .ok place
  | next, d :: r => do
    if ← d.isLess? best then leastPlace? next d (next + 1) r
    else leastPlace? place best (next + 1) r

/-- Some stops in the order of visits from `current` on. -/
def stopVisits? (s : Surface) : (count : Nat) → (current : Stop) → List Stop →
    Except Error (List Stop)
  | 0, _, _ => .ok []
  | count + 1, current, stops => do
    match ← stops.mapM (s.distance? current) with
    | [] => pure []
    | best :: distances =>
      let place ← leastPlace? 0 best 1 distances
      let nearest := stops.getD place current
      pure (nearest :: (← stopVisits? s count nearest (stops.eraseIdx place)))

/-- The nearest-neighbour tour of stops by distances that are taken one by one. -/
def visitStops? (s : Surface) (stops : List Stop) (start finish : Stop) :
    Except Error (List Stop) := do
  let visited := newStops [start, finish] stops
  pure (start :: (← stopVisits? s visited.length start visited) ++ [finish])

/-- The nearest-neighbour tour of stops. -/
def greedyStops? (s : Surface) (stops : List Stop) (start finish : Stop) :
    Except Error (List Stop) := do
  (start :: finish :: stops).forM Stop.ensureKey
  match s.exactPath? (start :: finish :: stops) with
  | some (m, a :: b :: points) => pure ((← greedy? m points a b).map Stop.point)
  | _ => visitStops? s stops start finish

/-! ## Reversals -/

/-- Whether exchanging the edges at both ends of the segment makes them shorter together. -/
def stopExchangeShortens? (s : Surface) (tour : Array Stop) (i k : Nat) : Except Error Bool := do
  let stopAt (place : Nat) : Stop := tour.getD place (.other .null)
  let a := stopAt (i - 1)
  let b := stopAt i
  let c := stopAt k
  let d := stopAt (k + 1)
  let exchanged ← (← s.distance? a c).sum? (← s.distance? b d)
  let kept ← (← s.distance? a b).sum? (← s.distance? c d)
  exchanged.isLess? kept

/-- Reversals, at most `limit` of them, until none shortens the tour. -/
def improveStops? (s : Surface) : (limit : Nat) → Array Stop → Except Error (Array Stop × Stats)
  | 0, tour => .ok (tour, ⟨0, 1⟩)
  | limit + 1, tour => do
    match ← findPair? (stopExchangeShortens? s tour) (innerPairs tour.size) with
    | none => pure (tour, ⟨0, 1⟩)
    | some (i, k) =>
      let (final, stats) ← improveStops? s limit (reverseSegment tour i k)
      pure (final, ⟨stats.swaps + 1, stats.passes + 1⟩)

/-- The tour of stops that no reversal shortens, and the work. One that has no expansion is refused
if reversals are judged by it. -/
def twoOptStops? [Memory] (s : Surface) (mode : Mode) (tour : List Stop) :
    Except Error (List Stop × Stats) := do
  if tour.length < 4 then pure (tour, ⟨0, 0⟩)
  else
    match s.exactPath? tour with
    | some (m, points) =>
      let (final, stats) ← twoOpt? m mode points
      pure (final.map Stop.point, stats)
    | none =>
      if mode = .detailed then
        let _ ← s.legMoves? 0 tour
      let (final, stats) ← improveStops? s (orders tour.length) tour.toArray
      pure (final.toList, stats)

/-! ## Plans -/

/-- What is to be planned, but for the stops between the ends. -/
structure StopRequest where
  start : Stop
  finish : Stop
  mode : Mode
  optimize : Bool

/-- A tour of stops, its cost and the cost of finding it. -/
structure StopPlan where
  tour : List Stop
  greedyLength : Json
  length : Json
  stats : Stats
  optimized : Bool
  greedyMs : Float
  twoOptMs : Float

/-- The time of both phases. -/
def StopPlan.totalMs (p : StopPlan) : Float := p.greedyMs + p.twoOptMs

/-- A plan for points as one for stops. -/
def StopPlan.ofPlan (p : Plan) : StopPlan :=
  ⟨p.tour.map .point, .int p.greedyLength, .int p.length, p.stats, p.optimized, p.greedyMs,
    p.twoOptMs⟩

/-- The tour and work after reversals; those of the given tour if they fail. -/
def settleStops (tour : List Stop) : Except Error (List Stop × Stats) → List Stop × Stats × Bool
  | .ok (final, stats) => (final, stats, true)
  | .error _ => (tour, ⟨0, 0⟩, false)

/-- Plans a tour whose distances are taken one by one. -/
def planDistances [Memory] (works : Bool) (s : Surface) (request : StopRequest)
    (stops : List Stop) : Procedure Clock StopPlan := do
  let before ← Clock.read
  let tour ← Procedure.ofExcept (greedyStops? s stops request.start request.finish)
  let after ← Clock.read
  let greedyMs := Clock.milliseconds before after
  let greedyLength ← Procedure.ofExcept (s.pathLength? tour)
  if request.optimize then
    let before ← Clock.read
    let (final, stats, optimized) := settleStops tour
      (if works then twoOptStops? s request.mode tour else .error .outOfMemory)
    let after ← Clock.read
    let length ← Procedure.ofExcept (s.pathLength? final)
    pure ⟨final, greedyLength, length, stats, optimized, greedyMs,
      Clock.milliseconds before after⟩
  else pure ⟨tour, greedyLength, greedyLength, ⟨0, 0⟩, false, greedyMs, 0.0⟩

/-- Plans a tour through stops. Reversals fail if they do not work. -/
def planStops [Memory] (works : Bool) (s : Surface) (request : StopRequest) (stops : List Stop) :
    Procedure Clock StopPlan :=
  match s.exactPath? (request.start :: request.finish :: stops) with
  | some (m, a :: b :: points) => do
    let optimizer := if works then reversing else failing
    pure (.ofPlan (← planWith optimizer m ⟨a, b, request.mode, request.optimize⟩ points))
  | _ => planDistances works s request stops

end Turmite.Tour
