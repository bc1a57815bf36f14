import Turmite.Geometry.Reading
import Turmite.Procedure
import Turmite.Tour.Greedy
import Turmite.Tour.TwoOpt

/-!
# Planned tours

A plan is the nearest-neighbour tour, shortened by an optimizer if one is wanted, with the time
that each phase took. An optimizer that fails leaves the nearest-neighbour tour in force, whatever
it did to its own copy.
-/

namespace Turmite

/-- A clock in seconds that shows its readings in turn, over and over. -/
structure Clock where
  readings : List Float
  ticks : Nat

namespace Clock

/-- A clock that starts with its first reading. -/
def start (readings : List Float) : Clock := ⟨readings, 0⟩

/-- The time now; the clock moves on. A clock without readings has no next one. -/
def read : Procedure Clock Float := do
  let c ← get
  Procedure.require (!c.readings.isEmpty) .divisionByZero
  set { c with ticks := c.ticks + 1 }
  pure (c.readings.getD (c.ticks % c.readings.length) 0.0)

/-- The milliseconds between two readings. -/
def milliseconds (before after : Float) : Float := (after - before) * 1000.0

end Clock

namespace Tour

/-- The outcome of an optimizer: the tour that it leaves, and its work unless it failed. -/
structure Optimized where
  tour : List Point
  stats : Option Stats

/-- A way to improve a tour. -/
abbrev Optimizer := Metric → Mode → List Point → Optimized

/-- Shortening by reversals; it fails where they cannot be judged. -/
def reversing [Memory] : Optimizer := fun m mode tour =>
  match (twoOpt m mode).runOn tour with
  | (.ok stats, final) => ⟨final, some stats⟩
  | (.error _, final) => ⟨final, none⟩

/-- A failure that leaves the tour reversed. -/
def failing : Optimizer := fun _ _ tour => ⟨tour.reverse, none⟩

/-- A tour, its cost and the cost of finding it. -/
structure Plan where
  tour : List Point
  greedyLength : Nat
  length : Nat
  stats : Stats
  optimized : Bool
  greedyMs : Float
  twoOptMs : Float

/-- The time of both phases. -/
def Plan.totalMs (p : Plan) : Float := p.greedyMs + p.twoOptMs

/-- The tour and work after optimization; those of the given tour if the optimizer fails. -/
def settle (greedy : List Point) (outcome : Optimized) : List Point × Stats × Bool :=
  match outcome.stats with
  | some stats => (outcome.tour, stats, true)
  | none => (greedy, ⟨0, 0⟩, false)

/-- What is to be planned, but for the points. -/
structure Request where
  start : Point
  finish : Point
  mode : Mode
  optimize : Bool

/-- Plans a tour through the points with an optimizer. -/
def planWith (optimizer : Optimizer) (m : Metric) (request : Request) (points : List Point) :
    Procedure Clock Plan := do
  let before ← Clock.read
  let tour ← Procedure.ofExcept (greedy? m points request.start request.finish)
  let after ← Clock.read
  let greedyMs := Clock.milliseconds before after
  let greedyLength ← Procedure.ofExcept (m.pathLength? tour)
  if request.optimize then
    let before ← Clock.read
    let (final, stats, optimized) := settle tour (optimizer m request.mode tour)
    let after ← Clock.read
    pure ⟨final, greedyLength, m.pathLength final, stats, optimized, greedyMs,
      Clock.milliseconds before after⟩
  else
    pure ⟨tour, greedyLength, greedyLength, ⟨0, 0⟩, false, greedyMs, 0.0⟩

/-- Plans a tour through the points, shortened by reversals. -/
def plan [Memory] (m : Metric) (request : Request) (points : List Point) : Procedure Clock Plan :=
  planWith reversing m request points

end Tour
end Turmite
