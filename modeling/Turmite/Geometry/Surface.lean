import Turmite.Geometry.Reading
import Turmite.Geometry.Stop

/-!
# Surfaces

A surface is a board of any two numbers as sizes, none less than one. With two integers it is a
board with a metric. With others points still stand for cells where that takes no other number than
an integer as a coordinate, and on a bounded surface, where sizes do not matter to it, travel is
that of a bounded board. On a looping one it is measured in binary64 along an axis whose size is no
integer, and has no unit moves.
-/

namespace Turmite

/-- A board by the numbers that are its sizes. -/
inductive Surface where
  | regular (m : Metric)
  | irregular (cols rows : Json) (looping : Bool)

/-- Signed travel on each axis, in numbers. -/
structure Travel where
  dx : Json
  dy : Json

namespace Travel

variable [Memory]

/-- Travel by integers. -/
def ofDisplacement (d : Displacement) : Travel := ⟨.int d.dx, .int d.dy⟩

/-- The Manhattan length. -/
def length? (t : Travel) : Except Error Json := do
  (← t.dx.magnitude?).sum? (← t.dy.magnitude?)

/-- The travel along an axis, if that is by unit moves for which there is memory. -/
def run? (d : Json) : Except Error Int :=
  match d.exactInteger? with
  | some n => do
    Displacement.ensureRun n.natAbs
    pure n
  | none => .error .wrongType

/-- The unit moves, where there is memory for them. -/
def moves? (t : Travel) : Except Error (List Direction) := do
  let d : Displacement := ⟨← run? t.dx, ← run? t.dy⟩
  ensureRoom d.length
  pure d.moves

end Travel

/-- The shortest signed displacement along an axis, in numbers. -/
def deltaOf? (p q size : Json) : Except Error Json :=
  match p.exactInteger?, q.exactInteger?, size.exactInteger? with
  | some p, some q, some n => do pure (.int (← delta? p q n))
  | _, _, _ => do
    let travel ← (← q.difference? p).sum? size
    ensure (!size.isSame (.int 0)) .divisionByZero
    let d ← travel.remainder? size
    let half ← size.quotient? (.int 2)
    if ← (Json.float half).isLess? d then d.difference? size else pure d

namespace Surface

/-- The surface of given sizes. -/
def ofSizes? (cols rows : Json) (looping : Bool) : Except Error Surface := do
  cols.ensureAtLeast 1 InvalidArgument.sizesTooSmall
  rows.ensureAtLeast 1 InvalidArgument.sizesTooSmall
  match cols.exactInteger?, rows.exactInteger? with
  | some cols, some rows => do pure (regular (← Metric.ofSizes? cols rows looping))
  | _, _ => pure (irregular cols rows looping)

/-- The metric of the least bounded board, on which travel is that of any. -/
def leastBounded : Metric := ⟨1, 1, Nat.one_pos, Nat.one_pos, false⟩

/-- The metric that tells the travel on a surface. -/
def measure? : Surface → Option Metric
  | regular m => some m
  | irregular _ _ true => none
  | irregular _ _ false => some leastBounded

variable (s : Surface)

/-- A coordinate that is clamped to an axis; beyond its end it is the last number of the axis. -/
def clamp? (n : Int) (size : Json) : Except Error Json := do
  let last ← size.difference? (.int 1)
  let v := Json.int (max n 0)
  pure (if ← last.isLess? v then last else v)

/-- The cell that a point stands for, if its coordinates are integers. -/
def normalize? (p : Point) : Except Error Point :=
  match s with
  | regular m => .ok (m.normalize p)
  | irregular cols rows true => do
    let x ← (Json.int p.x).remainder? cols
    let y ← (Json.int p.y).remainder? rows
    Point.ofValues? x y
  | irregular cols rows false => do
    let x ← clamp? p.x cols
    let y ← clamp? p.y rows
    Point.ofValues? x y

/-- The cell after one move. -/
def step? (p : Point) (d : Direction) : Except Error Point := s.normalize? (p.neighbour d)

/-- The travel from `p` to `q`. -/
def travel? (p q : Point) : Except Error Travel :=
  match s with
  | irregular cols rows true => do
    let dx ← deltaOf? (.int p.x) (.int q.x) cols
    let dy ← deltaOf? (.int p.y) (.int q.y) rows
    pure ⟨dx, dy⟩
  | irregular _ _ false => do pure (.ofDisplacement (leastBounded.displacement p q))
  | regular m => do pure (.ofDisplacement (← m.displacement? p q))

/-! ## Stops -/

/-- The travel from one stop to another. -/
def travelBetween? (a b : Stop) : Except Error Travel := do
  let p ← a.point?
  let q ← b.point?
  s.travel? p q

/-- The distance from one stop to another. -/
def distance? (a b : Stop) : Except Error Json := do (← s.travelBetween? a b).length?

/-- A path of integer travel through points: the metric that tells it, and the points. -/
def exactPath? (tour : List Stop) : Option (Metric × List Point) := do
  pure (← s.measure?, ← Stop.points? tour)

/-- The length of an open path on from a length, leg by leg. -/
def pathLengthFrom? (length : Json) : List Stop → Except Error Json
  | [] => .ok length
  | [_] => .ok length
  | a :: b :: r => do pathLengthFrom? (← length.sum? (← s.distance? a b)) (b :: r)

/-- The length of an open path. -/
def pathLength? (tour : List Stop) : Except Error Json :=
  match s.exactPath? tour with
  | some (m, points) => do pure (.int (← m.pathLength? points))
  | none => s.pathLengthFrom? (.int 0) tour

variable [Memory]

/-- The unit moves of an open path, leg by leg, where there is memory for them behind those held
before. -/
def legMoves? : (held : Nat) → List Stop → Except Error (List Direction)
  | _, [] => .ok []
  | _, [_] => .ok []
  | held, a :: b :: r => do
    let moves ← (← s.travelBetween? a b).moves?
    ensureRoom (held + moves.length)
    pure (moves ++ (← legMoves? (held + moves.length) (b :: r)))

/-- The unit moves of an open path. -/
def expandMoves? (tour : List Stop) : Except Error (List Direction) :=
  match s.exactPath? tour with
  | some (m, points) => m.expandMoves? points
  | none => s.legMoves? 0 tour

end Surface
end Turmite
