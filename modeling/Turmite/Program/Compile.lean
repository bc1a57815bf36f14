import Turmite.Geometry.Stop
import Turmite.Grid.Basic
import Turmite.Program.Basic
import Turmite.Tour.Plan

/-!
# Compiling tours

Each unit move of a tour becomes a state with one rule: write the color that the grid has where the
turmite stands, move, take the next state. An epilogue of two rules steps off the last cell and back
in the direction of the heading. A grid is compiled by planning a tour through its painted cells; if
there are none, the epilogue is all.
-/

namespace Turmite

/-- The heading that a value names. -/
def Direction.heading? : Json → Except Error Direction
  | .str t =>
    match t.string?.bind Direction.ofName? with
    | some d => .ok d
    | none => .error (InvalidArgument.unknownHeading (.str t))
  | v => .error (InvalidArgument.unknownHeading v)

/-- What is done to a grid beside its painted cells. -/
structure CompileConfig where
  stateOffset : Nat
  stopAfterDone : Bool
  optimize : Bool
  mode : Tour.Mode

/-- The configuration with the given first state, which is not negative. -/
def CompileConfig.ofOffset? (offset : Int) (stopAfterDone optimize : Bool) (mode : Tour.Mode) :
    Except Error CompileConfig := do
  ensure (0 ≤ offset) InvalidArgument.stateOffsetNegative
  pure ⟨offset.toNat, stopAfterDone, optimize, mode⟩

/-- A program and the account of its compilation. -/
structure Compiled where
  program : Program
  nextState : Int
  tour : List Point
  pathMoves : Nat
  epilogueMoves : Nat
  empty : Bool
  plan : Option Tour.Plan

/-! ## Rules of a tour -/

namespace Emit

/-- A move of the epilogue and the offset, from the last cell, of the cell that it leaves. -/
structure Turn where
  move : Direction
  dx : Int
  dy : Int

/-- The turns that end on the last cell in the direction of the heading. -/
def epilogue (heading : Direction) : List Turn :=
  [⟨heading.opposite, 0, 0⟩, ⟨heading, heading.opposite.dx, heading.opposite.dy⟩]

variable (m : Metric) (color : Point → Int)

/-- The rules of a sequence of moves. -/
def movesFrom (state : Int) (position : Point) : List Direction → List (Int × Rule)
  | [] => []
  | move :: moves =>
    (state, ⟨color position, move, state + 1⟩) ::
      movesFrom (state + 1) (m.step position move) moves

@[simp] theorem length_movesFrom (state : Int) (position : Point) (moves : List Direction) :
    (movesFrom m color state position moves).length = moves.length := by
  induction moves generalizing state position with
  | nil => rfl
  | cons d r ih => simp [movesFrom, ih]

/-- The rules of the legs of a tour; every leg begins at its own point. -/
def legs (state : Int) : List Point → List (Int × Rule)
  | [] => []
  | [_] => []
  | p :: q :: r =>
    let leg := movesFrom m color state p (m.displacement p q).moves
    leg ++ legs (state + leg.length) (q :: r)

/-- The rules of the epilogue. -/
def turns (state : Int) (last : Point) : List Turn → List (Int × Rule)
  | [] => []
  | t :: r =>
    (state, ⟨color (m.normalize (last.shift t.dx t.dy)), t.move, state + 1⟩) ::
      turns (state + 1) last r

end Emit

namespace Grid

variable [Memory] {config : GridConfig}

/-- Refuses a heading for which the turmite cannot step off the last cell. -/
def ensureReachable (m : Metric) (last : Point) (heading : Direction) : Except Error Unit :=
  ensure (m.looping || m.normalize (last.neighbour heading.opposite) ≠ last)
    (InvalidArgument.headingUnreachable heading last)

/-- The program of a tour of cells of the grid that ends at `last`. -/
def emit (c : Canvas config) (tour : List Point) (last : Point) (heading : Direction)
    (offset : Int) (stopAfterDone : Bool) : Compiled :=
  let path := Emit.legs config.toMetric c.get offset tour
  let epilogue := Emit.turns config.toMetric c.get (offset + path.length) last
    (Emit.epilogue heading)
  let program := Program.ofRules (path ++ epilogue)
  { program := if stopAfterDone then program.haltAfterLast else program
    nextState := offset + path.length + epilogue.length
    tour := tour
    pathMoves := path.length
    epilogueMoves := epilogue.length
    empty := false
    plan := none }

/-- Compiles a tour. -/
def compileTour (tour : List Stop) (heading : Direction) (offset : Int) (stopAfterDone : Bool) :
    Procedure (Grid config) Compiled := do
  Procedure.require (!tour.isEmpty) InvalidArgument.emptyTour
  Procedure.require (0 ≤ offset) InvalidArgument.stateOffsetNegative
  let points ← Procedure.ofExcept (tour.mapM (Stop.require "tour point"))
  let cells := points.map config.normalize
  let last := cells.getLastD default
  Procedure.ofExcept (ensureReachable config.toMetric last heading)
  Procedure.ofExcept (config.ensureLegs cells)
  Procedure.ofExcept (config.ensureDeparture cells)
  let c ← requireCells
  pure (emit c cells last heading offset stopAfterDone)

end Grid

/-! ## Compiling a grid -/

/-- A grid and the clock that its planning is timed with. -/
structure Bench [Memory] (config : GridConfig) where
  grid : Grid config
  clock : Clock

namespace Bench

variable [Memory] {config : GridConfig}

/-- A procedure on the grid. -/
def onGrid {α : Type} (p : Procedure (Grid config) α) : Procedure (Bench config) α :=
  p.within (·.grid) (fun g b => { b with grid := g })

/-- A procedure on the clock. -/
def onClock {α : Type} (p : Procedure Clock α) : Procedure (Bench config) α :=
  p.within (·.clock) (fun c b => { b with clock := c })

/-- The cell of an end of the tour, in the middle unless it is given. -/
def endCell (config : GridConfig) (role : String) (stop : Option Stop) : Except Error Point :=
  match stop with
  | some s => do pure (config.normalize (← s.require role))
  | none => .ok (config.normalize (Grid.defaultStart config))

/-- Compiles the painted cells of the grid. -/
def compile (start finish : Option Stop) (heading : Direction) (settings : CompileConfig) :
    Procedure (Bench config) Compiled := do
  let start ← Procedure.ofExcept (endCell config "start" start)
  let finish ← Procedure.ofExcept (endCell config "end" finish)
  Procedure.ofExcept (Grid.ensureReachable config.toMetric finish heading)
  let points ← onGrid Grid.dirtyPoints
  if points.isEmpty then
    let result ← onGrid
      (Grid.compileTour [finish] heading settings.stateOffset settings.stopAfterDone)
    pure { result with tour := [], pathMoves := 0, empty := true }
  else
    let plan ← onClock (Tour.plan config.toMetric
      ⟨start, finish, settings.mode, settings.optimize⟩ points)
    let result ← onGrid (Grid.compileTour (plan.tour.map Stop.point) heading
      settings.stateOffset settings.stopAfterDone)
    pure { result with plan := some plan }

end Bench
end Turmite
