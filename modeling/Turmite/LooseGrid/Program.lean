import Turmite.LooseGrid.Basic
import Turmite.Program.Compile
import Turmite.Replay

/-!
# Programs on loose grids

Tours of a loose grid are compiled and programs replayed on it as on a grid. The travel between two
cells of it is that of a bounded grid, since on a looping one no point stands for a cell.
-/

namespace Turmite

namespace LooseGrid

variable [Memory]

/-- Refuses a heading for which the turmite cannot step off the last cell. -/
def ensureReachable (g : LooseGrid) (last : Point) (heading : Direction) : Except Error Unit := do
  if !g.looping then
    let before ← g.surface.step? last heading.opposite
    ensure (before ≠ last) (InvalidArgument.headingUnreachable heading last)

/-- Compiles a tour. -/
def compileTour (tour : List Stop) (heading : Direction) (offset : Int) (stopAfterDone : Bool) :
    Procedure LooseGrid Compiled := do
  Procedure.require (!tour.isEmpty) InvalidArgument.emptyTour
  Procedure.require (0 ≤ offset) InvalidArgument.stateOffsetNegative
  let g ← get
  let cells ← Procedure.ofExcept (tour.mapM fun s => do
    g.surface.normalize? (← s.require "tour point"))
  let last := cells.getLastD default
  Procedure.ofExcept (g.ensureReachable last heading)
  Procedure.ofExcept (Surface.leastBounded.ensureDeparture cells)
  let s ← requireCells
  pure (Grid.emit s.2 cells last heading offset stopAfterDone)

/-- The painted cells, column by column. -/
def dirtyPoints : Procedure LooseGrid (List Point) := do
  pure (← requireCells).2.painted

/-! ## Compiling -/

/-- The cell of an end of the tour, in the middle unless it is given. -/
def endCell (g : LooseGrid) (role : String) (stop : Option Stop) : Except Error Point := do
  let p ← match stop with
    | some s => s.require role
    | none => g.defaultStart?
  g.surface.normalize? p

/-- A loose grid and the clock that its planning is timed with. -/
structure Bench [Memory] where
  grid : LooseGrid
  clock : Clock

/-- A procedure on the grid. -/
def onGrid {α : Type} (p : Procedure LooseGrid α) : Procedure Bench α :=
  p.within (·.grid) fun g b => { b with grid := g }

/-- Compiles the painted cells of the grid. -/
def compile (start finish : Option Stop) (heading : Direction) (settings : CompileConfig) :
    Procedure Bench Compiled := do
  let g := (← get).grid
  let start ← Procedure.ofExcept (g.endCell "start" start)
  let finish ← Procedure.ofExcept (g.endCell "end" finish)
  Procedure.ofExcept (g.ensureReachable finish heading)
  let points ← onGrid dirtyPoints
  if points.isEmpty then
    let result ← onGrid
      (compileTour [finish] heading settings.stateOffset settings.stopAfterDone)
    pure { result with tour := [], pathMoves := 0, empty := true }
  else
    let plan ← (Tour.plan Surface.leastBounded
      ⟨start, finish, settings.mode, settings.optimize⟩ points).within (·.clock)
      fun c b => { b with clock := c }
    let result ← onGrid (compileTour (plan.tour.map Stop.point) heading
      settings.stateOffset settings.stopAfterDone)
    pure { result with plan := some plan }

/-! ## Replays -/

/-- A run of at most `limit` steps more, after the cells of `trail`, the latest first. -/
def runFrom (p : Program) : (limit : Nat) → (state : Int) → (position : Point) →
    (trail : List Point) → Procedure LooseGrid Replay
  | limit, state, position, trail =>
    let stop (reason : HaltReason) : Replay :=
      ⟨position, trail.length, state, reason, (position :: trail).reverse⟩
    match p.nextRule state with
    | .error reason => pure (stop reason)
    | .ok first =>
      match limit with
      | 0 => pure (stop .maxSteps)
      | limit + 1 => do
        let rule ← Procedure.ofExcept first
        let _ ← paint position rule.color
        let next ← Procedure.ofExcept ((← get).surface.step? position rule.move)
        runFrom p limit rule.next next (position :: trail)

/-- Runs a program from the cell that a point stands for. -/
def replay (p : Program) (start : Point) (startState maxSteps : Int) :
    Procedure LooseGrid Replay := do
  Procedure.require (0 ≤ maxSteps) InvalidValue.maxStepsNegative
  runFrom p maxSteps.toNat startState (← cellOf start) []

end LooseGrid
end Turmite
