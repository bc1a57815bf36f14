import Turmite.Grid.Canvas
import Turmite.Procedure

/-!
# Grids

A grid of a configuration holds a canvas or, until it is initialized, none. Every point that an
operation is given stands for a cell; a color is refused when it is negative, and when it does not
fit a word of 64 bits. An operation that needs cells on a grid without them is refused, or begins
with a blank canvas if the configuration says so and the grid is not too large for one.
-/

namespace Turmite

/-- The cells of a grid, if it is initialized. -/
structure Grid [Memory] (config : GridConfig) where
  canvas : Option (Canvas config)
  deriving DecidableEq

namespace Grid

variable [Memory] {config : GridConfig}

/-- The grid without cells. -/
def empty : Grid config := ⟨none⟩

/-- The grid with a blank canvas. -/
def create? (config : GridConfig) : Except Error (Grid config) := do
  pure ⟨some (← Canvas.blank? config)⟩

/-- Whether the grid holds cells. -/
def initialized (g : Grid config) : Bool := g.canvas.isSome

/-- The cell in the middle. -/
def defaultStart (config : GridConfig) : Point := ⟨config.cols / 2, config.rows / 2⟩

/-- Clears every cell. -/
def init : Procedure (Grid config) (Canvas config) := do
  let c ← Procedure.ofExcept (Canvas.blank? config)
  set (⟨some c⟩ : Grid config)
  pure c

/-- The canvas of a grid in use. -/
def requireCells : Procedure (Grid config) (Canvas config) := do
  match (← get).canvas with
  | some c => pure c
  | none => if config.lazyInit then init else throw .uninitialized

/-- The color of the cell that a point stands for. -/
def colorAt (p : Point) : Procedure (Grid config) Int := do
  let c ← requireCells
  pure (c.get (config.normalize p))

/-- Refuses a color that is negative. -/
def ensureColor (color : Int) : Except Error Unit :=
  ensure (0 ≤ color) InvalidArgument.negativeColor

/-- Colors the cell that a point stands for. -/
def paint (p : Point) (color : Int) : Procedure (Grid config) Int := do
  Procedure.ofExcept (ensureColor color)
  let c ← requireCells
  Procedure.require (fitsWord color) .overflow
  set (⟨some (c.set (config.normalize p) color)⟩ : Grid config)
  pure color

/-- Colors the inclusive rectangle between the cells that two points stand for. -/
def fill (p q : Point) (color : Int) : Procedure (Grid config) Unit := do
  Procedure.ofExcept (ensureColor color)
  let c ← requireCells
  Procedure.require (fitsWord color) .overflow
  set (⟨some (c.fillBetween (config.normalize p) (config.normalize q) color)⟩ : Grid config)

/-- The painted cells, column by column. -/
def dirtyPoints : Procedure (Grid config) (List Point) := do
  let c ← requireCells
  pure c.painted

/-- The canvas as it is now. -/
def snapshot : Procedure (Grid config) (Canvas config) := requireCells

/-- A grid of the same configuration with every cell cleared. -/
def blankCopy (g : Grid config) : Except Error (Grid config) :=
  match g.canvas with
  | some c => .ok ⟨some c.cleared⟩
  | none => create? config

end Grid
end Turmite
