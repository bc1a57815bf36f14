import Turmite.Geometry.Reading
import Turmite.Json.Arithmetic

/-!
# Grid configurations

The size and topology of a grid, and whether a grid that holds no cells yet is filled with
background when it is first used. A size may come from a canvas in pixels and a scale.
-/

namespace Turmite

/-- The size and topology of a grid, and how it starts. -/
structure GridConfig extends Metric where
  lazyInit : Bool
  deriving DecidableEq

namespace GridConfig

/-- The width of a canvas, in pixels. -/
def canvasWidth : Int := 1366

/-- The height of a canvas, in pixels. -/
def canvasHeight : Int := 768

/-- The side of a cell, in pixels. -/
def cellScale : Int := 8

/-- The columns that cover a canvas of the default size. -/
def defaultCols : Int := 171

/-- The rows that cover a canvas of the default size. -/
def defaultRows : Int := 96

/-- The configuration of a grid of given size. -/
def ofSizes? (cols rows : Int) (looping lazyInit : Bool) : Except Error GridConfig := do
  let m ← Metric.ofSizes? cols rows looping
  pure ⟨m, lazyInit⟩

theorem ofSizes?_self (config : GridConfig) :
    ofSizes? config.cols config.rows config.looping config.lazyInit = .ok config := by
  have hc := config.cols_pos
  have hr := config.rows_pos
  have h : (1 : Int) ≤ config.cols ∧ (1 : Int) ≤ config.rows := by omega
  simp [ofSizes?, Metric.ofSizes?, h, bind, Except.bind, pure, Except.pure]

/-- Whether a value is a truth value. -/
def isTruthValue : Json → Bool
  | .bool _ => true
  | _ => false

/-- Refuses values that are no sizes: truth values, and what compares below one. -/
def checkSizes? (cols rows : Json) : Except Error Unit := do
  ensure (!isTruthValue cols && !isTruthValue rows) InvalidArgument.sizesNotIntegers
  cols.ensureAtLeast 1 InvalidArgument.sizesTooSmall
  rows.ensureAtLeast 1 InvalidArgument.sizesTooSmall

/-- The configuration of a grid whose size is given by values. A size that is no integer is of no
grid. -/
def ofValues? (cols rows : Json) (looping lazyInit : Bool) : Except Error GridConfig := do
  checkSizes? cols rows
  match cols, rows with
  | .int cols, .int rows => ofSizes? cols rows looping lazyInit
  | _, _ => .error .wrongType

/-- The number of cells that cover a length: the quotient as a binary64 value, rounded up. -/
def cellsToCover? (length scale : Json) : Except Error Int := do
  Json.ceiling? (← length.quotient? scale)

/-- The configuration of a grid that covers a canvas. -/
def ofCanvas? (width height scale : Json) (looping : Bool) : Except Error GridConfig := do
  scale.ensureAtLeast 1 InvalidArgument.scaleTooSmall
  width.ensureAtLeast 1 InvalidArgument.canvasTooSmall
  height.ensureAtLeast 1 InvalidArgument.canvasTooSmall
  let cols ← cellsToCover? width scale
  let rows ← cellsToCover? height scale
  ofSizes? cols rows looping false

end GridConfig
end Turmite
