import Turmite.Geometry.Surface
import Turmite.Grid.Array

/-!
# Loose grids

A loose grid lies on an irregular surface: its sizes are numbers, of which not both are integers. It
has cells only if an array was given whose extents equal the sizes; nothing makes new ones. A point
is refused where it would stand for a cell with another coordinate than an integer. That leaves the
points short of the far edges of a bounded grid.
-/

namespace Turmite

/-- A canvas with the configuration of its grid. -/
abbrev Sheet [Memory] := (config : GridConfig) × Canvas config

/-- A grid on an irregular surface. -/
structure LooseGrid [Memory] where
  cols : Json
  rows : Json
  looping : Bool
  lazyInit : Bool
  sheet : Option Sheet

namespace LooseGrid

variable [Memory]

/-- The surface of a loose grid. -/
def surface (g : LooseGrid) : Surface := .irregular g.cols g.rows g.looping

/-- Whether extents equal the sizes of a grid. -/
def isShape (cols rows : Json) : List Nat → Bool
  | [a, b] => (Json.int a).isSame cols && (Json.int b).isSame rows
  | _ => false

/-- The grid around an array. -/
def ofArray? (cols rows : Json) (looping lazyInit : Bool) (a : WordArray) :
    Except Error LooseGrid := do
  ensure (isShape cols rows a.shape) (InvalidArgument.shapeMismatch a.shape cols rows)
  match a.shape with
  | [c, r] =>
    let config ← GridConfig.ofSizes? c r looping lazyInit
    pure ⟨cols, rows, looping, lazyInit, some ⟨config, ← a.canvas? config⟩⟩
  | _ => pure ⟨cols, rows, looping, lazyInit, none⟩

/-- The cell in the middle. -/
def defaultStart? (g : LooseGrid) : Except Error Point := do
  let x ← g.cols.flooredHalf?
  let y ← g.rows.flooredHalf?
  Point.ofValues? x y

/-- Refuses to clear the cells. -/
def init : Procedure LooseGrid Sheet := throw .wrongType

/-- The cells of a grid in use. -/
def requireCells : Procedure LooseGrid Sheet := do
  let g ← get
  match g.sheet with
  | some s => pure s
  | none => if g.lazyInit then init else throw .uninitialized

/-- The cell that a point stands for. -/
def cellOf (p : Point) : Procedure LooseGrid Point := do
  Procedure.ofExcept ((← get).surface.normalize? p)

/-- The color of the cell that a point stands for. -/
def colorAt (p : Point) : Procedure LooseGrid Int := do
  let s ← requireCells
  let cell ← cellOf p
  pure (s.2.get cell)

/-- Replaces the canvas by what becomes of it. -/
def change (s : Sheet) (f : Canvas s.1 → Canvas s.1) : Procedure LooseGrid Unit :=
  modify fun g => { g with sheet := some ⟨s.1, f s.2⟩ }

/-- Colors the cell that a point stands for. -/
def paint (p : Point) (color : Int) : Procedure LooseGrid Int := do
  Procedure.ofExcept (Grid.ensureColor color)
  let s ← requireCells
  let cell ← cellOf p
  Procedure.require (fitsWord color) .overflow
  change s (·.set cell color)
  pure color

/-- Colors the inclusive rectangle between the cells that two points stand for. -/
def fill (p q : Point) (color : Int) : Procedure LooseGrid Unit := do
  Procedure.ofExcept (Grid.ensureColor color)
  let s ← requireCells
  let a ← cellOf p
  let b ← cellOf q
  Procedure.require (fitsWord color) .overflow
  change s (·.fillBetween a b color)

end LooseGrid
end Turmite
