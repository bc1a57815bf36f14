import Turmite.Figure.Drawing
import Turmite.LooseGrid.Basic

/-!
# Figures of loose grids

The walk along a tour of a loose grid goes as far as its steps lead to cells. Lines can only be
drawn between a whole number of cells, so a loose grid has a figure only where it has too many cells
for lines.
-/

namespace Turmite

namespace Surface

/-- The cells of a walk after `position`. -/
def walk? (s : Surface) (position : Point) : List Direction → Except Error (List Point)
  | [] => .ok []
  | d :: moves => do
    let next ← s.step? position d
    pure (next :: (← walk? s next moves))

/-- The walk along a tour, cut where it wraps. It is one cell longer than the list of moves. -/
def segments? [Memory] (s : Surface) : (tour : List Stop) → Except Error (List (List Point))
  | [] => .ok []
  | a :: r => do
    let first ← s.normalize? (← a.point?)
    let moves ← s.expandMoves? (a :: r)
    let cells ← walk? s first moves
    ensureRoom (cells.length + 1)
    pure (Metric.splitJumps first cells)

end Surface

namespace LooseGrid

variable [Memory]

/-- Whether a size is so small that lines are drawn. -/
def isLined? (size : Json) : Except Error Bool := do
  pure (!(← (Json.int Drawing.maxLined).isLess? size))

/-- The figure of the grid and a tour. -/
def draw (tour : List Stop) (theme : Theme) (title : Option Text) :
    Procedure LooseGrid Drawing := do
  let s ← requireCells
  let g ← get
  if (← Procedure.ofExcept (isLined? g.cols)) && (← Procedure.ofExcept (isLined? g.rows)) then
    throw .wrongType
  let _ ← Procedure.ofExcept (g.surface.segments? tour)
  let points ← Procedure.ofExcept (tour.mapM Stop.point?)
  pure (Drawing.ofTour s.2 points theme title)

end LooseGrid
end Turmite
