import Turmite.Figure.Theme
import Turmite.Grid.Basic

/-!
# Figures of tours

A figure shows the cells in the colors of a theme, lines between them on a small grid, and the walk
along a tour. The walk is cut into segments where it wraps across an edge. Marks stand on the first
and the last point of the tour as they were given.
-/

namespace Turmite

namespace Metric

variable (m : Metric)

/-- The cells of a walk after `position`. -/
def walk (position : Point) : List Direction → List Point
  | [] => []
  | d :: moves => m.step position d :: walk (m.step position d) moves

/-- Whether two cells are more than a step apart on the plane. -/
def isJump (p q : Point) : Bool := 1 < (q.x - p.x).natAbs + (q.y - p.y).natAbs

/-- The cells `p :: cells`, cut where the next one is a jump away. -/
def splitJumps (p : Point) : (cells : List Point) → List (List Point)
  | [] => [[p]]
  | q :: r =>
    match splitJumps q r with
    | [] => [[p]]
    | segment :: segments =>
      if isJump p q then [p] :: segment :: segments else (p :: segment) :: segments

/-- The walk along a tour, cell by cell, cut where it wraps. -/
def segments : (tour : List Point) → List (List Point)
  | [] => []
  | p :: r => splitJumps (m.normalize p) (m.walk (m.normalize p) (m.expandMoves (p :: r)))

/-- Refuses a tour that cannot be expanded, or whose walk, one cell longer than its moves, does not
fit in memory. -/
def ensureWalk [Memory] (tour : List Point) : Except Error Unit := do
  m.ensureExpandable tour
  if !tour.isEmpty then ensureRoom (m.pathLength tour + 1)

end Metric

/-- A line across the figure. -/
structure GridLine where
  position : Float
  color : Text
  width : Float

/-- A line through cells. -/
structure Polyline where
  cells : List Point
  color : Text
  width : Float

/-- A mark on a point. -/
structure Mark where
  point : Point
  color : Text
  size : Nat
  shape : String
  layer : Nat

/-- What a figure shows. -/
structure Drawing where
  width : Float
  height : Float
  cells : List (List Int)
  colors : List Text
  bounds : List Float
  verticals : List GridLine
  horizontals : List GridLine
  lines : List Polyline
  marks : List Mark
  title : Option Text

namespace Drawing

variable [Memory]

/-- The dots per inch of a figure. -/
def dotsPerInch : Nat := 150

/-- The size of the letters of a title. -/
def titleSize : Nat := 10

/-- The largest side of a grid that is drawn with lines. -/
def maxLined : Nat := 64

/-- The length of a side in inches: a tenth for each cell, and no less than `least`. -/
def side (least : Float) (count : Nat) : Float :=
  let length := (Binary64.quotient? count 10).getD least
  if least < length then length else least

/-- The number half a unit before `k`. -/
def before (k : Nat) : Float := Float.ofNat k - 0.5

/-- The lines between `count` cells, and at both ends. -/
def gridLines (theme : Theme) (count : Nat) : List GridLine :=
  (List.range (count + 1)).map fun k => ⟨before k, theme.gridLineColor, 0.3⟩

/-- The colors of the cells row by row, no greater than `last`. -/
def rows {config : GridConfig} (c : Canvas config) (last : Int) : List (List Int) :=
  (List.range config.rows).map fun (y : Nat) =>
    (List.range config.cols).map fun (x : Nat) => min (max (c.get ⟨x, y⟩) 0) last

/-- The marks of the ends of a tour. -/
def endMarks (theme : Theme) : List Point → List Mark
  | [] => []
  | p :: r =>
    [⟨p, theme.startColor, 30, "o", 3⟩, ⟨(p :: r).getLastD p, theme.endColor, 30, "s", 3⟩]

/-- The figure of a canvas and a tour. -/
def ofTour {config : GridConfig} (c : Canvas config) (tour : List Point) (theme : Theme)
    (title : Option Text) : Drawing :=
  let lined := config.cols ≤ maxLined ∧ config.rows ≤ maxLined
  { width := side 4.0 config.cols
    height := side 3.0 config.rows
    cells := rows c (theme.cellColors.length - 1)
    colors := theme.cellColors
    bounds := (List.range (theme.cellColors.length + 1)).map before
    verticals := if lined then gridLines theme config.cols else []
    horizontals := if lined then gridLines theme config.rows else []
    lines := (config.segments tour).map fun cells => ⟨cells, theme.tourColor, theme.tourWidth⟩
    marks := endMarks theme tour
    title := title.filter (!·.isEmpty) }

/-! ## Descriptions -/

/-- The description of a line across the figure. -/
def lineJson (l : GridLine) : Json := .arr [.float l.position, .str l.color, .float l.width]

/-- The description of a line through cells: both lists of coordinates, color and width. -/
def polylineJson (l : Polyline) : Json :=
  .arr [.arr (l.cells.map fun p => .int p.x), .arr (l.cells.map fun p => .int p.y), .str l.color,
    .float l.width]

/-- The description of a mark. -/
def markJson (m : Mark) : Json :=
  .arr [.arr [.int m.point.x], .arr [.int m.point.y], .str m.color, .int m.size,
    .str (m.shape : Text), .int m.layer]

/-- The description of a figure as a JSON document. -/
def toJson (d : Drawing) : Json :=
  .object
    [("figsize", .arr [.float d.width, .float d.height]),
      ("image", .object
        [("cells", .arr (d.cells.map fun row => .arr (row.map .int))),
          ("colors", .arr (d.colors.map .str)), ("bounds", .arr (d.bounds.map .float)),
          ("origin", .str ("upper" : Text)), ("aspect", .str ("equal" : Text))]),
      ("vlines", .arr (d.verticals.map lineJson)), ("hlines", .arr (d.horizontals.map lineJson)),
      ("lines", .arr (d.lines.map polylineJson)), ("marks", .arr (d.marks.map markJson)),
      ("title", (d.title.map fun t => Json.arr [.str t, .int titleSize]).getD .null),
      ("dpi", .int dotsPerInch), ("closed", .bool true)]

end Drawing

namespace Grid

variable [Memory] {config : GridConfig}

/-- The walk along a tour, cut where it wraps. -/
def segments? (config : GridConfig) (tour : List Point) : Except Error (List (List Point)) := do
  config.ensureWalk tour
  pure (config.segments tour)

/-- The figure of the grid and a tour. -/
def draw (tour : List Point) (theme : Theme) (title : Option Text) :
    Procedure (Grid config) Drawing := do
  let c ← snapshot
  Procedure.ofExcept (config.ensureWalk tour)
  pure (Drawing.ofTour c tour theme title)

end Grid
end Turmite
