import Turmite.Grid.Array
import Turmite.Palette.Nearest

/-!
# Images

An image is a flat list of samples, a few for each pixel, row by row. Every cell of a grid takes the
palette entry nearest to the mean of a block of pixels, or background if its block is empty. The
bounds of the blocks are multiples of the width of a cell in pixels, in binary64, cut to integers.
The values of a channel lie together, row by row: where those of a block are evenly spaced they are
summed by halves, else pixel by pixel.
-/

namespace Turmite

/-- The order of the channels of a pixel. -/
inductive PixelLayout where
  | rgba
  | rgb
  | abgr
  deriving DecidableEq

namespace PixelLayout

/-- The name of a layout. -/
def name : PixelLayout → String
  | rgba => "RGBA"
  | rgb => "RGB"
  | abgr => "ABGR"

/-- The layout that a value names. -/
def ofJson? : Json → Except Error PixelLayout
  | .str t =>
    match [rgba, rgb, abgr].find? fun layout => Text.ofString layout.name = t with
    | some layout => .ok layout
    | none => .error InvalidArgument.unknownLayout
  | _ => .error InvalidArgument.unknownLayout

/-- The samples of a pixel. -/
def stride : PixelLayout → Nat
  | rgba => 4
  | rgb => 3
  | abgr => 4

/-- The places of red, green and blue among the samples of a pixel. -/
def channels : PixelLayout → List Nat
  | rgba => [0, 1, 2]
  | rgb => [0, 1, 2]
  | abgr => [2, 1, 0]

end PixelLayout

namespace Image

/-- The first pixel of block `k` of `count` blocks over `pixels` pixels, or the end of the block
before it. -/
def blockBound (pixels count k : Nat) : Nat :=
  let width := (Binary64.quotient? pixels count).getD 0.0
  let bound := (Binary64.ofInt? k).getD 0.0 * width
  match Binary64.ofFloat bound with
  | .finite _ m e => (Binary64.truncate false m e).toNat
  | _ => 0

/-- The pixels of block `k`, from the first on. -/
def block (pixels count k : Nat) : List Nat :=
  let first := blockBound pixels count k
  let last := min (blockBound pixels count (k + 1)) pixels
  List.range' first (last - first)

/-- A picture: samples for each pixel in some layout. -/
structure Picture where
  samples : Array Float
  width : Nat
  height : Nat
  layout : PixelLayout

/-- The channel values of a pixel. -/
def Picture.pixel (p : Picture) (x y : Nat) : Channels :=
  p.layout.channels.map fun place =>
    p.samples.getD ((y * p.width + x) * p.layout.stride + place) 0.0

/-- The values of one channel. -/
def channel (k : Nat) (colors : List Channels) : List Float := colors.map (·.getD k 0.0)

/-- Whether a block of some columns and rows is evenly spaced in a picture: it has one row or one
column, or is as wide as the picture. -/
def isEven (width columns rows : Nat) : Bool := rows = 1 || columns = 1 || columns = width

/-- The mean of colors of three channels. -/
def mean (sum : List Float → Float) (colors : List Channels) : Channels :=
  [0, 1, 2].map fun k => sum (channel k colors) / Float.ofNat colors.length

/-- Why there are too few samples. An integer that is too long cannot be told. -/
def shortage (held : Nat) (expected : Json) : Error :=
  match expected.exactInteger? with
  | some n =>
    if Limits.standard.allowsDigits (Binary64.digitCount n.natAbs) then
      InvalidArgument.imageTooShort held expected
    else .integerTooLong
  | none => InvalidArgument.imageTooShort held expected

/-- The samples that come first in a list of lists: the whole leading items, if they are exactly as
many samples as are wanted. -/
def leadingSamples? (shape : List Nat) (samples : List Float) (count : Nat) :
    Except Error (List Float) := do
  let inner := (shape.drop 1).foldl (· * ·) 1
  let kept := min (shape.headD 0) count * inner
  ensure (kept = count) .unreadableArray
  pure (samples.take kept)

/-- The picture of a list of samples. Sides that are no integers cut no list. -/
def Picture.ofData? (data width height layout : Json) : Except Error Picture := do
  let layout ← PixelLayout.ofJson? layout
  width.ensureAtLeast 1 InvalidArgument.imageTooSmall
  height.ensureAtLeast 1 InvalidArgument.imageTooSmall
  let ⟨shape, values⟩ ← Samples.ofJson? data
  let expected ← (← width.product? height).product? (.int layout.stride)
  ensure (!(← (Json.int values.length).isLess? expected)) (shortage values.length expected)
  match width.exactInteger?, height.exactInteger? with
  | some w, some h =>
    let values ← leadingSamples? shape values (w.toNat * h.toNat * layout.stride)
    pure ⟨values.toArray, w.toNat, h.toNat, layout⟩
  | _, _ => .error .wrongType

/-- The color of a cell of a grid of `cols` by `rows` cells. The palette is looked at for a block
that is not empty. -/
def Picture.cellColor? (p : Picture) (palette : Except Error (List Channels)) (cols rows : Nat)
    (cell : Point) : Except Error Int :=
  let xs := block p.width cols cell.x.toNat
  let ys := block p.height rows cell.y.toNat
  let colors := ys.flatMap fun y => xs.map fun x => p.pixel x y
  let sum := if isEven p.width xs.length ys.length then Summation.pairwise
    else Summation.sequential
  if colors.isEmpty then .ok background
  else do pure (← Palette.nearest? (← palette) (mean sum colors))

end Image

namespace Grid

variable [Memory] {config : GridConfig}

/-- Colors cells one after the other, up to the first that has no color. -/
def paintCells (color : Point → Except Error Int) : List Point → Procedure (Grid config) Unit
  | [] => pure ()
  | p :: r => do
    let v ← Procedure.ofExcept (color p)
    Procedure.require (fitsWord v) .overflow
    modify fun g => ⟨g.canvas.map (·.set p v)⟩
    paintCells color r

/-- Colors every cell after a picture. -/
def rasterize (picture : Image.Picture) (palette : Except Error (List Channels)) :
    Procedure (Grid config) Unit := do
  if !(← get).initialized then
    let _ ← init
  paintCells (picture.cellColor? palette config.cols config.rows) config.points

end Grid
end Turmite
