import Turmite.Json.Arithmetic
import Turmite.Json.Nested
import Turmite.Number.Numeral

/-!
# Nearest colors

A color is a list of channel values. The nearest entry of a palette is the first at the least
Euclidean distance, computed in binary64; a distance that is no number counts as the least. A color
of one channel is measured against every channel of the other.

Colors and palettes may come as arrays of other levels than one and two. A palette that is a list of
numbers, or a number, has one entry. Where there are more levels, more than one place is nearest,
and the question is refused.
-/

namespace Turmite

/-- Channel values. -/
abbrev Channels := List Float

namespace Json

/-- The value of a sample: a number, a truth value, a decimal numeral, or null for no number. -/
def sample? : Json → Except Error Float
  | .null => .ok Binary64.notANumber
  | .str t =>
    match Numeral.readFloat? t with
    | some x => .ok x
    | none => .error .unreadableArray
  | v => v.toFloat?

end Json

/-- An array of samples. -/
structure Samples where
  shape : List Nat
  values : List Float

namespace Samples

/-- The samples in a nested list. -/
def ofJson? (v : Json) : Except Error Samples := do
  let shape ← v.shape?
  pure ⟨shape, ← v.leaves.mapM Json.sample?⟩

/-- A list cut into rows. -/
def cut (width : Nat) (values : List Float) : (count : Nat) → List Channels
  | 0 => []
  | count + 1 => values.take width :: cut width (values.drop width) count

/-- The rows of an array of at most two levels. Below two levels there is one row. -/
def rows (a : Samples) : List Channels :=
  match a.shape with
  | [count, width] => cut width a.values count
  | _ => [a.values]

/-- Whether two shapes, innermost extents first, fit: where both have an extent it is the same, or
one of them is one. -/
def meets : List Nat → List Nat → Bool
  | a :: s, b :: t => (a = b || a = 1 || b = 1) && meets s t
  | _, _ => true

/-- The entries of an array as a palette for colors of some shape. -/
def entries? (color : List Nat) (a : Samples) : Except Error (List Channels) :=
  match color.reverse with
  | [] => .error .tooFewParts
  | channels :: outer => do
    ensure (meets (channels :: 1 :: outer) a.shape.reverse) .unreadableArray
    ensure (outer.isEmpty && a.shape.length ≤ 2) .wrongType
    pure a.rows

theorem length_cut (width : Nat) (values : List Float) (count : Nat) :
    (cut width values count).length = count := by
  induction count generalizing values with
  | zero => rfl
  | succ count ih => simp [cut, ih]

end Samples

/-- The entries of a palette, of integers. -/
def standardPalette : List (List Int) :=
  [[0, 0, 0], [255, 255, 255], [255, 0, 255], [255, 255, 0], [0, 255, 0], [0, 255, 255],
   [255, 0, 0], [255, 165, 0], [0, 0, 255], [255, 105, 180], [218, 112, 214], [138, 43, 226]]

namespace Palette

/-- The standard palette as a list of lists. -/
def standard : Json := .arr (standardPalette.map fun entry => .arr (entry.map .int))

/-- The differences of channels, where a lone channel meets all of the other color. -/
def differences? (color entry : Channels) : Option Channels :=
  match color, entry with
  | [c], _ => some (entry.map (c - ·))
  | _, [e] => some (color.map (· - e))
  | _, _ => if color.length = entry.length then some (List.zipWith (· - ·) color entry) else none

/-- The Euclidean length. -/
def norm (channels : Channels) : Float := (Summation.pairwise (channels.map fun d => d * d)).sqrt

/-- Whether a distance goes before another. -/
def precedes (x y : Float) : Bool := !y.isNaN && (x.isNaN || x < y)

/-- The place of the first least of `best :: distances`, which stands at `place`; the next one
stands at `next`. -/
def leastFrom (place : Nat) (best : Float) : (next : Nat) → List Float → Nat
  | _, [] => place
  | next, d :: r =>
    if precedes d best then leastFrom next d (next + 1) r else leastFrom place best (next + 1) r

theorem leastFrom_lt (place next : Nat) (best : Float) (distances : List Float)
    (h : place < next) : leastFrom place best next distances < next + distances.length := by
  induction distances generalizing place next best with
  | nil => simpa [leastFrom] using h
  | cons d r ih =>
    simp only [leastFrom, List.length_cons]
    split
    · have := ih next (next + 1) d (Nat.lt_succ_self _)
      omega
    · have := ih place (next + 1) best (Nat.lt_succ_of_lt h)
      omega

/-- The place of the first least distance. -/
def firstLeast? : List Float → Option Nat
  | [] => none
  | d :: r => some (leastFrom 0 d 1 r)

/-- The place of the entry nearest to a color. Entries of unequal length, or of another length than
the color, cannot be compared. -/
def nearest? (palette : List Channels) (color : Channels) : Except Error Nat :=
  let sameLength := palette.all fun entry => entry.length = (palette.headD []).length
  let distances := palette.mapM fun entry => (differences? color entry).map norm
  match sameLength, distances.bind firstLeast? with
  | true, some place => .ok place
  | _, _ => .error .unreadableArray

/-- The entries of a palette for colors of three channels. -/
def ofJson? (v : Json) : Except Error (List Channels) := do (← Samples.ofJson? v).entries? [3]

/-- The place of the entry nearest to a color in a palette that has entries. -/
def index? (palette color : Json) : Except Error Nat := do
  ensure palette.isTruthy InvalidArgument.emptyPalette
  let color ← Samples.ofJson? color
  let entries ← (← Samples.ofJson? palette).entries? color.shape
  nearest? entries color.values

/-! ## Hexadecimal colors -/

/-- The text without a number sign in front. -/
def dropNumberSign : Text → Text
  | .scalar '#' :: r => r
  | t => t

/-- The channel values of six hexadecimal digits, after a number sign or without one. Each pair is a
numeral of base sixteen. -/
def ofHex? (t : Text) : Except Error Channels :=
  match dropNumberSign t with
  | [a, b, c, d, e, f] =>
    match Numeral.readHex? [a, b], Numeral.readHex? [c, d], Numeral.readHex? [e, f] with
    | some x, some y, some z => .ok [Float.ofInt x, Float.ofInt y, Float.ofInt z]
    | _, _, _ => .error (InvalidArgument.hexDigits t)
  | _ => .error (InvalidArgument.hexLength t)

end Palette
end Turmite
