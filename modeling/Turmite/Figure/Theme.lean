import Turmite.Json.Arithmetic
import Turmite.Palette.Nearest

/-!
# Themes of figures

A theme names the colors of cells by palette index, of grid lines, tour and end marks, and the width
of the tour.
-/

namespace Turmite

/-- A channel in two upper-case hexadecimal digits, or more if it needs more; a sign takes the place
of a digit. -/
def channelText (n : Int) : List Char :=
  let digits := (Nat.toDigits 16 n.natAbs).map Char.toUpper
  if n < 0 then '-' :: digits
  else List.replicate (2 - digits.length) '0' ++ digits

/-- Channels after a number sign. -/
def hexColor (channels : List Int) : Text := ('#' :: channels.flatMap channelText).map .scalar

/-- The text of a channel that is given as a value: an integer or a truth value. -/
def channelText? : Json → Except Error (List Char)
  | .float _ => .error (InvalidValue.channelNotInteger "float")
  | .str _ => .error (InvalidValue.channelNotInteger "str")
  | v =>
    match v.exactInteger? with
    | some n => .ok (channelText n)
    | none => .error .wrongType

/-- The first three of the given values as channels after a number sign. -/
def hexColorOf? (values : List Json) : Except Error Text := do
  let channels ← [0, 1, 2].mapM fun k =>
    match values[k]? with
    | some v => channelText? v
    | none => .error .tooFewParts
  pure (('#' :: channels.flatten).map .scalar)

/-- The colors and widths of a figure. -/
structure Theme where
  cellColors : List Text
  gridLineColor : Text
  tourColor : Text
  startColor : Text
  endColor : Text
  tourWidth : Float

namespace Theme

/-- The theme of the palette's own colors. -/
def standard : Theme where
  cellColors := standardPalette.map hexColor
  gridLineColor := ("#333333" : Text)
  tourColor := ("#E53935" : Text)
  startColor := ("#43A047" : Text)
  endColor := ("#1E88E5" : Text)
  tourWidth := 1.2

/-- The theme for paper: white background, light grid, black tour. -/
def paper : Theme :=
  { standard with
    cellColors := ("#FFFFFF" : Text) :: standard.cellColors.tail
    gridLineColor := ("#CCCCCC" : Text)
    tourColor := ("#000000" : Text) }

/-- The theme with a name. -/
def ofName? (name : Text) : Except Error Theme :=
  if name = ("default" : Text) then .ok standard
  else if name = ("paper" : Text) then .ok paper
  else .error InvalidValue.unknownTheme

end Theme
end Turmite
