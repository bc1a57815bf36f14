import Turmite.Grid.Basic
import Turmite.Json.Nested

/-!
# Grids from nested lists

A grid takes a table of two levels, `cells[x][y]`, of items that stand for words of 64 bits:
integers, truth values, numbers cut to their integer part, and integer numerals.
-/

namespace Turmite

namespace Json

/-- An integer as a word. -/
def wordOf? (n : Int) : Except Error Int := if fitsWord n then .ok n else .error .overflow

/-- The word that an item stands for. -/
def word? : Json → Except Error Int
  | int n => wordOf? n
  | bool b => .ok (if b then 1 else 0)
  | float x =>
    match Binary64.ofFloat x with
    | .nan => .error .unreadableArray
    | .infinite _ => .error .overflow
    | .finite negative m e => wordOf? (Binary64.truncate negative m e)
  | str t =>
    match Numeral.readInt? .standard t with
    | .ok n => wordOf? n
    | .error _ => .error .unreadableArray
  | _ => .error .wrongType

/-- The cell that a value fills in a column of words. `null` stays, and a number is cut to its
integer part. -/
def columnWord? : Json → Except Error Json
  | null => .ok null
  | float x =>
    match Binary64.ofFloat x with
    | .finite negative m e =>
      let n := Binary64.truncate negative m e
      if fitsWord n then .ok (int n) else .error .misfitColumn
    | _ => .error .misfitColumn
  | v =>
    match v.exactInteger? with
    | some n => do pure (int (← wordOf? n))
    | none => .error .misfitColumn

end Json

/-- An array of words. -/
structure WordArray where
  shape : List Nat
  words : List Int

namespace WordArray

/-- The array that a nested list denotes. -/
def ofJson? (v : Json) : Except Error WordArray := do
  let shape ← v.shape?
  let words ← v.leaves.mapM Json.word?
  pure ⟨shape, words⟩

/-- The canvas of an array that has the shape of a grid. -/
def canvas? [Memory] (config : GridConfig) (a : WordArray) : Except Error (Canvas config) :=
  if h : a.shape = [config.cols, config.rows] ∧ a.words.length = config.cols * config.rows then
    if fits : config.Fits then .ok ⟨⟨(a.words.map Int64.ofInt).toArray, by simp [h.2]⟩, fits⟩
    else .error config.misfit
  else .error (InvalidArgument.shapeMismatch a.shape (.int config.cols) (.int config.rows))

end WordArray

namespace Grid

variable [Memory]

/-- The grid of a configuration around an array. -/
def ofArray? (config : GridConfig) (a : WordArray) : Except Error (Grid config) := do
  let c ← a.canvas? config
  pure ⟨some c⟩

/-- The grid around a table of colors, of the size of the table. -/
def ofTable? (a : WordArray) (looping : Bool) :
    Except Error ((config : GridConfig) × Grid config) := do
  match a.shape with
  | [cols, rows] =>
    ensure (a.words.all (0 ≤ ·)) InvalidArgument.negativeColors
    let config ← GridConfig.ofSizes? cols rows looping false
    let g ← ofArray? config a
    pure ⟨config, g⟩
  | _ => .error InvalidArgument.cellsNotPlane

/-- The grid around the table of colors that a nested list denotes. -/
def ofCells? (cells : Json) (looping : Bool) :
    Except Error ((config : GridConfig) × Grid config) := do
  ofTable? (← WordArray.ofJson? cells) looping

end Grid
end Turmite
