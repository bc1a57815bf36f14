import Turmite.Files
import Turmite.Json.Arithmetic
import Turmite.Json.Printer
import Turmite.Program.Payload

/-!
# Calibration constants

The two constants of the estimate of planning time. A constant is refused when it compares at most
zero, which no number does not. They are kept as a JSON document of version one; where there is no
file the built-in constants hold.
-/

namespace Turmite

/-- The constants of the estimate, in milliseconds. -/
structure CalibrationConstants where
  greedy : Float
  twoOpt : Float
  version : Json

namespace CalibrationConstants

/-- Milliseconds for each pair of points in the greedy phase. -/
def greedyBaseline : Float := 1e-4

/-- Milliseconds for each pair of points and pass in the reversal phase. -/
def twoOptBaseline : Float := 1e-5

/-- The version of the documents. -/
def schemaVersion : Int := 1

/-- The built-in constants. -/
def baseline : CalibrationConstants := ⟨greedyBaseline, twoOptBaseline, .int schemaVersion⟩

/-- The constants with given values, neither of which is at most zero. -/
def ofValues? (greedy twoOpt : Float) (version : Json) : Except Error CalibrationConstants := do
  ensure (!(greedy ≤ 0.0)) InvalidValue.greedyConstant
  ensure (!(twoOpt ≤ 0.0)) InvalidValue.twoOptConstant
  pure ⟨greedy, twoOpt, version⟩

/-- The document of the constants. -/
def toDocument (c : CalibrationConstants) : Json :=
  .obj [(("greedy_constant" : Text), .float c.greedy),
    (("two_opt_constant" : Text), .float c.twoOpt),
    (("schema_version" : Text), c.version)]

/-- The number that a value stands for: a number, a truth value, or a decimal numeral. -/
def number? : Json → Except Error Float
  | .str t =>
    match Numeral.readFloat? t with
    | some x => .ok x
    | none => .error (InvalidValue.floatLiteral t)
  | v => v.toFloat?

/-- The constants of a document. -/
def ofDocument? : Json → Except Error CalibrationConstants
  | .obj members => do
    let version ← ((Json.Members.get? members "schema_version").getD
      (.int schemaVersion)).integer? .standard
    ensure (version = schemaVersion) (InvalidValue.schemaVersion version)
    let greedy ← number? (← Json.entry? members "greedy_constant")
    let twoOpt ← number? (← Json.entry? members "two_opt_constant")
    ofValues? greedy twoOpt (.int version)
  | _ => .error .noSuchPart

/-- The constants in a file, the built-in ones without a path or where nothing is. -/
def load? (files : Files) (path : Option Path) : Except Error CalibrationConstants :=
  match path with
  | none => .ok baseline
  | some path => do
    if ← files.exists? path then ofDocument? (← files.readJson? path) else pure baseline

/-- The file of the constants. -/
def fileContent (c : CalibrationConstants) : FileContent :=
  .text (c.toDocument.indented.filterMap CodePoint.char?)

end CalibrationConstants
end Turmite
