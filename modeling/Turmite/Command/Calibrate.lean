import Turmite.Calibration.Calibrator
import Turmite.Command.Setting
import Turmite.Command.Workspace

/-!
# The calibrate command

Times plans for some numbers of points, with pauses between them, and writes the trials and the
constants fitted to them.
-/

namespace Turmite.CalibrateCommand

/-- The options. -/
def options : OptionTable :=
  [⟨"sizes", .value .text⟩,
    ⟨"quick", .flag⟩,
    ⟨"iterations", .value .integer⟩,
    ⟨"delay", .value .decimal⟩,
    ⟨"seed", .value .integer⟩,
    ⟨"baseline", .value .path⟩,
    ⟨"out_dir", .value .path⟩]

/-- The numbers of points: those listed, else those of a quick or of a full calibration. -/
def sizes? (usage : Usage) : Except Error (List Int) :=
  match usage.get "sizes" with
  | .str t => Setting.sizes? t
  | .null => .ok (if (usage.get "quick").isTruthy then CalibrationConfig.quickSizes
      else CalibrationConfig.standardSizes)
  | _ => .error .noSuchPart

/-- The value of an option, unless it is not set. -/
def valueOr (usage : Usage) (key : String) (default : Json) : Json :=
  match usage.get key with
  | .null => default
  | v => v

/-- The path of an option. An empty list is no path. -/
def path? (usage : Usage) (key : String) : Except Error (Option Path) :=
  match usage.get key with
  | .null => .ok none
  | .str t => .ok (some (Path.ofText t))
  | _ => .error .wrongType

/-- The settings of a calibration. -/
def config? (usage : Usage) : Except Error CalibrationConfig := do
  let sizes ← sizes? usage
  pure
    { testSizes := sizes.map .int
      iterations := valueOr usage "iterations" (.int CalibrationConfig.standardIterations)
      gridSize := .int CalibrationConfig.standardGridSize
      delay := valueOr usage "delay" (.float CalibrationConfig.standardDelay)
      seed := valueOr usage "seed" (.int 0)
      outDir := (valueOr usage "out_dir" (.str CalibrationConfig.standardOutDir)).asText }

/-- Reads the settings and the constants to start from, in this order. -/
def prepare? (files : Files) (usage : Usage) : Except Error Calibrator := do
  let config ← config? usage
  config.check?
  let baseline ← CalibrationConstants.load? files (← path? usage "baseline")
  Calibrator.start? config baseline

/-- The directory of the results. -/
def outDir? (calibrator : Calibrator) (usage : Usage) : Except Error Path := do
  pure ((← path? usage "out_dir").getD (Path.ofText calibrator.config.outDir))

/-- What is told of a calibration. -/
structure Summary where
  sizes : List Json
  constants : CalibrationConstants
  results : Path
  fitted : Option Path
  report : List Text

namespace Summary

/-- The summary as a JSON document. -/
def toJson (s : Summary) : Json :=
  .object
    [("sizes", .arr s.sizes),
      ("greedy_constant", .float s.constants.greedy),
      ("two_opt_constant", .float s.constants.twoOpt),
      ("results_path", .str s.results.toText),
      ("constants_path", (s.fitted.map fun p => Json.str p.toText).getD (.str ("None" : Text)))]

end Summary

/-- A procedure of a calibrator at work, with the clock and the pauses of the workspace. -/
def atWork {α : Type} (calibrator : Calibrator) (p : Procedure Calibrator.Session α) :
    Command (α × Calibrator) :=
  Command.onPart (fun w => (⟨calibrator, w.clock, w.pauses⟩ : Calibrator.Session))
    (fun s w => { w with clock := s.clock, pauses := s.pauses }) .error
    (do pure (← p, (← get).calibrator))

/-- The command. -/
def run [Memory] (arguments : List Text) : Command Summary := do
  let usage ← Command.readUsage options arguments
  let calibrator ← Command.ofExcept Error.toFailure (prepare? (← get).files usage)
  let (constants, calibrator) ← atWork calibrator (Calibrator.run [])
  let outDir ← Command.ofExcept .error (outDir? calibrator usage)
  let (results, fitted) ← Command.onFiles (calibrator.write outDir)
  pure ⟨calibrator.config.testSizes, constants, results, fitted, calibrator.report⟩

end Turmite.CalibrateCommand
