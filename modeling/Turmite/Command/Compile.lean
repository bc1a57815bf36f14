import Turmite.Calibration.Estimate
import Turmite.Command.Setting
import Turmite.Command.Workspace
import Turmite.Figure.Drawing
import Turmite.Grid.File
import Turmite.Program.Compile
import Turmite.Program.File

/-!
# The compile command

Compiles the painted cells of a grid file. Settings come from options, a configuration document and
defaults. The results are a program document, a rule table and, if wanted, a figure.
-/

namespace Turmite.CompileCommand

/-- The options. -/
def options : OptionTable :=
  [⟨"config", .value .path⟩,
    ⟨"grid", .value .path⟩,
    ⟨"start", .value .text⟩,
    ⟨"end", .value .text⟩,
    ⟨"heading", .value (.choice (Direction.headings.map (Text.ofString ·.name)))⟩,
    ⟨"looping", .toggle⟩,
    ⟨"stop_after_done", .toggle⟩,
    ⟨"optimize", .toggle⟩,
    ⟨"two_opt_mode", .value (.choice (Tour.Mode.all.map (Text.ofString ·.name)))⟩,
    ⟨"state_offset", .value .integer⟩,
    ⟨"name", .value .text⟩,
    ⟨"out_dir", .value .path⟩,
    ⟨"calibration", .value .path⟩,
    ⟨"render", .toggle⟩]

/-- What is to be compiled, and how. -/
structure Settings where
  grid : Path
  looping : Option Bool
  start : Option Point
  finish : Option Point
  heading : Direction
  config : CompileConfig
  render : Bool
  outDir : Path
  name : Text
  calibration : Option Path

/-- The heading of a setting. -/
def heading? (v : Json) : Except Error Direction :=
  match v.asText.string?.bind Direction.ofName? with
  | some d => .ok d
  | none => .error (InvalidValue.unknownHeadingName v.asText)

/-- The mode of a setting. -/
def mode? (v : Json) : Except Error Tour.Mode := Tour.Mode.ofText? v.asText

/-- A setting that may be left open. -/
def optional? {α : Type} (read : Json → Except Error α) : Json → Except Error (Option α)
  | .null => .ok none
  | v => do pure (some (← read v))

/-- The path of a setting. -/
def path (v : Json) : Path := Path.ofText v.asText

/-- The settings of options and a document. -/
def Settings.ofUsage? (usage : Usage) (document : Json) : Except Error Settings := do
  let choose (key : String) (default : Json) := Setting.choose key (usage.get key) document default
  let truth? (key : String) (default : Bool) := do
    Setting.truth? key (← choose key (.bool default))
  let grid ← choose "grid" .null
  let some grid ← optional? (.ok ∘ path) grid | .error InvalidValue.gridMissing
  let looping ← optional? (Setting.truth? ("looping" : Text)) (← choose "looping" .null)
  let start ← Setting.point? ("start" : Text) (← choose "start" .null)
  let finish ← Setting.point? ("end" : Text) (← choose "end" .null)
  let heading ← heading? (← choose "heading" (.str Direction.right.name))
  let offset ← Setting.integer? ("state_offset" : Text) (← choose "state_offset" (.int 0))
  let stopAfterDone ← truth? "stop_after_done" false
  let optimize ← truth? "optimize" true
  let mode ← mode? (← choose "two_opt_mode" (.str Tour.Mode.raw.name))
  let config ← CompileConfig.ofOffset? offset stopAfterDone optimize mode
  let render ← truth? "render" false
  let outDir ← choose "out_dir" (.str ("data" : Text))
  let name ← choose "name" (.str grid.stem)
  let calibration ← choose "calibration" .null
  let calibration ← optional? (.ok ∘ path) calibration
  pure ⟨grid, looping, start, finish, heading, config, render, path outDir, name.asText,
    calibration⟩

/-- The configuration document, an empty one unless it is given. -/
def document? (files : Files) (usage : Usage) : Except Failure Json :=
  match usage.get "config" with
  | .null => .ok (.obj [])
  | .arr _ => .error (.error .wrongType)
  | v =>
    match files.readJson? (path v) with
    | .ok document => .ok document
    | .error .malformedJson => .error (.refused (.configMalformed (path v).toText))
    | .error (.missingFile path) => .error (.refused (.configMissing path))
    | .error e => .error (.error e)

/-- A missing file and a faulty value are refused. -/
def inputFailure : Error → Failure
  | .missingFile path => .refused (.value (.missingFile path))
  | e => e.toFailure

/-- A heading or a point that the compiler does not accept is refused. -/
def argumentFailure : Error → Failure
  | .invalidArgument cause => .refused (.value cause)
  | e => .error e

/-- What a compilation starts from. -/
structure Job [Memory] where
  settings : Settings
  constants : CalibrationConstants
  config : GridConfig
  grid : Grid config

variable [Memory]

/-- Reads the settings, the calibration constants and the grid, in this order. -/
def Job.ofUsage? (files : Files) (usage : Usage) (document : Json) : Except Error Job := do
  let settings ← Settings.ofUsage? usage document
  let constants ← CalibrationConstants.load? files settings.calibration
  let ⟨config, grid⟩ ← Grid.load? files settings.grid settings.looping
  pure ⟨settings, constants, config, grid⟩

/-- What is told of a compilation. -/
structure Summary where
  name : Text
  paintedCells : Nat
  compiled : Compiled
  estimatedMs : Float
  document : Path
  table : Path
  figure : Option Path

namespace Summary

/-- The account of a planned tour. -/
def planMembers (plan : Tour.Plan) : List (String × Json) :=
  [("greedy_length", .int plan.greedyLength), ("tour_length", .int plan.length),
    ("two_opt_swaps", .int plan.stats.swaps),
    ("planning_ms", .float (Decimal.roundPlaces 2 plan.totalMs))]

/-- The summary as a JSON document. -/
def toJson (s : Summary) : Json :=
  .object (
    [("name", .str s.name), ("painted_cells", .int s.paintedCells),
      ("rules", .int s.compiled.program.ruleCount), ("path_moves", .int s.compiled.pathMoves),
      ("epilogue_moves", .int s.compiled.epilogueMoves), ("next_state", .int s.compiled.nextState),
      ("empty", .bool s.compiled.empty), ("program_path", .str s.document.toText),
      ("rule_table_path", .str s.table.toText)] ++
    (s.compiled.plan.map planMembers).getD [] ++
    [("estimated_ms", .float s.estimatedMs)] ++
    (s.figure.map fun p => [("render_path", Json.str p.toText)]).getD [])

end Summary

namespace Job

/-- What the program document says beside the rules. -/
def metadata (job : Job) (compiled : Compiled) : Json :=
  .object
    [("cols", .int job.config.cols), ("rows", .int job.config.rows),
      ("looping", .bool job.config.looping), ("heading", .str job.settings.heading.name),
      ("start_state", .int job.settings.config.stateOffset), ("next_state", .int compiled.nextState),
      ("stop_after_done", .bool job.settings.config.stopAfterDone),
      ("two_opt_mode", .str job.settings.config.mode.name)]

/-- The document of the program. -/
def documentPath (job : Job) : Path := job.settings.outDir.programDocument job.settings.name

/-- The rule table of the program. -/
def tablePath (job : Job) : Path := job.settings.outDir.ruleTable job.settings.name

/-- The figure of the tour. -/
def figurePath (job : Job) : Path := job.settings.outDir.tourFigure job.settings.name

/-- Compiles the painted cells, timed by the clock. -/
def compile (job : Job) : Command Compiled :=
  Command.onPart (fun w => (⟨job.grid, w.clock⟩ : Bench job.config))
    (fun bench w => { w with clock := bench.clock }) argumentFailure
    (Bench.compile (job.settings.start.map Stop.point) (job.settings.finish.map Stop.point)
      job.settings.heading job.settings.config)

/-- Writes the figure, if one is wanted. -/
def writeFigure (job : Job) (compiled : Compiled) : Command (Option Path) :=
  if job.settings.render then do
    let (drawing, _) := (Grid.draw compiled.tour Theme.standard
      (some job.settings.name)).runOn job.grid
    let drawing ← Command.ofExcept .error drawing
    Command.onFiles (Files.write job.figurePath (.picture drawing))
    pure (some job.figurePath)
  else pure none

/-- Compiles and writes the results. -/
def run (job : Job) : Command Summary := do
  let (painted, _) := Grid.dirtyPoints.runOn job.grid
  let painted ← Command.ofExcept .error painted
  Command.require (painted.length ≤ maxPaintedCells) (.tooManyCells painted.length)
  let estimate ← Command.ofExcept .error (Estimate.ofCount? (.int painted.length) job.constants)
  let compiled ← job.compile
  Command.onFiles (compiled.program.writeDocument job.documentPath (job.metadata compiled))
  Command.onFiles (compiled.program.writeTable job.tablePath)
  let figure ← job.writeFigure compiled
  pure ⟨job.settings.name, painted.length, compiled, estimate.totalMs, job.documentPath,
    job.tablePath, figure⟩

end Job

/-- The command. -/
def run (arguments : List Text) : Command Summary := do
  let usage ← Command.readUsage options arguments
  let document ← ExceptT.mk (pure (document? (← get).files usage))
  let job ← Command.ofExcept inputFailure (Job.ofUsage? (← get).files usage document)
  job.run

end Turmite.CompileCommand
