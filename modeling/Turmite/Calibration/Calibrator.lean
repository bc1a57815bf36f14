import Turmite.Calibration.Config
import Turmite.Calibration.Estimate
import Turmite.Calibration.Seed
import Turmite.Grid.Array
import Turmite.Json.Display
import Turmite.Tour.Plan

/-!
# Calibration

A calibrator times plans for random points, sets the times against the estimates and scales both
constants by the ratio of their sums. Where nothing was measured, or nothing estimated, the scale is
one. The results are a table of trials and, once they are known, the scaled constants. Counts are
values as they are given, and refused where they are used and do not count.
-/

namespace Turmite

/-- The averaged times of one number of points, in milliseconds. -/
structure Trial where
  numPoints : Json
  iterations : Json
  actualMs : Float
  estimatedMs : Float
  greedyMs : Float
  twoOptMs : Float

/-- What a calibrator has found so far. -/
structure Calibrator where
  config : CalibrationConfig
  baseline : CalibrationConstants
  results : List Trial
  optimized : Option CalibrationConstants
  greedyScale : Float
  twoOptScale : Float
  generator : Generator

namespace Calibrator

/-- A calibrator before its first trial. -/
def start? (config : CalibrationConfig) (baseline : CalibrationConstants) :
    Except Error Calibrator := do
  pure ⟨config, baseline, [], none, 1.0, 1.0, ← Generator.ofValue? config.seed⟩

/-- A calibrator at work: with its clock, and the pauses that it has made. -/
structure Session where
  calibrator : Calibrator
  clock : Clock
  pauses : List Float

/-- The sum of numbers from left to right. -/
def sum (xs : List Float) : Float := xs.foldl (· + ·) 0.0

/-- The mean of numbers. -/
def mean? (xs : List Float) : Except Error Float := do
  ensure (!xs.isEmpty) .divisionByZero
  pure (sum xs / Float.ofNat xs.length)

/-! ## Trials -/

/-- A random point of a torus. -/
def drawPoint (size : Nat) (g : Generator) : Point × Generator :=
  let (x, g) := g.below size
  let (y, g) := g.below size
  (⟨x, y⟩, g)

/-- Random points of a torus. -/
def drawPoints (size : Nat) : (count : Nat) → Generator → List Point × Generator
  | 0, g => ([], g)
  | count + 1, g =>
    let (p, g) := drawPoint size g
    let (points, g) := drawPoints size count g
    (p :: points, g)

/-- How often something is done: a negative number counts as none. -/
def count? (v : Json) : Except Error Nat :=
  match v.exactInteger? with
  | some n => .ok n.toNat
  | none => .error .wrongType

/-- The bound of random coordinates. A number with a fraction bounds none. -/
def bound? : Json → Except Error Nat
  | .float x => do
    let n ← (Json.float x).integer? .standard
    ensure (Binary64.isIntegral x) .emptyRange
    pure n.toNat
  | v => count? v

/-- Draws random points; a negative number of them is none. -/
def points (count : Json) : Procedure Session (List Point) := do
  let s ← get
  let count ← Procedure.ofExcept (count? count)
  if count = 0 then pure []
  else
    let size ← Procedure.ofExcept (bound? s.calibrator.config.gridSize)
    let (points, g) := drawPoints size count s.calibrator.generator
    set { s with calibrator := { s.calibrator with generator := g } }
    pure points

/-- The last cell of a torus with a given side. -/
def lastCell? (size : Json) : Except Error Point := do
  let last ← size.difference? (.int 1)
  Point.ofValues? last last

/-- The metric of a torus whose last cell is given. -/
def torus? (last : Point) : Except Error Metric := Metric.ofSizes? (last.x + 1) (last.y + 1) true

/-- Plans for random points, some number of times. -/
def timePlans [Memory] (count : Json) (last : Point) :
    (times : Nat) → Procedure Session (List Tour.Plan)
  | 0 => pure []
  | times + 1 => do
    let points ← points count
    let m ← Procedure.ofExcept (torus? last)
    let plan ← (Tour.plan m ⟨⟨0, 0⟩, last, .raw, true⟩ points).within (·.clock)
      (fun clock s => { s with clock := clock })
    let plans ← timePlans count last times
    pure (plan :: plans)

/-- Changes the calibrator of a session. -/
def update (f : Calibrator → Calibrator) : Procedure Session Unit :=
  modify fun s => { s with calibrator := f s.calibrator }

/-- Enters a trial. -/
def addTrial (t : Trial) : Procedure Session Unit :=
  update fun c => { c with results := c.results ++ [t] }

/-- Times a number of points; no times, or none given, means as often as configured. -/
def test [Memory] (count iterations : Json) : Procedure Session Trial := do
  let c := (← get).calibrator
  let times := if iterations.isTruthy then iterations else c.config.iterations
  let last ← Procedure.ofExcept (lastCell? c.config.gridSize)
  let plans ← timePlans count last (← Procedure.ofExcept (count? times))
  let actual ← Procedure.ofExcept (mean? (plans.map Tour.Plan.totalMs))
  let estimate ← Procedure.ofExcept (Estimate.ofCount? count c.baseline)
  let greedy ← Procedure.ofExcept (mean? (plans.map (·.greedyMs)))
  let twoOpt ← Procedure.ofExcept (mean? (plans.map (·.twoOptMs)))
  let trial : Trial := ⟨count, times, actual, estimate.totalMs, greedy, twoOpt⟩
  addTrial trial
  pure trial

/-! ## Fitting -/

/-- The ratio of two sums, one where either is not positive. -/
def scale (actual estimated : Float) : Float :=
  if 0.0 < estimated && 0.0 < actual then actual / estimated else 1.0

/-- The estimates of both phases for each trial. -/
def estimates? (c : Calibrator) : Except Error (List (Float × Float)) :=
  c.results.mapM fun t => do
    let greedy ← Estimate.greedyMs? t.numPoints c.baseline
    let twoOpt ← Estimate.twoOptMs? t.numPoints c.baseline
    pure (greedy, twoOpt)

/-- Scales the constants by measured over estimated time. The scales are kept even where the scaled
constants are refused. -/
def calculate : Procedure Session CalibrationConstants := do
  let c := (← get).calibrator
  Procedure.require (!c.results.isEmpty) InvalidValue.noResults
  let estimates ← Procedure.ofExcept c.estimates?
  let greedyScale := scale (sum (c.results.map (·.greedyMs))) (sum (estimates.map (·.1)))
  let twoOptScale := scale (sum (c.results.map (·.twoOptMs))) (sum (estimates.map (·.2)))
  update fun c => { c with greedyScale := greedyScale, twoOptScale := twoOptScale }
  let constants ← Procedure.ofExcept (CalibrationConstants.ofValues?
    (c.baseline.greedy * greedyScale) (c.baseline.twoOpt * twoOptScale) c.baseline.version)
  update fun c => { c with optimized := some constants }
  pure constants

/-- A pause between two numbers of points, unless it takes no time. -/
def pause : Procedure Session Unit := do
  let c := (← get).calibrator.config
  let delay ← Procedure.ofExcept c.delay.toFloat?
  if 0.0 < delay then modify fun s => { s with pauses := s.pauses ++ [delay] }

/-- Times each number of points, with a pause after each. -/
def testAll [Memory] : List Json → Procedure Session Unit
  | [] => pure ()
  | size :: sizes => do
    let _ ← test size .null
    pause
    testAll sizes

/-- Times the given numbers of points, those of the settings if none are given, and fits. -/
def run [Memory] (sizes : List Json) : Procedure Session CalibrationConstants := do
  let standard := (← get).calibrator.config.testSizes
  testAll (if sizes.isEmpty then standard else sizes)
  calculate

/-! ## Results -/

/-- The ratio of measured to estimated time, where something was estimated. -/
def Trial.ratio? (t : Trial) : Option Float :=
  if 0.0 < t.estimatedMs then some (t.actualMs / t.estimatedMs) else none

/-- The mean of the ratios, one if there are none. -/
def meanRatio (c : Calibrator) : Float :=
  let ratios := c.results.filterMap Trial.ratio?
  if ratios.isEmpty then 1.0 else sum ratios / Float.ofNat ratios.length

/-- The line of a trial in the report. -/
def trialLine (t : Trial) : Text :=
  let places (x : Float) : Text := (Decimal.fixedText 2 x).map .scalar
  t.numPoints.asText ++ ("\t" : Text) ++ places t.actualMs ++ ("\t\t" : Text) ++
    places t.estimatedMs ++ ("\t\t" : Text) ++ places ((Trial.ratio? t).getD Binary64.notANumber)

/-- The line of a fitted constant in the report. -/
def constantLine (name : String) (value scale : Float) : Text :=
  Text.ofString name ++ (" constant: " : Text) ++
    (Decimal.scientificText 4 value).map .scalar ++ (" (scale: " : Text) ++
    (Decimal.fixedText 3 scale).map .scalar ++ (")" : Text)

/-- The report, line by line. -/
def report (c : Calibrator) : List Text :=
  let head : List Text := [("=== CALIBRATION REPORT ===" : Text),
    ("Points\tActual(ms)\tEstimated(ms)\tRatio" : Text)]
  let constants := match c.optimized with
    | some fitted => [constantLine "Greedy" fitted.greedy c.greedyScale,
        constantLine "2-opt" fitted.twoOpt c.twoOptScale]
    | none => []
  head ++ c.results.map trialLine ++ constants ++
    [("Hardware: " : Text) ++ Text.ofString (Estimate.hardwareClass c.meanRatio)]

/-- The table of the trials. -/
def table? (results : List Trial) : Except Error Table := do
  pure [("num_points", ← results.mapM fun t => t.numPoints.columnWord?),
    ("iterations", ← results.mapM fun t => t.iterations.columnWord?),
    ("actual_ms", results.map fun t => .float t.actualMs),
    ("estimated_ms", results.map fun t => .float t.estimatedMs),
    ("greedy_ms", results.map fun t => .float t.greedyMs),
    ("two_opt_ms", results.map fun t => .float t.twoOptMs)]

/-- Writes the trials and, if they are known, the constants; the paths of both. -/
def write (c : Calibrator) (out : Path) : Procedure Files (Path × Option Path) := do
  let resultsPath := out.calibrationResults
  Files.makeDirectory resultsPath.parent
  let table ← Procedure.ofExcept (table? c.results)
  Files.writeTable resultsPath table
  match c.optimized with
  | some constants =>
    let path := out.calibrationConstants
    Files.write path constants.fileContent
    pure (resultsPath, some path)
  | none => pure (resultsPath, none)

end Calibrator
end Turmite
