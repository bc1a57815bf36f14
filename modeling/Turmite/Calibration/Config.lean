import Turmite.Json.Arithmetic

/-!
# Calibration settings

Which numbers of points a calibration tries, how often, on how large a torus, with what pauses, from
which seed, and where the results go. Values are compared with their least as the numbers that they
are; whether one of them serves its purpose is found when it is used.
-/

namespace Turmite

/-- The settings of a calibration, as they are given. -/
structure CalibrationConfig where
  testSizes : List Json
  iterations : Json
  gridSize : Json
  delay : Json
  seed : Json
  outDir : Text

namespace CalibrationConfig

/-- The numbers of points of a full calibration. -/
def standardSizes : List Int := [10, 25, 50, 75, 100, 150, 200, 300]

/-- The numbers of points of a quick calibration. -/
def quickSizes : List Int := [5, 10, 20, 40]

/-- The trials that are averaged. -/
def standardIterations : Int := 3

/-- The side of the torus. -/
def standardGridSize : Int := 100

/-- The pause between two numbers of points, in seconds. -/
def standardDelay : Float := 0.1

/-- The directory of the results. -/
def standardOutDir : Text := ("data/calibration" : Text)

/-- Refuses values below their least. A delay that is no number is not below zero. -/
def check? (c : CalibrationConfig) : Except Error Unit := do
  ensure (!c.testSizes.isEmpty) InvalidValue.noSizes
  c.testSizes.forM (Json.ensureAtLeast 1 InvalidValue.sizeTooSmall)
  c.iterations.ensureAtLeast 1 InvalidValue.iterationsTooFew
  c.gridSize.ensureAtLeast 2 InvalidValue.gridSizeTooSmall
  c.delay.ensureAtLeast 0 InvalidValue.delayNegative

end CalibrationConfig
end Turmite
