import Turmite.Calibration.Constants

/-!
# Estimated planning time

The greedy phase takes time in proportion to the pairs of points, the reversal phase to pairs and
passes, of which no more than fifty are assumed. Times are rounded to hundredths of a millisecond.
-/

namespace Turmite

/-- A predicted planning time, in milliseconds. -/
structure Estimate where
  totalMs : Float
  greedyMs : Float
  twoOptMs : Float
  passes : Json
  complexity : String

namespace Estimate

/-- The most passes that are assumed. -/
def passCap : Int := 50

/-- The passes that are assumed for a number of points. -/
def passes? (n : Json) : Except Error Json := do
  pure (if ← (Json.int passCap).isLess? n then .int passCap else n)

/-- The time of the greedy phase. -/
def greedyMs? (n : Json) (c : CalibrationConstants) : Except Error Float := do
  pure ((← (← n.product? n).toFloat?) * c.greedy)

/-- The time of the reversal phase. -/
def twoOptMs? (n : Json) (c : CalibrationConstants) : Except Error Float := do
  let pairs ← n.product? n
  let steps ← pairs.product? (← passes? n)
  pure ((← steps.toFloat?) * c.twoOpt)

/-- The class of a number of points. -/
def complexity? (n : Json) : Except Error String := do
  if ← n.isBelow? 100 then pure "Low"
  else if ← n.isBelow? 500 then pure "Medium"
  else pure "High"

/-- The planning time for `n` points. -/
def ofCount? (n : Json) (c : CalibrationConstants) : Except Error Estimate := do
  n.ensureAtLeast 0 InvalidValue.pointCountNegative
  let greedy ← greedyMs? n c
  let twoOpt ← twoOptMs? n c
  pure
    { totalMs := Decimal.roundPlaces 2 (greedy + twoOpt)
      greedyMs := Decimal.roundPlaces 2 greedy
      twoOptMs := Decimal.roundPlaces 2 twoOpt
      passes := ← passes? n
      complexity := ← complexity? n }

/-- The class of a machine by the ratio of measured to estimated time. -/
def hardwareClass (ratio : Float) : String :=
  if ratio < 0.5 then "High-performance system (much faster than baseline)"
  else if ratio < 1.5 then "Standard performance system (close to baseline)"
  else if ratio < 3.0 then "Lower performance system (slower than baseline)"
  else "Very low performance system (much slower than baseline)"

end Estimate
end Turmite
