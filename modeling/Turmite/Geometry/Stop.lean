import Turmite.Geometry.Point
import Turmite.Json.Arithmetic

/-!
# Stops

A stop of a tour, as a caller gives it, is a point or a value that is none. A value may stand where
no coordinates are looked at; where they are, it is refused.
-/

namespace Turmite

/-- A stop of a tour as a caller gives it: a point, or a value that is none. -/
inductive Stop where
  | point (p : Point)
  | other (value : Json)

instance : Coe Point Stop := ⟨Stop.point⟩

namespace Stop

/-- The point of a stop; another value is refused under the name of its role. -/
def require (role : String) : Stop → Except Error Point
  | point p => .ok p
  | other v => .error (InvalidArgument.notAPoint role v)

/-- The point of a stop; another value has no coordinates. -/
def point? : Stop → Except Error Point
  | point p => .ok p
  | other _ => .error .noSuchPart

/-- The points of stops, if all of them are points. -/
def points? : List Stop → Option (List Point)
  | [] => some []
  | point p :: r => (points? r).map (p :: ·)
  | other _ :: _ => none

/-- Refuses a stop that cannot be told from others. -/
def ensureKey : Stop → Except Error Unit
  | point _ => .ok ()
  | other v => v.ensureKey

/-- Whether two stops are the same. -/
def isSame : Stop → Stop → Bool
  | point p, point q => p = q
  | other v, other w => v.isSame w
  | _, _ => false

theorem points?_points (points : List Point) : points? (points.map point) = some points := by
  induction points with
  | nil => rfl
  | cons p r ih => simp [points?, ih]

end Stop
end Turmite
