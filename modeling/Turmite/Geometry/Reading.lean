import Turmite.Error
import Turmite.Geometry.Metric
import Turmite.Limits
import Turmite.Number.Numeral

/-!
# Points and metrics from given values

Coordinates may be given as JSON values, a point as a text `X,Y`, and the size of a board as any
two integers; what is no such thing is refused. So are displacements that cannot be measured, and
lists of moves for which there is no memory.
-/

namespace Turmite

/-- A coordinate that is an integer. -/
def Json.coordinate? : Json → Except Error Int
  | .int n => .ok n
  | v => .error (InvalidArgument.coordinateNotInteger v)

/-- A value added to an integer: an integer or a truth value keeps it exact, a binary64 number
rounds it. -/
def Json.addTo? (n : Int) : Json → Except Error Json
  | .int k => .ok (.int (n + k))
  | .bool b => .ok (.int (n + if b then 1 else 0))
  | .float x =>
    match Binary64.ofInt? n with
    | some y => .ok (.float (y + x))
    | none => .error .overflow
  | _ => .error .wrongType

namespace Point

/-- The point with the given coordinates. -/
def ofValues? (x y : Json) : Except Error Point := do
  let x ← x.coordinate?
  let y ← y.coordinate?
  pure ⟨x, y⟩

/-- The point at a given offset. -/
def shiftBy? (p : Point) (dx dy : Json) : Except Error Point := do
  let x ← dx.addTo? p.x
  let y ← dy.addTo? p.y
  ofValues? x y

/-- The point that a text `X,Y` denotes. -/
def parse? (t : Text) : Except Error Point :=
  match (t.split (.scalar ',')).map Text.trim with
  | [x, y] =>
    match Numeral.readInt? .standard x, Numeral.readInt? .standard y with
    | .ok x, .ok y => .ok ⟨x, y⟩
    | _, _ => .error (InvalidArgument.pointNotIntegers t)
  | _ => .error (InvalidArgument.pointFormat t)

end Point

/-- The signed displacement on an axis of any size but zero, onwards up to half of the axis, to 53
significant bits, and else backwards. On a negative axis the remainder, and so the displacement, is
not positive. -/
def delta? (p q size : Int) : Except Error Int := do
  ensure (size ≠ 0) .divisionByZero
  ensure (sizeFits size.natAbs) .overflow
  let d := (q - p + size).fmod size
  let rounded : Int := roundedSize size.natAbs
  let half := if size < 0 then -rounded else rounded
  pure (if half < 2 * d then d - size else d)

/-! ## Lists of moves -/

/-- The number of moves from which on a list of them has no index. -/
def unindexableRun : Nat := Nat.pow 2 63

section

variable [Memory]

/-- Refuses a list of so many items if there is no memory for it. -/
def ensureRoom (count : Nat) : Except Error Unit := ensure (count ≤ Memory.words) .outOfMemory

theorem ensureRoom_of_le {count : Nat} (h : count ≤ Memory.words) : ensureRoom count = .ok () :=
  if_pos (decide_eq_true h)

end

namespace Displacement

variable [Memory]

/-- Whether there is memory for the moves of a displacement. -/
def Fits (d : Displacement) : Prop := d.length ≤ Memory.words

instance (d : Displacement) : Decidable d.Fits := by
  unfold Fits
  infer_instance

/-- Refuses moves along one axis for which there is no memory. -/
def ensureRun (count : Nat) : Except Error Unit := do
  ensure (count < unindexableRun) .overflow
  ensureRoom count

/-- Refuses a displacement with too many moves along `x`, or else along `y`, or together. -/
def ensureFits (d : Displacement) : Except Error Unit := do
  ensureRun d.dx.natAbs
  ensureRun d.dy.natAbs
  ensureRoom d.length

theorem ensureRun_of_le {count : Nat} (h : count ≤ Memory.words) : ensureRun count = .ok () := by
  have hindex : count < unindexableRun :=
    Nat.lt_of_le_of_lt h (Nat.lt_trans Memory.words_lt (by decide))
  simp [ensureRun, ensureRoom, ensure, hindex, h]
  rfl

theorem ensureFits_of_fits {d : Displacement} (h : d.Fits) : d.ensureFits = .ok () := by
  have hx : d.dx.natAbs ≤ Memory.words := Nat.le_trans (Nat.le_add_right _ _) h
  have hy : d.dy.natAbs ≤ Memory.words := Nat.le_trans (Nat.le_add_left _ _) h
  simp only [ensureFits, ensureRun_of_le hx, ensureRun_of_le hy, ensureRoom_of_le h]
  rfl

/-- The unit moves of a displacement, where there is memory for them. -/
def moves? (d : Displacement) : Except Error (List Direction) := do
  d.ensureFits
  pure d.moves

end Displacement

namespace Metric

/-- The metric of a board of given size. -/
def ofSizes? (cols rows : Int) (looping : Bool) : Except Error Metric :=
  if h : 1 ≤ cols ∧ 1 ≤ rows then
    .ok ⟨cols.toNat, rows.toNat, by omega, by omega, looping⟩
  else .error InvalidArgument.sizesTooSmall

variable (m : Metric)

/-- Refuses a board on which displacements cannot be measured. -/
def ensureMeasurable : Except Error Unit := ensure m.measurable .overflow

/-- The travel from `p` to `q`, on a board that can be measured. -/
def displacement? (p q : Point) : Except Error Displacement := do
  m.ensureMeasurable
  pure (m.displacement p q)

/-- Refuses a tour with a leg on a board that cannot be measured. -/
def ensureLegs (tour : List Point) : Except Error Unit :=
  if tour.length < 2 then .ok () else m.ensureMeasurable

/-- The length of an open path, on a board that can be measured. -/
def pathLength? (tour : List Point) : Except Error Nat := do
  m.ensureLegs tour
  pure (m.pathLength tour)

variable [Memory]

/-- Refuses a tour when the moves of a leg do not fit in memory, or not behind those held before. -/
def ensureRuns : (held : Nat) → List Point → Except Error Unit
  | _, [] => .ok ()
  | _, [_] => .ok ()
  | held, p :: q :: r => do
    (m.displacement p q).ensureFits
    ensureRoom (held + m.distance p q)
    ensureRuns (held + m.distance p q) (q :: r)

/-- Refuses a tour on which the first leg with any moves has too many. -/
def ensureDeparture : List Point → Except Error Unit
  | [] => .ok ()
  | [_] => .ok ()
  | p :: q :: r =>
    if m.distance p q = 0 then ensureDeparture (q :: r) else (m.displacement p q).ensureFits

/-- Refuses a tour that cannot be expanded into a list of moves. -/
def ensureExpandable (tour : List Point) : Except Error Unit := do
  m.ensureLegs tour
  m.ensureRuns 0 tour

/-- The moves of an open path that can be expanded. -/
def expandMoves? (tour : List Point) : Except Error (List Direction) := do
  m.ensureExpandable tour
  pure (m.expandMoves tour)

end Metric
end Turmite
