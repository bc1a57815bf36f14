/-!
# Points and directions

Points of the plane with integer coordinates, `x` to the right and `y` down, and the four unit
steps between them. A direction serves both as a move and as a heading.
-/

namespace Turmite

/-- A point of the plane. -/
structure Point where
  x : Int
  y : Int
  deriving DecidableEq, Inhabited

/-- The point at an offset. -/
def Point.shift (p : Point) (dx dy : Int) : Point := ⟨p.x + dx, p.y + dy⟩

@[simp] theorem Point.shift_zero (p : Point) : p.shift 0 0 = p := by
  simp [shift]

/-- A unit step along an axis. -/
inductive Direction where
  | right
  | left
  | down
  | up
  deriving DecidableEq, Inhabited

namespace Direction

/-- The step to the right. -/
def dx : Direction → Int
  | right => 1
  | left => -1
  | down => 0
  | up => 0

/-- The step down. -/
def dy : Direction → Int
  | right => 0
  | left => 0
  | down => 1
  | up => -1

/-- The way back. -/
def opposite : Direction → Direction
  | right => left
  | left => right
  | down => up
  | up => down

@[simp] theorem opposite_opposite (d : Direction) : d.opposite.opposite = d := by
  cases d <;> rfl

theorem dx_opposite (d : Direction) : d.opposite.dx = -d.dx := by
  cases d <;> rfl

theorem dy_opposite (d : Direction) : d.opposite.dy = -d.dy := by
  cases d <;> rfl

/-- The directions in the order in which their symbols are listed. -/
def moves : List Direction := [right, left, down, up]

/-- The directions in the order in which their names are listed. -/
def headings : List Direction := [right, left, up, down]

/-- The symbol of a move. -/
def symbol : Direction → Char
  | right => '>'
  | left => '<'
  | down => 'v'
  | up => '^'

/-- The name of a heading. -/
def name : Direction → String
  | right => "right"
  | left => "left"
  | down => "down"
  | up => "up"

/-- The move with a symbol. -/
def ofSymbol? (c : Char) : Option Direction := moves.find? (·.symbol = c)

/-- The heading with a name. -/
def ofName? (s : String) : Option Direction := headings.find? (·.name = s)

@[simp] theorem ofSymbol?_symbol (d : Direction) : ofSymbol? d.symbol = some d := by
  cases d <;> decide

@[simp] theorem ofName?_name (d : Direction) : ofName? d.name = some d := by
  cases d <;> decide

end Direction

/-- The neighbour in a direction. -/
def Point.neighbour (p : Point) (d : Direction) : Point := p.shift d.dx d.dy

end Turmite
