import Turmite.Files
import Turmite.Program.Payload

/-!
# Program files

A program is kept as a JSON document and as a rule table. A table has a row for each rule, state by
state, with the place of the rule among those of its state. Its numbers are words of 64 bits, so a
program with a larger one has no table. Both are written below directories that are made; a program
without a table leaves no file for it.
-/

namespace Turmite

/-- A row of a rule table. -/
structure RuleRow where
  state : Int
  index : Nat
  rule : Rule
  deriving DecidableEq

namespace RuleRow

/-- Whether the numbers of a row fit words. -/
def fits (r : RuleRow) : Bool :=
  fitsWord r.state && fitsWord r.index && fitsWord r.rule.color && fitsWord r.rule.next

/-- The columns of rows. -/
def columns (rows : List RuleRow) : Table :=
  [("state", rows.map fun r => .int r.state),
    ("rule_index", rows.map fun r => .int r.index),
    ("write_color", rows.map fun r => .int r.rule.color),
    ("move", rows.map fun r => .str [.scalar r.rule.move.symbol]),
    ("next_state", rows.map fun r => .int r.rule.next)]

end RuleRow

namespace Program

/-- The rows of one state. -/
def rowsOf (state : Int) (rules : List Rule) : List RuleRow :=
  rules.zipIdx.map fun (rule, index) => ⟨state, index, rule⟩

/-- The rows of all states. -/
def rows (p : Program) : List RuleRow :=
  p.entries.flatMap fun (state, rules) => rowsOf state rules

/-- The rule table of a program. -/
def table? (p : Program) : Except Error (List RuleRow) :=
  if p.rows.all RuleRow.fits then .ok p.rows else .error .overflow

/-- Writes the document of a program. -/
def writeDocument (p : Program) (path : Path) (metadata : Json) : Procedure Files Unit := do
  Files.makeDirectory path.parent
  let chars ← Procedure.ofExcept (p.documentChars? .standard metadata)
  Files.write path (.text chars)

/-- Writes the rule table of a program. -/
def writeTable (p : Program) (path : Path) : Procedure Files Unit := do
  Files.makeDirectory path.parent
  let rows ← Procedure.ofExcept p.table?
  Files.writeTable path (RuleRow.columns rows)

end Program
end Turmite
