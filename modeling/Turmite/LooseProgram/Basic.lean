import Turmite.Files
import Turmite.Grid.Array
import Turmite.Program.Payload
import Turmite.Replay

/-!
# Loose programs

A loose program is one whose states and colors are any values, as they come from a caller who does
not keep to integers. States that are equal numbers are one state, under its first name. A list or
an object is no state.
-/

namespace Turmite

/-- A rule of values. -/
structure LooseRule where
  color : Json
  move : Direction
  next : Json

namespace LooseRule

/-- A rule as a rule of values. -/
def ofRule (r : Rule) : LooseRule := ⟨.int r.color, r.move, .int r.next⟩

/-- The rule of integers, if its values are such. -/
def integral? (r : LooseRule) : Option Rule :=
  match r.color, r.next with
  | .int color, .int next => some ⟨color, r.move, next⟩
  | _, _ => none

/-- The rule with the halting state next. -/
def halting (r : LooseRule) : LooseRule := { r with next := .int haltState }

/-- The JSON object of a rule. -/
def toJson (r : LooseRule) : Json :=
  .obj [(("writeColor" : Text), r.color),
    (("move" : Text), .str [.scalar r.move.symbol]),
    (("nextState" : Text), r.next)]

/-- Whether two rules do the same. -/
def isSame (r s : LooseRule) : Bool :=
  r.color.isSame s.color && r.move = s.move && r.next.isSame s.next

end LooseRule

/-- The states with their rules. -/
structure LooseProgram where
  entries : List (Json × List LooseRule)

namespace LooseProgram

/-- The program without states. -/
def empty : LooseProgram := ⟨[]⟩

/-- A program as one of values. -/
def ofProgram (p : Program) : LooseProgram :=
  ⟨p.entries.map fun (state, rules) => (.int state, rules.map LooseRule.ofRule)⟩

/-- The state and the rules of integers in an entry, if its values are such. -/
def integralEntry? : Json × List LooseRule → Option (Int × List Rule)
  | (.int state, rules) => (rules.mapM LooseRule.integral?).map (state, ·)
  | _ => none

/-- The program of integers, if its values are such. -/
def integral? (p : LooseProgram) : Option Program := (p.entries.mapM integralEntry?).map Program.mk

/-- Appends a rule to the rules of its state. -/
def addTo (state : Json) (rule : LooseRule) :
    List (Json × List LooseRule) → List (Json × List LooseRule)
  | [] => [(state, [rule])]
  | (s, rules) :: r =>
    if s.isSame state then (s, rules ++ [rule]) :: r else (s, rules) :: addTo state rule r

/-- The program with a rule more. -/
def add? (p : LooseProgram) (state : Json) (rule : LooseRule) : Except Error LooseProgram := do
  state.ensureKey
  pure ⟨addTo state rule p.entries⟩

/-- The rules of a state. -/
def find? (p : LooseProgram) (state : Json) : Option (List LooseRule) :=
  (p.entries.find? fun (s, _) => s.isSame state).map (·.2)

/-- The rules of a state; a list or an object is refused. -/
def rules? (p : LooseProgram) (state : Json) : Except Error (Option (List LooseRule)) := do
  state.ensureKey
  pure (p.find? state)

/-- The state that got its first rule last. -/
def lastState? (p : LooseProgram) : Option Json := p.entries.getLast?.map (·.1)

/-- The number of states. -/
def size (p : LooseProgram) : Nat := p.entries.length

/-- The number of rules. -/
def ruleCount (p : LooseProgram) : Nat := (p.entries.flatMap (·.2)).length

/-- Makes the last rule of the last state halt. -/
def haltAfterLast (p : LooseProgram) : LooseProgram :=
  ⟨Program.updateLast
    (fun (state, rules) => (state, Program.updateLast LooseRule.halting rules)) p.entries⟩

/-- Whether two programs have the same states with the same rules, in any order of the states. -/
def isSame (p q : LooseProgram) : Bool :=
  p.size = q.size && p.entries.all fun (state, rules) =>
    match q.find? state with
    | some others =>
      rules.length = others.length && (rules.zip others).all fun (r, s) => r.isSame s
    | none => false

/-- Why a turmite stops in a state, or else the rule that it follows, if the state has any. -/
def nextRule? (p : LooseProgram) (state : Json) :
    Except Error (Except HaltReason (Except Error LooseRule)) :=
  if state.isSame (.int haltState) then .ok (.error .haltState)
  else do
    match ← p.rules? state with
    | some (rule :: _) => pure (.ok (.ok rule))
    | some [] => pure (.ok (.error .tooFewParts))
    | none => pure (.error .missingState)

end LooseProgram

/-! ## Replays -/

/-- Where a replay ended, and the cells it stood on. -/
structure LooseReplay where
  position : Point
  steps : Nat
  state : Json
  haltedBy : HaltReason
  trail : List Point

/-- A replay as one of values. -/
def LooseReplay.ofReplay (r : Replay) : LooseReplay :=
  ⟨r.position, r.steps, .int r.state, r.haltedBy, r.trail⟩

namespace LooseProgram

/-! ## Documents and tables -/

/-- The rules of each state under its text. Of states with one text the last gives the rules. -/
def toPayload (p : LooseProgram) : Json :=
  .obj (Json.Members.ofList (p.entries.map fun (state, rules) =>
    (state.asText, .arr (rules.map LooseRule.toJson))))

/-- The document of a program; metadata that count as false are left empty. -/
def toDocument (p : LooseProgram) (metadata : Json) : Json :=
  .obj [(("schema_version" : Text), .int Program.schemaVersion),
    (("metadata" : Text), if metadata.isTruthy then metadata else .obj []),
    (("rules" : Text), p.toPayload)]

/-- Whether an integer is written with no more digits than a limit. -/
def isWritable (limits : Limits) : Json → Bool
  | .int n => Json.isWritable limits n
  | _ => true

/-- The characters of a document. It is refused for a state with too many digits and else for the
first number that is too long or the first bracket that lies too deep; and then if a text in it
holds a surrogate. -/
def documentChars? (limits : Limits) (p : LooseProgram) (metadata : Json) :
    Except Error (List Char) := do
  ensure (p.entries.all fun (state, _) => isWritable limits state) .integerTooLong
  let document := p.toDocument metadata
  (document.ensureWritable limits limits.depth).mapError Json.Fault.error
  let t := document.indented
  match t.encodingFault? (!·.isSurrogate) with
  | some fault => .error (.unencodable fault)
  | none => pure (t.filterMap CodePoint.char?)

/-- A column of words with a value of each rule. -/
def wordColumn? (f : Json → Nat → LooseRule → Json) (p : LooseProgram) : Except Error (List Json) :=
  (p.entries.flatMap fun (state, rules) =>
    rules.zipIdx.map fun (rule, index) => f state index rule).mapM Json.columnWord?

/-- The rule table of a program. The first column with a value that is no word refuses it. -/
def table? (p : LooseProgram) : Except Error Table := do
  let states ← p.wordColumn? fun state _ _ => state
  let indices ← p.wordColumn? fun _ index _ => .int index
  let colors ← p.wordColumn? fun _ _ rule => rule.color
  let moves := p.entries.flatMap fun (_, rules) => rules.map fun r => .str [.scalar r.move.symbol]
  let nexts ← p.wordColumn? fun _ _ rule => rule.next
  pure [("state", states), ("rule_index", indices), ("write_color", colors), ("move", moves),
    ("next_state", nexts)]

end LooseProgram
end Turmite
