import Turmite.LooseProgram.Basic
import Turmite.Program.Compile

/-!
# Compiled programs with loose states

A tour is compiled from any first state that is a number. Each state after it is greater by one, as
far as the numbers of its kind can tell: from a number of binary64 that is large enough, all rules
go to one state.
-/

namespace Turmite

/-- A program of values and the account of its compilation. -/
structure LooseCompiled where
  program : LooseProgram
  nextState : Json
  tour : List Point
  pathMoves : Json
  epilogueMoves : Json
  empty : Bool
  plan : Option Tour.Plan

namespace Compiled

/-- A compiled program as one of values. -/
def loosen (c : Compiled) : LooseCompiled :=
  ⟨.ofProgram c.program, .int c.nextState, c.tour, .int c.pathMoves, .int c.epilogueMoves, c.empty,
    c.plan⟩

/-- The state that follows after a number of states. -/
def stateAfter? (first : Json) : Nat → Except Error Json
  | 0 => .ok first
  | n + 1 => do (← stateAfter? first n).sum? (.int 1)

/-- Rules added one after the other, each in the state that follows. -/
def addRules? (p : LooseProgram) (state : Json) : List Rule → Except Error LooseProgram
  | [] => .ok p
  | rule :: r => do
    let next ← state.sum? (.int 1)
    addRules? (← p.add? state ⟨.int rule.color, rule.move, next⟩) next r

/-- A program that was compiled from the state zero, with another first state. -/
def renumber? (c : Compiled) (first : Json) (stopAfterDone : Bool) :
    Except Error LooseCompiled := do
  let rules := c.program.flat.map (·.2)
  let program ← addRules? .empty first rules
  let atEnd ← stateAfter? first (rules.length - c.epilogueMoves)
  let last ← stateAfter? first rules.length
  let pathMoves ← atEnd.difference? first
  let epilogueMoves ← (← last.difference? first).difference? pathMoves
  pure { program := if stopAfterDone then program.haltAfterLast else program
         nextState := last
         tour := c.tour
         pathMoves := if c.empty then .int 0 else pathMoves
         epilogueMoves := epilogueMoves
         empty := c.empty
         plan := c.plan }

end Compiled
end Turmite
