import Turmite.Grid.Basic
import Turmite.Program.Basic

/-!
# Replays

A turmite runs a program on a grid: in each step it follows the first rule of its state, writing the
color before it moves. It stops at the halting state, at a state that the program does not have, or
after a given number of steps, whichever is found first in this order. A step from a state whose
list of rules is empty is refused.
-/

namespace Turmite

/-- Why a replay stopped. -/
inductive HaltReason where
  | haltState
  | missingState
  | maxSteps
  deriving DecidableEq

/-- The name of a reason. -/
def HaltReason.name : HaltReason → String
  | haltState => "halt_state"
  | missingState => "missing_state"
  | maxSteps => "max_steps"

/-- Where a replay ended, and the cells it stood on. -/
structure Replay where
  position : Point
  steps : Nat
  state : Int
  haltedBy : HaltReason
  trail : List Point
  deriving DecidableEq

namespace Program

/-- Why a turmite stops in a state, or else the rule that it follows, if the state has any. -/
def nextRule (p : Program) (state : Int) : Except HaltReason (Except Error Rule) :=
  if state = haltState then .error .haltState
  else
    match p.rules? state with
    | some (rule :: _) => .ok (.ok rule)
    | some [] => .ok (.error .tooFewParts)
    | none => .error .missingState

variable [Memory] {config : GridConfig}

/-- A run of at most `limit` steps more, after the cells of `trail`, the latest first. -/
def runFrom (p : Program) : (limit : Nat) → (state : Int) → (position : Point) →
    (trail : List Point) → Procedure (Grid config) Replay
  | limit, state, position, trail =>
    let stop (reason : HaltReason) : Replay :=
      ⟨position, trail.length, state, reason, (position :: trail).reverse⟩
    match p.nextRule state with
    | .error reason => pure (stop reason)
    | .ok first =>
      match limit with
      | 0 => pure (stop .maxSteps)
      | limit + 1 => do
        let rule ← Procedure.ofExcept first
        let _ ← Grid.paint position rule.color
        runFrom p limit rule.next (config.step position rule.move) (position :: trail)

/-- Runs a program from the cell that a point stands for. -/
def replay (p : Program) (start : Point) (startState maxSteps : Int) :
    Procedure (Grid config) Replay := do
  Procedure.require (0 ≤ maxSteps) InvalidValue.maxStepsNegative
  runFrom p maxSteps.toNat startState (config.normalize start) []

/-- The steps that a replay takes unless another limit is given. -/
def defaultMaxSteps : Int := 1000000

end Program
end Turmite
