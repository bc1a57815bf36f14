import Turmite.Command.Option
import Turmite.Files
import Turmite.Tour.Plan

/-!
# Commands

A command works on files and a clock. It may end with help, with a refusal that is told to the user,
or with an error that nobody expected. What it did before stays done.
-/

namespace Turmite

/-- What a command works on: files, a clock, and the pauses that it made, in seconds. -/
structure Workspace where
  files : Files
  clock : Clock
  pauses : List Float

/-- Why a command is refused. -/
inductive Refusal where
  | usage (cause : UsageError)
  | configMissing (path : Text)
  | configMalformed (path : Text)
  | tooManyCells (count : Nat)
  | value (cause : Error)

/-- The painted cells that a command compiles at most. -/
def maxPaintedCells : Nat := 500

/-- The wording of a refusal. -/
def Refusal.message : Refusal → Text
  | usage cause => cause.message
  | configMissing path => ("Config file not found: " : Text) ++ path
  | configMalformed path =>
    ("Config file is not valid JSON: " : Text) ++ path ++ (": " : Text) ++
      Error.malformedJson.message
  | tooManyCells count =>
    ("grid has " : Text) ++ Text.ofNat count ++ (" painted cells; the limit is " : Text) ++
      Text.ofNat maxPaintedCells
  | value cause => cause.message

/-- How a command ends without a result. -/
inductive Failure where
  | help
  | refused (cause : Refusal)
  | error (cause : Error)

/-- A command: a procedure on a workspace with its own ways to fail. -/
abbrev Command (α : Type) := ExceptT Failure (StateM Workspace) α

namespace Error

/-- Whether an error is about a value that the user gave. -/
def isValueFault : Error → Bool
  | invalidArgument _ => true
  | invalidValue _ => true
  | unreadableArray => true
  | unknownSymbol => true
  | malformedJson => true
  | integerTooLong => true
  | unencodable _ => true
  | undecodable _ => true
  | nullInPath => true
  | _ => false

/-- Refuses values; other errors stay errors. -/
def toFailure (e : Error) : Failure := if e.isValueFault then .refused (.value e) else .error e

end Error

namespace Command

variable {σ α : Type}

/-- The result and the workspace that a command reaches. -/
def runOn (c : Command α) (w : Workspace) : Except Failure α × Workspace :=
  StateT.run (ExceptT.run c) w

/-- A result that does not depend on the workspace. -/
def ofExcept (fail : Error → Failure) (result : Except Error α) : Command α :=
  ExceptT.mk (pure (result.mapError fail))

/-- Refuses unless a condition holds. -/
def require (condition : Bool) (cause : Refusal) : Command Unit :=
  if condition then pure () else throw (.refused cause)

/-- A procedure on a part of the workspace. -/
def onPart (part : Workspace → σ) (replace : σ → Workspace → Workspace) (fail : Error → Failure)
    (p : Procedure σ α) : Command α :=
  ExceptT.mk fun w =>
    let (result, s) := p.runOn (part w)
    (result.mapError fail, replace s w)

/-- A procedure on the files. -/
def onFiles (p : Procedure Files α) : Command α :=
  onPart (·.files) (fun files w => { w with files := files }) .error p

/-- The settings that arguments make. -/
def readUsage (options : OptionTable) (arguments : List Text) : Command Usage :=
  match Usage.ofArguments? options arguments with
  | .ok usage => if usage.helpAsked then throw .help else pure usage
  | .error e => throw (.refused (.usage e))

end Command
end Turmite
