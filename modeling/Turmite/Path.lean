import Turmite.Error

/-!
# Paths

A path is a root and components. Empty components and single dots are dropped when a text is read;
two dots stay. To resolve a path against a working directory is to let every pair of dots take back
the component before it, which needs no look at any file.

Not every text can be handed to a file system: a surrogate that stands for no byte cannot be
written, NUL ends a name, and names and paths have a greatest length in bytes. Resolution looks at
the names on its way and at their length not at all.
-/

namespace Turmite

/-- Refuses a text that no name of a file can hold. -/
def Text.ensureNameable (t : Text) : Except Error Unit :=
  match t.encodingFault? CodePoint.isNameable with
  | some fault => .error (.unencodable fault)
  | none => ensure (!t.contains (.scalar '\x00')) .nullInPath

/-- Where a path starts. Two leading slashes, and no more, are a root of their own. -/
inductive PathRoot where
  | relative
  | slash
  | doubleSlash
  deriving DecidableEq

/-- A root and the components below it. -/
structure Path where
  root : PathRoot
  parts : List Text
  deriving DecidableEq

namespace Path

/-- The components of a text between slashes that say something. -/
def components (t : Text) : List Text :=
  (t.split (.scalar '/')).filter fun part => part ≠ [] ∧ part ≠ ("." : Text)

/-- The root of a text. -/
def rootOf : Text → PathRoot
  | .scalar '/' :: .scalar '/' :: .scalar '/' :: _ => .slash
  | .scalar '/' :: .scalar '/' :: _ => .doubleSlash
  | .scalar '/' :: _ => .slash
  | _ => .relative

/-- The path that a text denotes. -/
def ofText (t : Text) : Path := ⟨rootOf t, components t⟩

instance : Coe String Path := ⟨fun s => ofText (Text.ofString s)⟩

/-- The text of a root. -/
def rootText : PathRoot → Text
  | .relative => []
  | .slash => ("/" : Text)
  | .doubleSlash => ("//" : Text)

/-- The text of a path, a dot for the empty one. -/
def toText (p : Path) : Text :=
  match p.root, p.parts with
  | .relative, [] => ("." : Text)
  | root, parts => rootText root ++ Text.join ("/" : Text) parts

/-- Whether a path starts at a root. -/
def isAbsolute (p : Path) : Bool := p.root ≠ .relative

/-- The path `q` seen from `p`; an absolute path stays as it is. -/
def append (p q : Path) : Path := if q.isAbsolute then q else ⟨p.root, p.parts ++ q.parts⟩

/-- The path a text denotes, seen from `p`. -/
def child (p : Path) (t : Text) : Path := p.append (ofText t)

/-- The path without its last component. -/
def parent (p : Path) : Path := ⟨p.root, p.parts.dropLast⟩

/-- The last component. -/
def name (p : Path) : Text := p.parts.getLastD []

/-- The last point of a text with something on both sides, as what is before it and the rest. -/
def splitSuffix (t : Text) : Text × Text :=
  let ending := t.reverse.takeWhile (· ≠ .scalar '.')
  let stem := t.take (t.length - ending.length - 1)
  if ending.isEmpty ∨ stem.isEmpty then (t, []) else (stem, t.drop stem.length)

/-- The last component without its suffix. -/
def stem (p : Path) : Text := (splitSuffix p.name).1

/-- The suffix of the last component, with its point. -/
def suffix (p : Path) : Text := (splitSuffix p.name).2

/-! ## Resolution -/

/-- The components after one more. -/
def climb (above : List Text) (part : Text) : List Text :=
  if part = (".." : Text) then above.dropLast else above ++ [part]

/-- The components of a path below the root of all paths, seen from a working directory. -/
def resolve (cwd : List Text) (p : Path) : List Text :=
  p.parts.foldl climb (if p.isAbsolute then [] else cwd)

/-- Resolves `path`, seen from `base`, and refuses it unless it stays within `base`. -/
def resolveWithin (cwd : List Text) (path base : Path) : Except Error (List Text) :=
  let resolved := resolve cwd (base.append path)
  if (resolve cwd base).isPrefixOf resolved then .ok resolved
  else .error (InvalidValue.pathEscapes path.toText)

/-! ## Names of files -/

/-- The most bytes of a component. -/
def maxNameBytes : Nat := 255

/-- The most bytes of a path. -/
def maxPathBytes : Nat := 4095

/-- Refuses a path that no file system takes. -/
def ensureUsable (p : Path) : Except Error Unit := do
  p.toText.ensureNameable
  ensure (p.toText.byteCount ≤ maxPathBytes) .nameTooLong

/-- Refuses a component that is too long to be looked up. -/
def ensurePart (part : Text) : Except Error Unit :=
  ensure (part.byteCount ≤ maxNameBytes) .nameTooLong

/-- Resolves `path`, seen from `base`, within `base`, where every component can be named. -/
def resolveNamed? (cwd : List Text) (path base : Path) : Except Error (List Text) := do
  ((base.append path).parts ++ base.parts).forM Text.ensureNameable
  resolveWithin cwd path base

/-! ## Places of the results -/

/-- The directory of programs. -/
def programs (out : Path) : Path := out.child ("programs" : Text)

/-- The directory of tables. -/
def logs (out : Path) : Path := out.child ("logs" : Text)

/-- The document of a compiled program. -/
def programDocument (out : Path) (name : Text) : Path :=
  out.programs.child (name ++ (".json" : Text))

/-- The rule table of a compiled program. -/
def ruleTable (out : Path) (name : Text) : Path :=
  out.logs.child (name ++ ("_rules.parquet" : Text))

/-- The figure of a compiled tour. -/
def tourFigure (out : Path) (name : Text) : Path :=
  (out.child ("figures" : Text)).child (name ++ ("_tour.png" : Text))

/-- The table of calibration trials. -/
def calibrationResults (out : Path) : Path := out.logs.child ("calibration_results.parquet" : Text)

/-- The calibrated constants. -/
def calibrationConstants (out : Path) : Path := out.child ("calibration.json" : Text)

end Path
end Turmite
