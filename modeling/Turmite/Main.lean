import Turmite.Command.Calibrate
import Turmite.Command.Compile

/-!
# The program

The first argument names a command, the others are its options. A command runs on the text files
that its arguments name and those that a document among them names. Tables and figures are written
as JSON documents. No time passes on the clock.
-/

namespace Turmite.CommandLine

/-- The string of a text, without its surrogates. -/
def stringOf (t : Text) : String := String.ofList (t.filterMap CodePoint.char?)

/-- The arguments, and what stands after their equals signs. -/
def namedByArguments (arguments : List Text) : List Text :=
  arguments ++ arguments.filterMap fun t => (Argument.splitEquals t).2

/-- The members of an object in a document, as texts. -/
def namedByDocument : FileContent → List Text
  | .text chars =>
    match Json.parse? .standard chars with
    | .ok (.obj members) => members.map fun (_, v) => v.asText
    | _ => []
  | _ => []

/-- Whether a file is as it was before. -/
def isUnchanged (before : Files) (place : Place) : FileContent → Bool
  | .text chars =>
    match before.content? place with
    | some (.text old) => old = chars
    | _ => false
  | _ => false

/-- The text in which a file is written. -/
def fileText : FileContent → Text
  | .text chars => chars.map .scalar
  | .array items => items.line
  | .table columns => (Json.object (columns.map fun (name, column) => (name, .arr column))).line
  | .picture drawing => drawing.toJson.line

/-- The name of a place below the root of all paths. -/
def placeName (place : Place) : String :=
  stringOf (("/" : Text) ++ Text.join ("/" : Text) place)

/-- Enters the text file that a name leads to, if there is one. -/
def loadFile (files : Files) (name : Text) : IO Files := do
  try
    let content ← IO.FS.readFile (stringOf name)
    pure ((Files.write (Path.ofText name) (.text content.toList)).runOn files).2
  catch _ => pure files

/-- The files that arguments name, and those that these name. -/
def loadFiles (arguments : List Text) : IO Files := do
  let here := (← IO.currentDir).toString
  let files ← (namedByArguments arguments).foldlM loadFile (Files.empty (Path.ofText here).parts)
  (files.entries.flatMap fun (_, content) => namedByDocument content).foldlM loadFile files

/-- Writes what a command has entered. -/
def saveFiles (before after : Files) : IO Unit := do
  for (place, content) in after.entries do
    if !isUnchanged before place content then
      IO.FS.createDirAll (placeName place.dropLast)
      IO.FS.writeFile (placeName place) (stringOf (fileText content))

/-- Tells how a command ended; the status is zero for a result, two for a refusal. -/
def report : Except Failure Json → IO UInt32
  | .ok summary => do
    IO.println (stringOf summary.indented)
    pure 0
  | .error .help => do
    IO.println "turmite compile|calibrate [--option value ...]"
    pure 0
  | .error (.refused cause) => do
    IO.eprintln (stringOf (("error: " : Text) ++ cause.message))
    pure 2
  | .error (.error cause) => do
    IO.eprintln (stringOf (("failed: " : Text) ++ cause.message))
    pure 1

/-- Runs a command on the files that its arguments name. -/
def runCommand (command : List Text → Command Json) (arguments : List String) : IO UInt32 := do
  let arguments := arguments.map Text.ofString
  let files ← loadFiles arguments
  let (result, workspace) := (command arguments).runOn ⟨files, .start [0.0], []⟩
  saveFiles files workspace.files
  report result

end Turmite.CommandLine

/-- The command that the first argument names. -/
def main : List String → IO UInt32
  | "compile" :: arguments => Turmite.CommandLine.runCommand
      (fun a => do pure (← Turmite.CompileCommand.run a).toJson) arguments
  | "calibrate" :: arguments => Turmite.CommandLine.runCommand
      (fun a => do pure (← Turmite.CalibrateCommand.run a).toJson) arguments
  | _ => Turmite.CommandLine.report (.error .help)
