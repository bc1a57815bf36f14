import Turmite.Archive
import Turmite.Files
import Turmite.Grid.Stored
import Turmite.Json.Printer

/-!
# Grid files

A grid is kept as a JSON document, a table of colors or an object with the table as `cells` and
possibly `looping`, or as an array in a file with the suffix `.npy`, which does not keep whether the
grid loops. An archive under that suffix is the list of the names of its members, without that
suffix where they have it.
-/

namespace Turmite.Grid

variable [Memory] {config : GridConfig}

/-- The table of the colors of a canvas. -/
def table (c : Canvas config) : Json := .arr (c.columns.map fun column => .arr (column.map .int))

/-- The document of a canvas, with what tells whether the grid loops. -/
def documentOf (looping : Json) (c : Canvas config) : Json :=
  .obj [(("looping" : Text), looping), (("cells" : Text), table c)]

/-- The document of a canvas. -/
def toDocument (config : GridConfig) (c : Canvas config) : Json :=
  documentOf (.bool config.looping) c

/-- The cells of a document and whether the grid loops. -/
def ofDocument? (path : Path) : Json → Except Error (Json × Bool)
  | .obj members =>
    match Json.Members.get? members "cells" with
    | some cells =>
      .ok (cells, ((Json.Members.get? members "looping").map Json.isTruthy).getD true)
    | none => .error (InvalidArgument.missingCells path.toText)
  | v => .ok (v, true)

/-- The suffix of files that hold an array. -/
def arraySuffix : Text := (".npy" : Text)

/-- Whether a path leads to an array rather than a document. -/
def isArrayPath (path : Path) : Bool := path.suffix = arraySuffix

/-- The name of a member without the suffix of arrays. -/
def memberKey (name : Text) : Text :=
  if arraySuffix.isSuffixOf name then name.take (name.length - arraySuffix.length) else name

/-- The array in a file. -/
def readArray? : FileContent → Except Error WordArray
  | .array items => WordArray.ofStored? items
  | .text chars =>
    let bytes := (String.ofList chars).toUTF8.data.toList
    if bytes.isEmpty then .error .endOfFile
    else if !Archive.isArchive bytes then .error .unreadableArray
    else do WordArray.ofJson? (.arr ((← Archive.memberNames? bytes).map fun t => .str (memberKey t)))
  | _ => .error .unreadableArray

/-- The table of colors in a file, and whether the grid loops. -/
def readTable? (files : Files) (path : Path) : Except Error (WordArray × Bool) := do
  if isArrayPath path then
    pure (← readArray? (← files.read? path), true)
  else
    let (cells, loops) ← ofDocument? path (← files.readJson? path)
    pure (← WordArray.ofJson? cells, loops)

/-- The grid in a file; whether it loops may be decided by the caller. -/
def load? (files : Files) (path : Path) (looping : Option Bool) :
    Except Error ((config : GridConfig) × Grid config) := do
  let (table, loops) ← readTable? files path
  ofTable? table (looping.getD loops)

/-- What a file keeps of a canvas, with what tells whether the grid loops. -/
def contentOf (looping : Json) (path : Path) (c : Canvas config) : FileContent :=
  if isArrayPath path then .array (table c)
  else .text ((documentOf looping c).line.filterMap CodePoint.char?)

/-- What a file keeps of a canvas. -/
def fileContent (path : Path) (c : Canvas config) : FileContent :=
  contentOf (.bool config.looping) path c

/-- Writes the grid to a file. -/
def save (path : Path) : Procedure (Grid config × Files) Unit := do
  (Files.makeDirectory path.parent).within (·.2) fun files s => (s.1, files)
  let c ← snapshot.within (·.1) fun g s => (g, s.2)
  (Files.write path (fileContent path c)).within (·.2) fun files s => (s.1, files)

end Turmite.Grid
