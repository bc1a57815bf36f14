import Turmite.Figure.Drawing
import Turmite.Json.Parser
import Turmite.Path.Address
import Turmite.Procedure

/-!
# Files

A store of files, found by the components of their places below the root of all paths. There are no
links, so a pair of dots takes back a component; but, other than in the resolution of a path, every
component on the way has to be a directory, and its name not too long.
-/

namespace Turmite

/-- A table of named columns. -/
abbrev Table := List (String × List Json)

/-- What a file holds. -/
inductive FileContent where
  | text (chars : List Char)
  | array (items : Json)
  | table (columns : Table)
  | picture (drawing : Drawing)

/-- A place: components below the root of all paths. -/
abbrev Place := List Text

/-- Files and directories, and the directory that relative paths start from. -/
structure Files where
  cwd : Place
  entries : List (Place × FileContent)
  directories : List Place

namespace Files

/-- A store without files. -/
def empty (cwd : Place) : Files := ⟨cwd, [], []⟩

/-- The content of the file at a place. -/
def content? (files : Files) (place : Place) : Option FileContent :=
  (files.entries.find? (·.1 = place)).map (·.2)

/-- Whether a place is a directory: it is made, or lies above the start or a file. -/
def isDirectory (files : Files) (place : Place) : Bool :=
  place.isPrefixOf files.cwd || files.directories.any place.isPrefixOf ||
    files.entries.any fun (p, _) => place.isPrefixOf p.dropLast && place ≠ p

/-- Refuses a place below which nothing can be found. -/
def ensureDirectory (files : Files) (place : Place) (missing : Error) : Except Error Unit :=
  if files.isDirectory place then .ok ()
  else if (files.content? place).isSome then .error .notDirectory
  else .error missing

/-- The place that a path leads to, through directories. -/
def locate? (files : Files) (path : Path) : Except Error Place := do
  path.ensureUsable
  path.parts.foldlM (fun place part => do
    files.ensureDirectory place (.missingFile path.toText)
    Path.ensurePart part
    pure (Path.climb place part)) (if path.isAbsolute then [] else files.cwd)

/-- The content of the file that a path leads to. -/
def read? (files : Files) (path : Path) : Except Error FileContent := do
  let place ← files.locate? path
  match files.content? place with
  | some content => .ok content
  | none => .error (if files.isDirectory place then .isDirectory else .missingFile path.toText)

/-- Whether a path leads to a file or a directory. A path that names nothing does not; one with too
long a name cannot be looked up. -/
def exists? (files : Files) (path : Path) : Except Error Bool :=
  match files.locate? path with
  | .ok place => .ok ((files.content? place).isSome || files.isDirectory place)
  | .error .nameTooLong => .error .nameTooLong
  | .error _ => .ok false

/-- The characters of the file that a path leads to. -/
def readText? (files : Files) (path : Path) : Except Error (List Char) := do
  match ← files.read? path with
  | .text chars => .ok chars
  | _ => .error (.undecodable ⟨0, 0x93, 1, .start⟩)

/-- The value in the file that a path leads to. -/
def readJson? (files : Files) (path : Path) : Except Error Json := do
  let chars ← files.readText? path
  (Json.parse? .standard chars).mapError Json.Fault.error

/-- Makes one component of a path a directory below `above`; the place of it. -/
def makePart (isLast : Bool) (above : Place) (part : Text) : Procedure Files Place := do
  Procedure.ofExcept (Path.ensurePart part)
  let files ← get
  let place := Path.climb above part
  if files.isDirectory place then pure place
  else if (files.content? place).isSome then
    throw (if isLast then .fileExists else .notDirectory)
  else
    set { files with directories := files.directories ++ [place] }
    pure place

/-- Makes a directory at the end of a path, and the directories that lead to it. -/
def makeDirectory (path : Path) : Procedure Files Unit := do
  Procedure.ofExcept path.ensureUsable
  let files ← get
  let start := if path.isAbsolute then [] else files.cwd
  let above ← path.parts.dropLast.foldlM (makePart false) start
  let _ ← path.parts.getLast?.toList.foldlM (makePart true) above

/-- Enters a file. -/
def put (files : Files) (place : Place) (content : FileContent) : Files :=
  if (files.content? place).isSome then
    { files with entries := files.entries.map fun e => if e.1 = place then (place, content) else e }
  else { files with entries := files.entries ++ [(place, content)] }

/-- Writes a file at the end of a path, below directories that are made. -/
def write (path : Path) (content : FileContent) : Procedure Files Unit := do
  makeDirectory path.parent
  let files ← get
  let place ← Procedure.ofExcept (files.locate? path)
  Procedure.require (!files.isDirectory place) .isDirectory
  set (files.put place content)

/-! ## Tables -/

/-- Whether a path is that of a file or a directory. What begins like an address is not looked up.
-/
def isLocal? (files : Files) (path : Path) : Except Error Bool :=
  if Address.resembles path.toText then .ok false else files.exists? path

/-- The text of the path of the file where a table is that goes by a path: the path itself if
something stands there, else the file of the address that the path spells, if it spells one. -/
def tablePath? (files : Files) (path : Path) : Except Error Text := do
  let t := path.toText
  if ← files.isLocal? path then pure t
  else
    match Address.ofText? t with
    | some address => address.file?
    | none =>
      Address.ensureFile t
      pure t

/-- The place where a file can be written that a text names, below directories that are there. A
text that ends in a slash names a directory. -/
def writablePlace? (files : Files) (t : Text) : Except Error Place := do
  ensure (!t.isEmpty) (.missingFile t)
  let place ← files.locate? (Path.ofText t)
  let last := (t.split (.scalar '/')).getLastD []
  ensure (!last.isEmpty && !files.isDirectory place) .isDirectory
  if last = ("." : Text) then files.ensureDirectory place (.missingFile t)
  pure place

/-- Writes a table to the file that goes by a path, which holds no surrogate. -/
def writeTable (path : Path) (columns : Table) : Procedure Files Unit := do
  if let some fault := path.toText.encodingFault? (!·.isSurrogate) then
    throw (.unencodable fault)
  let files ← get
  let t ← Procedure.ofExcept (files.tablePath? path)
  let place ← Procedure.ofExcept (files.writablePlace? t)
  set (files.put place (.table columns))

/-- The table in the file that goes by a path. -/
def readTable? (files : Files) (path : Path) : Except Error Table := do
  match ← files.read? (Path.ofText (← files.tablePath? path)) with
  | .table columns => .ok columns
  | _ => .error .unreadableArray

/-- The paths, from the start, of the files in a store that are not in an earlier one, in order. -/
def newSince (earlier files : Files) : List Text :=
  let added := files.entries.filter fun (place, _) =>
    (earlier.content? place).isNone && files.cwd.isPrefixOf place
  (added.map fun (place, _) =>
    Text.join ("/" : Text) (place.drop files.cwd.length)).mergeSort Text.le

end Files
end Turmite
