import Turmite.Error
import Turmite.Json.Parser
import Turmite.Json.Printer
import Turmite.Number.Numeral
import Turmite.Program.Basic

/-!
# Programs as JSON

A payload maps the decimal text of each state to its rules. A document holds a payload as `rules`
beside a schema version and metadata. Reading takes either, and takes any numeral for a state, so
that several keys may stand for one state; their rules are then collected. Reading and writing keep
to the limits of numerals that they are given.
-/

namespace Turmite

namespace Json

/-- The integer that a value stands for: an integer, a truth value, the integer part of a number, or
a numeral. -/
def integer? (limits : Limits) : Json → Except Error Int
  | int n => .ok n
  | bool b => .ok (if b then 1 else 0)
  | float x =>
    match Binary64.ofFloat x with
    | .nan => .error InvalidValue.integerOfNaN
    | .infinite _ => .error .overflow
    | .finite negative m e => .ok (Binary64.truncate negative m e)
  | str t =>
    match Numeral.readInt? limits t with
    | .ok n => .ok n
    | .error .malformed => .error (InvalidValue.integerLiteral t)
    | .error (.tooLong digits limit) => .error (InvalidValue.numeralTooLong digits limit)
  | _ => .error .wrongType

/-- The value of a key that an object must have. -/
def entry? (members : Members) (key : String) : Except Error Json :=
  match members.get? (Text.ofString key) with
  | some v => .ok v
  | none => .error .missingEntry

end Json

namespace Rule

/-- The JSON object of a rule. -/
def toJson (r : Rule) : Json :=
  .obj [(("writeColor" : Text), .int r.color),
    (("move" : Text), .str [.scalar r.move.symbol]),
    (("nextState" : Text), .int r.next)]

/-- The move that a value names by its symbol. -/
def move? : Json → Except Error Direction
  | .str [.scalar c] =>
    match Direction.ofSymbol? c with
    | some d => .ok d
    | none => .error InvalidArgument.unknownMove
  | _ => .error InvalidArgument.unknownMove

/-- The rule that a value describes. -/
def ofJson? (limits : Limits) : Json → Except Error Rule
  | .obj members => do
    let move ← move? (← Json.entry? members "move")
    let color ← (← Json.entry? members "writeColor").integer? limits
    let next ← (← Json.entry? members "nextState").integer? limits
    pure ⟨color, move, next⟩
  | _ => .error .wrongType

end Rule

namespace Program

/-- The version of the documents. -/
def schemaVersion : Int := 1

/-- The states with their rules, as an object. -/
def toPayload (p : Program) : Json :=
  .obj (p.entries.map fun (state, rules) => (Text.ofInt state, .arr (rules.map Rule.toJson)))

/-- The values that a value holds one after the other: the items of an array, the keys of an object,
the parts of a text. -/
def parts? : Json → Except Error (List Json)
  | .arr items => .ok items
  | .obj members => .ok (members.map fun (key, _) => .str key)
  | .str t => .ok (t.map fun c => .str [c])
  | _ => .error .wrongType

/-! ## Reading -/

section Reading

variable (limits : Limits)

/-- The state that a key denotes. -/
def stateOf? (key : Text) : Except Error Int :=
  match Numeral.readInt? limits key with
  | .ok n => .ok n
  | .error _ => .error (InvalidArgument.stateKey key)

/-- The rules of one key added to a program. -/
def addEntry? (p : Program) (key : Text) (rules : Json) : Except Error Program := do
  let state ← stateOf? limits key
  let items ← parts? rules
  items.foldlM (fun p item => do pure (p.add state (← Rule.ofJson? limits item))) p

/-- The program that the members of a payload describe. -/
def ofMembers? (members : Json.Members) : Except Error Program :=
  members.foldlM (fun p (key, rules) => addEntry? limits p key rules) empty

/-- The members of a payload, or of the `rules` of a document. -/
def payloadMembers? : Json → Except Error Json.Members
  | .obj members =>
    match Json.Members.get? members "schema_version", Json.Members.get? members "rules" with
    | some _, some (.obj rules) => .ok rules
    | some _, some _ => .error .noSuchPart
    | _, _ => .ok members
  | .arr _ => .error .noSuchPart
  | .str _ => .error .noSuchPart
  | _ => .error .wrongType

/-- The program that a payload or a document describes. -/
def ofPayload? (payload : Json) : Except Error Program := do
  ofMembers? limits (← payloadMembers? payload)

/-- The program of a document in characters. -/
def ofChars? (s : List Char) : Except Error Program := do
  ofPayload? limits (← (Json.parse? limits s).mapError Json.Fault.error)

end Reading

/-! ## Writing -/

/-- The document of a program; metadata that count as false are left empty. -/
def toDocument (p : Program) (metadata : Json) : Json :=
  .obj [(("schema_version" : Text), .int schemaVersion),
    (("metadata" : Text), if metadata.isTruthy then metadata else .obj []),
    (("rules" : Text), p.toPayload)]

/-- The characters of a document. It is refused for a state with too many digits and else for the
first number that is too long or the first bracket that lies too deep; and then if a text in it
holds a surrogate. -/
def documentChars? (limits : Limits) (p : Program) (metadata : Json) :
    Except Error (List Char) := do
  ensure (p.states.all (Json.isWritable limits)) .integerTooLong
  let document := p.toDocument metadata
  (document.ensureWritable limits limits.depth).mapError Json.Fault.error
  let t := document.indented
  match t.encodingFault? (!·.isSurrogate) with
  | some fault => .error (.unencodable fault)
  | none => pure (t.filterMap CodePoint.char?)

end Program
end Turmite
