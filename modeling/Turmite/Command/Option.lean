import Turmite.Error
import Turmite.Number.Numeral
import Turmite.Path

/-!
# Options

The arguments of a command are options, each with one or two spellings. An option may set a truth
value, have an opposite `no-`, or take a value, as the next argument or after an equals sign. A
beginning of a spelling will do if no other spelling begins with it. What is neither an option nor
the value of one is refused in the end.

Arguments are read as argparse 3.11.8 reads them, which differs in two points from argparse 3.11.10.
A pair of hyphens after an equals sign stands for no value and makes an empty list (`attached?`),
where the later release takes it as the value. And letters after a short spelling without a value
have to repeat it (`unread`), where the later release leaves them over.
-/

namespace Turmite

/-- The values that an option takes. -/
inductive ValueKind where
  | text
  | path
  | integer
  | decimal
  | choice (names : List Text)

/-- What an option does. -/
inductive OptionKind where
  | help
  | flag
  | toggle
  | value (kind : ValueKind)

/-- An option with the key of its setting. -/
structure OptionSpec where
  key : String
  kind : OptionKind

/-- Arguments that are not accepted. -/
inductive UsageError where
  | ambiguous (argument : Text) (spellings : List Text)
  | valueExpected (label : Text)
  | valueIgnored (label value : Text)
  | notInteger (label value : Text)
  | notDecimal (label value : Text)
  | notChoice (label value : Text) (names : List Text)
  | unrecognized (arguments : List Text)

/-- The wording of a complaint about an option. -/
def UsageError.about (label complaint : Text) : Text :=
  ("argument " : Text) ++ label ++ (": " : Text) ++ complaint

/-- The wording of refused arguments. -/
def UsageError.message : UsageError → Text
  | ambiguous argument spellings =>
    ("ambiguous option: " : Text) ++ argument ++ (" could match " : Text) ++ Text.listing spellings
  | valueExpected label => about label ("expected one argument" : Text)
  | valueIgnored label value => about label (("ignored explicit argument " : Text) ++ value.quoted)
  | notInteger label value => about label (("invalid int value: " : Text) ++ value.quoted)
  | notDecimal label value => about label (("invalid float value: " : Text) ++ value.quoted)
  | notChoice label value names =>
    about label (("invalid choice: " : Text) ++ value.quoted ++ (" (choose from " : Text) ++
      Text.listing (names.map Text.quoted) ++ (")" : Text))
  | unrecognized arguments =>
    ("unrecognized arguments: " : Text) ++ Text.join (" " : Text) arguments

/-! ## Spellings -/

/-- A spelling of an option, and the truth value that it sets. -/
structure OptionForm where
  spelling : Text
  option : OptionSpec
  positive : Bool

namespace OptionSpec

/-- The name of an option: its key with hyphens. -/
def name (o : OptionSpec) : Text :=
  (Text.ofString o.key).map fun c => if c = .scalar '_' then .scalar '-' else c

/-- The spellings of an option. -/
def forms (o : OptionSpec) : List OptionForm :=
  let plain : OptionForm := ⟨("--" : Text) ++ o.name, o, true⟩
  match o.kind with
  | .help => [⟨("-h" : Text), o, true⟩, plain]
  | .toggle => [plain, ⟨("--no-" : Text) ++ o.name, o, false⟩]
  | _ => [plain]

/-- The spellings of an option with a stroke between them. -/
def label (o : OptionSpec) : Text := Text.join ("/" : Text) (o.forms.map (·.spelling))

end OptionSpec

/-- The options of a command. -/
abbrev OptionTable := List OptionSpec

/-- The spellings of all options, those of help first. -/
def OptionTable.forms (options : OptionTable) : List OptionForm :=
  ((⟨"help", .help⟩ : OptionSpec) :: options).flatMap OptionSpec.forms

/-! ## Arguments one by one -/

/-- What an argument is. -/
inductive Argument where
  | operand (text : Text)
  | unknown (text : Text)
  | option (form : OptionForm) (value : Option Text)

namespace Argument

/-- A text in two at the first equals sign. -/
def splitEquals : Text → Text × Option Text
  | [] => ([], none)
  | c :: r =>
    if c = .scalar '=' then ([], some r)
    else
      let (before, after) := splitEquals r
      (c :: before, after)

/-- Whether a text has the form of a negative number, before a line end if there is one. -/
def isNegativeNumber : Text → Bool
  | .scalar '-' :: r =>
    let (whole, rest) := r.span (·.digit?.isSome)
    match rest with
    | [] => !whole.isEmpty
    | [.scalar '\n'] => !whole.isEmpty
    | .scalar '.' :: part =>
      let (digits, rest) := part.span (·.digit?.isSome)
      !digits.isEmpty && (rest.isEmpty || rest = [.scalar '\n'])
    | _ => false
  | _ => false

/-- An argument that is no option: with a blank in it, or a negative number, it may be a value. -/
def ofOther (t : Text) : Argument :=
  if isNegativeNumber t || t.contains (.scalar ' ') then operand t else unknown t

/-- The options whose spellings begin as a text does, with what is attached to it. A short spelling
has what follows its letter attached. -/
def candidates (forms : List OptionForm) : Text → List (OptionForm × Option Text)
  | .scalar '-' :: .scalar '-' :: r =>
    let (beginning, value) := splitEquals (.scalar '-' :: .scalar '-' :: r)
    (forms.filter fun f => beginning.isPrefixOf f.spelling).map (·, value)
  | .scalar '-' :: c :: r =>
    (forms.filter fun f => f.spelling = [.scalar '-', c]).map (·, some r)
  | _ => []

/-- The meaning of an argument before a pair of hyphens. -/
def ofText? (forms : List OptionForm) (t : Text) : Except UsageError Argument :=
  match t with
  | .scalar '-' :: _ :: _ =>
    match forms.find? (·.spelling = t) with
    | some f => .ok (option f none)
    | none =>
      let (beginning, value) := splitEquals t
      match value, forms.find? (·.spelling = beginning) with
      | some v, some f => .ok (option f (some v))
      | _, _ =>
        match candidates forms t with
        | [] => .ok (ofOther t)
        | [(f, value)] => .ok (option f value)
        | several => .error (.ambiguous t (several.map (·.1.spelling)))
  | _ => .ok (operand t)

/-- The meanings of all arguments. After a pair of hyphens there are no options. -/
def readAll? (forms : List OptionForm) : List Text → Except UsageError (List Argument)
  | [] => .ok []
  | t :: r =>
    if t = ("--" : Text) then .ok (unknown t :: r.map operand)
    else do
      let first ← ofText? forms t
      let others ← readAll? forms r
      pure (first :: others)

end Argument

/-! ## Settings -/

/-- The value of an option from its text. -/
def ValueKind.read? (kind : ValueKind) (label t : Text) : Except UsageError Json :=
  match kind with
  | .text => .ok (.str t)
  | .path => .ok (.str (Path.ofText t).toText)
  | .integer =>
    match Numeral.readInt? .standard t with
    | .ok n => .ok (.int n)
    | .error _ => .error (.notInteger label t)
  | .decimal =>
    match Numeral.readFloat? t with
    | some x => .ok (.float x)
    | none => .error (.notDecimal label t)
  | .choice names => if t ∈ names then .ok (.str t) else .error (.notChoice label t names)

/-- The settings made by options, and the arguments that are left over. -/
structure Usage where
  settings : Json.Members
  helpAsked : Bool
  left : List Text

namespace Usage

/-- Nothing set. -/
def empty : Usage := ⟨[], false, []⟩

/-- The usage with one setting more. -/
def set (u : Usage) (o : OptionSpec) (v : Json) : Usage :=
  { u with settings := Json.Members.insert o.key v u.settings }

/-- The usage with an argument left over. -/
def leave (u : Usage) (t : Text) : Usage := { u with left := u.left ++ [t] }

/-- What is left of a text attached to an option without a value: a short spelling may be repeated
by its letter. What is left is refused at once, as in argparse 3.11.8. -/
def unread (f : OptionForm) (t : Text) : Text :=
  match f.spelling with
  | [_, letter] => t.dropWhile (· = letter)
  | _ => t

/-- The value of an option from a text after an equals sign. A pair of hyphens is taken out of the
values before they are read, as in argparse 3.11.8. -/
def attached? (kind : ValueKind) (label t : Text) : Except UsageError Json :=
  if t = ("--" : Text) then .ok (.arr []) else kind.read? label t

/-- The arguments taken from left to right, up to a demand for help. -/
def take (u : Usage) : List Argument → Except UsageError Usage
  | [] => .ok u
  | .operand t :: r => take (u.leave t) r
  | .unknown t :: r => take (u.leave t) r
  | .option f value :: r =>
    match f.option.kind, value with
    | .value kind, some t => do take (u.set f.option (← attached? kind f.option.label t)) r
    | .value kind, none =>
      match r with
      | .operand t :: r => do take (u.set f.option (← kind.read? f.option.label t)) r
      | _ => .error (.valueExpected f.option.label)
    | kind, value =>
      let ignored := value.filter fun t => t.isEmpty || !(unread f t).isEmpty
      match ignored, kind with
      | some t, _ => .error (.valueIgnored f.option.label (unread f t))
      | none, .help => .ok { u with helpAsked := true }
      | none, _ => take (u.set f.option (.bool f.positive)) r

/-- The settings that arguments make. -/
def ofArguments? (options : OptionTable) (arguments : List Text) : Except UsageError Usage := do
  let usage ← take empty (← Argument.readAll? options.forms arguments)
  if usage.helpAsked || usage.left.isEmpty then pure usage
  else .error (.unrecognized usage.left)

/-- The value of an option, null unless it is set. -/
def get (u : Usage) (key : String) : Json := (Json.Members.get? u.settings key).getD .null

end Usage
end Turmite
