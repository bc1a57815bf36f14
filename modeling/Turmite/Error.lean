import Turmite.Geometry.Point
import Turmite.Json.Display
import Turmite.Text.Encoding
import Turmite.Text.Utf8

/-!
# Errors

Why an operation was refused. An argument outside what the core accepts, a setting or a text
without a usable value, and conditions that carry no text of their own are told apart; the wording
of each stands in one function.
-/

namespace Turmite

/-- An argument outside what the core accepts. -/
inductive InvalidArgument where
  | sizesNotIntegers
  | sizesTooSmall
  | scaleTooSmall
  | canvasTooSmall
  | stateOffsetNegative
  | coordinateNotInteger (value : Json)
  | pointFormat (text : Text)
  | pointNotIntegers (text : Text)
  | shapeMismatch (shape : List Nat) (cols rows : Json)
  | cellsNotPlane
  | negativeColors
  | negativeColor
  | emptyPalette
  | hexLength (text : Text)
  | hexDigits (text : Text)
  | unknownLayout
  | imageTooSmall
  | imageTooShort (held : Nat) (expected : Json)
  | unknownHeading (value : Json)
  | notAPoint (role : String) (value : Json)
  | headingUnreachable (heading : Direction) (cell : Point)
  | emptyTour
  | stateKey (text : Text)
  | unknownMove
  | missingCells (path : Text)
  | unknownMode

/-- A setting out of range, or a text without a value. -/
inductive InvalidValue where
  | greedyConstant
  | twoOptConstant
  | noSizes
  | sizeTooSmall
  | iterationsTooFew
  | gridSizeTooSmall
  | delayNegative
  | pointCountNegative
  | maxStepsNegative
  | noResults
  | noSizesGiven
  | sizesNotIntegers
  | sizeGivenTooSmall
  | schemaVersion (version : Int)
  | pathEscapes (path : Text)
  | unknownTheme
  | notBoolean (key : Text)
  | notInteger (key : Text)
  | fraction (key : Text) (value : Float)
  | notPair (key : Text)
  | integerLiteral (text : Text)
  | numeralTooLong (digits limit : Nat)
  | floatLiteral (text : Text)
  | integerOfNaN
  | gridMissing
  | unknownHeadingName (text : Text)
  | channelNotInteger (kind : String)

/-- Why an operation was refused. -/
inductive Error where
  | invalidArgument (cause : InvalidArgument)
  | invalidValue (cause : InvalidValue)
  | uninitialized
  | unreadableArray
  | unknownSymbol
  | overflow
  | divisionByZero
  | missingEntry
  | tooFewParts
  | wrongType
  | noSuchPart
  | malformedJson
  | integerTooLong
  | tooDeep
  | gridTooLarge
  | outOfMemory
  | unencodable (fault : EncodingFault)
  | undecodable (fault : DecodingFault)
  | missingFile (path : Text)
  | isDirectory
  | notDirectory
  | fileExists
  | nullInPath
  | nameTooLong
  | foreignAddress
  | storeUnavailable
  | endOfFile
  | badArchive
  | newerArchive
  | misfitColumn
  | emptyRange

/-- The decimal text of an integer. -/
def Text.ofInt (n : Int) : Text := (integerText n).map .scalar

/-- The decimal text of a natural number. -/
def Text.ofNat (n : Nat) : Text := (digitText n).map .scalar

/-- Names with a comma between them. -/
def Text.listing (names : List Text) : Text := Text.join (", " : Text) names

/-- The shape of an array: its extents in parentheses, a lone one followed by a comma. -/
def Text.shape : List Nat → Text
  | [n] => .scalar '(' :: ofNat n ++ (",)" : Text)
  | extents => .scalar '(' :: listing (extents.map ofNat) ++ [.scalar ')']

/-- The names of the headings. -/
def headingNames : Text := Text.listing (Direction.headings.map fun d => Text.ofString d.name)

/-- The symbols of the moves. -/
def moveSymbols : Text := Text.listing (Direction.moves.map fun d => [.scalar d.symbol])

namespace InvalidArgument

/-- The wording of a refused argument. -/
def message : InvalidArgument → Text
  | sizesNotIntegers => ("grid dimensions must be integers" : Text)
  | sizesTooSmall => ("grid dimensions must be >= 1" : Text)
  | scaleTooSmall => ("scale must be >= 1" : Text)
  | canvasTooSmall => ("canvas dimensions must be >= 1" : Text)
  | stateOffsetNegative => ("state_offset must be >= 0" : Text)
  | coordinateNotInteger v => ("point coordinates must be integers, got " : Text) ++ v.display
  | pointFormat t => ("point must use X,Y format, got " : Text) ++ t.quoted
  | pointNotIntegers t => ("point must use integer X,Y values, got " : Text) ++ t.quoted
  | shapeMismatch shape cols rows =>
    ("cells shape " : Text) ++ Text.shape shape ++ (" does not match (" : Text) ++ cols.display ++
      (", " : Text) ++ rows.display ++ (")" : Text)
  | cellsNotPlane => ("cells must be a 2D array" : Text)
  | negativeColors => ("color indices must be >= 0" : Text)
  | negativeColor => ("color index must be >= 0" : Text)
  | emptyPalette => ("palette must not be empty" : Text)
  | hexLength t => ("hex color must have six digits, got " : Text) ++ t.quoted
  | hexDigits t => ("invalid hex color " : Text) ++ t.quoted
  | unknownLayout => ("color_type must be one of RGBA, RGB, ABGR" : Text)
  | imageTooSmall => ("image dimensions must be >= 1" : Text)
  | imageTooShort held expected =>
    ("image_data holds " : Text) ++ Text.ofNat held ++ (" values, expected " : Text) ++
      expected.display
  | unknownHeading v =>
    ("heading must be one of " : Text) ++ headingNames ++ (", got " : Text) ++ v.display
  | notAPoint role v => Text.ofString role ++ (" must be a Point, got " : Text) ++ v.display
  | headingUnreachable heading cell =>
    ("heading " : Text) ++ Text.ofString heading.name ++
      (" cannot be reached at edge cell (" : Text) ++ Text.ofInt cell.x ++ (", " : Text) ++
      Text.ofInt cell.y ++ (") of a non-looping grid" : Text)
  | emptyTour => ("tour must contain at least the end point" : Text)
  | stateKey t => ("state key must be an integer, got " : Text) ++ t.quoted
  | unknownMove => ("move must be one of " : Text) ++ moveSymbols
  | missingCells path => ("grid file has no 'cells' entry: " : Text) ++ path
  | unknownMode => ("two-opt-mode must be one of raw, detailed" : Text)

end InvalidArgument

namespace InvalidValue

/-- The most that is shown of a text that is no integer, quotes and escapes included. -/
def longestQuote : Nat := 200

/-- The wording of a refused value. -/
def message : InvalidValue → Text
  | greedyConstant => ("greedy_constant must be > 0" : Text)
  | twoOptConstant => ("two_opt_constant must be > 0" : Text)
  | noSizes => ("test_sizes must not be empty" : Text)
  | sizeTooSmall => ("test_sizes values must be >= 1" : Text)
  | iterationsTooFew => ("iterations must be >= 1" : Text)
  | gridSizeTooSmall => ("grid_size must be >= 2" : Text)
  | delayNegative => ("delay_seconds must be >= 0" : Text)
  | pointCountNegative => ("num_points must be >= 0" : Text)
  | maxStepsNegative => ("max_steps must be >= 0" : Text)
  | noResults => ("no calibration results; run a calibration test first" : Text)
  | noSizesGiven => ("sizes must not be empty" : Text)
  | sizesNotIntegers => ("sizes must contain integers" : Text)
  | sizeGivenTooSmall => ("sizes values must be >= 1" : Text)
  | schemaVersion version =>
    ("unsupported calibration schema_version " : Text) ++ Text.ofInt version ++
      ("; expected 1" : Text)
  | pathEscapes path => ("Path escapes base_dir: " : Text) ++ path
  | unknownTheme => ("theme must be one of default, paper" : Text)
  | notBoolean key => key ++ (" must be a boolean value" : Text)
  | notInteger key => key ++ (" must be an integer value" : Text)
  | fraction key x =>
    key ++ (" must be an integer value, got " : Text) ++ (Json.float x).display
  | notPair key => key ++ (" must be X,Y or a two-element list" : Text)
  | integerLiteral t =>
    ("invalid literal for int() with base 10: " : Text) ++ t.quoted.take longestQuote
  | numeralTooLong digits limit =>
    ("Exceeds the limit (" : Text) ++ Text.ofNat limit ++
      (" digits) for integer string conversion: value has " : Text) ++ Text.ofNat digits ++
      (" digits; use sys.set_int_max_str_digits() to increase the limit" : Text)
  | floatLiteral t => ("could not convert string to float: " : Text) ++ t.quoted
  | integerOfNaN => ("cannot convert float NaN to integer" : Text)
  | gridMissing => ("a grid file is required (--grid or 'grid' in config)" : Text)
  | unknownHeadingName t => t.quoted ++ (" is not a valid Heading" : Text)
  | channelNotInteger kind =>
    ("Unknown format code 'X' for object of type '" : Text) ++ Text.ofString kind ++ ("'" : Text)

end InvalidValue

namespace EncodingFault

/-- The wording of a text that cannot be written. -/
def message (f : EncodingFault) : Text :=
  let what : Text :=
    if f.first = f.last then
      (" '" : Text) ++ f.codePoint.numericEscape.map .scalar ++ ("' in position " : Text) ++
        Text.ofNat f.first
    else
      ("s in position " : Text) ++ Text.ofNat f.first ++ ("-" : Text) ++ Text.ofNat f.last
  ("'utf-8' codec can't encode character" : Text) ++ what ++ (": surrogates not allowed" : Text)

end EncodingFault

namespace DecodingFault

/-- The wording of bytes that are no character. -/
def message (f : DecodingFault) : Text :=
  let what : Text :=
    if f.count = 1 then
      (" 0x" : Text) ++ (hexDigits 2 f.byte.toNat).map .scalar ++ (" in position " : Text) ++
        Text.ofNat f.place
    else
      ("s in position " : Text) ++ Text.ofNat f.place ++ ("-" : Text) ++
        Text.ofNat (f.place + f.count - 1)
  let why : Text :=
    match f.cause with
    | .start => ("invalid start byte" : Text)
    | .continuation => ("invalid continuation byte" : Text)
    | .ending => ("unexpected end of data" : Text)
  ("'utf-8' codec can't decode byte" : Text) ++ what ++ (": " : Text) ++ why

end DecodingFault

/-- The error of a text that denotes no value. -/
def Json.Fault.error : Json.Fault → Error
  | malformed => .malformedJson
  | numberTooLong => .integerTooLong
  | tooDeep => .tooDeep

namespace Error

/-- What stands for the details of an error that are not given. -/
def withoutDetails : Text := ("<value error>" : Text)

/-- The wording of an error, empty where it has none. The details of a text that is no JSON, of an
array that cannot be read and of a path that holds NUL are not given. -/
def message : Error → Text
  | invalidArgument cause => cause.message
  | invalidValue cause => cause.message
  | uninitialized => ("grid used before init()" : Text)
  | unreadableArray => withoutDetails
  | integerTooLong => withoutDetails
  | nullInPath => withoutDetails
  | malformedJson => ("<json error>" : Text)
  | unencodable fault => fault.message
  | undecodable fault => fault.message
  | missingFile path => ("File not found: " : Text) ++ path
  | _ => []

end Error

/-- Refuses with `e` unless a condition holds. -/
def ensure (condition : Bool) (e : Error) : Except Error Unit :=
  if condition then .ok () else .error e

instance : Coe InvalidArgument Error := ⟨.invalidArgument⟩

instance : Coe InvalidValue Error := ⟨.invalidValue⟩

end Turmite
