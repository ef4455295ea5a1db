import DiagramScript.Geometry.Point
import DiagramScript.LineNumber
import DiagramScript.Text.Quoted

/-
  What can go wrong, and how it is reported.

  A fault is a cause: a statement that does not follow the grammar (`ParseProblem`), a
  block that cannot be laid out (`LayoutProblem`), an arrow end that names nothing, a page
  that would contradict itself (`DocumentProblem`), a setting out of range, arithmetic
  without a result, an image that cannot be drawn, or a file that is of no use. Its wording
  is one function per type (`message`, or `message?` where some have none), and the token it
  blames is read off the cause (`ParseProblem.token?`).
-/

namespace DiagramScript

/-- Why a statement or an instruction record is refused. -/
inductive ParseProblem where
  | unterminatedQuote
  | positionForm (text : String)
  | sizeForm (text : String)
  | sizeNotPositive (text : String)
  | number (what text : String)
  | keyValueForm (text : String)
  | missingValue (key text : String)
  | unexpectedToken (text : String)
  | unsupportedOption (key : String)
  | styleValue (key value : String) (allowed : List String)
  | sizeOnArrow (value : String)
  | sizeBox (value : String) (tiers : List String)
  | sizeTier (value : String) (tiers : List String)
  | arrowForm
  | arrowEnds
  | unsupportedShape (keyword : String)
  | positionInBlock (text : String)
  | contentTwice (option : String)
  | labelTwice (option : String)
  | noInstruction
  | stackForm
  | gridForm
  | gridColumns (text : String)
  | nestedBlock
  | arrowInBlock (mode : String)
  | arrowHasNoBox
  | unterminatedBlock (mode : String)
  | notAList
  | notJson
  | notJsonArray
  | recordNotObject (index : Nat)
  | recordWithoutKind (index : Nat)
  | recordShape (shape : String) (index : Nat)
  | recordGeo (geo : String) (index : Nat)
  | recordArrowEnds (index : Nat)
  | recordPosition (index : Nat)
  | recordSize (index : Nat)
  | recordSizeNotPositive (index : Nat)
  | recordField (path : String)
  | inRecord (index : Nat) (cause : ParseProblem)
  deriving DecidableEq, Repr

namespace ParseProblem

/-- Names separated by commas. -/
def listed (names : List String) : String := ", ".intercalate names

/-- The wording of a cause. -/
def message : ParseProblem → String
  | unterminatedQuote => "Unterminated quote"
  | positionForm t => "Invalid position \"" ++ t ++ "\". Expected format: x,y"
  | sizeForm t => "Invalid size \"" ++ t ++ "\". Expected format: WxH"
  | sizeNotPositive t =>
    "Invalid size \"" ++ t ++ "\". Width and height must be positive."
  | number what t => "Invalid " ++ what ++ ": \"" ++ t ++ "\""
  | keyValueForm t => "Expected key=value token: \"" ++ t ++ "\""
  | missingValue key _ => "Missing value for \"" ++ key ++ "\""
  | unexpectedToken t => "Unexpected token: \"" ++ t ++ "\""
  | unsupportedOption key => "Unsupported option \"" ++ key ++ "\""
  | styleValue key v allowed =>
    "Invalid " ++ key ++ ": \"" ++ v ++ "\". Allowed: " ++ listed allowed
  | sizeOnArrow v => "Size \"" ++ v ++ "\" is not supported for arrows"
  | sizeBox v tiers =>
    "Invalid size \"" ++ v ++ "\". Use WxH or one of " ++ listed tiers ++ "."
  | sizeTier v tiers => "Invalid size: \"" ++ v ++ "\". Allowed: " ++ listed tiers
  | arrowForm => "Invalid arrow syntax; expected: arrow <from> -> <to>"
  | arrowEnds => "Invalid arrow endpoints"
  | unsupportedShape k => "Unsupported shape: \"" ++ k ++ "\""
  | positionInBlock _ => "Position is not allowed inside layout blocks"
  | contentTwice _ => "Text content was provided twice"
  | labelTwice _ => "Label was provided twice"
  | noInstruction => "Expected a shape instruction"
  | stackForm => "Invalid stack syntax"
  | gridForm => "Invalid grid syntax"
  | gridColumns _ => "Invalid grid cols"
  | nestedBlock => "Nested layout blocks are not supported"
  | arrowInBlock mode => "Arrow instructions are not supported in " ++ mode ++ " blocks"
  | arrowHasNoBox => "Arrow instructions are not supported in stack/grid blocks"
  | unterminatedBlock mode => "Unterminated " ++ mode ++ " block"
  | notAList => "Expected a list of shape instructions"
  | notJson => "Invalid JSON instruction input"
  | notJsonArray => "JSON input must be an array of shape instructions"
  | recordNotObject i => "Instruction at index " ++ toString i ++ " must be an object"
  | recordWithoutKind i =>
    "Instruction at index " ++ toString i ++ " is missing a supported shape/type"
  | recordShape s i =>
    "Unsupported shape \"" ++ s ++ "\" at instruction index " ++ toString i
  | recordGeo g i =>
    "Unsupported geo style \"" ++ g ++ "\" at instruction index " ++ toString i
  | recordArrowEnds i =>
    "Arrow instruction at index " ++ toString i ++ " is missing \"from\" or \"to\""
  | recordPosition i =>
    "Instruction at index " ++ toString i ++ " must provide both x and y"
  | recordSize i => "Instruction at index " ++ toString i ++ " must provide both w and h"
  | recordSizeNotPositive i =>
    "Instruction at index " ++ toString i ++ " needs a positive w and h"
  | recordField path => "Invalid " ++ path
  | inRecord i cause => "Instruction at index " ++ toString i ++ ": " ++ cause.message

/-- The token that a cause blames. -/
def token? : ParseProblem → Option String
  | positionForm t | sizeForm t | sizeNotPositive t | number _ t | keyValueForm t
  | missingValue _ t | unexpectedToken t | unsupportedOption t | styleValue _ t _
  | sizeOnArrow t | sizeBox t _ | sizeTier t _ | unsupportedShape t | positionInBlock t
  | contentTwice t | labelTwice t | gridColumns t | recordShape t _ => some t
  | inRecord _ cause => cause.token?
  | _ => none

/-- The record that a cause of its own names. -/
def index? : ParseProblem → Option Nat
  | recordNotObject i | recordWithoutKind i | recordShape _ i | recordGeo _ i
  | recordArrowEnds i | recordPosition i | recordSize i | recordSizeNotPositive i
  | inRecord i _ => some i
  | _ => none

end ParseProblem

/-- Why a block cannot be laid out. -/
inductive LayoutProblem where
  | dimension (what : String) (value : Scalar)
  | gap (value : Scalar)
  | origin (point : Point)
  | direction (shown : String)
  | columns (shown : String)
  deriving DecidableEq, Repr

/-- The wording of a layout problem. -/
def LayoutProblem.message : LayoutProblem → String
  | dimension what v =>
    "Invalid " ++ what ++ ": " ++ v.write ++ ". Must be a positive number."
  | gap v => "Invalid gap: " ++ v.write ++ ". Must be zero or greater."
  | origin p => "Invalid origin: (" ++ p.x.write ++ ", " ++ p.y.write ++ ")"
  | direction d => "Invalid direction: " ++ d ++ ". Must be vertical or horizontal."
  | columns c => "Invalid cols: " ++ c ++ ". Must be a positive integer."

/-- Why a page is refused. -/
inductive DocumentProblem where
  | duplicateId (id : String)
  | unknownShape (id : String)
  | notAReordering
  | bindingWithout (key : String)
  | shapeNotObject (index : Nat)
  | shapeWithoutType (index : Nat)
  | shapeField (index : Nat) (key : String)
  deriving DecidableEq, Repr

/-- The wording of a problem of a page. -/
def DocumentProblem.message : DocumentProblem → String
  | duplicateId id => "Duplicate shape id \"" ++ id ++ "\""
  | unknownShape id => "Cannot bind unknown shape \"" ++ id ++ "\""
  | notAReordering => "Reordered shapes must match the page shapes"
  | bindingWithout key => "Binding record is missing '" ++ key ++ "'"
  | shapeNotObject i => "Shape record " ++ toString i ++ " must be an object"
  | shapeWithoutType i => "Shape record " ++ toString i ++ " is missing a type"
  | shapeField i key =>
    "Shape record " ++ toString i ++ " has an invalid \"" ++ key ++ "\""

/-- Which setting is out of range. -/
inductive SettingProblem where
  | measure (name : String)
  | scale
  | background
  | logLevel (text : String)
  | logFormat (text : String)
  deriving DecidableEq, Repr

/-- The wording of a problem of a setting. -/
def SettingProblem.message : SettingProblem → String
  | measure name => name ++ " must be a finite number >= 0"
  | scale => "scale must be a finite number > 0"
  | background => "background must be a non-empty color string"
  | logLevel text => "Unknown log level: " ++ Text.quoted text
  | logFormat text => "Invalid format '" ++ text ++ "' for '%' style"

/-- Why a file cannot be read or written: it or a directory on the way is not there, it is
a directory, a file stands where a directory has to be, no file can have its name, or it
holds no text. -/
inductive FileProblem where
  | missing
  | directory
  | notDirectory
  | tooLong
  | nullCharacter
  /-- Halves of pairs that cannot be stored, from one place in the name to another. -/
  | halves (code first last : Nat)
  | notText
  deriving DecidableEq, Repr

/-- The wording of a problem with a file; what the system refuses has none. -/
def FileProblem.message? : FileProblem → Option String
  | nullCharacter => some "embedded null byte"
  | halves code first last =>
    let which :=
      if first = last then
        "character '" ++ String.ofList (Text.escapeCode code) ++ "' in position " ++
          toString first
      else "characters in position " ++ toString first ++ "-" ++ toString last
    some ("'utf-8' codec can't encode " ++ which ++ ": surrogates not allowed")
  | notText =>
    some "'utf-8' codec can't decode byte 0x89 in position 0: invalid start byte"
  | missing | directory | notDirectory | tooLong => none

/-- Why an image cannot be drawn: a number in it does not fit the word that it is kept in, or
it is wider than any image in memory. -/
inductive ImageProblem where
  | pastWord
  | pastLong
  | pastLongLong
  | tooWide
  deriving DecidableEq, Repr

/-- The wording of a problem with an image; too little memory has none. -/
def ImageProblem.message? : ImageProblem → Option String
  | pastWord => some "signed integer is greater than maximum"
  | pastLong => some "Python int too large to convert to C long"
  | pastLongLong => some "int too big to convert"
  | tooWide => none

/-- Arithmetic that has no result. -/
inductive ArithmeticProblem where
  | wholeTooLarge
  | quotientTooLarge
  | zeroDivisor
  | infiniteToWhole
  | nanToWhole
  | tooManyDigits (count : Nat)
  | tooLongToWrite
  deriving DecidableEq, Repr

/-- The most digits of a whole number that is read or written. -/
def digitLimit : Nat := 4300

/-- The wording of arithmetic without a result. -/
def ArithmeticProblem.message : ArithmeticProblem → String
  | wholeTooLarge => "int too large to convert to float"
  | quotientTooLarge => "integer division result too large for a float"
  | zeroDivisor => "float division by zero"
  | infiniteToWhole => "cannot convert float infinity to integer"
  | nanToWhole => "cannot convert float NaN to integer"
  | tooManyDigits n =>
    "Exceeds the limit (" ++ toString digitLimit ++
      " digits) for integer string conversion: value has " ++ toString n ++
      " digits; use sys.set_int_max_str_digits() to increase the limit"
  | tooLongToWrite =>
    "Exceeds the limit (" ++ toString digitLimit ++
      " digits) for integer string conversion; use sys.set_int_max_str_digits() to " ++
      "increase the limit"

/-- Everything that can go wrong. `tooDeep` is a nesting of lists and objects that the reader
has no room for. `outOfRange` is a place past the end of a list: the row of a box in a
grid with so many columns that it has no row, or the header of a block that would start
past the last line. `notText` is a value of another kind where a text is asked for by what
texts can do, and `unusableValue` a value of a kind nothing can be done with. These four
have no wording. -/
inductive Fault where
  | parse (problem : ParseProblem) (line : LineNumber)
  | layout (problem : LayoutProblem) (block : LineNumber)
  | resolution (token : String) (line : LineNumber)
  | document (problem : DocumentProblem) (line : LineNumber)
  | setting (problem : SettingProblem)
  | arithmetic (problem : ArithmeticProblem)
  | image (problem : ImageProblem)
  | file (problem : FileProblem)
  | tooDeep
  | outOfRange
  | notText
  | unusableValue
  deriving DecidableEq, Repr

namespace Fault

/-- The wording of a fault, if it has one. -/
def message? : Fault → Option String
  | parse p line => some (line.onMessage p.message)
  | layout p none => some p.message
  | layout p (some line) => some ("Line " ++ toString line ++ ": " ++ p.message)
  | resolution token line =>
    some (line.onMessage ("Unable to resolve arrow target \"" ++ token ++
      "\" to a coordinate or shape"))
  | document p line => some (line.onMessage p.message)
  | setting p => some p.message
  | arithmetic p => some p.message
  | image p => p.message?
  | file p => p.message?
  | tooDeep | outOfRange | notText | unusableValue => none

/-- The line that a fault carries. -/
def line? : Fault → LineNumber
  | parse _ line => line
  | resolution _ line => line
  | document _ line => line
  | _ => none

/-- The token that a fault carries. -/
def token? : Fault → Option String
  | parse p _ => p.token?
  | resolution token _ => some token
  | _ => none

/-- The record that a fault names. -/
def index? : Fault → Option Nat
  | parse p _ => p.index?
  | _ => none

end Fault

/-- A refused statement with its line. -/
def ParseProblem.on (p : ParseProblem) (line : LineNumber) : Fault := .parse p line

end DiagramScript
