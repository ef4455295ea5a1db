import DiagramScript.Statement.Measure
import DiagramScript.Style.Vocabulary
import DiagramScript.Token

/-
  Options `key=value` at the end of a statement.

  Options are collected first, each key keeping the value read last, and checked against
  their vocabularies afterwards, so an overridden value is never looked at.
-/

namespace DiagramScript

/-- Options by key, the ones read last in front. -/
abbrev Options := List (String × String)

namespace Options

def get? (options : Options) (key : String) : Option String := options.lookup key

/-- Whether a token has the form of an option; a quoted one never has. -/
def isOption (t : Token) : Bool := !t.quoted && t.value.toList.contains '='

/-- The key and the value of an option, without blanks around them. -/
def split (t : Token) (line : LineNumber) : Except Fault (String × String) :=
  let cs := t.value.toList
  let key := Text.stripChars (cs.takeWhile (· != '='))
  let value := Text.stripChars ((cs.dropWhile (· != '=')).drop 1)
  if key.isEmpty then .error ((ParseProblem.keyValueForm t.value).on line)
  else if value.isEmpty then
    .error ((ParseProblem.missingValue (String.ofList key) t.value).on line)
  else .ok (String.ofList key, String.ofList value)

/-- Reads the option of one token onto those read before. -/
def step (allowed : List String) (line : LineNumber) (options : Options) (t : Token) :
    Except Fault Options :=
  if isOption t then do
    let entry ← split t line
    if allowed.contains entry.1 then .ok (entry :: options)
    else .error ((ParseProblem.unsupportedOption entry.1).on line)
  else .error ((ParseProblem.unexpectedToken t.value).on line)

/-- Reads the options of some tokens, all of which have to be options. -/
def collect (tokens : List Token) (allowed : List String) (line : LineNumber) :
    Except Fault Options :=
  tokens.foldlM (step allowed line) []

end Options

/-- The keys of a shape statement. -/
def shapeOptionKeys : List String :=
  ["color", "fill", "dash", "font", "size", "dimensions", "id", "label", "pos"]

/-- The keys of a connector statement. -/
def connectorOptionKeys : List String :=
  ["color", "fill", "dash", "font", "size", "id", "label"]

namespace Style

/-- An option of a closed vocabulary. -/
def checked (key : String) (allowed : List String) (value : Option String) (line : LineNumber) :
    Except Fault (Option String) :=
  match value with
  | none => .ok none
  | some v =>
    if allowed.contains v then .ok (some v)
    else .error ((ParseProblem.styleValue key v allowed).on line)

/-- The style that options ask for, its size left out. -/
def ofOptions (get : String → Option String) (line : LineNumber) : Except Fault Style := do
  let color ← checked "color" colorNames (get "color") line
  let fill ← checked "fill" fillNames (get "fill") line
  let dash ← checked "dash" dashNames (get "dash") line
  let font ← checked "font" Font.names (get "font") line
  .ok { color, fill, dash, font }

end Style

/-- What a size option asks for: a tier of text size or a box. -/
inductive SizeOption where
  | tier (name : String)
  | box (size : Size)
  deriving DecidableEq, Repr

namespace SizeOption

/-- Reads a size option. Connectors have no box. -/
def read (value : String) (line : LineNumber) (allowBox : Bool) : Except Fault SizeOption :=
  if Tier.names.contains value then .ok (tier value)
  else if Measure.isSize value.toList then
    if allowBox then box <$> Measure.size value line
    else .error ((ParseProblem.sizeOnArrow value).on line)
  else if (Text.lowerChars value.toList).contains 'x' then
    .error ((ParseProblem.sizeBox value Tier.names).on line)
  else .error ((ParseProblem.sizeTier value Tier.names).on line)

/-- A style with the tier of a size option. -/
def onStyle (o : SizeOption) (s : Style) : Style :=
  match o with
  | tier name => { s with size := some name }
  | box _ => s

/-- The box of a size option. -/
def box? : SizeOption → Option Size
  | tier _ => none
  | box size => some size

end SizeOption

end DiagramScript
