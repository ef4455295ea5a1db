import DiagramScript.Statement.Instruction
import DiagramScript.Statement.Options

/-
  The grammar of one statement.

  A connector is `arrow <from> -> <to>` and options; both ends may be several words, and the
  second one stops at the first option. Any other statement is a kind, then in this order
  and each optional a position, a size and one word or quoted text of content, and options.
-/

namespace DiagramScript

/-- The content of a statement that may name it twice, as a word and as an option. -/
inductive Content where
  | resolved (text : Option String)
  | conflict (positional option : String)
  deriving DecidableEq, Repr

namespace Content

/-- An empty text counts as none. -/
def filled (text : Option String) : Option String := text.filter (! ·.isEmpty)

/-- Two equal contents are one; two different ones are a conflict. -/
def reconcile (positional option : Option String) : Content :=
  match filled positional, filled option with
  | some p, some o => if p = o then resolved (some p) else conflict p o
  | some p, none => resolved (some p)
  | none, o => resolved o

/-- The content, or the complaint of a kind whose content is given twice. -/
def settle (kind : Kind) (c : Content) : Except ParseProblem (Option String) :=
  match c with
  | resolved text => .ok text
  | conflict _ option =>
    .error (if kind.hasTextBody then .contentTwice option else .labelTwice option)

end Content

/-- Puts a text where its kind has it: into the body or onto the label. -/
def ShapeInstruction.withText (i : ShapeInstruction) (text : Option String) :
    ShapeInstruction :=
  if i.kind.hasTextBody then { i with content := text } else { i with label := text }

namespace Statement

/-- The word between the two ends of a connector. -/
def isMarker (t : Token) : Bool := t.value == "->" && !t.quoted

/-- Several tokens as one text, single spaces between them. -/
def phrase (tokens : List Token) : String :=
  Text.strip (" ".intercalate (tokens.map (·.value)))

/-- Reads the words after `arrow`. -/
def connector (words : List Token) (line : LineNumber) : Except Fault Instruction := do
  let from_ := words.takeWhile (! isMarker ·)
  let rest := (words.dropWhile (! isMarker ·)).drop 1
  if from_.isEmpty || rest.isEmpty then .error (ParseProblem.arrowForm.on line)
  let source := phrase from_
  let target := phrase (rest.takeWhile (! Options.isOption ·))
  if source.isEmpty || target.isEmpty then .error (ParseProblem.arrowEnds.on line)
  let options ← Options.collect (rest.dropWhile (! Options.isOption ·))
    connectorOptionKeys line
  let style ← Style.ofOptions options.get? line
  let style ← match options.get? "size" with
    | none => pure style
    | some value => do
      let o ← SizeOption.read value line false
      pure (o.onStyle style)
  .ok (.connector
    { source, target, label := options.get? "label", style, id := options.get? "id", line })

/-- An optional position in front of the other words. -/
def leadingPosition (words : List Token) (line : LineNumber) (allowPosition : Bool) :
    Except Fault (Option Point × List Token) :=
  match words with
  | t :: rest =>
    if !t.quoted && Measure.isPosition t.value.toList then
      if allowPosition then do
        let p ← Measure.position t.value line
        .ok (some p, rest)
      else .error ((ParseProblem.positionInBlock t.value).on line)
    else .ok (none, words)
  | [] => .ok (none, words)

/-- An optional size in front of the other words. -/
def leadingSize (words : List Token) (line : LineNumber) :
    Except Fault (Option Size × List Token) :=
  match words with
  | t :: rest =>
    if !t.quoted && Measure.isSize t.value.toList then do
      let s ← Measure.size t.value line
      .ok (some s, rest)
    else .ok (none, words)
  | [] => .ok (none, words)

/-- An optional word of content in front of the options. -/
def leadingContent (words : List Token) : Option String × List Token :=
  match words with
  | t :: rest => if Options.isOption t then (none, words) else (some t.value, rest)
  | [] => (none, words)

/-- The position option, which a layout block does not admit. -/
def positionOption (options : Options) (line : LineNumber) (allowPosition : Bool)
    (positional : Option Point) : Except Fault (Option Point) :=
  match options.get? "pos" with
  | none => .ok positional
  | some value =>
    if allowPosition then some <$> Measure.position value line
    else .error ((ParseProblem.positionInBlock value).on line)

/-- The size option, which is a tier or replaces the size among the words. -/
def sizeOption (options : Options) (line : LineNumber) (style : Style)
    (positional : Option Size) : Except Fault (Style × Option Size) :=
  match options.get? "size" with
  | none => .ok (style, positional)
  | some value => do
    let o ← SizeOption.read value line true
    .ok (o.onStyle style, o.box?.or positional)

/-- The dimensions option. -/
def dimensionsOption (options : Options) (line : LineNumber) : Except Fault (Option Size) :=
  match options.get? "dimensions" with
  | none => .ok none
  | some value => some <$> Measure.size value line

/-- Reads the words after the kind of a shape. -/
def shape (kind : Kind) (words : List Token) (line : LineNumber) (allowPosition : Bool) :
    Except Fault Instruction := do
  let (position, words) ← leadingPosition words line allowPosition
  let (size, words) ← leadingSize words line
  let (content, words) := leadingContent words
  let options ← Options.collect words shapeOptionKeys line
  let style ← Style.ofOptions options.get? line
  let position ← positionOption options line allowPosition position
  let (style, size) ← sizeOption options line style size
  let dimensions ← dimensionsOption options line
  match (Content.reconcile content (options.get? "label")).settle kind with
  | .error p => .error (p.on line)
  | .ok text =>
    let i : ShapeInstruction :=
      { kind, position, size, dimensions, style, id := options.get? "id", line }
    .ok (.shape (i.withText text))

/-- Reads the tokens of a statement. A quoted keyword is no connector. -/
def ofTokens (tokens : List Token) (line : LineNumber) (allowPosition : Bool) :
    Except Fault Instruction :=
  match tokens with
  | [] => .error (ParseProblem.noInstruction.on line)
  | t :: words =>
    if t.value = Kind.connector.keyword ∧ t.quoted = false then connector words line
    else
      match Kind.ofKeyword? t.value with
      | none | some .connector => .error ((ParseProblem.unsupportedShape t.value).on line)
      | some kind => shape kind words line allowPosition

/-- Reads the text of a statement, which has no comment. -/
def ofText (text : List Char) (line : LineNumber) (allowPosition : Bool) :
    Except Fault Instruction := do
  let tokens ← Token.ofLine text line
  ofTokens tokens line allowPosition

end Statement

end DiagramScript
