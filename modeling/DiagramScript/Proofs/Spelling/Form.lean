import DiagramScript.Proofs.Lookup
import DiagramScript.Proofs.Spelling.Decimal
import DiagramScript.Proofs.Spelling.Words
import DiagramScript.Record

/-
  What can be said both as a statement and as a record.

  A form is a shape or a connector with its options (`Form`). As a record it is a set of
  fields, the numbers of which are numbers (`Form.fields`). As a statement it is a line of
  words: what stands in front of the options in its fixed order (`Form.words`), then the options
  with their values in quotes (`optionWord`).
-/

namespace DiagramScript

namespace Spelling

/-! ## Parts of forms -/

/-- A text that is not empty and has no blanks at its ends. -/
abbrev Trimmed := { s : String // s ≠ "" ∧ Text.strip s = s }

/-- A text that is not empty. -/
abbrev Filled := { s : String // s ≠ "" }

/-- A word of a vocabulary. -/
abbrev WordOf (names : List String) := { w : String // w ∈ names }

/-- What shapes and connectors may both have besides a size. -/
structure Look where
  color : Option (WordOf colorNames) := none
  fill : Option (WordOf fillNames) := none
  dash : Option (WordOf dashNames) := none
  font : Option (WordOf Font.names) := none
  id : Option Trimmed := none

/-- The key that a record has the text of a shape under. -/
inductive BodyKey where
  | label
  | content
  | text
  deriving DecidableEq

/-- How big a shape is. A size may be given by its two sides or as one text; the text is the
size option, so that no tier can be given with it. -/
inductive Extent where
  | unsized (tier : Option Tier)
  | sides (w h : Length) (tier : Option Tier)
  | box (w h : Length)

namespace Extent

/-- The sides that a record has under keys of their own. -/
def sides? : Extent → Option (Length × Length)
  | sides w h _ => some (w, h)
  | _ => none

/-- The size, however it is given. -/
def size? : Extent → Option (Length × Length)
  | unsized _ => none
  | sides w h _ => some (w, h)
  | box w h => some (w, h)

def tier? : Extent → Option Tier
  | unsized tier => tier
  | sides _ _ tier => tier
  | box _ _ => none

/-- The size option of a record: a tier or a size as text. -/
def option? : Extent → Option String
  | unsized tier => tier.map Tier.name
  | sides _ _ tier => tier.map Tier.name
  | box w h => some (String.ofList (sizeText w h))

end Extent

structure ShapeForm where
  kind : Kind
  shape : kind ≠ .connector
  position : Option (Coordinate × Coordinate) := none
  extent : Extent := .unsized none
  body : Option (BodyKey × Filled) := none
  look : Look := {}

/-- A connector. A record of a connector may have a position and a size, which nothing asks
for. -/
structure ConnectorForm where
  source : Trimmed
  target : Trimmed
  label : Option Trimmed := none
  tier : Option Tier := none
  position : Option (Coordinate × Coordinate) := none
  sides : Option (Length × Length) := none
  look : Look := {}

inductive Form where
  | shape (f : ShapeForm)
  | connector (f : ConnectorForm)

/-! ## Forms as statements -/

/-- The options of a statement, by key. -/
def optionTable (l : Look) (tier : Option Tier) (label : Option Trimmed) :
    List (String × Option String) :=
  [("color", l.color.map (·.1)), ("fill", l.fill.map (·.1)), ("dash", l.dash.map (·.1)),
    ("font", l.font.map (·.1)), ("size", tier.map Tier.name), ("label", label.map (·.1)),
    ("id", l.id.map (·.1))]

/-- An option as a word: its key, and its value in quotes. -/
def optionWord (o : String × String) : List Char := o.1.toList ++ '=' :: quote o.2.toList

def ShapeForm.positionWord? (f : ShapeForm) : Option (List Char) :=
  f.position.map fun (x, y) => positionText x y

def ShapeForm.sizeWord? (f : ShapeForm) : Option (List Char) :=
  f.extent.size?.map fun (w, h) => sizeText w h

def ShapeForm.bodyWord? (f : ShapeForm) : Option (List Char) :=
  f.body.map fun (_, s) => quote s.1.toList

namespace Form

/-- The options of a form. -/
def options : Form → List (String × String)
  | shape f => given (optionTable f.look f.extent.tier? none)
  | connector f => given (optionTable f.look f.tier f.label)

/-- The word that names the kind of a form. -/
def keyword : Form → String
  | shape f => f.kind.keyword
  | connector _ => Kind.connector.keyword

/-- The words of a form between its kind and its options. -/
def words : Form → List (List Char)
  | shape f => f.positionWord?.toList ++ f.sizeWord?.toList ++ f.bodyWord?.toList
  | connector f => [quote f.source.1.toList, ['-', '>'], quote f.target.1.toList]

/-- A form as a statement, the options in a given order. -/
def line (f : Form) (options : List (String × String)) : String :=
  String.ofList (Text.joinOn ' ' (f.keyword.toList :: (f.words ++ options.map optionWord)))

end Form

/-! ## Forms as records -/

/-- The fields of a record of any kind, by key. -/
def fieldTable (keyword : String) (position : Option (Coordinate × Coordinate))
    (sides : Option (Length × Length)) (size : Option String) (body : BodyKey → Option String)
    (l : Look) (source target : Option String) : List (String × Option Value) :=
  [("shape", some (.text keyword)),
    ("x", position.map fun (x, _) => .number x.scalar),
    ("y", position.map fun (_, y) => .number y.scalar),
    ("w", sides.map fun (w, _) => .number w.scalar),
    ("h", sides.map fun (_, h) => .number h.scalar),
    ("size", size.map .text),
    ("label", (body .label).map .text),
    ("content", (body .content).map .text),
    ("text", (body .text).map .text),
    ("color", (l.color.map (·.1)).map .text),
    ("fill", (l.fill.map (·.1)).map .text),
    ("dash", (l.dash.map (·.1)).map .text),
    ("font", (l.font.map (·.1)).map .text),
    ("id", (l.id.map (·.1)).map .text),
    ("from", source.map .text),
    ("to", target.map .text)]

/-- The text of a shape under one of its keys. -/
def ShapeForm.bodyAt (f : ShapeForm) (key : BodyKey) : Option String :=
  f.body.bind fun (k, s) => if k = key then some s.1 else none

/-- The label of a connector under one of the keys for texts. -/
def ConnectorForm.bodyAt (f : ConnectorForm) : BodyKey → Option String
  | .label => f.label.map (·.1)
  | _ => none

/-- A form as a record. -/
def Form.fields : Form → List (String × Value)
  | shape f => given (fieldTable f.kind.keyword f.position f.extent.sides? f.extent.option? f.bodyAt
      f.look none none)
  | connector f => given (fieldTable Kind.connector.keyword f.position f.sides
      (f.tier.map Tier.name) f.bodyAt f.look (some f.source.1) (some f.target.1))

/-! ## What forms ask for -/

def Look.style (l : Look) (tier : Option Tier) : Style :=
  { color := l.color.map (·.1), fill := l.fill.map (·.1), dash := l.dash.map (·.1)
    font := l.font.map (·.1), size := tier.map Tier.name }

/-- The instruction of a form, on no line. -/
def Form.instruction : Form → Instruction
  | shape f =>
    let i : ShapeInstruction :=
      { kind := f.kind
        position := f.position.map fun (x, y) => ⟨x.scalar, y.scalar⟩
        size := f.extent.size?.map fun (w, h) => ⟨w.scalar, h.scalar⟩
        style := f.look.style f.extent.tier?
        id := f.look.id.map (·.1) }
    .shape (i.withText (f.body.map (·.2.1)))
  | connector f =>
    .connector
      { source := f.source.1, target := f.target.1, label := f.label.map (·.1)
        style := f.look.style f.tier, id := f.look.id.map (·.1) }

end Spelling

end DiagramScript
