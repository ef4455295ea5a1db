import DiagramScript.Layout
import DiagramScript.Label
import DiagramScript.Statement.Grammar

/-
  Stack and grid blocks.

  A block is a header line, shape statements without positions, and a line `]`. The header
  is compared up to case. Expanding a block sizes its shapes as the page will and gives each
  the position that the layout assigns to its box; everything else stays as written.
-/

namespace DiagramScript

/-- How a block places its shapes. -/
inductive Arrangement where
  | stack (direction : String)
  | grid (columns : Nat)
  deriving DecidableEq, Repr

structure Block where
  /-- The block word of the header. It is empty where the header starts with no block word
  and still reads as one, as it does with a capital I that has a dot. -/
  mode : String
  arrangement : Arrangement
  origin : Point
  gap : Scalar
  nested : List ShapeInstruction := []
  line : LineNumber := .unnumbered
  deriving DecidableEq, Repr

namespace Block

/-- The block word that a line starts with, in any case. -/
def mode? (line : List Char) : Option String :=
  let head := String.ofList (Text.lowerChars (Text.firstWord line))
  if head = "stack" ∨ head = "grid" then some head else none

/-! ## Headers -/

/-- What follows at least one blank. -/
def dropBlanks? : List Char → Option (List Char)
  | [] => none
  | c :: cs => if Text.isBlank c then some (Text.skipBlanks cs) else none

/-- A word without blanks and what follows it and the blanks behind it. -/
def word? (cs : List Char) : Option (List Char × List Char) :=
  let word := cs.takeWhile (! Text.isBlank ·)
  if word.isEmpty then none
  else (dropBlanks? (cs.dropWhile (! Text.isBlank ·))).map (word, ·)

/-- A decimal of basic digits, and what follows it. -/
def basicDecimal? (cs : List Char) : Option (List Char × List Char) :=
  let whole := cs.takeWhile Text.isBasicDigit
  if whole.isEmpty then none
  else
    match cs.dropWhile Text.isBasicDigit with
    | '.' :: rest =>
      let part := rest.takeWhile Text.isBasicDigit
      if part.isEmpty then some (whole, '.' :: rest)
      else some (whole ++ '.' :: part, rest.dropWhile Text.isBasicDigit)
    | rest => some (whole, rest)

/-- The end of a header: `gap=`, a decimal and an opening bracket. -/
def gap? (cs : List Char) : Option (List Char) :=
  match Text.dropWord? ['g', 'a', 'p', '='] cs with
  | none => none
  | some rest =>
    match basicDecimal? rest with
    | none => none
    | some (number, rest) =>
      let close := Text.skipBlanks rest
      if close = ['['] ∨ close = ['[', '\n'] then some number else none

/-- The direction, the origin and the gap of a stack header. -/
def stackParts? (cs : List Char) : Option (List Char × List Char × List Char) := do
  let cs ← Text.dropWord? ['s', 't', 'a', 'c', 'k'] cs
  let cs ← dropBlanks? cs
  let rest ← (Text.dropWord? ['v', 'e', 'r', 't', 'i', 'c', 'a', 'l'] cs).or
    (Text.dropWord? ['h', 'o', 'r', 'i', 'z', 'o', 'n', 't', 'a', 'l'] cs)
  let direction := cs.take (cs.length - rest.length)
  let (origin, rest) ← (dropBlanks? rest).bind word?
  let gap ← gap? rest
  some (direction, origin, gap)

/-- The origin, the digits of the column count and the gap of a grid header. -/
def gridParts? (cs : List Char) : Option (List Char × List Char × List Char) := do
  let cs ← Text.dropWord? ['g', 'r', 'i', 'd'] cs
  let (origin, rest) ← (dropBlanks? cs).bind word?
  let rest ← Text.dropWord? ['c', 'o', 'l', 's', '='] rest
  let columns := rest.takeWhile Text.isDigit
  if columns.isEmpty then none
  let rest ← dropBlanks? (rest.dropWhile Text.isDigit)
  let gap ← gap? rest
  some (origin, columns, gap)

/-- The number that a decimal of a header writes. -/
def decimal (cs : List Char) : Scalar := .real ((Binary64.read? cs).getD .nan)

/-- The whole number that a run of digits writes. -/
def wholeNumber (cs : List Char) : Except Fault Nat :=
  if digitLimit < cs.length then (ArithmeticProblem.tooManyDigits cs.length).fail
  else .ok (Decimal.value (cs.filterMap Text.digit?))

/-- Reads a header line, which gives a block without shapes. -/
def header (text : List Char) (line : LineNumber) : Except Fault Block :=
  let mode := (mode? text).getD ""
  if mode = "stack" then
    match stackParts? text with
    | none => .error (ParseProblem.stackForm.on line)
    | some (direction, origin, gap) => do
      let origin ← Measure.position (String.ofList origin) line
      let direction := String.ofList (Text.lowerChars direction)
      .ok { mode, arrangement := .stack direction, origin, gap := decimal gap, line }
  else
    match gridParts? text with
    | none => .error (ParseProblem.gridForm.on line)
    | some (origin, columns, gap) => do
      let n ← wholeNumber columns
      if n = 0 then .error ((ParseProblem.gridColumns (String.ofList columns)).on line)
      let origin ← Measure.position (String.ofList origin) line
      .ok { mode, arrangement := .grid n, origin, gap := decimal gap, line }

/-! ## Bodies -/

/-- What a line inside a block is. -/
inductive BodyLine where
  | blank
  | close
  | nested (i : ShapeInstruction)

/-- Reads a line inside a block. -/
def bodyLine (b : Block) (line : String) (number : LineNumber) : Except Fault BodyLine :=
  let text := statementText line
  if text.isEmpty then .ok .blank
  else if text = [']'] then .ok .close
  else if (mode? text).isSome then .error (ParseProblem.nestedBlock.on number)
  else do
    match ← Statement.ofText text number false with
    | .shape i => .ok (.nested i)
    | .connector _ => .error ((ParseProblem.arrowInBlock b.mode).on number)

/-- The block with one more shape. -/
def push (b : Block) (i : ShapeInstruction) : Block := { b with nested := b.nested ++ [i] }

/-- A block without closing line. -/
def unterminated (b : Block) : Fault :=
  (ParseProblem.unterminatedBlock b.mode).on b.line

/-- Reads the rest of a block whose next line has the given number, and the number of its
closing line. -/
def readBody (b : Block) : Int → List String → Except Fault (Block × Int)
  | _, [] => .error b.unterminated
  | n, line :: rest => do
    match ← b.bodyLine line (some n) with
    | .blank => b.readBody (n + 1) rest
    | .close => .ok (b, n)
    | .nested i => (b.push i).readBody (n + 1) rest

/-- Reads a block from its header, which has the given number, on. -/
def read (line : Int) : List String → Except Fault (Block × Int)
  | [] => .error .outOfRange
  | first :: rest => do
    let b ← header (statementText first) (some line)
    b.readBody (line + 1) rest

/-! ## Expansion -/

/-- The size that a shape will have on the page: the dimensions option, else a size, else
the tier of a note, the lines of a text, or the size of the kind, which a label of a
rectangle or an ellipse may widen. -/
def sizeOf (i : ShapeInstruction) : Except Fault Size :=
  if i.kind = .connector then .error (ParseProblem.arrowHasNoBox.on i.line)
  else
    match i.dimensions, i.size with
    | some d, _ => .ok d
    | none, some s => .ok s
    | none, none =>
      let base := defaultSize i.kind
      let tier := Tier.ofOption i.style.size
      match i.kind with
      | .note => .ok tier.noteSize
      | .text =>
        .ok ⟨base.w, .whole (tier.lineHeight * Text.lineCount (i.content.getD ""))⟩
      | .rectangle | .ellipse =>
        match Content.filled i.label with
        | some label =>
          let fit := Label.box label tier (Font.ofOption i.style.font)
          .ok ⟨base.w.max fit.w, base.h.max fit.h⟩
        | none => .ok base
      | _ => .ok base

/-- The box of a shape. -/
def boxOf (i : ShapeInstruction) : Except Fault (Box ShapeInstruction) := do
  let s ← sizeOf i
  .ok ⟨s.w, s.h, i⟩

/-- A problem of the layout told with the line of the block. -/
def blame {α : Type} (line : LineNumber) : Except Fault α → Except Fault α
  | .error (.layout p none) => .error (.layout p line)
  | r => r

/-- The layout of a block. -/
def place (b : Block) (boxes : List (Box ShapeInstruction)) :
    Except Fault (List (Placed ShapeInstruction)) :=
  match b.arrangement with
  | .stack direction =>
    Layout.stack boxes (Axis.ofName? direction) direction b.origin b.gap
  | .grid columns => Layout.grid boxes b.origin (some columns) (toString columns) b.gap

/-- The shapes of a block at their positions. -/
def expand (b : Block) : Except Fault (List ShapeInstruction) := do
  let boxes ← b.nested.mapM boxOf
  let placed ← blame b.line (b.place boxes)
  .ok (placed.map fun p => { p.box.payload with position := some p.corner })

end Block

end DiagramScript
