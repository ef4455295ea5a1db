import DiagramScript.Number.Numeral
import DiagramScript.Number.Arithmetic
import DiagramScript.Text.FinalSigma
import DiagramScript.Text.Lines

/-
  Positions `x,y` and sizes `WxH` in statements.

  A word is taken for a position or a size by its form (`isPosition`, `isSize`), which
  admits plain decimals only. Reading it (`position`, `size`) then accepts every numeral,
  so that an option may hold more than a word can, and refuses numbers that are not finite
  and sizes that are not positive.
-/

namespace DiagramScript.Measure

/-- What follows a run of at least one digit. -/
def dropDigits? (cs : List Char) : Option (List Char) :=
  match cs with
  | [] => none
  | c :: rest => if Text.isDigit c then some (rest.dropWhile Text.isDigit) else none

/-- What follows a plain decimal: digits, and digits behind a point. -/
def dropDecimal? (cs : List Char) : Option (List Char) :=
  match dropDigits? cs with
  | none => none
  | some ('.' :: rest) => some ((dropDigits? rest).getD ('.' :: rest))
  | some rest => some rest

/-- What follows a plain decimal with an optional minus sign. -/
def dropSignedDecimal? : List Char → Option (List Char)
  | '-' :: cs => dropDecimal? cs
  | cs => dropDecimal? cs

/-- Whether a text has the form of a position: two decimals with a comma between them. -/
def isPosition (cs : List Char) : Bool :=
  match (dropSignedDecimal? (Text.skipBlanks cs)).map Text.skipBlanks with
  | some (',' :: rest) =>
    (dropSignedDecimal? (Text.skipBlanks rest)).map Text.skipBlanks == some []
  | _ => false

/-- Whether a text has the form of a size: two decimals without sign with an `x` in either
case between them. -/
def isSize (cs : List Char) : Bool :=
  match dropDecimal? (Text.skipBlanks cs) with
  | some (c :: rest) =>
    (c == 'x' || c == 'X') && (dropDecimal? rest).map Text.skipBlanks == some []
  | _ => false

/-- The two parts of a text around the only occurrence of a character, without the blanks
around them; neither may be empty. -/
def twoParts? (sep : Char) (cs : List Char) : Option (List Char × List Char) :=
  match Text.splitOn sep cs with
  | [a, b] =>
    let a := Text.stripChars a
    let b := Text.stripChars b
    if a.isEmpty || b.isEmpty then none else some (a, b)
  | _ => none

/-- A finite number. -/
def number (what : String) (cs : List Char) (line : LineNumber) : Except Fault Scalar :=
  match Binary64.read? cs with
  | some x =>
    if x.isFinite then .ok (.real x)
    else .error ((ParseProblem.number what (String.ofList cs)).on line)
  | none => .error ((ParseProblem.number what (String.ofList cs)).on line)

/-- Reads a position. -/
def position (text : String) (line : LineNumber) : Except Fault Point :=
  match twoParts? ',' text.toList with
  | none => .error ((ParseProblem.positionForm text).on line)
  | some (x, y) => do
    let x ← number "x position" x line
    let y ← number "y position" y line
    .ok ⟨x, y⟩

/-- Reads a size. -/
def size (text : String) (line : LineNumber) : Except Fault Size :=
  match twoParts? 'x' (Text.lowerText text.toList) with
  | none => .error ((ParseProblem.sizeForm text).on line)
  | some (w, h) => do
    let w ← number "width" w line
    let h ← number "height" h line
    if w.le 0 || h.le 0 then .error ((ParseProblem.sizeNotPositive text).on line)
    else .ok ⟨w, h⟩

end DiagramScript.Measure
