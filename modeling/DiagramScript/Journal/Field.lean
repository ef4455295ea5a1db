import DiagramScript.Number.Digits
import DiagramScript.Text.DecimalDigit
import DiagramScript.Text.Lowercase
import DiagramScript.Text.Word

/-
  Fields of log formats.

  A field is a percent sign, a name in brackets, flags, a width, a precision behind a point
  and a letter. A format is accepted if a field with a proper name is found in it
  (`hasField`); writing then reads every field (`Field.read?`), whose name may be any text
  with matching brackets and may also be left out.
-/

namespace DiagramScript.LogFormat

/-- A field of a format. -/
structure Field where
  name : Option String
  flags : List Char
  width : Nat
  precision : Option Nat
  letter : Char
  deriving DecidableEq, Repr

def isFlag (c : Char) : Bool := ['#', '0', '+', ' ', '-'].contains c

/-! ## Reading -/

/-- The greatest precision that can be read. -/
def greatestPrecision : Nat := 2147483647

/-- A text up to the bracket that closes `depth` open ones, and what follows it. -/
def bracketed? : Nat → List Char → Option (List Char × List Char)
  | _, [] => none
  | depth, c :: cs =>
    if c = ')' ∧ depth = 0 then some ([], cs)
    else
      let depth := if c = '(' then depth + 1 else if c = ')' then depth - 1 else depth
      (bracketed? depth cs).map fun (name, rest) => (c :: name, rest)

/-- A name in brackets, if there is one, and what follows it; nothing where the brackets do
not match. -/
def name? (cs : List Char) : Option (Option String × List Char) :=
  match cs with
  | '(' :: rest => (bracketed? 0 rest).map fun (name, rest) => (some (String.ofList name), rest)
  | _ => some (none, cs)

/-- The number of a run of digits. -/
def number (ds : List Char) : Nat := Decimal.value (ds.filterMap Decimal.basicDigit?)

/-- A precision, if there is one, and what follows it. -/
def leadingPrecision (cs : List Char) : Option Nat × List Char :=
  match cs with
  | '.' :: rest => (some (number (rest.takeWhile Char.isDigit)), rest.dropWhile Char.isDigit)
  | _ => (none, cs)

/-- What follows a letter that asks for a size of numbers, which has no meaning. -/
def dropSize (cs : List Char) : List Char :=
  match cs with
  | c :: rest => if ['h', 'l', 'L'].contains c then rest else cs
  | [] => []

/-- A field behind its percent sign, and what follows it. -/
def Field.read? (cs : List Char) : Option (Field × List Char) := do
  let (name, rest) ← name? cs
  let flags := rest.takeWhile isFlag
  let rest := rest.drop flags.length
  let width := rest.takeWhile Char.isDigit
  let (precision, rest) := leadingPrecision (rest.drop width.length)
  match dropSize rest with
  | letter :: rest =>
    if greatestPrecision < precision.getD 0 then none
    else some (⟨name, flags, number width, precision, letter⟩, rest)
  | [] => none

/-! ## Recognition -/

/-- The letters that a field is recognised by. -/
def letters : List Char :=
  ['d', 'i', 'o', 'u', 'x', 'e', 'f', 'g', 'c', 'r', 's', 'a', '%']

/-- What follows a star or a run of digits. -/
def dropAmount? (cs : List Char) : Option (List Char) :=
  match cs with
  | '*' :: rest => some rest
  | _ =>
    let ds := cs.takeWhile Text.isDigit
    if ds.isEmpty then none else some (cs.drop ds.length)

/-- What follows a precision, which may be missing. -/
def dropPrecision (cs : List Char) : List Char :=
  match cs with
  | '.' :: rest => (dropAmount? rest).getD cs
  | _ => cs

/-- Whether a field stands at the start of a text behind a percent sign. Its letter may be
in any case. -/
def startsField (cs : List Char) : Bool :=
  match cs with
  | '(' :: rest =>
    match rest.takeWhile Text.isWordChar, rest.dropWhile Text.isWordChar with
    | _ :: _, ')' :: rest =>
      let rest := rest.dropWhile isFlag
      let rest := dropPrecision ((dropAmount? rest).getD rest)
      match rest with
      | c :: _ => letters.any (Text.sameLetter · c)
      | [] => false
    | _, _ => false
  | _ => false

/-- Whether a format has a field. -/
def hasField : List Char → Bool
  | [] => false
  | c :: cs => (c == '%' && startsField cs) || hasField cs

end DiagramScript.LogFormat
