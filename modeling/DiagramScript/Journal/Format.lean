import DiagramScript.Journal.Field
import DiagramScript.Journal.Record
import DiagramScript.Number.Binary64
import DiagramScript.Number.Places
import DiagramScript.Number.Radix

/-
  Lines of a log.

  A record is written in a format field by field; two percent signs stand for one. The
  letter of a field says how its value is written: as text, in quotes, as a number in one of
  several notations, or as a character. A record to which a format does not fit is not
  written at all.
-/

namespace DiagramScript.LogFormat

/-- The longest field that is written. -/
def greatestLength : Nat := 10000000

/-! ## Widths -/

/-- A text brought to a width by blanks. -/
def pad (f : Field) (cs : List Char) : List Char :=
  let fill := List.replicate (f.width - Text.letterCount cs) ' '
  if f.flags.contains '-' then cs ++ fill else fill ++ cs

/-- A text cut to the length that the precision asks for. -/
def cut (f : Field) (cs : List Char) : List Char :=
  match f.precision with
  | some n => Text.takeLetters n cs
  | none => cs

/-- Digits with zeros in front of them. -/
def zeroFill (length : Nat) (ds : List Char) : List Char :=
  Places.zeros (length - ds.length) ++ ds

/-- The sign in front of a number. -/
def sign (f : Field) (n : Int) : List Char :=
  if n < 0 then ['-']
  else if f.flags.contains '+' then ['+']
  else if f.flags.contains ' ' then [' ']
  else []

/-- The digits of a number behind a sign and a mark, brought to a width by blanks, or by
zeros in front of the digits. -/
def padNumber (f : Field) (front ds : List Char) : List Char :=
  if f.flags.contains '0' && !f.flags.contains '-' then
    front ++ zeroFill (f.width - front.length) ds
  else pad f (front ++ ds)

/-! ## Values -/

/-- The number of a value. -/
def number? : LogField → Option Int
  | .number n => some n
  | .flag b => some (if b then 1 else 0)
  | _ => none

/-- A value as text. -/
def shown : LogField → Option String
  | .text s | .other s => some s
  | .number n => some (String.ofList (Decimal.integer n))
  | .flag b => some (if b then "True" else "False")
  | .unkept => none

/-- A value as text, a text in quotes. -/
def shownQuoted : LogField → Option String
  | .text s => some (Text.quoted s)
  | v => shown v

/-- A text field. Of a value that is not kept only nothing can be shown. -/
def textField (f : Field) (s : Option String) : Option (List Char) :=
  match s with
  | some s => some (pad f (cut f s.toList))
  | none => if f.precision = some 0 then some (pad f []) else none

/-- A whole number in a base, with at least as many digits as the precision asks for. The
mark of the base is shown where it is asked for. -/
def wholeField (f : Field) (base : Nat) (mark : List Char) (n : Int) : Option (List Char) :=
  let places := f.precision.getD 0
  if greatestLength < places then none
  else
    let mark := if f.flags.contains '#' then mark else []
    some (padNumber f (sign f n ++ mark) (zeroFill places (Radix.digits base n.natAbs)))

/-- A number as floating-point number in a notation. A number past all of those has no
form. -/
def realField (f : Field) (n : Int) (form : Nat → Nat → Bool → List Char) :
    Option (List Char) :=
  match (Binary64.ofInt? n).bind Binary64.truncate? with
  | some m =>
    some (padNumber f (sign f n)
      (form m.natAbs (f.precision.getD 6) (f.flags.contains '#')))
  | none => none

/-- A floating-point number with as many places as the precision asks for. -/
def placesField (f : Field) (n : Int) (form : Nat → Nat → Bool → List Char) :
    Option (List Char) :=
  if greatestLength < f.precision.getD 0 then none else realField f n form

/-- A number with a power of ten. The greatest precision counts as none. -/
def scientificField (f : Field) (n : Int) : Option (List Char) :=
  let precision := if f.precision = some greatestPrecision then some 0 else f.precision
  placesField { f with precision } n Places.scientific

/-- A floating-point number with as many digits as the precision asks for. -/
def generalField (f : Field) (n : Int) : Option (List Char) :=
  if f.flags.contains '#' then placesField f n Places.general else realField f n Places.general

/-- A letter: one that stands alone, or the one of a code. -/
def characterField (f : Field) (v : LogField) : Option (List Char) :=
  match v, number? v with
  | .text s, _ => if Text.letterCount s.toList = 1 then some (pad f s.toList) else none
  | _, some n =>
    if 0 ≤ n ∧ n < 0x110000 then some (pad f (Text.Letter.ofCode n.toNat).chars) else none
  | _, none => none

/-- A written number in capitals. -/
def capitals (cs : List Char) : List Char := cs.map Char.toUpper

/-- A value as a letter asks for it. -/
def writeValue (f : Field) (v : LogField) : Option (List Char) :=
  match f.letter, number? v with
  | 's', _ => textField f (shown v)
  | 'r', _ => textField f (shownQuoted v)
  | 'a', _ => textField f ((shownQuoted v).map Text.escapeForeign)
  | 'c', _ => characterField f v
  | 'd', some n | 'i', some n | 'u', some n => wholeField f 10 [] n
  | 'o', some n => wholeField f 8 ['0', 'o'] n
  | 'x', some n => wholeField f 16 ['0', 'x'] n
  | 'X', some n => (wholeField f 16 ['0', 'x'] n).map capitals
  | 'f', some n | 'F', some n => placesField f n Places.fixed
  | 'e', some n => scientificField f n
  | 'E', some n => (scientificField f n).map capitals
  | 'g', some n => generalField f n
  | 'G', some n => (generalField f n).map capitals
  | _, _ => none

/-- What a field stands for. Without name it stands for the record as a whole, which only
the first field of a format can. -/
def valueOf (r : LogRecord) (f : Field) (isFirst : Bool) : Option LogField :=
  match f.name with
  | some name => r.field? name
  | none => if isFirst then some .unkept else none

/-- The text of a field; none where the field does not fit its value. -/
def render (r : LogRecord) (f : Field) (isFirst : Bool) : Option (List Char) :=
  if greatestLength < f.width then none
  else (valueOf r f isFirst).bind (writeValue f)

/-! ## Lines -/

/-- Writes a record in a format, reading at most `fuel` pieces. -/
def writeFrom (r : LogRecord) : Nat → Bool → List Char → Option (List Char)
  | _, _, [] => some []
  | 0, _, _ => none
  | fuel + 1, isFirst, '%' :: '%' :: cs => (writeFrom r fuel isFirst cs).map ('%' :: ·)
  | fuel + 1, isFirst, '%' :: cs =>
    match Field.read? cs with
    | none => none
    | some (f, rest) =>
      match render r f isFirst, writeFrom r fuel false rest with
      | some text, some more => some (text ++ more)
      | _, _ => none
  | fuel + 1, isFirst, c :: cs => (writeFrom r fuel isFirst cs).map (c :: ·)

/-- The line of a record in a format; none where the format does not fit. -/
def write (format : String) (r : LogRecord) : Option String :=
  (writeFrom r (format.toList.length + 1) true format.toList).map String.ofList

/-- The format of lines where no other one is asked for. -/
def standard : String := "%(levelname)s %(name)s: %(message)s"

/-- The format that an empty one stands for. -/
def bare : String := "%(message)s"

end DiagramScript.LogFormat
