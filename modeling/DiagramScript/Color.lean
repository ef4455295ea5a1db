import DiagramScript.Color.Model
import DiagramScript.Color.Names
import DiagramScript.Number.Numeral
import DiagramScript.Style.Vocabulary
import DiagramScript.Text.Lowercase
import DiagramScript.Text.Lines

/-
  Colours of rastered drawings.

  A colour text is a name, a number sign with three, four, six or eight digits of base
  sixteen, or a function of plain numbers, shares in percent, or a hue. Case does not count,
  nor do blanks around the numbers of a function; one line feed may end the text. What is
  none of these is black.
-/

namespace DiagramScript

/-- Red, green and blue. They are not limited to what a screen can show. -/
structure Rgb where
  red : Int
  green : Int
  blue : Int
  deriving DecidableEq, Repr

/-- A colour with its opacity, 255 being opaque. -/
structure Rgba where
  rgb : Rgb
  alpha : Int
  deriving DecidableEq, Repr

namespace Color

def black : Rgb := ⟨0, 0, 0⟩

/-- The colour of a number with two digits of base sixteen for each part. -/
def ofNumber (n : Nat) : Rgb := ⟨n / 0x10000, n / 0x100 % 0x100, n % 0x100⟩

/-- The longest text that is looked at. -/
def longest : Nat := 100

/-- The value of a small digit of base sixteen. -/
def hexDigit? (c : Char) : Option Nat :=
  if '0' ≤ c ∧ c ≤ '9' then some (c.toNat - '0'.toNat)
  else if 'a' ≤ c ∧ c ≤ 'f' then some (c.toNat - 'a'.toNat + 10)
  else none

/-- A text without one line feed at its end. -/
def dropLineFeed (cs : List Char) : List Char :=
  if cs.getLast? = some '\n' then cs.dropLast else cs

/-- The colour of digits of base sixteen, one or two for each part. Opacity is not used. -/
def ofHex? (cs : List Char) : Option Rgb :=
  match cs.mapM hexDigit? with
  | some [r, g, b] | some [r, g, b, _] => some ⟨r * 17, g * 17, b * 17⟩
  | some [r, r', g, g', b, b'] | some [r, r', g, g', b, b', _, _] =>
    some ⟨r * 16 + r', g * 16 + g', b * 16 + b'⟩
  | _ => none

/-- The name and the arguments of a function, without blanks around the arguments. -/
def call? (cs : List Char) : Option (List Char × List (List Char)) :=
  let name := cs.takeWhile (· != '(')
  match cs.dropWhile (· != '(') with
  | _ :: rest =>
    if rest.getLast? = some ')' then
      some (name, (Text.splitOn ',' rest.dropLast).map Text.stripChars)
    else none
  | [] => none

/-- A whole number of digits. -/
def whole? (cs : List Char) : Option Nat :=
  if cs.isEmpty then none else (cs.mapM Text.digit?).map Decimal.value

/-- What stands in front of a percent sign that ends a text. -/
def percent? (cs : List Char) : Option (List Char) :=
  if cs.getLast? = some '%' then some cs.dropLast else none

/-- A decimal of digits with an optional point behind the first of them. -/
def decimal? (cs : List Char) : Option Binary64 :=
  let run := cs.takeWhile Text.isDigit
  if run.isEmpty then none
  else
    match cs.dropWhile Text.isDigit with
    | [] => Binary64.read? cs
    | '.' :: rest => if rest.all Text.isDigit then Binary64.read? cs else none
    | _ => none

/-- A share of 1 as a part of a colour, a half rounded up. -/
def part (share : Binary64) : Int :=
  (((share.mul (small 255)).add (Binary64.ofDecimal false 5 (-1))).truncate?).getD 0

def ofShares (s : Shares) : Rgb := ⟨part s.1, part s.2.1, part s.2.2⟩

/-- A percentage as a part of a colour, a half rounded up. -/
def percentPart (n : Nat) : Int :=
  let share := (small (n * 255 : Nat)).div (small 100)
  ((share.add (Binary64.ofDecimal false 5 (-1))).truncate?).getD 0

/-- The colour of plain numbers or of percentages. -/
def ofParts? (r g b : List Char) : Option Rgb :=
  match whole? r, whole? g, whole? b with
  | some r, some g, some b => some ⟨r, g, b⟩
  | _, _, _ => do
    let r ← (percent? r).bind whole?
    let g ← (percent? g).bind whole?
    let b ← (percent? b).bind whole?
    some ⟨percentPart r, percentPart g, percentPart b⟩

/-- A hue in degrees and two percentages as shares. -/
def hue? (h a b : List Char) : Option (Binary64 × Binary64 × Binary64) := do
  let h ← decimal? h
  let a ← (percent? a).bind decimal?
  let b ← (percent? b).bind decimal?
  some (h.div (small 360), a.div (small 100), b.div (small 100))

/-- The colour of a function. -/
def ofCall? (name : List Char) (arguments : List (List Char)) : Option Rgb :=
  match String.ofList name, arguments with
  | "rgb", [r, g, b] => ofParts? r g b
  | "rgba", [r, g, b, a] => do
    let r ← whole? r
    let g ← whole? g
    let b ← whole? b
    let _ ← whole? a
    some ⟨r, g, b⟩
  | "hsl", [h, s, l] => (hue? h s l).map fun (h, s, l) => ofShares (ofLightness h l s)
  | "hsv", [h, s, v] | "hsb", [h, s, v] =>
    (hue? h s v).map fun (h, s, v) => ofShares (ofValue h s v)
  | _, _ => none

/-- The colour of a text. -/
def read? (text : String) : Option Rgb :=
  if longest < text.length then none
  else
    let cs := Text.lowerChars text.toList
    match names.lookup (String.ofList cs) with
    | some n => some (ofNumber n)
    | none =>
      match dropLineFeed cs with
      | '#' :: digits => ofHex? digits
      | cs => (call? cs).bind fun (name, arguments) => ofCall? name arguments

/-- The colour of a text, black where it names none. -/
def ofText (text : String) : Rgb := (read? text).getD black

/-- The opaque colour of a text. -/
def opaqueOf (text : String) : Rgba := ⟨ofText text, 255⟩

/-- The colour that fills a shape; none for a clear one. A fifth of 255 is 51. -/
def fillOf (color : Option String) (fill : Option String) : Option Rgba :=
  match coverOf fill with
  | .clear => none
  | .wash => some ⟨ofText (colorValue color), 51⟩
  | .full => some ⟨ofText (colorValue color), 255⟩

end Color

end DiagramScript
