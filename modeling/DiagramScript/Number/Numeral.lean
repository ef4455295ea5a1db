import DiagramScript.Number.Binary64
import DiagramScript.Number.Digits
import DiagramScript.Text.Blank
import DiagramScript.Text.DecimalDigit

/-
  Numerals: the texts that name a floating-point number.

  A numeral is an optional sign before digits with an optional point and an optional
  exponent, or before one of the words for infinity and for no number. Digits may be of any
  script, one low line may stand between two digits, and blanks around the numeral do not
  count.
-/

namespace DiagramScript

/-- What a numeral names. -/
inductive Numeral where
  | notANumber
  | infinite (negative : Bool)
  | decimal (negative : Bool) (digits : Nat) (exponent : Int)
  deriving DecidableEq, Repr

namespace Numeral

/-- The digits that continue a run, and what follows them. -/
def moreDigits : List Char → List Nat × List Char
  | [] => ([], [])
  | '_' :: c :: cs =>
    match Text.digit? c with
    | some d => (d :: (moreDigits cs).1, (moreDigits cs).2)
    | none => ([], '_' :: c :: cs)
  | c :: cs =>
    match Text.digit? c with
    | some d => (d :: (moreDigits cs).1, (moreDigits cs).2)
    | none => ([], c :: cs)

/-- A run of digits, and what follows it. -/
def digitRun : List Char → List Nat × List Char
  | [] => ([], [])
  | c :: cs =>
    match Text.digit? c with
    | some d => (d :: (moreDigits cs).1, (moreDigits cs).2)
    | none => ([], c :: cs)

/-- An optional sign, and what follows it. -/
def sign : List Char → Bool × List Char
  | '-' :: cs => (true, cs)
  | '+' :: cs => (false, cs)
  | cs => (false, cs)

/-- The digits behind an optional point, and what follows them. -/
def fraction : List Char → List Nat × List Char
  | '.' :: cs => digitRun cs
  | cs => ([], cs)

/-- An optional exponent that ends the text. -/
def exponent? : List Char → Option Int
  | [] => some 0
  | c :: cs =>
    if c = 'e' ∨ c = 'E' then
      match digitRun (sign cs).2 with
      | ([], _) => none
      | (ds, []) =>
        some (if (sign cs).1 then -(Decimal.value ds : Int) else Decimal.value ds)
      | (_, _ :: _) => none
    else none

/-- A numeral without sign and without blanks around it. -/
def unsigned? (negative : Bool) (cs : List Char) : Option Numeral :=
  let word := cs.map Char.toLower
  if word = ['i', 'n', 'f'] ∨ word = ['i', 'n', 'f', 'i', 'n', 'i', 't', 'y'] then
    some (.infinite negative)
  else if word = ['n', 'a', 'n'] then some .notANumber
  else
    let whole := digitRun cs
    let part := fraction whole.2
    if whole.1.isEmpty && part.1.isEmpty then none
    else (exponent? part.2).map fun e =>
      .decimal negative (Decimal.value (whole.1 ++ part.1)) (e - part.1.length)

/-- Reads a text as a numeral. -/
def read? (cs : List Char) : Option Numeral :=
  let body := sign (Text.stripChars cs)
  unsigned? body.1 body.2

/-- The number that a numeral names, rounded to nearest. -/
def number : Numeral → Binary64
  | notANumber => .nan
  | infinite s => .infinite s
  | decimal s ds e => .ofDecimal s ds e

end Numeral

/-- The number that a text names. -/
def Binary64.read? (cs : List Char) : Option Binary64 := (Numeral.read? cs).map Numeral.number

end DiagramScript
