import DiagramScript.Text.Letter
import DiagramScript.Text.Unprintable

/-
  Quoted form of a text in messages.

  A text stands between single quotes, or between double quotes where it holds a single
  quote and no double quote. The quote in use and the backslash are escaped, and so are
  line feeds, carriage returns, tabs and every letter without a printed form.
-/

namespace DiagramScript.Text

/-- A digit of the base sixteen. -/
def hexDigit (d : Nat) : Char :=
  if d < 10 then Char.ofNat (0x30 + d) else Char.ofNat (0x61 + (d - 10))

/-- The last `places` digits of a number in base sixteen. -/
def hex : Nat → Nat → List Char
  | 0, _ => []
  | places + 1, n => hex places (n / 16) ++ [hexDigit (n % 16)]

/-- The escape of a code point: two, four or eight digits in base sixteen. -/
def escapeCode (n : Nat) : List Char :=
  if n < 0x100 then '\\' :: 'x' :: hex 2 n
  else if n < 0x10000 then '\\' :: 'u' :: hex 4 n
  else '\\' :: 'U' :: hex 8 n

def escapeChar (quote c : Char) : List Char :=
  if c = quote ∨ c = '\\' then ['\\', c]
  else if c = '\n' then ['\\', 'n']
  else if c = '\r' then ['\\', 'r']
  else if c = '\t' then ['\\', 't']
  else if isUnprintable c then escapeCode c.toNat
  else [c]

/-- The escape of a letter; half of a pair has no printed form. -/
def escapeLetter (quote : Char) : Letter → List Char
  | .char c => escapeChar quote c
  | .half n => escapeCode (Letter.half n).code

/-- The quote that a text is written with. -/
def quoteFor (cs : List Char) : Char :=
  if cs.contains '\'' && !cs.contains '"' then '"' else '\''

/-- A text between quotes. -/
def quoted (s : String) : String :=
  let q := quoteFor s.toList
  String.ofList (q :: ((letters s.toList).flatMap (escapeLetter q) ++ [q]))

/-- A text with every letter outside the basic alphabet escaped. -/
def escapeForeign (s : String) : String :=
  String.ofList ((letters s.toList).flatMap fun l =>
    if l.code < 0x80 then l.chars else escapeCode l.code)

end DiagramScript.Text
