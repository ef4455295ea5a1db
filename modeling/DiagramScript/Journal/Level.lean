import DiagramScript.Number.Digits
import DiagramScript.Text.Quoted

/-
  Levels of log records.

  A level is a number; six of them have a name, and two of those a second one.
-/

namespace DiagramScript

/-- A level as it was set: a number, or a truth value that counts as 1 or 0. -/
inductive Level where
  | number (n : Int)
  | flag (b : Bool)
  deriving DecidableEq, Repr

namespace Level

def value : Level → Int
  | number n => n
  | flag b => if b then 1 else 0

/-- Levels by name, the name that is shown first. -/
def names : List (String × Int) := [
  ("CRITICAL", 50), ("FATAL", 50), ("ERROR", 40), ("WARNING", 30), ("WARN", 30),
  ("INFO", 20), ("DEBUG", 10), ("NOTSET", 0)]

/-- The capital of a letter, as far as the names of levels are concerned: outside the basic
alphabet only the dotless i and the long s have a capital in it. -/
def capital (c : Char) : Char :=
  if c = '\u0131' then 'I' else if c = '\u017F' then 'S' else c.toUpper

/-- The level of a name in any case. -/
def ofName? (name : String) : Option Level :=
  (names.lookup (String.ofList (name.toList.map capital))).map number

/-- The name of a level; one without name is shown as it was set. -/
def display (l : Level) : String :=
  match names.find? (·.2 == l.value), l with
  | some (name, _), _ => name
  | none, number n => "Level " ++ String.ofList (Decimal.integer n)
  | none, flag b => "Level " ++ (if b then "True" else "False")

/-- The level that decides where none is set. -/
def fallback : Int := 30

/-- The least level of records that are written. -/
def threshold (l : Level) : Int := if l.value = 0 then fallback else l.value

end Level

end DiagramScript
