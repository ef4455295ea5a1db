import DiagramScript.Fault
import DiagramScript.Text.Blank

/-
  Tokens of one line.

  Two readers go through a line one character at a time, each with two flags (`Quoting`):
  whether it is in a quote, and whether a backslash escapes the next character. The reader of
  comments sets both of them for every character (`Quoting.next`), and a `#` outside quotes
  starts a comment. The reader of tokens (`Token.scan`) sets them case by case. Blanks
  outside quotes end a token; quote marks are not part of it, and behind a backslash `n` and
  `t` stand for a line feed and a tab and every other character for itself.
-/

namespace DiagramScript

/-- A token of a line. It counts as quoted where it starts with a quote mark. -/
structure Token where
  value : String
  quoted : Bool
  deriving DecidableEq, Repr

/-- What is known at a character of a line: whether a quote is open, and whether the character
is escaped. -/
structure Quoting where
  inQuotes : Bool
  escaped : Bool
  deriving DecidableEq, Repr

namespace Quoting

/-- Outside quotes, as at the start of a line. -/
def outside : Quoting := ⟨false, false⟩

/-- What the reader of comments knows behind a character. Whether the next one is escaped
depends on the quote as it is by then. -/
def next (q : Quoting) (c : Char) : Quoting :=
  let inQuotes := if c = '"' ∧ !q.escaped then !q.inQuotes else q.inQuotes
  ⟨inQuotes, c = '\\' && inQuotes && !q.escaped⟩

end Quoting

/-- The characters of a line in front of its comment. -/
def uncomment : Quoting → List Char → List Char
  | _, [] => []
  | q, c :: cs =>
    if c = '#' ∧ !q.inQuotes then [] else c :: uncomment (q.next c) cs

/-- A line without its comment. -/
def stripComment (line : String) : String :=
  String.ofList (uncomment .outside line.toList)

/-- A line without its comment and without the blanks around the rest. -/
def statementText (line : String) : List Char :=
  Text.stripChars (uncomment .outside line.toList)

/-- The character that an escaped character stands for. -/
def unescape (c : Char) : Char :=
  if c = 'n' then '\n' else if c = 't' then '\t' else c

/-- A token under way: its characters, last first, whether it starts with a quote mark, and
whether anything of it was read. -/
structure Token.Draft where
  reversed : List Char
  quoted : Bool
  started : Bool

namespace Token

/-- No token under way. -/
def Draft.empty : Draft := ⟨[], false, false⟩

/-- The draft with one more character, which was escaped: a quote mark has started it. -/
def Draft.put (d : Draft) (c : Char) : Draft := { d with reversed := c :: d.reversed }

/-- The draft with one more character. -/
def Draft.push (d : Draft) (c : Char) : Draft := { d.put c with started := true }

/-- The draft behind a quote mark. -/
def Draft.mark (d : Draft) : Draft :=
  { d with quoted := d.quoted || !d.started, started := true }

/-- The finished token; a draft without characters gives none. -/
def Draft.finish (d : Draft) : List Token :=
  if d.reversed.isEmpty then [] else [⟨String.ofList d.reversed.reverse, d.quoted⟩]

/-- The tokens of the rest of a line, or nothing where a quote stays open. -/
def scan : Quoting → Draft → List Char → Option (List Token)
  | q, d, [] => if q.inQuotes then none else some d.finish
  | q, d, c :: cs =>
    if q.escaped then scan { q with escaped := false } (d.put (unescape c)) cs
    else if c = '"' then scan { q with inQuotes := !q.inQuotes } d.mark cs
    else if q.inQuotes ∧ c = '\\' then scan { q with escaped := true } d cs
    else if !q.inQuotes ∧ Text.isBlank c then (scan q .empty cs).map (d.finish ++ ·)
    else scan q (d.push c) cs

/-- The tokens of a line without comment. -/
def ofLine (line : List Char) (number : LineNumber) : Except Fault (List Token) :=
  match scan .outside .empty line with
  | some tokens => .ok tokens
  | none => .error (ParseProblem.unterminatedQuote.on number)

end Token

end DiagramScript
