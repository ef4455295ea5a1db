/-
  Lines of a text.

  `splitOn` cuts a text at every occurrence of a character and always gives at least one
  piece (`splitOn_ne_nil`).
-/

namespace DiagramScript.Text

/-- The pieces of a text between the occurrences of a character. -/
def splitOn (sep : Char) : List Char → List (List Char)
  | [] => [[]]
  | c :: cs =>
    if c = sep then [] :: splitOn sep cs
    else
      match splitOn sep cs with
      | [] => [[c]]
      | piece :: pieces => (c :: piece) :: pieces

/-- Pieces with a character between them. -/
def joinOn (sep : Char) : List (List Char) → List Char
  | [] => []
  | [piece] => piece
  | piece :: pieces => piece ++ sep :: joinOn sep pieces

theorem splitOn_ne_nil (sep : Char) (cs : List Char) : splitOn sep cs ≠ [] := by
  cases cs with
  | nil => simp [splitOn]
  | cons c cs =>
    by_cases h : c = sep
    · simp [splitOn, h]
    · simp only [splitOn, h, if_false]
      split <;> simp

/-- The lines of a text that is shown. -/
def displayLines (s : String) : List String :=
  (splitOn '\n' s.toList).map String.ofList

/-- How many lines a text is shown in. -/
def lineCount (s : String) : Nat := s.toList.count '\n' + 1

/-- A line without a carriage return at its end. -/
def dropReturn (line : List Char) : List Char :=
  if line.getLast? = some '\r' then line.dropLast else line

/-- Lines with the carriage return in front of each line feed left out; the last line has
no line feed behind it. -/
def dropReturns : List (List Char) → List (List Char)
  | [] => []
  | [line] => [line]
  | line :: lines => dropReturn line :: dropReturns lines

/-- A text in which every line ends with a line feed, also one that ended with a carriage
return. -/
def unifyBreaks : List Char → List Char
  | [] => []
  | '\r' :: '\n' :: cs => '\n' :: unifyBreaks cs
  | '\r' :: cs => '\n' :: unifyBreaks cs
  | c :: cs => c :: unifyBreaks cs

/-- The lines of a source, ended by line feeds with or without a carriage return. -/
def sourceLines (s : String) : List String :=
  (dropReturns (splitOn '\n' s.toList)).map String.ofList

end DiagramScript.Text
