/-
  Numbers of lines, as statements and messages carry them.

  Readers of a source count its lines from 1; input that has no lines counts as line 0, and
  a reader may not count at all. A message names its line unless that is 0 or missing.
-/

namespace DiagramScript

/-- The number of a line as its reader counts; none where it does not. -/
abbrev LineNumber := Option Int

namespace LineNumber

/-- The line of input that has no lines. -/
def unnumbered : LineNumber := some 0

/-- A message with the line it is about. -/
def onMessage (line : LineNumber) (text : String) : String :=
  match line with
  | some n => if n = 0 then text else "Line " ++ toString n ++ ": " ++ text
  | none => text

end LineNumber

end DiagramScript
