import DiagramScript.Style.Vocabulary
import DiagramScript.Text.Letter
import DiagramScript.Text.Lines

/-
  The room that a label takes.

  No font is at hand, so a label is measured by counting: its longest line at the average
  width of a letter, its lines at the line height of the text size, and a margin on every
  side. Widths are counted in half units, since the table of letters has halves.
-/

namespace DiagramScript.Label

/-- Margin left and right of a label together. -/
def marginWidth : Nat := 56

/-- Margin above and below a label together. -/
def marginHeight : Nat := 44

/-- Number of letters of the longest line. -/
def longestLine (text : String) : Nat :=
  ((Text.splitOn '\n' text.toList).map Text.letterCount).foldl Nat.max 0

/-- Width of the box of a label, rounded up. -/
def width (text : String) (tier : Tier) (font : Font) : Nat :=
  (longestLine text * font.letterHalves tier + 1) / 2 + marginWidth

/-- Height of the box of a label. -/
def height (text : String) (tier : Tier) : Nat :=
  Text.lineCount text * tier.lineHeight + marginHeight

/-- The smallest box that keeps a label inside its margins. -/
def box (text : String) (tier : Tier) (font : Font) : Size :=
  ⟨.whole (width text tier font), .whole (height text tier)⟩

end DiagramScript.Label
