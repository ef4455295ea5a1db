/-
  Blanks: the characters that separate words and are stripped from the ends of a text.

  The class is that of the white space characters of the character standard together with
  the four information separators U+001C to U+001F.
-/

namespace DiagramScript.Text

/-- Whether a character is a blank. -/
def isBlank (c : Char) : Bool :=
  let n := c.toNat
  (0x09 ≤ n && n ≤ 0x0D) || (0x1C ≤ n && n ≤ 0x20) || n == 0x85 || n == 0xA0 ||
    n == 0x1680 || (0x2000 ≤ n && n ≤ 0x200A) || n == 0x2028 || n == 0x2029 ||
    n == 0x202F || n == 0x205F || n == 0x3000

def skipBlanks (cs : List Char) : List Char := cs.dropWhile isBlank

/-- A text without the blanks at its end. -/
def dropTrailingBlanks (cs : List Char) : List Char := (skipBlanks cs.reverse).reverse

/-- A text without the blanks at its two ends. -/
def stripChars (cs : List Char) : List Char := dropTrailingBlanks (skipBlanks cs)

/-- A text without the blanks at its two ends. -/
def strip (s : String) : String := String.ofList (stripChars s.toList)

/-- The first run of characters that are not blank; empty where there is none. -/
def firstWord (cs : List Char) : List Char := (skipBlanks cs).takeWhile (!isBlank ·)

end DiagramScript.Text
