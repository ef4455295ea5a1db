import DiagramScript.Style
import DiagramScript.Shape.Kind
import DiagramScript.Geometry.Point

/-
  The words that style options may be, and what each stands for in a drawing.

  Layout, label measurement and both drawings read these tables, so that a label fits the
  box that was reserved for it.
-/

namespace DiagramScript

/-- Colours by name. -/
def palette : List (String × String) := [
  ("black", "#1f1f1f"),
  ("grey", "#6b7280"),
  ("light-violet", "#c6a4ff"),
  ("violet", "#7048e8"),
  ("blue", "#2b6cf5"),
  ("light-blue", "#7da8ff"),
  ("yellow", "#f6c344"),
  ("orange", "#f08c00"),
  ("green", "#2f9e44"),
  ("light-green", "#73d08b"),
  ("light-red", "#ff8a8a"),
  ("red", "#e03131"),
  ("white", "#ffffff")]

def colorNames : List String := palette.map (·.1)

/-- The colour of labels and of shapes without a colour. -/
def inkColor : String := "#1f1f1f"

/-- The colour that a style names. A name outside the palette is a literal colour, and no
name or an empty one is the colour of ink. -/
def colorValue (color : Option String) : String :=
  match color with
  | none => inkColor
  | some name => if name.isEmpty then inkColor else (palette.lookup name).getD name

/-! ## Sizes of text -/

/-- Tiers of text size. -/
inductive Tier where
  | small
  | medium
  | large
  | extraLarge
  deriving DecidableEq, Repr

namespace Tier

def all : List Tier := [small, medium, large, extraLarge]

def name : Tier → String
  | small => "s"
  | medium => "m"
  | large => "l"
  | extraLarge => "xl"

def names : List String := all.map name

def ofName? (word : String) : Option Tier := all.find? (·.name == word)

/-- The tier of an option; the medium one where it names none. -/
def ofOption (word : Option String) : Tier := (word.bind ofName?).getD medium

/-- Distance between the lines of a measured text. -/
def lineHeight : Tier → Nat
  | small => 22
  | medium => 28
  | large => 36
  | extraLarge => 44

/-- Size of the letters in a drawing. -/
def fontSize : Tier → Nat
  | small => 14
  | medium => 18
  | large => 24
  | extraLarge => 30

/-- Width of outlines and lines in a drawing. -/
def strokeWidth : Tier → Scalar
  | small => .ofPlaces 15 1
  | medium => 2
  | large => .ofPlaces 25 1
  | extraLarge => 3

/-- Size of a note. -/
def noteSize : Tier → Size
  | small => ⟨180, 140⟩
  | medium => ⟨220, 180⟩
  | large => ⟨280, 240⟩
  | extraLarge => ⟨340, 300⟩

end Tier

/-! ## Fonts -/

/-- Families of fonts. -/
inductive Font where
  | draw
  | mono
  | sans
  | serif
  deriving DecidableEq, Repr

namespace Font

def all : List Font := [draw, mono, sans, serif]

def name : Font → String
  | draw => "draw"
  | mono => "mono"
  | sans => "sans"
  | serif => "serif"

def names : List String := all.map name

def ofName? (word : String) : Option Font := all.find? (·.name == word)

/-- The font of an option; the drawn one where it names none. -/
def ofOption (word : Option String) : Font := (word.bind ofName?).getD draw

/-- The list of font names that a drawing asks for. -/
def family : Font → String
  | draw => "\"Comic Sans MS\", \"Bradley Hand\", cursive"
  | mono => "\"Menlo\", \"Monaco\", \"Courier New\", monospace"
  | sans => "\"Arial\", \"Helvetica\", sans-serif"
  | serif => "\"Georgia\", \"Times New Roman\", serif"

/-- Twice the width that an average letter takes. -/
def letterHalves : Font → Tier → Nat
  | draw, .small => 20
  | draw, .medium => 28
  | draw, .large => 34
  | draw, .extraLarge => 44
  | mono, .small => 17
  | mono, .medium => 22
  | mono, .large => 28
  | mono, .extraLarge => 34
  | sans, .small | serif, .small => 16
  | sans, .medium | serif, .medium => 21
  | sans, .large | serif, .large => 26
  | sans, .extraLarge | serif, .extraLarge => 32

end Font

/-! ## Fills and dashes -/

def fillNames : List String := ["none", "semi", "solid", "pattern"]

def dashNames : List String := ["draw", "solid", "dashed", "dotted"]

/-- How much a fill covers what lies below it. -/
inductive Cover where
  | clear
  | wash
  | full
  deriving DecidableEq, Repr

/-- The cover of a fill option. Words outside the vocabulary leave a shape clear. -/
def coverOf (fill : Option String) : Cover :=
  match fill with
  | some "semi" | some "pattern" => .wash
  | some "solid" => .full
  | _ => .clear

/-- The pattern of strokes and gaps of a dash option; none for an unbroken line. -/
def dashPattern? (dash : Option String) : Option String :=
  match dash with
  | some "dashed" => some "8 6"
  | some "dotted" => some "2 6"
  | _ => none

/-! ## Sizes of shapes -/

/-- The size of a shape without a size of its own. A connector has none. -/
def defaultSize : Kind → Size
  | .rectangle => ⟨220, 120⟩
  | .ellipse => ⟨120, 120⟩
  | .text => ⟨280, 40⟩
  | .note => ⟨220, 180⟩
  | .frame => ⟨460, 260⟩
  | .connector => ⟨0, 0⟩

end DiagramScript
