/-
  Style options of a statement or a shape.

  Every option may be left out. Statements only carry options of the known vocabularies;
  shapes that come from elsewhere may carry any text, which drawing then treats as the
  default or, for a colour, as a literal colour.
-/

namespace DiagramScript

structure Style where
  color : Option String := none
  fill : Option String := none
  dash : Option String := none
  font : Option String := none
  size : Option String := none
  deriving DecidableEq, Repr

namespace Style

def empty : Style := {}

/-- The options that are set, by name. -/
def entries (s : Style) : List (String × String) :=
  [("color", s.color), ("fill", s.fill), ("dash", s.dash), ("font", s.font),
    ("size", s.size)].filterMap fun (key, value) => value.map (key, ·)

/-- The style that takes its options from a table. -/
def ofTable (get : String → Option String) : Style :=
  { color := get "color", fill := get "fill", dash := get "dash", font := get "font"
    size := get "size" }

end Style

end DiagramScript
