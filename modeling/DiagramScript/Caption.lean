import DiagramScript.Shape

/-
  The text of a shape in a drawing.

  A caption says where the first line of text stands, how far the lines are apart, and how
  the letters look. Both drawings of a shape, the scalable and the rastered one, use the same
  caption.
-/

namespace DiagramScript

structure Caption where
  text : String
  /-- The left end, or the middle where the text is centred. -/
  x : Scalar
  /-- The line that the letters of the first line stand on. -/
  y : Scalar
  color : String
  font : Font
  size : Nat
  lineHeight : Scalar
  centered : Bool
  deriving DecidableEq, Repr

namespace Caption

/-- Size of letters times a factor. -/
def scaled (size : Nat) (factor : Scalar) : Except Fault Scalar :=
  (Scalar.whole size).mul factor

/-- Distance from the left and the upper edge of a note to its text. -/
def noteInset : Scalar := 16

/-- A centred label around a point whose first line stands a bit lower. -/
def label (s : Shape) (x y : Scalar) : Except Fault Caption := do
  let lineHeight ← scaled s.fontSize (.ofPlaces 12 1)
  .ok { text := s.title, x, y, color := inkColor, font := s.font, size := s.fontSize
        lineHeight, centered := true }

/-- The label in the middle of a rectangle or an ellipse. -/
def inside (s : Shape) : Except Fault Caption := do
  let halfW ← s.w.half
  let x ← s.x.add halfW
  let halfH ← s.h.half
  let y ← s.y.add halfH
  let drop ← scaled s.fontSize (.ofPlaces 35 2)
  let y ← y.add drop
  label s x y

/-- The body of a text. -/
def body (s : Shape) : Except Fault Caption := do
  let y ← s.y.add (.whole s.fontSize)
  let lineHeight ← scaled s.fontSize (.ofPlaces 125 2)
  .ok { text := s.label, x := s.x, y, color := s.color, font := s.font
        size := s.fontSize, lineHeight, centered := false }

/-- The body of a note. -/
def note (s : Shape) : Except Fault Caption := do
  let x ← s.x.add noteInset
  let y ← s.y.add 24
  let drop ← scaled s.fontSize (.ofPlaces 3 1)
  let y ← y.add drop
  let lineHeight ← scaled s.fontSize (.ofPlaces 12 1)
  .ok { text := s.label, x, y, color := inkColor, font := s.font, size := s.fontSize
        lineHeight, centered := false }

/-- The title of a frame. -/
def frame (s : Shape) : Except Fault Caption := do
  let x ← s.x.add 10
  let y ← s.y.add 20
  .ok { text := s.title, x, y, color := s.color, font := .sans, size := 14
        lineHeight := 18, centered := false }

/-- The label above the middle of a connector. -/
def along (s : Shape) (a b : Point) : Except Fault Caption := do
  let x ← a.x.add b.x
  let x ← x.half
  let y ← a.y.add b.y
  let y ← y.half
  let y ← y.sub 6
  label s x y

/-- A caption, unless the shape has no title. -/
def titled (s : Shape) (caption : Except Fault Caption) : Except Fault (Option Caption) :=
  if s.title.isEmpty then .ok none else some <$> caption

/-- The lines of a caption. -/
def lines (c : Caption) : List String := Text.displayLines c.text

end Caption

end DiagramScript
