import DiagramScript.Geometry.Bounds
import DiagramScript.Style.Vocabulary
import DiagramScript.Text.Lines
import DiagramScript.Text.Blank

/-
  Shapes on a page.

  A shape has a place, a size, a text and a style. A connector keeps its two ends relative to
  its place and has no size. Bounds are read off these fields each time they are asked for.
-/

namespace DiagramScript

structure Shape where
  id : String
  kind : ShapeKind
  x : Scalar := 0
  y : Scalar := 0
  w : Scalar := 0
  h : Scalar := 0
  /-- The label, the title of a frame, or the body of a text or a note. -/
  label : String := ""
  style : Style := {}
  /-- The first end of a connector, relative to its place. -/
  start : Option Point := none
  /-- The last end of a connector, relative to its place. -/
  finish : Option Point := none
  deriving DecidableEq, Repr

/-- The narrowest a text can be. -/
def minTextWidth : Scalar := 40

namespace Shape

/-- An offset from the place of a shape as a point of the canvas. -/
def absolute (s : Shape) (offset : Point) : Except Fault Point := do
  let x ← s.x.add offset.x
  let y ← s.y.add offset.y
  .ok ⟨x, y⟩

/-- An end of a connector on the canvas, if it has one. -/
def absolute? (s : Shape) (offset : Option Point) : Except Fault (Option Point) :=
  match offset with
  | none => .ok none
  | some p => some <$> s.absolute p

/-- An end of a connector on the canvas; its place where the end is missing. -/
def absoluteOrPlace (s : Shape) (offset : Option Point) : Except Fault Point :=
  match offset with
  | none => .ok ⟨s.x, s.y⟩
  | some p => s.absolute p

/-- The box between two points, at least 1 wide and high. -/
def span (a b : Point) : Except Fault Bounds := do
  let dx ← b.x.sub a.x
  let dy ← b.y.sub a.y
  .ok ⟨a.x.min b.x, a.y.min b.y, Scalar.max 1 dx.abs, Scalar.max 1 dy.abs⟩

/-- The bounding box: a text is as high as its lines, a connector spans its ends, and a
shape of a foreign kind is empty. -/
def bounds (s : Shape) : Except Fault Bounds :=
  match s.kind with
  | .known .connector => do
    let a ← s.absoluteOrPlace s.start
    let b ← s.absoluteOrPlace s.finish
    span a b
  | .known .text =>
    .ok ⟨s.x, s.y, minTextWidth.max s.w,
      .whole (Text.lineCount s.label * (Tier.ofOption s.style.size).lineHeight)⟩
  | .known _ => .ok ⟨s.x, s.y, s.w, s.h⟩
  | .foreign _ => .ok ⟨s.x, s.y, 0, 0⟩

/-- The middle of the bounding box. -/
def center (s : Shape) : Except Fault Point := do
  let b ← s.bounds
  b.center

/-- The lower edge of the bounding box. -/
def bottom (s : Shape) : Except Fault Scalar := do
  let b ← s.bounds
  b.bottom

/-- The label without blanks around it. -/
def title (s : Shape) : String := Text.strip s.label

/-- Size of the letters in a drawing. -/
def fontSize (s : Shape) : Nat := (Tier.ofOption s.style.size).fontSize

/-- Family of the letters in a drawing. -/
def font (s : Shape) : Font := Font.ofOption s.style.font

/-- Width of the outline in a drawing. -/
def strokeWidth (s : Shape) : Scalar := (Tier.ofOption s.style.size).strokeWidth

/-- Colour of the shape in a drawing. -/
def color (s : Shape) : String := colorValue s.style.color

end Shape

end DiagramScript
