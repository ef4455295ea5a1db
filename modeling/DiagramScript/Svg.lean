import DiagramScript.Caption
import DiagramScript.Svg.Element
import DiagramScript.Viewport

/-
  Scalable drawings.

  A drawing is a document element with the mark of connector tips, a background rectangle and
  a group with the elements of the shapes, lowest first. Shapes of foreign kinds are left out.
  The numbers of a viewport and of the lines of a caption are written at once, all others when
  the whole tree is there.
-/

namespace DiagramScript.Svg

/-- A number that is written at once; a whole one has no point. -/
def number (v : Scalar) : Except Fault String :=
  if v.isWritable then .ok v.simplify.write else ArithmeticProblem.tooLongToWrite.fail

/-- The place and the size of a rectangle. -/
def boxAttributes (x y w h : Scalar) : List (String × Attribute) :=
  [("x", .number x), ("y", .number y), ("width", .number w), ("height", .number h)]

/-- The rounding of the corners of a rectangle. -/
def cornerAttributes (radius : Nat) : List (String × Attribute) :=
  [("rx", toString radius), ("ry", toString radius)]

/-- The outline of a shape. -/
def strokeAttributes (s : Shape) : List (String × Attribute) :=
  ("stroke", s.color) :: ("stroke-width", s.strokeWidth.write) ::
    (match dashPattern? s.style.dash with
    | some pattern => [("stroke-dasharray", pattern)]
    | none => [])

/-- The inside of a shape. -/
def fillAttributes (color fill : Option String) : List (String × Attribute) :=
  match coverOf fill with
  | .clear => [("fill", "none")]
  | .wash => [("fill", colorValue color), ("fill-opacity", "0.2")]
  | .full => [("fill", colorValue color)]

/-! ## Texts -/

/-- A line of a caption: the first one at its place, another one below the line before. -/
def line (c : Caption) (first : Bool) (text : String) : Except Fault Element := do
  let x ← number c.x
  let down ← number (if first then c.y else c.lineHeight)
  .ok (.leaf "tspan" [("x", .text x), (if first then "y" else "dy", .text down)] text)

/-- The lines of a caption. -/
def captionLines (c : Caption) : Except Fault (List Element) :=
  match c.lines with
  | [] => .ok []
  | first :: rest => do
    let first ← line c true first
    let rest ← rest.mapM (line c false)
    .ok (first :: rest)

def caption (c : Caption) : Except Fault Element := do
  let lines ← captionLines c
  .ok (.group "text"
    [("fill", c.color), ("font-family", c.font.family), ("font-size", toString c.size),
      ("text-anchor", if c.centered then "middle" else "start")]
    lines)

/-- A body with the caption on it, if there is one. -/
def withCaption (body : Element) (c : Option Caption) : Except Fault (List Element) :=
  match c with
  | none => .ok [body]
  | some c => do
    let text ← caption c
    .ok [body, text]

/-! ## Shapes -/

/-- Radius of the corners of rectangles. -/
def rectangleRadius : Nat := 8

def noteRadius : Nat := 12

def frameRadius : Nat := 10

def rectangle (s : Shape) : Except Fault (List Element) := do
  let _ ← Caption.inside s
  let body := Element.group "rect"
    (boxAttributes s.x s.y s.w s.h ++ cornerAttributes rectangleRadius ++
      strokeAttributes s ++ fillAttributes s.style.color s.style.fill) []
  let c ← Caption.titled s (Caption.inside s)
  withCaption body c

def ellipse (s : Shape) : Except Fault (List Element) := do
  let rx ← s.w.half
  let cx ← s.x.add rx
  let ry ← s.h.half
  let cy ← s.y.add ry
  let body := Element.group "ellipse"
    (("cx", .number cx) :: ("cy", .number cy) :: ("rx", .number rx) :: ("ry", .number ry) ::
      strokeAttributes s ++ fillAttributes s.style.color s.style.fill) []
  let c ← Caption.titled s (Caption.inside s)
  withCaption body c

def text (s : Shape) : Except Fault (List Element) := do
  let c ← Caption.body s
  let text ← caption c
  .ok [text]

/-- The thin outline of notes and frames. -/
def thinStroke (s : Shape) : List (String × Attribute) :=
  [("stroke", s.color), ("stroke-width", "2")]

/-- A note is washed with its colour whatever fill it asks for. -/
def note (s : Shape) : Except Fault (List Element) := do
  let body := Element.group "rect"
    (boxAttributes s.x s.y s.w s.h ++ cornerAttributes noteRadius ++
      thinStroke s ++ fillAttributes s.style.color (some "semi")) []
  let c ← Caption.note s
  withCaption body (some c)

def frame (s : Shape) : Except Fault (List Element) := do
  let body := Element.group "rect"
    (("fill", "none") :: ("stroke-dasharray", "10 6") ::
      (boxAttributes s.x s.y s.w s.h ++ cornerAttributes frameRadius ++ thinStroke s)) []
  let c ← Caption.titled s (Caption.frame s)
  withCaption body c

/-- A connector that lacks an end is not drawn. -/
def connector (s : Shape) : Except Fault (List Element) := do
  match ← s.absolute? s.start, ← s.absolute? s.finish with
  | some a, some b => do
    let body := Element.group "line"
      (("x1", .number a.x) :: ("y1", .number a.y) :: ("x2", .number b.x) ::
        ("y2", .number b.y) :: ("color", s.color) :: ("marker-end", "url(#arrowhead)") ::
        strokeAttributes s) []
    let c ← Caption.titled s (Caption.along s a b)
    withCaption body c
  | _, _ => .ok []

/-- The elements of a shape. -/
def shape (s : Shape) : Except Fault (List Element) :=
  match s.kind with
  | .known .rectangle => rectangle s
  | .known .ellipse => ellipse s
  | .known .text => text s
  | .known .note => note s
  | .known .frame => frame s
  | .known .connector => connector s
  | .foreign _ => .ok []

/-- The shapes that drawings leave out. -/
def unsupported (shapes : List Shape) : List Shape :=
  shapes.filter fun s => match s.kind with
    | .foreign _ => true
    | .known _ => false

/-! ## Documents -/

/-- The mark at the tip of connectors. -/
def arrowhead : Element :=
  .group "marker"
    [("id", "arrowhead"), ("refX", "8"), ("refY", "4"), ("markerWidth", "10"),
      ("markerHeight", "8"), ("orient", "auto"), ("markerUnits", "strokeWidth")]
    [.group "path" [("d", "M0,0 L10,4 L0,8 z"), ("fill", "currentColor")] []]

/-- The numbers of a viewport. -/
def viewBox (v : Viewport) : Except Fault String := do
  let numbers ← [v.x, v.y, v.width, v.height].mapM number
  .ok (" ".intercalate numbers)

/-- The attributes of the document. -/
def documentAttributes (v : Viewport) (box : String) : List (String × Attribute) :=
  [("aria-label", "diagram export"), ("role", "img"), ("version", "1.1"),
    ("baseProfile", "full"), ("width", .number v.width), ("height", .number v.height),
    ("viewBox", box), ("xmlns", "http://www.w3.org/2000/svg"),
    ("xmlns:ev", "http://www.w3.org/2001/xml-events"),
    ("xmlns:xlink", "http://www.w3.org/1999/xlink")]

/-- The tree of a drawing. -/
def document (shapes : List Shape) (background : String) (padding : Scalar) :
    Except Fault Element := do
  let v ← Viewport.ofShapes shapes padding
  let box ← viewBox v
  let groups ← shapes.mapM shape
  .ok (.group "svg" (documentAttributes v box)
    [.group "defs" [] [arrowhead],
      .group "rect" (("fill", background) :: boxAttributes v.x v.y v.width v.height) [],
      .group "g" [("color", inkColor)] groups.flatten])

/-- The text of a drawing. -/
def render (shapes : List Shape) (background : String) (padding : Scalar) :
    Except Fault String := do
  let tree ← document shapes background padding
  if tree.isWritable then .ok (String.ofList tree.write)
  else ArithmeticProblem.tooLongToWrite.fail

end DiagramScript.Svg
