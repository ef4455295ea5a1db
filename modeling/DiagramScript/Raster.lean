import DiagramScript.Caption
import DiagramScript.Color
import DiagramScript.Settings
import DiagramScript.Viewport

/-
  Rastered drawings as lists of drawing calls.

  The calls make an image of the viewport at a scale, and draw the same bodies and captions
  on it as a scalable drawing does, lowest shape first. Dash patterns are not drawn. A list
  of calls can be made for any image (`calls`); drawing it also needs numbers that fit the
  words of an image, and looks at every call when it is made (`drawnCalls`).
-/

namespace DiagramScript.Raster

/-- Left, top, right and bottom edge in image units. -/
structure Edges where
  left : Scalar
  top : Scalar
  right : Scalar
  bottom : Scalar
  deriving DecidableEq, Repr

/-- A drawing call. -/
inductive Call where
  | newImage (width height : Int) (background : Rgb)
  | beginDrawing
  | ellipse (box : Edges) (fill : Option Rgba) (outline : Rgba) (width : Int)
  | rounded (box : Edges) (radius : Scalar) (fill : Option Rgba) (outline : Rgba)
      (width : Int)
  | line (first last : Point) (color : Rgba) (width : Int)
  | polygon (points : List Point) (color : Rgba)
  | text (place : Point) (line : String) (color : Rgba) (size : Int)
  deriving DecidableEq, Repr

/-- How the canvas maps to the image. -/
structure Mapping where
  viewport : Viewport
  scale : Scalar

namespace Mapping

/-- A point of the canvas on the image. -/
def point (m : Mapping) (x y : Scalar) : Except Fault Point := do
  let dx ← x.sub m.viewport.x
  let px ← dx.mul m.scale
  let dy ← y.sub m.viewport.y
  let py ← dy.mul m.scale
  .ok ⟨px, py⟩

/-- The box of a shape on the image; it has no negative extent. -/
def edges (m : Mapping) (s : Shape) : Except Fault Edges := do
  let corner ← m.point s.x s.y
  let right ← s.x.add s.w
  let bottom ← s.y.add s.h
  let far ← m.point right bottom
  .ok ⟨corner.x, corner.y, corner.x.max far.x, corner.y.max far.y⟩

/-- A length in whole image units, at least 1. -/
def wholeLength (m : Mapping) (v : Scalar) : Except Fault Int := do
  let scaled ← v.mul m.scale
  let n ← scaled.round
  .ok (max 1 n)

end Mapping

/-! ## Texts -/

/-- Share of the size of letters that lies above the line they stand on. -/
def ascent : Scalar := .ofPlaces 8 1

/-- Half the width of a line of text, a letter being taken as half as wide as high. -/
def halfWidth (line : String) (size : Int) : Except Fault Scalar := do
  let letters ← (Scalar.whole (Text.letterCount line.toList)).mul (.whole size)
  let width ← letters.half
  width.half

/-- The call for one line of a caption, which has a number. -/
def captionLine (m : Mapping) (c : Caption) (size : Int) (index : Nat) (line : String) :
    Except Fault Call := do
  let down ← (Scalar.whole index).mul c.lineHeight
  let base ← c.y.add down
  let rise ← (Scalar.whole c.size).mul ascent
  let top ← base.sub rise
  let place ← m.point c.x top
  let color := Color.opaqueOf c.color
  if c.centered then do
    let half ← halfWidth line size
    let left ← place.x.sub half
    .ok (.text ⟨left, place.y⟩ line color size)
  else .ok (.text place line color size)

/-- The calls for a caption. Empty lines are left out but keep their room. -/
def caption (m : Mapping) (c : Caption) : Except Fault (List Call) := do
  let size ← m.wholeLength (.whole c.size)
  (c.lines.zipIdx.filter (! ·.1.isEmpty)).mapM fun (line, index) =>
    captionLine m c size index line

/-- The calls for a caption that may be missing. -/
def caption? (m : Mapping) (c : Option Caption) : Except Fault (List Call) :=
  match c with
  | none => .ok []
  | some c => caption m c

/-! ## Shapes -/

/-- A radius of corners on the image. -/
def radius (m : Mapping) (r : Nat) : Except Fault Scalar := (Scalar.whole r).mul m.scale

def rectangle (m : Mapping) (s : Shape) : Except Fault (List Call) := do
  let width ← m.wholeLength s.strokeWidth
  let box ← m.edges s
  let r ← radius m 8
  let body := Call.rounded box r (Color.fillOf s.style.color s.style.fill)
    (Color.opaqueOf s.color) width
  let c ← Caption.titled s (Caption.inside s)
  let texts ← caption? m c
  .ok (body :: texts)

def ellipse (m : Mapping) (s : Shape) : Except Fault (List Call) := do
  let width ← m.wholeLength s.strokeWidth
  let box ← m.edges s
  let body := Call.ellipse box (Color.fillOf s.style.color s.style.fill)
    (Color.opaqueOf s.color) width
  let c ← Caption.titled s (Caption.inside s)
  let texts ← caption? m c
  .ok (body :: texts)

def text (m : Mapping) (s : Shape) : Except Fault (List Call) := do
  let c ← Caption.body s
  caption m c

def note (m : Mapping) (s : Shape) : Except Fault (List Call) := do
  let box ← m.edges s
  let r ← radius m 12
  let width ← m.wholeLength 2
  let body := Call.rounded box r (Color.fillOf s.style.color (some "semi"))
    (Color.opaqueOf s.color) width
  let c ← Caption.note s
  let texts ← caption m c
  .ok (body :: texts)

def frame (m : Mapping) (s : Shape) : Except Fault (List Call) := do
  let box ← m.edges s
  let r ← radius m 10
  let width ← m.wholeLength 2
  let body := Call.rounded box r none (Color.opaqueOf s.color) width
  let c ← Caption.titled s (Caption.frame s)
  let texts ← caption? m c
  .ok (body :: texts)

/-- Moves a coordinate along a unit vector by a factor of the stroke width. -/
def reach (unit factor stroke : Scalar) : Except Fault Scalar := do
  let v ← unit.mul factor
  v.mul stroke

/-- The tip of a connector: it reaches two stroke widths past the end, eight back, and four
to each side. A connector without length has none. -/
def arrowhead (m : Mapping) (a b : Point) (stroke : Scalar) (color : Rgba) :
    Except Fault (List Call) := do
  let dx ← b.x.sub a.x
  let dy ← b.y.sub a.y
  let length ← dx.hypot dy
  if length.isZero then .ok []
  else do
    let ux ← dx.div length
    let uy ← dy.div length
    let vx ← reach ux 2 stroke
    let tipX ← b.x.add vx
    let vy ← reach uy 2 stroke
    let tipY ← b.y.add vy
    let vx ← reach ux 8 stroke
    let baseX ← b.x.sub vx
    let vy ← reach uy 8 stroke
    let baseY ← b.y.sub vy
    let half ← (4 : Scalar).mul stroke
    let tip ← m.point tipX tipY
    let sideX ← uy.mul half
    let sideY ← ux.mul half
    let x ← baseX.sub sideX
    let y ← baseY.add sideY
    let left ← m.point x y
    let x ← baseX.add sideX
    let y ← baseY.sub sideY
    let right ← m.point x y
    .ok [.polygon [tip, left, right] color]

/-- A connector that lacks an end is not drawn. -/
def connector (m : Mapping) (s : Shape) : Except Fault (List Call) := do
  match ← s.absolute? s.start, ← s.absolute? s.finish with
  | some a, some b => do
    let color := Color.opaqueOf s.color
    let first ← m.point a.x a.y
    let last ← m.point b.x b.y
    let width ← m.wholeLength s.strokeWidth
    let head ← arrowhead m a b s.strokeWidth color
    let c ← Caption.titled s (Caption.along s a b)
    let texts ← caption? m c
    .ok (.line first last color width :: (head ++ texts))
  | _, _ => .ok []

/-- The calls for a shape. -/
def shape (m : Mapping) (s : Shape) : Except Fault (List Call) :=
  match s.kind with
  | .known .rectangle => rectangle m s
  | .known .ellipse => ellipse m s
  | .known .text => text m s
  | .known .note => note m s
  | .known .frame => frame m s
  | .known .connector => connector m s
  | .foreign _ => .ok []

/-- Whether there are calls for shapes of a kind. -/
def draws : ShapeKind → Bool
  | .known .rectangle | .known .ellipse | .known .text | .known .note | .known .frame
  | .known .connector => true
  | .foreign _ => false

/-- The shapes that images leave out. -/
def unsupported (shapes : List Shape) : List Shape := shapes.filter (! draws ·.kind)

/-! ## Images -/

/-- A side of the image in whole units, at least 1. -/
def side (length scale : Scalar) : Except Fault Int := do
  let scaled ← length.mul scale
  let n ← scaled.ceil
  .ok (max 1 n)

/-- The drawing calls for some shapes, each call looked at before the next shape. -/
def callsWith (look : Call → Except Fault Unit) (shapes : List Shape) (background : Value)
    (padding scale : Scalar) : Except Fault (List Call) := do
  let v ← Viewport.ofShapes shapes padding
  let width ← side v.width scale
  let height ← side v.height scale
  let background ← Settings.backgroundColor background
  let first := Call.newImage width height (Color.ofText background)
  look first
  let groups ← shapes.mapM fun s => do
    let group ← shape ⟨v, scale⟩ s
    group.forM look
    .ok group
  .ok (first :: .beginDrawing :: groups.flatten)

/-- The drawing calls for some shapes. -/
def calls : List Shape → Value → Scalar → Scalar → Except Fault (List Call) :=
  callsWith fun _ => .ok ()

/-! ## Drawing -/

/-- The first whole number past a word of 32 bits. -/
def wordLimit : Int := 2147483648

/-- The first whole number past a word of 64 bits. -/
def longLimit : Int := 9223372036854775808

/-- The widest image that is given memory. -/
def widest : Int := 536870910

def refuse (p : ImageProblem) : Except Fault Unit := .error (.image p)

/-- A number has to fit a word. -/
def checkWord (n : Int) : Except Fault Unit :=
  if n < wordLimit then .ok () else refuse (if n < longLimit then .pastWord else .pastLong)

/-- The parts of a colour have to fit words, and red a long one. -/
def checkColor (c : Rgb) : Except Fault Unit := do
  if longLimit ≤ c.red then refuse .pastLongLong
  checkWord c.green
  checkWord c.blue

/-- What a call needs to be carried out. An outline is looked at before what it surrounds. -/
def Call.check : Call → Except Fault Unit
  | .newImage width height background => do
    checkWord width
    checkWord height
    if widest < width then refuse .tooWide
    checkColor background
  | .beginDrawing => .ok ()
  | .ellipse _ fill outline _ | .rounded _ _ fill outline _ => do
    checkColor outline.rgb
    match fill with
    | some c => checkColor c.rgb
    | none => .ok ()
  | .line _ _ color _ | .polygon _ color | .text _ _ color _ => checkColor color.rgb

/-- The drawing calls for some shapes, carried out one by one. -/
def drawnCalls : List Shape → Value → Scalar → Scalar → Except Fault (List Call) :=
  callsWith Call.check

/-- Width and height of the image that calls make. -/
def imageSize (calls : List Call) : Int × Int :=
  match calls with
  | .newImage width height _ :: _ => (width, height)
  | _ => (0, 0)

end DiagramScript.Raster
