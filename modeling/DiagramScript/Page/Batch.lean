import DiagramScript.Geometry.Border
import DiagramScript.Page
import DiagramScript.Block
import DiagramScript.Report

/-
  Putting instructions on a page.

  A batch of instructions either goes through as a whole or leaves the page as it was, since
  it works on a value of its own. Shapes are created in order; a connector end is resolved
  among the shapes that are there by then. At the end frames go below all other shapes, and
  each frame grows around the shapes whose middle lies in it or near it.
-/

namespace DiagramScript.Page

/-- Gap that a connector leaves to a shape unless another one is asked for. -/
def defaultArrowPadding : Scalar := 8

/-- Room that a grown frame leaves around its shapes. -/
def framePadding : Scalar := 20

/-- How far outside a frame the middle of a shape may lie to count as in the frame. -/
def frameTolerance : Scalar := 200

/-- A text, or another one where it is missing or empty. -/
def orElseText (text : Option String) (other : String) : String :=
  (Content.filled text).getD other

/-- A style with every option set. Notes are yellow unless they say otherwise. -/
def fullStyle (s : Style) (kind : Kind) : Style :=
  { color := some (orElseText s.color (if kind = .note then "yellow" else "black"))
    fill := some (orElseText s.fill "none")
    dash := some (orElseText s.dash "draw")
    font := some (orElseText s.font "draw")
    size := some (orElseText s.size "m") }

/-- The id of a new shape: its own one, which has to be free, or the next one. -/
def newId (p : Page) (custom : Option String) (line : LineNumber) : Except Fault String :=
  match Content.filled custom with
  | none => .ok p.nextId
  | some id =>
    if (p.get? (fullId id)).isSome then
      .error (.document (.duplicateId (fullId id)) line)
    else .ok (fullId id)

/-! ## Shapes -/

/-- Where a new shape goes. -/
def newPosition (p : Page) (i : ShapeInstruction) : Except Fault Point :=
  match i.position with
  | some position => .ok position
  | none => do
    let bottoms ← p.shapes.mapM Shape.bottom
    Bounds.placeBelow bottoms

/-- The shape of an instruction. A frame without a title is called Frame. -/
def newShape (p : Page) (i : ShapeInstruction) : Except Fault Shape := do
  let position ← p.newPosition i
  let size ← Block.sizeOf i
  let label :=
    if i.kind = .frame then orElseText i.label "Frame" else orElseText i.text ""
  let id ← p.newId i.id i.line
  .ok { id, kind := .known i.kind, x := position.x, y := position.y, w := size.w, h := size.h
        label, style := fullStyle i.style i.kind }

/-- Adds the shape of an instruction. -/
def createShape (p : Page) (i : ShapeInstruction) : Report (Page × String) := do
  let s ← p.newShape i
  let p ← p.add s
  Report.tell (.created i.kind s.id s.x s.y s.w s.h)
  return (p, s.id)

/-! ## Connectors -/

/-- What a connector end refers to: a point, and the shape whose middle it is. -/
structure Anchor where
  point : Point
  shape : Option Shape

/-- What a text refers to: a coordinate, or a shape by id or label. -/
def anchor (p : Page) (text : String) (line : LineNumber) : Except Fault Anchor :=
  if Measure.isPosition text.toList then do
    let point ← Measure.position text line
    .ok ⟨point, none⟩
  else
    match p.find? text with
    | none => .error (.resolution text line)
    | some s => do
      let point ← s.center
      .ok ⟨point, some s⟩

/-- Where a connector meets what an end refers to, coming from another point. -/
def Anchor.tip (a : Anchor) (other : Point) (padding : Scalar) : Except Fault Point :=
  match a.shape with
  | none => .ok a.point
  | some s => Border.point s other padding

/-- The connector between two points. -/
def connectorShape (id : String) (i : ConnectorInstruction) (first last : Point) :
    Except Fault Shape := do
  let x := first.x.min last.x
  let y := first.y.min last.y
  let sx ← first.x.sub x
  let sy ← first.y.sub y
  let ex ← last.x.sub x
  let ey ← last.y.sub y
  .ok { id, kind := .known .connector, x, y, label := i.label.getD ""
        style := fullStyle i.style .connector, start := some ⟨sx, sy⟩
        finish := some ⟨ex, ey⟩ }

/-- Binds an end of a connector to the shape that it refers to, if it refers to one. -/
def bindEnd (p : Page) (connector terminal : String) (target : Option Shape) :
    Report Page :=
  match target with
  | none => return p
  | some s => do
    let p ← p.bind { connector, shape := s.id, terminal := .text terminal }
    Report.tell (.bound connector terminal s.id)
    return p

/-- The connector of an instruction and the shapes at its ends. -/
def newConnector (p : Page) (padding : Scalar) (i : ConnectorInstruction) :
    Except Fault (Shape × Option Shape × Option Shape) := do
  let source ← p.anchor i.source i.line
  let target ← p.anchor i.target i.line
  let first ← source.tip target.point padding
  let last ← target.tip source.point padding
  let id ← p.newId i.id i.line
  let s ← connectorShape id i first last
  .ok (s, source.shape, target.shape)

/-- Adds the connector of an instruction and binds its ends. -/
def createConnector (p : Page) (padding : Scalar) (i : ConnectorInstruction) :
    Report (Page × String) := do
  let (s, source, target) ← p.newConnector padding i
  let p ← p.add s
  let p ← p.bindEnd s.id "start" source
  let p ← p.bindEnd s.id "end" target
  return (p, s.id)

/-! ## Frames -/

def isFrame (s : Shape) : Bool := s.kind == .known .frame

/-- The page with frames below all other shapes. -/
def framesToBottom (p : Page) : Except Fault Page :=
  p.reorder (p.layers.filter (isFrame ·.shape) ++ p.layers.filter (! isFrame ·.shape))

/-- Whether a coordinate lies between an edge and the opposite one, both moved out by the
tolerance. -/
def nearSpan (c edge length : Scalar) : Except Fault Bool := do
  let low ← edge.sub frameTolerance
  if low.le c then do
    let far ← edge.add length
    let high ← far.add frameTolerance
    .ok (c.le high)
  else .ok false

/-- Whether the middle of a shape lies in a frame or near it. -/
def isNear (s frame : Shape) : Except Fault Bool := do
  let c ← s.center
  if ← nearSpan c.x frame.x frame.w then nearSpan c.y frame.y frame.h else .ok false

/-- The bounds of the shapes in a frame or near it. -/
def boundsNear (frame : Shape) : List Shape → Except Fault (List Bounds)
  | [] => .ok []
  | s :: rest => do
    if ← isNear s frame then do
      let b ← s.bounds
      let bs ← boundsNear frame rest
      .ok (b :: bs)
    else boundsNear frame rest

/-- The box around a frame and some bounds, which keep their distance from its edges. -/
def enclosing (frame : Shape) (b : Bounds) (bs : List Bounds) : Except Fault Bounds := do
  let left ← (Scalar.minimum b.x (bs.map (·.x))).sub framePadding
  let left := frame.x.min left
  let top ← (Scalar.minimum b.y (bs.map (·.y))).sub framePadding
  let top := frame.y.min top
  let edge ← frame.x.add frame.w
  let first ← b.right
  let others ← bs.mapM Bounds.right
  let right ← (Scalar.maximum first others).add framePadding
  let right := edge.max right
  let edge ← frame.y.add frame.h
  let first ← b.bottom
  let others ← bs.mapM Bounds.bottom
  let bottom ← (Scalar.maximum first others).add framePadding
  let bottom := edge.max bottom
  let w ← right.sub left
  let h ← bottom.sub top
  .ok ⟨left, top, w, h⟩

/-- Whether a shape has the given box already. -/
def hasBox (s : Shape) (b : Bounds) : Bool :=
  b.x.same s.x && b.y.same s.y && b.w.same s.w && b.h.same s.h

/-- A frame grown around the shapes in it or near it. -/
def growFrame (others : List Shape) (frame : Shape) : Report Shape := do
  match ← boundsNear frame others with
  | [] => return frame
  | b :: bs => do
    let box ← enclosing frame b bs
    if hasBox frame box then return frame
    else do
      Report.tell (.expanded frame.id (bs.length + 1))
      return { frame with x := box.x, y := box.y, w := box.w, h := box.h }

/-- Grows frames by their numbers. One that comes up again grows from its new box. -/
def growFrames (others : List Shape) : Page → List Nat → Report Page
  | p, [] => return p
  | p, n :: rest =>
    match p.layers.find? (·.number == n) with
    | none => growFrames others p rest
    | some l => do
      let s ← growFrame others l.shape
      growFrames others (p.replace n s) rest

/-- The page with frames at the bottom and grown, from the lowest layer up. -/
def settleFrames (p : Page) : Report Page := do
  let p ← p.framesToBottom
  let frames := p.layers.filter (isFrame ·.shape)
  growFrames (p.shapes.filter (! isFrame ·)) p (frames.map (·.number))

/-! ## Batches -/

/-- Adds what an instruction asks for. -/
def create (padding : Scalar) (p : Page) : Instruction → Report (Page × String)
  | .shape i => p.createShape i
  | .connector i => p.createConnector padding i

/-- Adds what instructions ask for, in order, and lists the new ids. -/
def createAll (padding : Scalar) : Page → List Instruction → Report (Page × List String)
  | p, [] => return (p, [])
  | p, i :: is => do
    let (p, id) ← create padding p i
    let (p, ids) ← createAll padding p is
    return (p, id :: ids)

/-- Puts a batch of instructions on a page. -/
def apply (p : Page) (padding : Scalar) (is : List Instruction) :
    Report (Page × List String) := do
  let (p, ids) ← createAll padding p.copy is
  let p ← p.settleFrames
  Report.tell (.materialized ids.length)
  return (p, ids)

end DiagramScript.Page
