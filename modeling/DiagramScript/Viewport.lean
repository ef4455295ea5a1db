import DiagramScript.Settings
import DiagramScript.Shape

/-
  The part of the canvas that a drawing shows.

  It is the union of the bounds of all shapes with a padding around it. Its width and height
  are whole and not below a least size, and a drawing without shapes has that least size.
-/

namespace DiagramScript

structure Viewport where
  x : Scalar
  y : Scalar
  width : Scalar
  height : Scalar
  deriving DecidableEq, Repr

namespace Viewport

def minWidth : Scalar := 200

def minHeight : Scalar := 120

/-- A length from one coordinate to another with a padding at both ends, rounded up to a
whole number that is not below the least one. -/
def length (least low high padding : Scalar) : Except Fault Scalar := do
  let extent ← high.sub low
  let both ← padding.mul 2
  let padded ← extent.add both
  let n ← padded.ceil
  .ok (least.max (.whole n))

/-- The edges of the union of some bounds. -/
structure Extent where
  left : Scalar
  top : Scalar
  right : Scalar
  bottom : Scalar
  deriving DecidableEq, Repr

/-- The union of some bounds. -/
def union (b : Bounds) (bs : List Bounds) : Except Fault Extent := do
  let left := Scalar.minimum b.x (bs.map (·.x))
  let top := Scalar.minimum b.y (bs.map (·.y))
  let first ← b.right
  let others ← bs.mapM Bounds.right
  let right := Scalar.maximum first others
  let first ← b.bottom
  let others ← bs.mapM Bounds.bottom
  let bottom := Scalar.maximum first others
  .ok ⟨left, top, right, bottom⟩

/-- The union of the bounds of some shapes, if there are any. -/
def extent? (shapes : List Shape) : Except Fault (Option Extent) := do
  match ← shapes.mapM Shape.bounds with
  | [] => .ok none
  | b :: bs => some <$> union b bs

/-- The viewport around an extent. -/
def around (e : Option Extent) (padding : Scalar) : Except Fault Viewport :=
  match e with
  | none => .ok ⟨padding.neg, padding.neg, minWidth, minHeight⟩
  | some e => do
    let x ← e.left.sub padding
    let y ← e.top.sub padding
    let width ← length minWidth e.left e.right padding
    let height ← length minHeight e.top e.bottom padding
    .ok ⟨x, y, width, height⟩

/-- The viewport of some shapes. -/
def ofShapes (shapes : List Shape) (padding : Scalar) : Except Fault Viewport := do
  let e ← extent? shapes
  around e padding

/-- The viewport of some shapes with a padding that may be any value. It is first looked at
when the extent of the shapes is known, and has to be a number. -/
def ofSetting (shapes : List Shape) (padding : Value) : Except Fault Viewport := do
  let e ← extent? shapes
  match Settings.number? padding with
  | some padding => around e padding
  | none => .error .unusableValue

end Viewport

end DiagramScript
