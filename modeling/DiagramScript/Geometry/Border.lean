import DiagramScript.Shape

/-
  Where a ray from the middle of a shape leaves the shape.

  An ellipse has its own outline; every other shape has its bounding rectangle, which the
  ray leaves through the edge it reaches first. A padding moves the point further out along
  the ray.
-/

namespace DiagramScript.Border

/-- How far along the ray the outline of an ellipse lies. -/
def ellipseScale (dx dy halfW halfH : Scalar) : Except Fault Scalar := do
  let u ← dx.div halfW
  let v ← dy.div halfH
  let length ← u.hypot v
  Scalar.div 1 length

/-- How far along the ray an edge lies; a ray along the edge never reaches it. -/
def edgeScale (d half : Scalar) : Except Fault Scalar :=
  if d.isZero then .ok (.real (.infinite false)) else half.div d.abs

/-- How far along the ray the nearer edge of a rectangle lies. -/
def rectangleScale (dx dy halfW halfH : Scalar) : Except Fault Scalar := do
  let tx ← edgeScale dx halfW
  let ty ← edgeScale dy halfH
  .ok (if ty.lt tx then ty else tx)

/-- The point at a share of the way along a ray. -/
def along (p : Point) (dx dy scale : Scalar) : Except Fault Point := do
  let ex ← dx.mul scale
  let x ← p.x.add ex
  let ey ← dy.mul scale
  let y ← p.y.add ey
  .ok ⟨x, y⟩

/-- A point moved along a direction by a length. -/
def push (p : Point) (dx dy padding : Scalar) : Except Fault Point :=
  if padding.isZero then .ok p
  else do
    let length ← dx.hypot dy
    let ux ← dx.div length
    let ox ← ux.mul padding
    let x ← p.x.add ox
    let uy ← dy.div length
    let oy ← uy.mul padding
    let y ← p.y.add oy
    .ok ⟨x, y⟩

/-- Where the ray from the middle of a shape towards a point leaves the shape; the middle
itself where the point is the middle. -/
def point (s : Shape) (toward : Point) (padding : Scalar) : Except Fault Point := do
  let b ← s.bounds
  let center ← b.center
  let dx ← toward.x.sub center.x
  let dy ← toward.y.sub center.y
  if dx.isZero && dy.isZero then .ok center
  else do
    let halfW ← b.w.half
    let halfH ← b.h.half
    let scale ←
      if s.kind = .known .ellipse ∧ Scalar.lt 0 halfW ∧ Scalar.lt 0 halfH then
        ellipseScale dx dy halfW halfH
      else rectangleScale dx dy halfW halfH
    let edge ← along center dx dy scale
    push edge dx dy padding

end DiagramScript.Border
