import DiagramScript.Number.Arithmetic

/-
  Bounding boxes with sides along the axes.
-/

namespace DiagramScript

structure Bounds where
  x : Scalar
  y : Scalar
  w : Scalar
  h : Scalar
  deriving DecidableEq, Repr

namespace Bounds

def right (b : Bounds) : Except Fault Scalar := b.x.add b.w

def bottom (b : Bounds) : Except Fault Scalar := b.y.add b.h

/-- The point in the middle; halves make it a floating-point one. -/
def center (b : Bounds) : Except Fault Point := do
  let dx ← b.w.half
  let x ← b.x.add dx
  let dy ← b.h.half
  let y ← b.y.add dy
  .ok ⟨x, y⟩

/-- Room left between what is on a page and a shape placed below it. -/
def placementGap : Scalar := 40

/-- Where a shape without a position goes: at the left edge below everything else, on a
whole coordinate. -/
def placeBelow (bottoms : List Scalar) : Except Fault Point :=
  match bottoms with
  | [] => .ok ⟨0, 0⟩
  | b :: rest => do
    let y ← (Scalar.maximum b rest).add placementGap
    let y ← y.ceil
    .ok ⟨0, .whole y⟩

/-- Where a shape goes that is placed below some boxes. -/
def below (bs : List Bounds) : Except Fault Point := do
  let bottoms ← bs.mapM bottom
  placeBelow bottoms

end Bounds

end DiagramScript
