import DiagramScript.Number.Scalar

/-
  Points and sizes on the canvas, in canvas units.
-/

namespace DiagramScript

/-- A place on the canvas. -/
structure Point where
  x : Scalar
  y : Scalar
  deriving DecidableEq, Repr

/-- A width and a height. -/
structure Size where
  w : Scalar
  h : Scalar
  deriving DecidableEq, Repr

end DiagramScript
