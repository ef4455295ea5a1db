import DiagramScript.Json.Value
import DiagramScript.Layout

/-
  Layouts asked for by values.

  A program that lays out boxes of its own may give any value as the direction of a stack or
  as the number of columns of a grid. What is no direction or no positive whole number is
  refused and shown as it was given.
-/

namespace DiagramScript

/-- The axis that a value names. -/
def Axis.ofValue? : Value → Option Axis
  | .text name => ofName? name
  | _ => none

namespace Layout

/-- The number of columns that a value gives. A truth value gives none. -/
def columnsOf? : Value → Option Nat
  | .number (.whole n) => if 0 < n then some n.toNat else none
  | _ => none

/-- A stack along the direction that a value names. -/
def stackAlong {α : Type} (boxes : List (Box α)) (direction : Value) (origin : Point)
    (gap : Scalar) : Except Fault (List (Placed α)) :=
  stack boxes (Axis.ofValue? direction) direction.display origin gap

/-- A grid of as many columns as a value gives. -/
def gridAcross {α : Type} (boxes : List (Box α)) (origin : Point) (columns : Value)
    (gap : Scalar) : Except Fault (List (Placed α)) :=
  grid boxes origin (columnsOf? columns) columns.display gap

end Layout

end DiagramScript
