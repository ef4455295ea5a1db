import DiagramScript.LineNumber
import DiagramScript.Style
import DiagramScript.Shape.Kind
import DiagramScript.Geometry.Point

/-
  Instructions: what one statement of a diagram asks for.

  A shape instruction may leave its place and its size open. A connector instruction names
  its two ends by text: a coordinate, the id of a shape or its label.
-/

namespace DiagramScript

structure ShapeInstruction where
  kind : Kind
  /-- Where the shape goes; below everything else where it is left out. -/
  position : Option Point := none
  /-- A size given among the words of the statement or as its size option. -/
  size : Option Size := none
  /-- A size given as the dimensions option; it wins over `size`. -/
  dimensions : Option Size := none
  /-- The body of a text or a note. -/
  content : Option String := none
  /-- The label of any other kind. -/
  label : Option String := none
  style : Style := {}
  id : Option String := none
  line : LineNumber := .unnumbered
  deriving DecidableEq, Repr

structure ConnectorInstruction where
  source : String
  target : String
  label : Option String := none
  style : Style := {}
  id : Option String := none
  line : LineNumber := .unnumbered
  deriving DecidableEq, Repr

inductive Instruction where
  | shape (i : ShapeInstruction)
  | connector (i : ConnectorInstruction)
  deriving DecidableEq, Repr

/-- The text that the shape shows: its body or its label. -/
def ShapeInstruction.text (i : ShapeInstruction) : Option String :=
  if i.kind.hasTextBody then i.content else i.label

/-- The line of an instruction. -/
def Instruction.line : Instruction → LineNumber
  | shape i => i.line
  | connector i => i.line

end DiagramScript
