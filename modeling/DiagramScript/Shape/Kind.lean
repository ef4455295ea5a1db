/-
  Kinds of shapes.

  Six kinds can be written in a diagram. A page may also hold shapes of kinds that only
  other programs know; those keep their name and are not drawn.
-/

namespace DiagramScript

/-- The kinds of shapes that a diagram can hold. -/
inductive Kind where
  | rectangle
  | ellipse
  | text
  | note
  | frame
  | connector
  deriving DecidableEq, Repr

namespace Kind

def all : List Kind := [rectangle, ellipse, text, note, frame, connector]

/-- The word that names a kind in a diagram. -/
def keyword : Kind → String
  | rectangle => "rect"
  | ellipse => "ellipse"
  | text => "text"
  | note => "note"
  | frame => "frame"
  | connector => "arrow"

/-- The kind that a word names. -/
def ofKeyword? (word : String) : Option Kind := all.find? (·.keyword == word)

/-- Whether the text of a shape is its body and not a label. -/
def hasTextBody : Kind → Bool
  | text | note => true
  | _ => false

theorem ofKeyword?_keyword (k : Kind) : ofKeyword? k.keyword = some k := by
  cases k <;> decide

end Kind

/-- The kind of a shape on a page: one that can be drawn, or the name of another one. -/
inductive ShapeKind where
  | known (kind : Kind)
  | foreign (name : String)
  deriving DecidableEq, Repr

namespace ShapeKind

def ofName (name : String) : ShapeKind :=
  match Kind.ofKeyword? name with
  | some k => known k
  | none => foreign name

def name : ShapeKind → String
  | known k => k.keyword
  | foreign n => n

end ShapeKind

end DiagramScript
