import DiagramScript.Page.Binding
import DiagramScript.Shape

/-
  Pages: shapes in drawing order, and the bindings of connectors to shapes.

  A page keeps its layers from the lowest to the topmost, the ids in the order in which they
  were added, and the links in the order in which they were made. A shape is added in one
  layer; where several shapes have one id, a new order may show one of them in several
  layers and leave others out, so a layer carries the number of its shape and a change goes
  to every layer of that number (`layers_replace`). Every listing of bindings is read off
  the ids and the links: connectors in the order of their ids, for each the shapes in the
  order first bound, for each of those the terminals in the order bound.
-/

namespace DiagramScript

/-- A place in the drawing order with the shape that is drawn there and the number of the
shape. -/
structure Layer where
  number : Nat
  shape : Shape
  deriving DecidableEq, Repr

structure Page where
  layers : List Layer := []
  ids : List String := []
  links : List Link := []
  deriving DecidableEq, Repr

/-- What every shape id starts with. -/
def idStart : String := "shape:"

/-- An id with its start, which may be left out. -/
def fullId (id : String) : String :=
  if idStart.toList.isPrefixOf id.toList then id else idStart ++ id

/-- The id of a number. -/
def numberedId (n : Nat) : String := idStart ++ toString n

namespace Page

def empty : Page := {}

/-- The shapes from the lowest to the topmost. -/
def shapes (p : Page) : List Shape := p.layers.map (·.shape)

/-- Adds a shape on top, unless its id is taken. Its number is how many were added
before. -/
def add (p : Page) (s : Shape) : Except Fault Page :=
  if p.ids.contains s.id then .error (.document (.duplicateId s.id) none)
  else .ok { p with layers := p.layers ++ [⟨p.ids.length, s⟩], ids := p.ids ++ [s.id] }

/-- A page of some shapes. -/
def ofShapes (shapes : List Shape) : Except Fault Page := shapes.foldlM add empty

/-- The lowest layer of an id. -/
def layer? (p : Page) (id : String) : Option Layer := p.layers.find? (·.shape.id == id)

/-- The shape of an id. -/
def get? (p : Page) (id : String) : Option Shape := (p.layer? id).map (·.shape)

/-- The lowest shape whose label without blanks around it is the given text. -/
def labelled? (p : Page) (text : String) : Option Shape :=
  p.shapes.find? fun s => !s.title.isEmpty && s.title == text

/-- The shape that a text names: by id, with or without its start, or else by label. -/
def find? (p : Page) (text : String) : Option Shape :=
  ((p.get? text).or (p.get? (fullId text))).or (p.labelled? text)

/-- The least number from `n` on whose id is free, among the next `fuel` ones. -/
def freeNumber (ids : List String) : Nat → Nat → Nat
  | 0, n => n
  | fuel + 1, n => if ids.contains (numberedId n) then freeNumber ids fuel (n + 1) else n

/-- The first free numbered id past the number of shapes. -/
def nextId (p : Page) : String :=
  numberedId (freeNumber p.ids p.ids.length (p.shapes.length + 1))

/-- Puts the shapes into another drawing order, which has the same ids. -/
def reorder (p : Page) (layers : List Layer) : Except Fault Page :=
  if (layers.map (·.shape.id)).isPerm (p.layers.map (·.shape.id)) then .ok { p with layers }
  else .error (.document .notAReordering none)

/-- An id has to be on the page. -/
def checkId (p : Page) (id : String) : Except Fault Unit :=
  if p.ids.contains id then .ok () else .error (.document (.unknownShape id) none)

/-- Binds an end of a connector to a shape. -/
def bind (p : Page) (b : Binding) : Except Fault Page := do
  p.checkId b.connector
  p.checkId b.shape
  .ok { p with links := Link.make p.links b }

/-! ## Listings of bindings -/

/-- The links of a connector. -/
def linksOf (p : Page) (id : String) : List Link :=
  Link.grouped (·.shape) (p.links.filter (·.connector == id))

/-- All links in the order of their listing. -/
def listed (p : Page) : List Link := p.ids.flatMap p.linksOf

/-- The bindings of a connector. -/
def bindingsOf (p : Page) (id : String) : List Binding := (p.linksOf id).map (·.toBinding)

/-- The bindings to a shape. -/
def bindingsFor (p : Page) (id : String) : List Binding :=
  (Link.grouped (·.connector) (p.links.filter (·.shape == id))).map (·.toBinding)

/-- All bindings. -/
def bindings (p : Page) : List Binding := p.listed.map (·.toBinding)

/-- A page of its own with the same contents, on which links count as made in the order of
their listing. -/
def copy (p : Page) : Page := { p with links := p.listed }

/-! ## Changes -/

/-- A page with another shape in every layer of a number. -/
def replace (p : Page) (number : Nat) (s : Shape) : Page :=
  { p with layers := p.layers.map fun l => if l.number = number then { l with shape := s } else l }

/-- A page with the shape of an id changed. -/
def update (p : Page) (id : String) (change : Shape → Shape) : Page :=
  match p.layer? id with
  | some l => p.replace l.number (change l.shape)
  | none => p

/-- A layer after a change has the new shape exactly if it has the number of that shape. -/
theorem layers_replace {p : Page} {number : Nat} {s : Shape} {l : Layer}
    (h : l ∈ (p.replace number s).layers) :
    (l.number = number ∧ l.shape = s) ∨ (l.number ≠ number ∧ l ∈ p.layers) := by
  obtain ⟨m, hm, rfl⟩ := List.mem_map.1 h
  by_cases hn : m.number = number
  · rw [if_pos hn]; exact .inl ⟨hn, rfl⟩
  · rw [if_neg hn]; exact .inr ⟨hn, hm⟩

end Page

end DiagramScript
