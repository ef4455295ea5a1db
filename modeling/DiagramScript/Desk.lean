import DiagramScript.Generator

/-
  Pages that are changed where they stand.

  A desk holds pages by name, one more page, the draft, on which new pages and batches are
  prepared, and a log. An edit changes a desk store by store and shape by shape. Where it
  fails it leaves the desk as it is at that moment, and nothing is taken back: a refused
  operation leaves the pages alone only because its steps come in the right order, checks
  before changes, the draft before the page.
-/

namespace DiagramScript

structure Desk where
  pages : String → Page := fun _ => Page.empty
  draft : Page := Page.empty
  log : List Event := []

/-- A page of a desk: one that has a name, or the draft. -/
inductive Slot where
  | named (name : String)
  | draft
  deriving DecidableEq, Repr

namespace Desk

/-- The page in a slot. -/
def page (d : Desk) : Slot → Page
  | .named name => d.pages name
  | .draft => d.draft

/-- The desk with another page in a slot. -/
def put (d : Desk) (slot : Slot) (p : Page) : Desk :=
  match slot with
  | .named name => { d with pages := fun n => if n = name then p else d.pages n }
  | .draft => { d with draft := p }

end Desk

/-- A computation on a desk. What it changed before it failed stays changed. -/
abbrev Edit := ExceptT Fault (StateM Desk)

namespace Edit

/-- What becomes of an edit on a desk, and of the desk. -/
def on {α : Type} (e : Edit α) (d : Desk) : Except Fault α × Desk := e.run.run d

/-! ## Single changes -/

def ofExcept {α : Type} (r : Except Fault α) : Edit α := ExceptT.mk (pure r)

def look (slot : Slot) : Edit Page := do return (← get).page slot

def change (slot : Slot) (f : Page → Page) : Edit Unit :=
  modify fun d => d.put slot (f (d.page slot))

def tell (events : List Event) : Edit Unit :=
  modify fun d => { d with log := d.log ++ events }

/-- The outcome of a computation, whose events go to the log. -/
def ofReport {α : Type} (r : Report α) : Edit α := do
  tell r.events
  ofExcept r.result

/-- Adds a shape on top, unless its id is taken: first to the layers, then to the ids. -/
def add (slot : Slot) (s : Shape) : Edit Unit := do
  let p ← look slot
  if p.ids.contains s.id then throw (.document (.duplicateId s.id) none)
  else do
    change slot fun p => { p with layers := p.layers ++ [⟨p.ids.length, s⟩] }
    change slot fun p => { p with ids := p.ids ++ [s.id] }

/-- Puts the shapes into another drawing order, which has the same ids. -/
def reorder (slot : Slot) (layers : List Layer) : Edit Unit := do
  let p ← look slot
  if (layers.map (·.shape.id)).isPerm (p.layers.map (·.shape.id)) then
    change slot fun p => { p with layers }
  else throw (.document .notAReordering none)

/-- Binds an end of a connector to a shape. -/
def bind (slot : Slot) (b : Binding) : Edit Unit := do
  let p ← look slot
  ofExcept (p.checkId b.connector)
  ofExcept (p.checkId b.shape)
  change slot fun p => { p with links := Link.make p.links b }

/-- Makes the binding of two ids and a terminal. -/
def bindValues (slot : Slot) (connector shape terminal : Value) : Edit Unit := do
  let p ← look slot
  let connector ← ofExcept (p.boundId connector)
  let shape ← ofExcept (p.boundId shape)
  match Terminal.ofValue? terminal with
  | some terminal => bind slot { connector, shape, terminal }
  | none => throw .unusableValue

/-- Takes over the shapes of another page, and then its ids and links. -/
def takeOver (slot source : Slot) : Edit Unit := do
  let q ← look source
  change slot fun p => { p with layers := q.layers }
  change slot fun p => { p with ids := q.ids, links := q.links }

/-! ## New pages -/

def addAll : List Shape → Edit Unit
  | [] => pure ()
  | s :: rest => do
    add .draft s
    addAll rest

/-- Prepares the page of some shapes. -/
def make (shapes : List Shape) : Edit Unit := do
  change .draft fun _ => Page.empty
  addAll shapes

/-- Adds the shape of a record to the draft. -/
def addRecord (v : Value) (index : Nat) : Edit Unit :=
  match v with
  | .object r => do
    let p ← look .draft
    let s ← ofExcept (p.shapeOfFields r index)
    add .draft s
  | _ => throw (.document (.shapeNotObject index) none)

/-- Adds the shapes of records to the draft, the first of which has the given number. -/
def addRecords : Nat → List Value → Edit Unit
  | _, [] => pure ()
  | n, v :: vs => do
    addRecord v n
    addRecords (n + 1) vs

/-- Makes the binding of a record on the draft. -/
def bindRecord (v : Value) : Edit Unit :=
  match v with
  | .object r => do
    let connector ← ofExcept (Page.bindingField r "fromId")
    let shape ← ofExcept (Page.bindingField r "toId")
    let terminal ← ofExcept (Page.bindingField r "terminal")
    bindValues .draft connector shape terminal
  | _ => throw .unusableValue

/-- Makes the bindings of records on the draft. -/
def bindRecords : List Value → Edit Unit
  | [] => pure ()
  | v :: vs => do
    bindRecord v
    bindRecords vs

/-- Prepares the page of shape records and binding records. -/
def load (shapes bindings : Value) : Edit Unit := do
  change .draft fun _ => Page.empty
  let shapes ← ofExcept (Page.members shapes)
  addRecords 0 shapes
  let bindings ← ofExcept (Page.members bindings)
  bindRecords bindings

/-! ## Batches -/

/-- Adds the shape of an instruction to the draft. -/
def createShape (i : ShapeInstruction) : Edit String := do
  let p ← look .draft
  let s ← ofExcept (p.newShape i)
  add .draft s
  tell [.created i.kind s.id s.x s.y s.w s.h]
  return s.id

/-- Binds an end of a connector to the shape that it refers to, if it refers to one. -/
def bindEnd (connector terminal : String) (target : Option Shape) : Edit Unit :=
  match target with
  | none => pure ()
  | some s => do
    bind .draft { connector, shape := s.id, terminal := .text terminal }
    tell [.bound connector terminal s.id]

/-- Adds the connector of an instruction to the draft and binds its ends. -/
def createConnector (padding : Scalar) (i : ConnectorInstruction) : Edit String := do
  let p ← look .draft
  let (s, source, target) ← ofExcept (p.newConnector padding i)
  add .draft s
  bindEnd s.id "start" source
  bindEnd s.id "end" target
  return s.id

/-- Adds what an instruction asks for. -/
def create (padding : Scalar) : Instruction → Edit String
  | .shape i => createShape i
  | .connector i => createConnector padding i

/-- Adds what instructions ask for, in order, and lists the new ids. -/
def createAll (padding : Scalar) : List Instruction → Edit (List String)
  | [] => return []
  | i :: is => do
    let id ← create padding i
    let ids ← createAll padding is
    return id :: ids

/-- Moves frames below all other shapes of the draft. -/
def framesToBottom : Edit Unit := do
  let p ← look .draft
  reorder .draft
    (p.layers.filter (Page.isFrame ·.shape) ++ p.layers.filter (! Page.isFrame ·.shape))

/-- Grows frames of the draft by their numbers, each where it stands. -/
def growFrames (others : List Shape) : List Nat → Edit Unit
  | [] => pure ()
  | n :: rest => do
    let p ← look .draft
    match p.layers.find? (·.number == n) with
    | none => growFrames others rest
    | some l => do
      let s ← ofReport (Page.growFrame others l.shape)
      change .draft (·.replace n s)
      growFrames others rest

/-- Moves the frames of the draft to the bottom and grows them. -/
def settleFrames : Edit Unit := do
  framesToBottom
  let p ← look .draft
  let frames := p.layers.filter (Page.isFrame ·.shape)
  growFrames (p.shapes.filter (! Page.isFrame ·)) (frames.map (·.number))

/-- Puts a batch of instructions on a page: on a copy first, which the page takes over. -/
def apply (slot : Slot) (padding : Scalar) (is : List Instruction) : Edit (List String) := do
  let p ← look slot
  change .draft fun _ => p.copy
  let ids ← createAll padding is
  settleFrames
  takeOver slot .draft
  tell [.materialized ids.length]
  return ids

end Edit

/-! ## Operations -/

/-- What can be asked of the pages of a desk. Every operation is about the page of its first
name. -/
inductive Operation where
  | make (page : String) (shapes : List Shape)
  | load (page : String) (shapes bindings : Value)
  | copy (page source : String)
  | takeOver (page source : String)
  | add (page : String) (s : Shape)
  | bind (page : String) (connector shape terminal : Value)
  | reorder (page : String) (shapes : List Shape)
  | apply (page : String) (padding : Value) (is : List Instruction)
  | compile (page source : String)
  | compileRecords (page : String) (records : Value)
  | compileJson (page text : String) (room : Nat := text.length)

/-- What an operation hands back: nothing, the ids of new shapes, or the page itself. -/
inductive Answer where
  | nothing
  | ids (ids : List String)
  | page (p : Page)
  deriving DecidableEq, Repr

namespace Operation

/-- Layers of shapes that are different objects. -/
def layersOf (shapes : List Shape) : List Layer := shapes.zipIdx.map fun (s, n) => ⟨n, s⟩

/-- Puts instructions on a page with the settings of a generator, and hands the page back. -/
def place (g : Generator) (page : String) (is : Except Fault (List Instruction)) :
    Edit Answer := do
  let is ← Edit.ofExcept is
  let _ ← Edit.apply (.named page) g.arrowPadding is
  let p ← Edit.look (.named page)
  return .page p

/-- The edit that an operation is. -/
def edit (g : Generator) : Operation → Edit Answer
  | make page shapes => do
    Edit.make shapes
    Edit.takeOver (.named page) .draft
    return .nothing
  | load page shapes bindings => do
    Edit.load shapes bindings
    Edit.takeOver (.named page) .draft
    return .nothing
  | copy page source => do
    let p ← Edit.look (.named source)
    Edit.change (.named page) fun _ => p.copy
    return .nothing
  | takeOver page source => do
    Edit.takeOver (.named page) (.named source)
    return .nothing
  | add page s => do
    Edit.add (.named page) s
    return .nothing
  | bind page connector shape terminal => do
    Edit.bindValues (.named page) connector shape terminal
    return .nothing
  | reorder page shapes => do
    Edit.reorder (.named page) (layersOf shapes)
    return .nothing
  | apply page padding is => do
    let padding ← Edit.ofExcept (Settings.arrowPadding padding)
    let ids ← Edit.apply (.named page) padding is
    return .ids ids
  | compile page source => place g page (Source.instructions source)
  | compileRecords page records => place g page (Record.instructions records)
  | compileJson page text room => place g page (Record.instructionsOfJson text room)

/-- What becomes of operations one after the other, and of the desk. -/
def run (g : Generator) : List Operation → Desk → List (Except Fault Answer) × Desk
  | [], d => ([], d)
  | op :: ops, d =>
    let (r, d) := (op.edit g).on d
    let (rs, d) := run g ops d
    (r :: rs, d)

end Operation

end DiagramScript
