import DiagramScript.Page
import DiagramScript.Json.Value

/-
  Pages as records.

  Shapes and bindings are exchanged with other programs as objects. Reading fills in what a
  record leaves out, turns a geometry into its kind, and keeps a type that is no kind of
  ours as it is; numbers have to be finite.
-/

namespace DiagramScript.Page

/-! ## Writing -/

def pointValue (p : Point) : Value := .object [("x", .ofScalar p.x), ("y", .ofScalar p.y)]

/-- The ends of a connector, which are written where it has both. -/
def endFields (s : Shape) : List (String × Value) :=
  match s.start, s.finish with
  | some a, some b => [("start", pointValue a), ("end", pointValue b)]
  | _, _ => []

/-- The entries of the record of a shape. -/
def shapeFields (s : Shape) : List (String × Value) :=
  [("id", .text s.id), ("type", .text s.kind.name), ("x", .ofScalar s.x), ("y", .ofScalar s.y),
    ("w", .ofScalar s.w), ("h", .ofScalar s.h), ("label", .text s.label)] ++
    s.style.entries.map (fun (key, v) => (key, .text v)) ++ endFields s

/-- The record of a shape. -/
def shapeValue (s : Shape) : Value := .object (shapeFields s)

/-- The record of a binding. -/
def bindingValue (b : Binding) : Value :=
  .object [("type", .text "arrow"), ("fromId", .text b.connector), ("toId", .text b.shape),
    ("terminal", b.terminal.toValue)]

/-- The records of the shapes of a page. -/
def shapeValues (p : Page) : List Value := p.shapes.map shapeValue

/-- The records of the bindings of a page. -/
def bindingValues (p : Page) : List Value := p.bindings.map bindingValue

/-! ## Reading -/

abbrev Fields := List (String × Value)

def refuse {α : Type} (p : DocumentProblem) : Except Fault α := .error (.document p none)

/-- The first of some keys that a record has. -/
def firstOf? (r : Fields) (keys : List String) : Option Value :=
  keys.findSome? fun key => r.lookup key

/-- A finite number; 0 where it is missing. -/
def numberField (r : Fields) (key : String) (index : Nat) : Except Fault Scalar :=
  match r.lookup key with
  | none => .ok 0
  | some (.number n) => do
    let finite ← n.isFinite
    if finite && !n.isFlag then .ok n else refuse (.shapeField index key)
  | some _ => refuse (.shapeField index key)

/-- A point that may be missing. -/
def pointField (r : Fields) (key : String) (index : Nat) : Except Fault (Option Point) :=
  match r.lookup key with
  | none | some .null => .ok none
  | some (.object entries) => do
    let x ← numberField entries "x" index
    let y ← numberField entries "y" index
    .ok (some ⟨x, y⟩)
  | some _ => refuse (.shapeField index key)

/-- The text of a key, if it is one. -/
def textField? (r : Fields) (key : String) : Option String :=
  match r.lookup key with
  | some (.text s) => some s
  | _ => none

/-- The name of the kind of a record. -/
def kindName (r : Fields) (index : Nat) : Except Fault String :=
  match firstOf? r ["type", "kind"] with
  | some (.text name) =>
    if name.isEmpty then refuse (.shapeWithoutType index)
    else if name = "geo" then
      .ok (if textField? r "geo" = some "ellipse" then "ellipse" else "rect")
    else .ok name
  | _ => refuse (.shapeWithoutType index)

/-- The id of a record, in full; the next id of the page where it has none. -/
def recordId (p : Page) (r : Fields) : String :=
  match (r.lookup "id").bind Value.filledText? with
  | some id => fullId id
  | none => p.nextId

/-- The text of a record, which stands under one of three keys. -/
def recordLabel (r : Fields) : String :=
  match firstOf? r ["label", "name", "text"] with
  | some (.text s) => s
  | _ => ""

/-- The shape of a record. -/
def shapeOfFields (p : Page) (r : Fields) (index : Nat) : Except Fault Shape := do
  let name ← kindName r index
  let x ← numberField r "x" index
  let y ← numberField r "y" index
  let w ← numberField r "w" index
  let h ← numberField r "h" index
  let start ← pointField r "start" index
  let finish ← pointField r "end" index
  .ok { id := p.recordId r, kind := .ofName name, x, y, w, h, label := recordLabel r
        style := Style.ofTable (textField? r), start, finish }

/-- Adds the shape of a record. -/
def addRecord (p : Page) (v : Value) (index : Nat) : Except Fault Page :=
  match v with
  | .object r => do
    let s ← p.shapeOfFields r index
    p.add s
  | _ => refuse (.shapeNotObject index)

/-- Adds the shapes of records, the first of which has the given number. -/
def addRecords (p : Page) : Nat → List Value → Except Fault Page
  | _, [] => .ok p
  | n, v :: vs => do
    let p ← p.addRecord v n
    p.addRecords (n + 1) vs

/-- A key of a binding record. -/
def bindingField (r : Fields) (key : String) : Except Fault Value :=
  match r.lookup key with
  | some v => .ok v
  | none => refuse (.bindingWithout key)

/-- The id that a value of a binding record names, which has to be on the page. -/
def boundId (p : Page) (v : Value) : Except Fault String := do
  match v with
  | .text id => do
    p.checkId id
    .ok id
  | v => refuse (.unknownShape v.display)

/-- Makes the binding of two ids and a terminal. -/
def bindValues (p : Page) (connector shape terminal : Value) : Except Fault Page := do
  let connector ← p.boundId connector
  let shape ← p.boundId shape
  match Terminal.ofValue? terminal with
  | some terminal => p.bind { connector, shape, terminal }
  | none => .error .unusableValue

/-- Makes the binding of a record. -/
def bindRecord (p : Page) (v : Value) : Except Fault Page :=
  match v with
  | .object r => do
    let connector ← bindingField r "fromId"
    let shape ← bindingField r "toId"
    let terminal ← bindingField r "terminal"
    p.bindValues connector shape terminal
  | _ => .error .unusableValue

/-- The members of a value that can be gone through: the items of a list, the keys of an
object, the letters of a text. -/
def members (v : Value) : Except Fault (List Value) :=
  match v with
  | .list items => .ok items
  | .object entries => .ok (entries.map fun (key, _) => .text key)
  | .text s => .ok ((Text.letters s.toList).map fun l => .text (String.ofList l.chars))
  | _ => .error .unusableValue

/-- The page of shape records and binding records. -/
def ofRecords (shapes bindings : Value) : Except Fault Page := do
  let shapes ← members shapes
  let page ← empty.addRecords 0 shapes
  let bindings ← members bindings
  bindings.foldlM bindRecord page

/-- The page read back from its own records. -/
def reload (p : Page) : Except Fault Page :=
  ofRecords (.list p.shapeValues) (.list p.bindingValues)

end DiagramScript.Page
