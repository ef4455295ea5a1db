import DiagramScript.Json.Reader
import DiagramScript.Statement.Grammar

/-
  Instructions written as records.

  A record names its kind by a shape word, or by a type with a geometry, and carries the
  same options as a statement. Values of a kind that an option cannot have are left out of
  account, except for coordinates and lengths, which have to be finite numbers. A complaint
  names the number of the first record that is refused.
-/

namespace DiagramScript.Record

/-- The entries of a record. -/
abbrev Fields := List (String × Value)

/-- The value of a key; null where it is missing. -/
def field (r : Fields) (key : String) : Value := (r.lookup key).getD .null

def has (r : Fields) (key : String) : Bool := (r.lookup key).isSome

/-- The text of a key, unless it is empty or no text. -/
def text? (r : Fields) (key : String) : Option String := (field r key).filledText?

def refuse {α : Type} (p : ParseProblem) : Except Fault α := .error (.parse p none)

/-! ## Kinds -/

/-- The kinds that a geometry names. -/
def geometries : List (String × Kind) := [("rectangle", .rectangle), ("ellipse", .ellipse)]

/-- The kinds that a type names. -/
def types : List (String × Kind) :=
  [("text", .text), ("note", .note), ("frame", .frame), ("arrow", .connector)]

/-- The kind that a geometry names. Lists and objects cannot be looked up. -/
def geometryKind (geo : Value) (index : Nat) : Except Fault Kind :=
  if !geo.isScalar then .error .unusableValue
  else
    let named := match geo with
      | .text s => geometries.lookup s
      | _ => none
    match named with
    | some k => .ok k
    | none => refuse (.recordGeo (if geo.isBlankValue then "" else geo.display) index)

/-- The kind that a record names. A shape word goes before a type. -/
def kind (r : Fields) (index : Nat) : Except Fault Kind :=
  match field r "shape" with
  | .text word =>
    match Kind.ofKeyword? word with
    | some k => .ok k
    | none => refuse (.recordShape word index)
  | _ =>
    match field r "type" with
    | .text "geo" => geometryKind (field r "geo") index
    | .text word =>
      match types.lookup word with
      | some k => .ok k
      | none => refuse (.recordWithoutKind index)
    | v => if v.isScalar then refuse (.recordWithoutKind index) else .error .unusableValue

/-! ## Numbers -/

/-- A finite number. -/
def number (v : Value) (path : String) : Except Fault Scalar :=
  match v with
  | .number n => do
    let finite ← n.isFinite
    if finite && !n.isFlag then .ok n else refuse (.recordField path)
  | _ => refuse (.recordField path)

/-- Digits without the zeros at their end, and without a point that is left at the end. -/
def trimPlaces (cs : List Char) : List Char :=
  ((cs.reverse.dropWhile (· == '0')).dropWhile (· == '.')).reverse

/-- A coordinate as the text of a connector end: whole numbers in full, others with at most
six places. -/
def coordinateText (n : Scalar) : List Char :=
  match n with
  | .whole k => Decimal.integer k
  | .real x =>
    if x.isWhole then Decimal.integer (x.truncate?.getD 0) else trimPlaces x.fixedSix
  | .flag b => Decimal.integer (if b then 1 else 0)

/-- The text of a coordinate pair. -/
def pairText (x y : Value) (path : String) : Except Fault String := do
  let x ← number x (path ++ ".x")
  let y ← number y (path ++ ".y")
  .ok (String.ofList (coordinateText x ++ ',' :: coordinateText y))

/-- A connector end: a text, or a coordinate as a list or as an object. -/
def endpoint (v : Value) (path : String) : Except Fault String :=
  match v with
  | .text s =>
    let target := Text.strip s
    if target.isEmpty then refuse (.recordField path) else .ok target
  | .list [x, y] => pairText x y path
  | .object entries => pairText (field entries "x") (field entries "y") path
  | _ => refuse (.recordField path)

/-- The path of a key in a record. -/
def path (index : Nat) (key : String) : String :=
  "instruction[" ++ toString index ++ "]." ++ key

/-- Two numbers that come together or not at all. -/
def pair (r : Fields) (a b : String) (index : Nat) (apart : ParseProblem) :
    Except Fault (Option (Scalar × Scalar)) :=
  if has r a != has r b then refuse apart
  else if !has r a then .ok none
  else do
    let x ← number (field r a) (path index a)
    let y ← number (field r b) (path index b)
    .ok (some (x, y))

def position (r : Fields) (index : Nat) : Except Fault (Option Point) := do
  let p ← pair r "x" "y" index (.recordPosition index)
  .ok (p.map fun (x, y) => ⟨x, y⟩)

/-- A size, both sides of which have to be positive. -/
def size (r : Fields) (index : Nat) : Except Fault (Option Size) := do
  match ← pair r "w" "h" index (.recordSize index) with
  | none => .ok none
  | some (w, h) =>
    if w.le 0 || h.le 0 then refuse (.recordSizeNotPositive index) else .ok (some ⟨w, h⟩)

/-- The size option, which is a text. -/
def sizeOption (r : Fields) (kind : Kind) : Except Fault (Option SizeOption) :=
  match text? r "size" with
  | none => .ok none
  | some value => some <$> SizeOption.read value .unnumbered (kind != .connector)

/-! ## Records -/

/-- The instruction of the entries of a record. -/
def ofFields (r : Fields) (index : Nat) : Except Fault Instruction := do
  let kind ← kind r index
  let style ← Style.ofOptions (text? r) .unnumbered
  let sizeOption ← sizeOption r kind
  let style := match sizeOption with
    | none => style
    | some o => o.onStyle style
  let content := (text? r "content").or (text? r "text")
  let label := text? r "label"
  let id := text? r "id"
  if kind = .connector then
    if !(has r "from" && has r "to") then refuse (.recordArrowEnds index)
    else do
      let source ← endpoint (field r "from") (path index "from")
      let target ← endpoint (field r "to") (path index "to")
      .ok (.connector { source, target, label := label.or content, style, id })
  else do
    let position ← position r index
    let given ← size r index
    match (Content.reconcile content label).settle kind with
    | .error p => refuse p
    | .ok text =>
      let i : ShapeInstruction :=
        { kind, position, size := given.or (sizeOption.bind SizeOption.box?), style, id }
      .ok (.shape (i.withText text))

/-- A complaint about a record with the number of the record. -/
def blame {α : Type} (index : Nat) : Except Fault α → Except Fault α
  | .error (.parse p line) =>
    if p.index?.isSome then .error (.parse p line)
    else .error (.parse (.inRecord index p) none)
  | r => r

/-- The instruction of a record. -/
def instruction (v : Value) (index : Nat) : Except Fault Instruction :=
  blame index <|
    match v with
    | .object entries => ofFields entries index
    | _ => refuse (.recordNotObject index)

/-- The instructions of records, the first of which has the given number. -/
def instructionsFrom : Nat → List Value → Except Fault (List Instruction)
  | _, [] => .ok []
  | n, v :: vs => do
    let i ← instruction v n
    let is ← instructionsFrom (n + 1) vs
    .ok (i :: is)

/-- The instructions of a list of records. An object stands for the list of its keys. -/
def instructions (v : Value) : Except Fault (List Instruction) :=
  match v with
  | .list items => instructionsFrom 0 items
  | .object entries => instructionsFrom 0 (entries.map fun (key, _) => .text key)
  | _ => refuse .notAList

/-- The instructions of a JSON text, which has to hold a list of records; the reader of the
text has some room for nested values. -/
def instructionsOfJson (text : String) (room : Nat := text.length) :
    Except Fault (List Instruction) := do
  match ← Json.read text room with
  | .list items => instructionsFrom 0 items
  | _ => refuse .notJsonArray

end DiagramScript.Record
