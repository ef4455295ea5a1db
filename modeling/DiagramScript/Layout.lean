import DiagramScript.Number.Arithmetic

/-
  Placement of boxes in stacks and grids.

  A stack puts boxes one behind the other along an axis, a gap apart. A grid fills rows from
  left to right; each column is as wide as its widest box and each row as tall as its
  tallest. Boxes keep their order and their sizes, and invalid geometry is refused.
-/

namespace DiagramScript

/-- A box to be placed, with what it stands for. -/
structure Box (α : Type) where
  width : Scalar
  height : Scalar
  payload : α
  deriving DecidableEq, Repr

/-- A box at its place. -/
structure Placed (α : Type) where
  corner : Point
  box : Box α
  deriving DecidableEq, Repr

/-- The axis of a stack. -/
inductive Axis where
  | vertical
  | horizontal
  deriving DecidableEq, Repr

/-- The axis that a word names. -/
def Axis.ofName? (name : String) : Option Axis :=
  if name = "vertical" then some .vertical
  else if name = "horizontal" then some .horizontal
  else none

namespace Layout

def refuse {α : Type} (p : LayoutProblem) : Except Fault α := .error (.layout p none)

/-- A length has to be finite and positive. -/
def checkLength (what : String) (v : Scalar) : Except Fault Unit := do
  let finite ← v.isFinite
  if !finite || v.le 0 then refuse (.dimension what v)

/-- A gap has to be finite and not negative. -/
def checkGap (v : Scalar) : Except Fault Unit := do
  let finite ← v.isFinite
  if !finite || v.lt 0 then refuse (.gap v)

/-- Both coordinates of an origin have to be finite. -/
def checkOrigin (p : Point) : Except Fault Unit := do
  let x ← p.x.isFinite
  if !x then refuse (.origin p)
  let y ← p.y.isFinite
  if !y then refuse (.origin p)

def checkBox {α : Type} (b : Box α) : Except Fault Unit := do
  checkLength "width" b.width
  checkLength "height" b.height

/-! ## Stacks -/

/-- The place behind a box on an axis. -/
def advance {α : Type} (axis : Axis) (gap : Scalar) (p : Point) (b : Box α) :
    Except Fault Point :=
  match axis with
  | .vertical => do
    let step ← b.height.add gap
    let y ← p.y.add step
    .ok ⟨p.x, y⟩
  | .horizontal => do
    let step ← b.width.add gap
    let x ← p.x.add step
    .ok ⟨x, p.y⟩

/-- Places boxes one behind the other, the first one at `p`. -/
def stackFrom {α : Type} (axis : Axis) (gap : Scalar) :
    Point → List (Box α) → Except Fault (List (Placed α))
  | _, [] => .ok []
  | p, b :: bs => do
    checkBox b
    let next ← advance axis gap p b
    let rest ← stackFrom axis gap next bs
    .ok (⟨p, b⟩ :: rest)

/-- A stack. The axis comes with the text to complain about where it is none. -/
def stack {α : Type} (boxes : List (Box α)) (axis : Option Axis) (shown : String)
    (origin : Point) (gap : Scalar) : Except Fault (List (Placed α)) :=
  match axis with
  | none => refuse (.direction shown)
  | some axis => do
    checkOrigin origin
    checkGap gap
    stackFrom axis gap origin boxes

/-! ## Grids -/

/-- The number of rows: the quotient of boxes by columns as a floating-point number,
rounded up. -/
def rowCount (boxes columns : Nat) : Except Fault Nat := do
  let q ← (Scalar.whole boxes).div (.whole columns)
  let n ← q.ceil
  .ok n.toNat

/-- Checks the boxes from the one numbered `i` on; each has to lie in a row. -/
def checkCells {α : Type} (columns rows : Nat) : Nat → List (Box α) → Except Fault Unit
  | _, [] => .ok ()
  | i, b :: bs => do
    checkBox b
    if rows ≤ i / columns then .error .outOfRange
    checkCells columns rows (i + 1) bs

/-- The greatest extent among the boxes whose number has the given place in its line. -/
def extent {α : Type} (measure : Box α → Scalar) (lineOf : Nat → Nat) (line : Nat)
    (boxes : List (Box α)) : Scalar :=
  ((boxes.zipIdx.filter fun b => lineOf b.2 == line).map fun b => measure b.1).foldl
    Scalar.max (.real (.zero false))

/-- Where lines of some extents start, the first one at `start`. -/
def offsets (gap : Scalar) : Scalar → List Scalar → Except Fault (List Scalar)
  | _, [] => .ok []
  | start, [_] => .ok [start]
  | start, e :: e' :: es => do
    let edge ← start.add e
    let next ← edge.add gap
    let rest ← offsets gap next (e' :: es)
    .ok (start :: rest)

/-- The box numbered `i` at the crossing of its column and its row. -/
def cell {α : Type} (columns : Nat) (xs ys : List Scalar) (b : Box α × Nat) :
    Except Fault (Placed α) :=
  match xs[b.2 % columns]?, ys[b.2 / columns]? with
  | some x, some y => .ok ⟨⟨x, y⟩, b.1⟩
  | _, _ => .error .outOfRange

/-- A grid of a positive number of columns. Columns past the number of boxes stay empty. -/
def gridOf {α : Type} (boxes : List (Box α)) (origin : Point) (columns : Nat)
    (gap : Scalar) : Except Fault (List (Placed α)) :=
  if boxes.isEmpty then .ok []
  else do
    let rows ← rowCount boxes.length columns
    checkCells columns rows 0 boxes
    let used := min columns boxes.length
    let widths := (List.range used).map fun c => extent Box.width (· % columns) c boxes
    let heights := (List.range rows).map fun r => extent Box.height (· / columns) r boxes
    let xs ← offsets gap origin.x widths
    let ys ← offsets gap origin.y heights
    boxes.zipIdx.mapM (cell columns xs ys)

/-- A grid. The number of columns comes with the text to complain about where it is none or
not positive. -/
def grid {α : Type} (boxes : List (Box α)) (origin : Point) (columns : Option Nat)
    (shown : String) (gap : Scalar) : Except Fault (List (Placed α)) := do
  checkOrigin origin
  checkGap gap
  match columns with
  | some (n + 1) => gridOf boxes origin (n + 1) gap
  | _ => refuse (.columns shown)

end Layout

end DiagramScript
