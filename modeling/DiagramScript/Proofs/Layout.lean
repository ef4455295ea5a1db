import DiagramScript.Proofs.Outcome
import DiagramScript.Layout

/-
  What layouts do with boxes.

  A layout that succeeds gives every box a corner, in the order of the boxes, and leaves the
  boxes as they are (`stack_ends`, `grid_ends`); one that fails complains about geometry
  without naming a line, or fails in a computation (`Layout.Failure`). What a box stands for
  has no influence on its corner (`stack_relabel`, `grid_relabel`).
-/

namespace DiagramScript

/-- How a layout can fail. A complaint about geometry names no line: the block that asked for
the layout puts its own line in. -/
inductive Layout.Failure : Fault → Prop where
  | geometry (p : LayoutProblem) : Failure (.layout p none)
  | arithmetic (p : ArithmeticProblem) : Failure (.arithmetic p)
  | outOfRange : Failure .outOfRange

/-! ## Arithmetic -/

namespace Scalar
variable {own : Fault → Prop}

/-- Arithmetic fails with problems of arithmetic only. -/
theorem toReal_ends (h : ∀ p, own (.arithmetic p)) (a : Scalar) :
    Outcome.Ends own (fun _ => True) a.toReal := by
  cases a with
  | whole n =>
    unfold toReal
    dsimp only
    split
    · trivial
    · exact h _
  | real x => trivial
  | flag b => trivial

theorem arith_ends (h : ∀ p, own (.arithmetic p)) (exact : Int → Int → Int)
    (rounded : Binary64 → Binary64 → Binary64) (a b : Scalar) :
    Outcome.Ends own (fun _ => True) (arith exact rounded a b) := by
  unfold arith
  split
  · trivial
  · exact (toReal_ends h _).bind fun x _ => (toReal_ends h _).bind fun y _ => trivial

theorem add_ends (h : ∀ p, own (.arithmetic p)) (a b : Scalar) :
    Outcome.Ends own (fun _ => True) (a.add b) := arith_ends h _ _ a b

theorem div_ends (h : ∀ p, own (.arithmetic p)) (a b : Scalar) :
    Outcome.Ends own (fun _ => True) (a.div b) := by
  unfold div
  split
  · split
    · exact h _
    · split
      · trivial
      · exact h _
  · refine (toReal_ends h _).bind fun x _ => (toReal_ends h _).bind fun y _ => ?_
    cases y.isZero
    · trivial
    · exact h _

theorem ceil_ends (h : ∀ p, own (.arithmetic p)) (a : Scalar) :
    Outcome.Ends own (fun _ => True) a.ceil := by
  cases a with
  | whole n => trivial
  | real x =>
    unfold ceil wholeOf
    dsimp only
    split
    · trivial
    · split
      · exact h _
      · exact h _
  | flag b => trivial

theorem isFinite_ends (h : ∀ p, own (.arithmetic p)) (a : Scalar) :
    Outcome.Ends own (fun _ => True) a.isFinite :=
  (toReal_ends h a).bind fun _ _ => trivial

end Scalar

/-! ## Order and failures -/

namespace Layout
variable {α β : Type}

theorem checkLength_ends (what : String) (v : Scalar) :
    Outcome.Ends Failure (fun _ => True) (checkLength what v) := by
  refine (Scalar.isFinite_ends .arithmetic v).bind fun finite _ => ?_
  cases !finite || v.le 0
  · trivial
  · exact .geometry _

theorem checkGap_ends (v : Scalar) : Outcome.Ends Failure (fun _ => True) (checkGap v) := by
  refine (Scalar.isFinite_ends .arithmetic v).bind fun finite _ => ?_
  cases !finite || v.lt 0
  · trivial
  · exact .geometry _

theorem checkOrigin_ends (p : Point) :
    Outcome.Ends Failure (fun _ => True) (checkOrigin p) := by
  refine (Scalar.isFinite_ends .arithmetic p.x).bind fun x _ => ?_
  cases x
  · exact .geometry _
  · refine (Scalar.isFinite_ends .arithmetic p.y).bind fun y _ => ?_
    cases y
    · exact .geometry _
    · trivial

theorem checkBox_ends (b : Box α) : Outcome.Ends Failure (fun _ => True) (checkBox b) :=
  (checkLength_ends _ _).bind fun _ _ => checkLength_ends _ _

section Failures
variable {own : Fault → Prop} (harithmetic : ∀ p, own (.arithmetic p))
include harithmetic

theorem advance_ends (axis : Axis) (gap : Scalar) (p : Point) (b : Box α) :
    Outcome.Ends own (fun _ => True) (advance axis gap p b) := by
  cases axis with
  | vertical =>
    exact (Scalar.add_ends harithmetic _ _).bind fun _ _ =>
      (Scalar.add_ends harithmetic _ _).bind fun _ _ => trivial
  | horizontal =>
    exact (Scalar.add_ends harithmetic _ _).bind fun _ _ =>
      (Scalar.add_ends harithmetic _ _).bind fun _ _ => trivial

theorem stackFrom_ends (axis : Axis) (gap : Scalar) (p : Point) {boxes : List (Box α)}
    (hboxes : ∀ b ∈ boxes, Outcome.Ends own (fun _ => True) (checkBox b)) :
    Outcome.Ends own (fun placed => placed.map (·.box) = boxes)
      (stackFrom axis gap p boxes) := by
  induction boxes generalizing p with
  | nil => rfl
  | cons b bs ih =>
    obtain ⟨hb, hbs⟩ := List.forall_mem_cons.mp hboxes
    refine hb.bind fun _ _ => (advance_ends harithmetic axis gap p b).bind fun next _ => ?_
    exact (ih next hbs).bind fun rest hrest => congrArg (b :: ·) hrest

end Failures

/-- A stack keeps its boxes and their order. -/
theorem stack_ends (boxes : List (Box α)) (axis : Option Axis) (shown : String)
    (origin : Point) (gap : Scalar) :
    Outcome.Ends Failure (fun placed => placed.map (·.box) = boxes)
      (stack boxes axis shown origin gap) := by
  cases axis with
  | none => exact .geometry _
  | some axis =>
    exact (checkOrigin_ends origin).bind fun _ _ => (checkGap_ends gap).bind fun _ _ =>
      stackFrom_ends .arithmetic axis gap origin fun b _ => checkBox_ends b

section Failures
variable {own : Fault → Prop}

theorem rowCount_ends (harithmetic : ∀ p, own (.arithmetic p)) (boxes columns : Nat) :
    Outcome.Ends own (fun _ => True) (rowCount boxes columns) :=
  (Scalar.div_ends harithmetic _ _).bind fun _ _ =>
    (Scalar.ceil_ends harithmetic _).bind fun _ _ => trivial

theorem checkCells_ends (hrange : own .outOfRange) (columns rows i : Nat) {boxes : List (Box α)}
    (hboxes : ∀ b ∈ boxes, Outcome.Ends own (fun _ => True) (checkBox b)) :
    Outcome.Ends own (fun _ => True) (checkCells columns rows i boxes) := by
  induction boxes generalizing i with
  | nil => trivial
  | cons b bs ih =>
    obtain ⟨hb, hbs⟩ := List.forall_mem_cons.mp hboxes
    refine hb.bind fun _ _ => ?_
    split
    · exact hrange
    · exact ih (i + 1) hbs

theorem offsets_ends (harithmetic : ∀ p, own (.arithmetic p)) (gap start : Scalar)
    (extents : List Scalar) : Outcome.Ends own (fun _ => True) (offsets gap start extents) := by
  induction extents generalizing start with
  | nil => trivial
  | cons e es ih =>
    cases es with
    | nil => trivial
    | cons e' es =>
      exact (Scalar.add_ends harithmetic _ _).bind fun _ _ =>
        (Scalar.add_ends harithmetic _ _).bind fun next _ => (ih next).bind fun _ _ => trivial

theorem cell_ends (hrange : own .outOfRange) (columns : Nat) (xs ys : List Scalar)
    (b : Box α × Nat) : Outcome.Ends own (fun q => q.box = b.1) (cell columns xs ys b) := by
  unfold cell
  split
  · rfl
  · exact hrange

theorem gridOf_ends (harithmetic : ∀ p, own (.arithmetic p)) (hrange : own .outOfRange)
    {boxes : List (Box α)} (hboxes : ∀ b ∈ boxes, Outcome.Ends own (fun _ => True) (checkBox b))
    (origin : Point) (columns : Nat) (gap : Scalar) :
    Outcome.Ends own (fun placed => placed.map (·.box) = boxes)
      (gridOf boxes origin columns gap) := by
  unfold gridOf
  split
  · rename_i hempty
    exact (List.isEmpty_iff.mp hempty).symm
  · refine (rowCount_ends harithmetic _ _).bind fun rows _ => ?_
    refine (checkCells_ends hrange _ _ _ hboxes).bind fun _ _ => ?_
    refine (offsets_ends harithmetic _ _ _).bind fun xs _ => ?_
    refine (offsets_ends harithmetic _ _ _).bind fun ys _ => ?_
    refine (Outcome.Ends.mapM fun b _ => cell_ends hrange columns xs ys b).imp
      fun placed hplaced => ?_
    -- Every place has the box of its number, and the numbered boxes are the boxes in order.
    have hboxes : List.Forall₂ (· = ·) (placed.map (·.box)) (boxes.zipIdx.map (·.1)) := by
      rw [List.forall₂_map_left_iff, List.forall₂_map_right_iff]
      exact hplaced.flip
    rw [List.forall₂_eq_eq_eq] at hboxes
    rw [hboxes]
    exact List.zipIdx_map_fst 0 boxes

end Failures

/-- A grid keeps its boxes and their order. -/
theorem grid_ends (boxes : List (Box α)) (origin : Point) (columns : Option Nat)
    (shown : String) (gap : Scalar) :
    Outcome.Ends Failure (fun placed => placed.map (·.box) = boxes)
      (grid boxes origin columns shown gap) := by
  refine (checkOrigin_ends origin).bind fun _ _ => (checkGap_ends gap).bind fun _ _ => ?_
  split
  · exact gridOf_ends .arithmetic .outOfRange (fun b _ => checkBox_ends b) _ _ _
  · exact .geometry _

end Layout

/-! ## What boxes stand for -/

/-- A box that stands for something else. -/
def Box.relabel {α β : Type} (f : α → β) (b : Box α) : Box β := ⟨b.width, b.height, f b.payload⟩

/-- A placed box that stands for something else. -/
def Placed.relabel {α β : Type} (f : α → β) (p : Placed α) : Placed β := ⟨p.corner, p.box.relabel f⟩

namespace Layout
variable {α β : Type}

theorem stackFrom_relabel (f : α → β) (axis : Axis) (gap : Scalar) (p : Point)
    (boxes : List (Box α)) :
    stackFrom axis gap p (boxes.map (Box.relabel f)) =
      List.map (Placed.relabel f) <$> stackFrom axis gap p boxes := by
  induction boxes generalizing p with
  | nil => rfl
  | cons b bs ih =>
    -- The checks and the next corner look at the sizes of the box only.
    have hcheck : checkBox (b.relabel f) = checkBox b := rfl
    have hnext : advance axis gap p (b.relabel f) = advance axis gap p b := rfl
    simp only [List.map_cons, stackFrom, hcheck, hnext, ih, map_bind, bind_map_left]
    rfl

theorem stack_relabel (f : α → β) (boxes : List (Box α)) (axis : Option Axis) (shown : String)
    (origin : Point) (gap : Scalar) :
    stack (boxes.map (Box.relabel f)) axis shown origin gap =
      List.map (Placed.relabel f) <$> stack boxes axis shown origin gap := by
  cases axis with
  | none => rfl
  | some axis => simp only [stack, stackFrom_relabel, map_bind]

theorem checkCells_relabel (f : α → β) (columns rows i : Nat) (boxes : List (Box α)) :
    checkCells columns rows i (boxes.map (Box.relabel f)) = checkCells columns rows i boxes := by
  induction boxes generalizing i with
  | nil => rfl
  | cons b bs ih =>
    have hcheck : checkBox (b.relabel f) = checkBox b := rfl
    simp only [List.map_cons, checkCells, hcheck, ih]

theorem extent_relabel (f : α → β) {before : Box α → Scalar} {after : Box β → Scalar}
    (h : ∀ b, after (b.relabel f) = before b) (lineOf : Nat → Nat) (line : Nat)
    (boxes : List (Box α)) :
    extent after lineOf line (boxes.map (Box.relabel f)) = extent before lineOf line boxes := by
  unfold extent
  rw [List.zipIdx_map, List.filter_map, List.map_map]
  congr 1
  exact List.map_congr_left fun b _ => h b.1

theorem cell_relabel (f : α → β) (columns : Nat) (xs ys : List Scalar) (b : Box α × Nat) :
    cell columns xs ys (Prod.map (Box.relabel f) id b) =
      Placed.relabel f <$> cell columns xs ys b := by
  unfold cell
  simp only [Prod.map_fst, Prod.map_snd, id_eq]
  split <;> rfl

theorem gridOf_relabel (f : α → β) (boxes : List (Box α)) (origin : Point) (columns : Nat)
    (gap : Scalar) :
    gridOf (boxes.map (Box.relabel f)) origin columns gap =
      List.map (Placed.relabel f) <$> gridOf boxes origin columns gap := by
  have hcells (xs ys : List Scalar) (cells : List (Box α × Nat)) :
      cells.mapM (cell columns xs ys ∘ Prod.map (Box.relabel f) id) =
        List.map (Placed.relabel f) <$> cells.mapM (cell columns xs ys) := by
    induction cells with
    | nil => rfl
    | cons b cells ih =>
      simp only [List.mapM_cons, Function.comp_apply, cell_relabel, ih, map_bind, bind_map_left]
      rfl
  have hwidth (lineOf : Nat → Nat) (line : Nat) :=
    extent_relabel f (fun b => show (b.relabel f).width = b.width from rfl) lineOf line boxes
  have hheight (lineOf : Nat → Nat) (line : Nat) :=
    extent_relabel f (fun b => show (b.relabel f).height = b.height from rfl) lineOf line boxes
  unfold gridOf
  simp only [List.isEmpty_map, List.length_map, checkCells_relabel, hwidth, hheight,
    List.zipIdx_map, List.mapM_map, hcells]
  split
  · rfl
  · simp only [map_bind]

theorem grid_relabel (f : α → β) (boxes : List (Box α)) (origin : Point)
    (columns : Option Nat) (shown : String) (gap : Scalar) :
    grid (boxes.map (Box.relabel f)) origin columns shown gap =
      List.map (Placed.relabel f) <$> grid boxes origin columns shown gap := by
  unfold grid
  simp only [gridOf_relabel, map_bind]
  congr
  funext _
  congr
  funext _
  split <;> rfl

end Layout

end DiagramScript
