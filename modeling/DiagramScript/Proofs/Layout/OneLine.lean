import DiagramScript.Proofs.Layout.Table
import DiagramScript.Proofs.Layout.Total
import DiagramScript.Proofs.Number.Regroup

/-
  Grids of one line.

  A stack moves a place on behind each box, and a grid reads the starts of its lines off a table. On
  a single line of integers with a gap that is not negative both give the same places, as the same
  scalars (`stackFrom_eq`, `gridOf_one_line`): a table adds a side and then the gap, a stack the sum
  of both. So a stack has each box behind all boxes in front of it, and it is the grid with one
  column, or with a column for each box, where there is such a grid (`stack_lines_up`).
-/

namespace DiagramScript

/-- The point with another coordinate along an axis. -/
def Point.along (axis : Axis) (p : Point) (v : Scalar) : Point :=
  match axis with
  | .vertical => ⟨p.x, v⟩
  | .horizontal => ⟨v, p.y⟩

namespace Layout
variable {α : Type} {i : Integers} {axis : Axis} {p : Point} {gap : Scalar} {m g : ℤ}

@[simp] theorem coordinate_along (axis : Axis) (p : Point) (v : Scalar) :
    coordinate axis (p.along axis v) = v := by
  cases axis <;> rfl

@[simp] theorem along_coordinate (axis : Axis) (p : Point) :
    p.along axis (coordinate axis p) = p := by
  cases axis <;> rfl

@[simp] theorem along_along (axis : Axis) (p : Point) (v w : Scalar) :
    (p.along axis v).along axis w = p.along axis w := by
  cases axis <;> rfl

theorem coordinate_along_of_ne {other : Axis} (h : other ≠ axis) (p : Point) (v : Scalar) :
    coordinate other (p.along axis v) = coordinate other p := by
  cases axis <;> cases other <;> first | exact absurd rfl h | rfl

theorem advance_eq {b : Box α} {step v : Scalar} (hstep : (side axis b).add gap = .ok step)
    (hv : (coordinate axis p).add step = .ok v) : advance axis gap p b = .ok (p.along axis v) := by
  cases axis with
  | vertical => exact Outcome.bind_eq_ok.mpr ⟨step, hstep, Outcome.bind_eq_ok.mpr ⟨v, hv, rfl⟩⟩
  | horizontal => exact Outcome.bind_eq_ok.mpr ⟨step, hstep, Outcome.bind_eq_ok.mpr ⟨v, hv, rfl⟩⟩

/-! ## Tables of one line -/

theorem offsets_gives {start : Scalar} {lengths : List Scalar} {c s : ℤ}
    (hstart : start.IsInteger i c s) (hgap : gap.IsInteger i m g)
    (hlengths : ∀ e ∈ lengths, ∃ n, e.IsInteger i m n)
    (hroom : i = .bounded → c + lengths.length * (2 * m) < 2 ^ 50) :
    Gives (fun xs => xs.length = lengths.length) (offsets gap start lengths) := by
  induction start, lengths using offsets.induct generalizing c s with
  | case1 start => exact .ok rfl
  | case2 start e => exact .ok rfl
  | case3 start e e' es ih =>
    obtain ⟨⟨n, hn⟩, hes⟩ := List.forall_mem_cons.mp hlengths
    obtain ⟨edge, next, hedge, hnext, hnextInt⟩ := next_of_room hstart hn hgap hroom
    rw [offsets_cons hedge hnext]
    refine (ih next hnextInt hes fun hi => (room_next hgap hroom hi).2).bind fun rest hrest => ?_
    exact .ok (congrArg Nat.succ hrest)

/-- Boxes at starts along an axis. -/
def lineUp (axis : Axis) (p : Point) (boxes : List (Box α)) (starts : List Scalar) :
    List (Placed α) := (boxes.zip starts).map fun b => ⟨p.along axis b.2, b.1⟩

theorem lineUp_cons (axis : Axis) (p : Point) (b : Box α) (bs : List (Box α)) (v : Scalar)
    (starts : List Scalar) :
    lineUp axis p (b :: bs) (v :: starts) = ⟨p.along axis v, b⟩ :: lineUp axis p bs starts := rfl

theorem lineUp_along (axis : Axis) (p : Point) (v : Scalar) (boxes : List (Box α))
    (starts : List Scalar) :
    lineUp axis (p.along axis v) boxes starts = lineUp axis p boxes starts := by
  simp only [lineUp, along_along]

theorem stackFrom_cons {b : Box α} {bs : List (Box α)} {next : Point} {placed : List (Placed α)}
    (hb : checkBox b = .ok ()) (hnext : advance axis gap p b = .ok next)
    (hplaced : stackFrom axis gap next bs = .ok placed) :
    stackFrom axis gap p (b :: bs) = .ok (⟨p, b⟩ :: placed) := by
  rw [stackFrom, hb, hnext]
  show (stackFrom axis gap next bs >>= fun rest => .ok (⟨p, b⟩ :: rest)) = _
  rw [hplaced]
  rfl

theorem stackFrom_eq {boxes : List (Box α)} {rest starts : List Scalar} {c s : ℤ}
    (h : offsets gap (coordinate axis p) (boxes.map (side axis) ++ rest) = .ok starts)
    (hchecks : ∀ b ∈ boxes, checkBox b = .ok ()) (hp : (coordinate axis p).IsInteger i c s)
    (hgap : gap.IsInteger i m g) (hsides : ArePositive i m (side axis) boxes)
    (hroom : i = .bounded → c + boxes.length * (2 * m) < 2 ^ 50) :
    stackFrom axis gap p boxes = .ok (lineUp axis p boxes starts) := by
  -- By induction on the boxes: a stack has them at the starts of a table, which may go on behind
  -- them.
  induction boxes generalizing p starts c s with
  | nil => rfl
  | cons b bs ih =>
    obtain ⟨hb, hbs⟩ := List.forall_mem_cons.mp hchecks
    obtain ⟨⟨n, hpos, hn⟩, hrest⟩ := List.forall_mem_cons.mp hsides
    obtain ⟨edge', next', hedge', hnext', hnextInt⟩ := next_of_room hp hn hgap hroom
    obtain ⟨next, edge, step, hedge, hnext, hstep, hadd⟩ :=
      hp.add_add hn hgap hpos fun hi => (room_next hgap hroom hi).1
    obtain rfl : edge = edge' := Except.ok.inj (hedge.symm.trans hedge')
    obtain rfl : next = next' := Except.ok.inj (hnext.symm.trans hnext')
    have hadvance := advance_eq hstep hadd
    rw [List.map_cons, List.cons_append] at h
    cases htail : bs.map (side axis) ++ rest with
    | nil =>
      obtain rfl : bs = [] := List.map_eq_nil_iff.mp (List.append_eq_nil_iff.mp htail).1
      rw [htail, offsets, Except.ok.injEq] at h
      subst h
      rw [stackFrom_cons hb hadvance rfl, lineUp_cons, along_coordinate]
      rfl
    | cons e es =>
      rw [htail, offsets_cons hedge hnext] at h
      obtain ⟨starts, hstarts, h⟩ := Outcome.bind_eq_ok.mp h
      cases h
      rw [← htail, ← coordinate_along axis p next] at hstarts
      rw [← coordinate_along axis p next] at hnextInt
      have hlater := ih hstarts hbs hnextInt hrest fun hi => (room_next hgap hroom hi).2
      rw [stackFrom_cons hb hadvance hlater, lineUp_along, lineUp_cons, along_coordinate]

/-! ## Stacks -/

theorem stack_eq {boxes : List (Box α)} {origin : Point} {rest starts : List Scalar} {s : ℤ}
    (shown : String)
    (h : offsets gap (coordinate axis origin) (boxes.map (side axis) ++ rest) = .ok starts)
    (horigin : checkOrigin origin = .ok ()) (hcheck : checkGap gap = .ok ())
    (hchecks : ∀ b ∈ boxes, checkBox b = .ok ()) (hp : (coordinate axis origin).IsInteger i m s)
    (hgap : gap.IsInteger i m g) (hsides : ArePositive i m (side axis) boxes)
    (hroom : i = .bounded → m + boxes.length * (2 * m) < 2 ^ 50) :
    stack boxes (some axis) shown origin gap = .ok (lineUp axis origin boxes starts) := by
  rw [stack, horigin, hcheck]
  exact stackFrom_eq h hchecks hp hgap hsides hroom

/-! ## Grids -/

section Grid
variable {boxes : List (Box α)} {measure : Box α → Scalar} {lineOf : ℕ → ℕ}

theorem extent_eq_of_alone {line : ℕ} {b : Box α} {n : ℤ}
    (hline : ∃ j, boxes[j]? = some b ∧ lineOf j = line)
    (halone : ∀ j c, boxes[j]? = some c → lineOf j = line → c = b) (hpos : 0 < n)
    (hn : (measure b).At n) : extent measure lineOf line boxes = measure b := by
  let lengths := (boxes.zipIdx.filter fun b => lineOf b.2 == line).map fun b => measure b.1
  have hsame : ∀ a ∈ lengths, a = measure b := by
    intro a ha
    obtain ⟨j, c, hc, hj, rfl⟩ := mem_onLine.mp ha
    rw [halone j c hc hj]
  obtain ⟨j, hb, hj⟩ := hline
  have hmem : measure b ∈ lengths := mem_onLine.mpr ⟨j, b, hb, hj, rfl⟩
  have hagain (k : ℕ) :
      (List.replicate k (measure b)).foldl Scalar.max (measure b) = measure b := by
    induction k with
    | zero => rfl
    | succ k ih => rw [List.replicate_succ, List.foldl_cons, Scalar.max, ite_self, ih]
  show lengths.foldl Scalar.max (.real (.zero false)) = measure b
  rw [List.eq_replicate_of_mem hsame]
  cases hlength : lengths.length with
  | zero =>
    rw [List.length_eq_zero_iff.mp hlength] at hmem
    cases hmem
  | succ k => rw [List.replicate_succ, List.foldl_cons, Scalar.zero_max hn hpos, hagain]

theorem extents_eq_append (lineOf : ℕ → ℕ) (hlines : ∀ j < boxes.length, lineOf j = j)
    (hboxes : ArePositive i m measure boxes) {lines : ℕ} (hle : boxes.length ≤ lines) :
    ∃ rest, (List.range lines).map (fun line => extent measure lineOf line boxes) =
      boxes.map measure ++ rest := by
  obtain ⟨k, rfl⟩ := Nat.exists_eq_add_of_le hle
  rw [List.range_add, List.map_append]
  refine ⟨_, congrArg (· ++ _) ?_⟩
  refine List.ext_getElem (by simp) fun j hj hj' => ?_
  rw [List.length_map] at hj'
  rw [List.getElem_map, List.getElem_map, List.getElem_range]
  obtain ⟨n, hpos, hn⟩ := hboxes _ (List.getElem_mem hj')
  refine extent_eq_of_alone ⟨j, List.getElem?_eq_getElem hj', hlines j hj'⟩ ?_ hpos hn.value
  intro l c hc hl
  obtain ⟨hlt, rfl⟩ := List.getElem?_eq_some_iff.mp hc
  obtain rfl : l = j := (hlines l hlt).symm.trans hl
  rfl

variable {origin : Point} {columns : ℕ} {placed : List (Placed α)}

/-- Cells whose crossings are the starts of a table along one axis are boxes in a line. -/
theorem eq_lineUp {xs ys starts : List Scalar}
    (hcells : List.Forall₂ (fun b q => cell columns xs ys b = .ok q) boxes.zipIdx placed)
    (hstarts : ∀ j < boxes.length, ∀ x ∈ xs[j % columns]?, ∀ y ∈ ys[j / columns]?,
      ∃ v, starts[j]? = some v ∧ origin.along axis v = ⟨x, y⟩) :
    placed = lineUp axis origin boxes starts := by
  have hlength : boxes.length = placed.length := by
    rw [← hcells.length_eq, List.length_zipIdx]
  refine List.ext_getElem? fun j => ?_
  rw [lineUp, List.getElem?_map]
  by_cases hj : j < boxes.length
  · have hcell := hcells.get (i := j) (by rwa [List.length_zipIdx]) (hlength ▸ hj)
    rw [List.get_eq_getElem, List.get_eq_getElem, List.getElem_zipIdx, Nat.zero_add] at hcell
    obtain ⟨x, y, hx, hy, hplace⟩ := cell_eq_ok hcell
    obtain ⟨v, hv, hxy⟩ := hstarts j hj x hx y hy
    have hzip : (boxes.zip starts)[j]? = some (boxes[j], v) :=
      List.getElem?_zip_eq_some.mpr ⟨List.getElem?_eq_getElem hj, hv⟩
    rw [hzip, Option.map_some, hxy, ← hplace]
    exact List.getElem?_eq_getElem _
  · have hzip : (boxes.zip starts)[j]? = none := by
      rw [List.getElem?_eq_none_iff, List.length_zip]
      omega
    rw [hzip, List.getElem?_eq_none_iff.mpr (by omega)]
    rfl

/-- Whether so many boxes in so many columns are one line along an axis. -/
def IsOneLine (axis : Axis) (columns count : ℕ) : Prop :=
  match axis with
  | .vertical => columns = 1
  | .horizontal => count ≤ columns

instance (axis : Axis) (columns count : ℕ) : Decidable (IsOneLine axis columns count) :=
  match axis with
  | .vertical => inferInstanceAs (Decidable (columns = 1))
  | .horizontal => inferInstanceAs (Decidable (count ≤ columns))

/-- A grid of one line has its boxes at the starts of a table that begins with their sides. -/
theorem gridOf_one_line (h : gridOf boxes origin columns gap = .ok placed) (hcolumns : 0 < columns)
    (hline : IsOneLine axis columns boxes.length) (hsides : ArePositive i m (side axis) boxes) :
    ∃ rest starts, offsets gap (coordinate axis origin) (boxes.map (side axis) ++ rest) =
      .ok starts ∧ placed = lineUp axis origin boxes starts := by
  obtain ⟨rows, xs, ys, hchecks, hxs, hys, hcells⟩ := gridOf_eq_ok h
  have hrows := (checkCells_eq_ok hchecks).2
  cases axis with
  | vertical =>
    obtain rfl : columns = 1 := hline
    -- There is a row for each box: the check of the cells fails at a box without one.
    have hle : boxes.length ≤ rows := by
      by_contra hlt
      have := hrows rows (by omega)
      omega
    obtain ⟨rest, hrest⟩ := extents_eq_append (· / 1) (fun j _ => Nat.div_one j) hsides hle
    refine ⟨rest, ys, ?_, eq_lineUp hcells fun j hj x hx y hy => ?_⟩
    · rw [← hrest]
      exact hys
    · rw [Nat.div_one] at hy
      rw [Nat.mod_one] at hx
      exact ⟨y, hy, by rw [offsets_head hxs hx]; rfl⟩
  | horizontal =>
    have hline : boxes.length ≤ columns := hline
    obtain ⟨rest, hrest⟩ := extents_eq_append (· % columns)
      (fun j hj => Nat.mod_eq_of_lt (hj.trans_le hline)) hsides (le_min hline le_rfl)
    refine ⟨rest, xs, ?_, eq_lineUp hcells fun j hj x hx y hy => ?_⟩
    · rw [← hrest]
      exact hxs
    · rw [Nat.mod_eq_of_lt (hj.trans_le hline)] at hx
      rw [Nat.div_eq_of_lt (hj.trans_le hline)] at hy
      exact ⟨x, hx, by rw [offsets_head hys hy]; rfl⟩

theorem exists_coordinate {x y : ℤ} (hx : origin.x.IsInteger i m x) (hy : origin.y.IsInteger i m y)
    (axis : Axis) : ∃ s, (coordinate axis origin).IsInteger i m s := by
  cases axis with
  | vertical => exact ⟨y, hy⟩
  | horizontal => exact ⟨x, hx⟩

theorem side_positive (hwidths : ArePositive i m Box.width boxes)
    (hheights : ArePositive i m Box.height boxes) (axis : Axis) :
    ArePositive i m (side axis) boxes := by
  cases axis with
  | vertical => exact hheights
  | horizontal => exact hwidths

theorem stack_eq_of_grid {shown' : String} {s : ℤ} (shown : String)
    (h : grid boxes origin (some columns) shown' gap = .ok placed)
    (hline : IsOneLine axis columns boxes.length) (hs : (coordinate axis origin).IsInteger i m s)
    (hgap : gap.IsInteger i m g) (hsides : ArePositive i m (side axis) boxes)
    (hroom : i = .bounded → m + boxes.length * (2 * m) < 2 ^ 50) :
    stack boxes (some axis) shown origin gap = .ok placed := by
  obtain ⟨horigin, hcheck, hcolumns, hgrid⟩ := grid_eq_ok h
  obtain ⟨rows, xs, ys, hcells, -⟩ := gridOf_eq_ok hgrid
  obtain ⟨rest, starts, hstarts, rfl⟩ := gridOf_one_line hgrid hcolumns hline hsides
  exact stack_eq shown hstarts horigin hcheck (checkCells_eq_ok hcells).1 hs hgap hsides hroom

end Grid

/-! ## Stacks of integers -/

/-- A box stands in a line along an axis. -/
structure StandsInLine (i : Integers) (axis : Axis) (origin : Point) (starts : ℕ → ℤ)
    (b : Box α × ℕ) (q : Placed α) : Prop where
  box : q.box = b.1
  along : (coordinate axis q.corner).IsInteger i (2 ^ 50) (starts b.2)
  across : ∀ other ≠ axis, coordinate other q.corner = coordinate other origin

section Stack
variable {boxes : List (Box α)} {origin : Point} {x y s : ℤ}

/-- The whole numbers of a layout have nearest floating-point numbers. -/
def AreInRange (boxes : List (Box α)) (origin : Point) (gap : Scalar) : Prop :=
  ∀ a ∈ origin.x :: origin.y :: gap :: (boxes.map Box.width ++ boxes.map Box.height),
    Binary64.InRange a.wholeSize

instance (boxes : List (Box α)) (origin : Point) (gap : Scalar) :
    Decidable (AreInRange boxes origin gap) := inferInstanceAs (Decidable (∀ a ∈ _, _))

theorem checkLength_ok (what : String) {a : Scalar} {n : ℤ} (ha : a.IsInteger i m n) (hpos : 0 < n)
    (hrange : Binary64.InRange a.wholeSize) : checkLength what a = .ok () := by
  have hpositive : a.IsPositive :=
    ⟨ha.value.isFinite, (Scalar.lt_at Scalar.zero_at ha.value).mpr (by exact_mod_cast hpos)⟩
  have hgives : Gives (fun _ => True) (checkLength what a) :=
    checkLength_settles what hpositive (.inl hrange)
  obtain ⟨_, hcheck, -⟩ := hgives.exists_ok
  exact hcheck

theorem checks_ok (hx : origin.x.IsInteger i m x) (hy : origin.y.IsInteger i m y)
    (hgap : gap.IsInteger i m g) (hg : 0 ≤ g) (hwidths : ArePositive i m Box.width boxes)
    (hheights : ArePositive i m Box.height boxes) (hrange : AreInRange boxes origin gap) :
    checkOrigin origin = .ok () ∧ checkGap gap = .ok () ∧ ∀ b ∈ boxes, checkBox b = .ok () := by
  simp only [AreInRange, List.forall_mem_cons, List.forall_mem_append, List.forall_mem_map]
    at hrange
  obtain ⟨hxRange, hyRange, hgapRange, hwidthRange, hheightRange⟩ := hrange
  have horigin : Gives (fun _ => True) (checkOrigin origin) :=
    checkOrigin_settles ⟨hx.value.isFinite, hy.value.isFinite⟩ (.inl hxRange) (.inl hyRange)
  have hsign : Scalar.le 0 gap = true :=
    (Scalar.le_at Scalar.zero_at hgap.value).mpr (by exact_mod_cast hg)
  have hcheck : Gives (fun _ => True) (checkGap gap) :=
    checkGap_settles hgap.value.isFinite hsign (.inl hgapRange)
  obtain ⟨_, horigin, -⟩ := horigin.exists_ok
  obtain ⟨_, hcheck, -⟩ := hcheck.exists_ok
  refine ⟨horigin, hcheck, fun b hb => ?_⟩
  obtain ⟨w, hwpos, hw⟩ := hwidths b hb
  obtain ⟨h, hhpos, hh⟩ := hheights b hb
  rw [checkBox, checkLength_ok "width" hw hwpos (hwidthRange b hb)]
  exact checkLength_ok "height" hh hhpos (hheightRange b hb)

/-- A stack of integers has each box behind all boxes in front of it, with a gap behind each. -/
theorem stack_stands (shown : String) (horigin : checkOrigin origin = .ok ())
    (hcheck : checkGap gap = .ok ()) (hchecks : ∀ b ∈ boxes, checkBox b = .ok ())
    (hs : (coordinate axis origin).IsInteger i m s) (hgap : gap.IsInteger i m g)
    (hsides : ArePositive i m (side axis) boxes)
    (hroom : i = .bounded → m + boxes.length * (2 * m) < 2 ^ 50) :
    ∃ placed length, stack boxes (some axis) shown origin gap = .ok placed ∧
      (∀ j b, boxes[j]? = some b → (side axis b).IsInteger i m (length j)) ∧
      List.Forall₂ (StandsInLine i axis origin (lineStart s g length)) boxes.zipIdx placed := by
  have hlength (j : ℕ) : ∃ n, ∀ b, boxes[j]? = some b → (side axis b).IsInteger i m n := by
    cases hj : boxes[j]? with
    | none => exact ⟨0, nofun⟩
    | some b =>
      obtain ⟨n, -, hn⟩ := hsides b (List.mem_of_getElem? hj)
      exact ⟨n, fun c hc => Option.some.inj hc ▸ hn⟩
  choose length hlength using hlength
  have hgives : Gives (fun starts => starts.length = (boxes.map (side axis)).length)
      (offsets gap (coordinate axis origin) (boxes.map (side axis))) := by
    refine offsets_gives hs hgap ?_ (by rwa [List.length_map])
    rw [List.forall_mem_map]
    intro b hb
    obtain ⟨n, -, hn⟩ := hsides b hb
    exact ⟨n, hn⟩
  obtain ⟨starts, hstarts, hcount⟩ := hgives.exists_ok
  rw [List.length_map] at hcount
  -- The places of a stack are those of a table of its sides and nothing behind them.
  have hall : offsets gap (coordinate axis origin) (boxes.map (side axis) ++ []) = .ok starts := by
    rwa [List.append_nil]
  refine ⟨_, length, stack_eq shown hall horigin hcheck hchecks hs hgap hsides hroom, hlength, ?_⟩
  refine List.forall₂_iff_get.mpr ⟨by simp [lineUp, hcount], fun j hj hj' => ?_⟩
  rw [List.length_zipIdx] at hj
  have hj : j < starts.length := hcount ▸ hj
  have hstart : starts[j]? = some starts[j] := List.getElem?_eq_getElem hj
  simp only [List.get_eq_getElem, List.getElem_zipIdx, lineUp, List.getElem_map, List.getElem_zip,
    Nat.zero_add]
  refine ⟨rfl, ?_, fun other hne => coordinate_along_of_ne hne _ _⟩
  rw [coordinate_along]
  refine offsets_within hstarts hstart hs hgap (fun k _ e he => ?_) (hcount ▸ hj).le hroom
  rw [List.getElem?_map, Option.map_eq_some_iff] at he
  obtain ⟨b, hb, rfl⟩ := he
  exact hlength k b hb

/-- A stack of integers has each box behind all boxes in front of it, a gap behind each, and a grid
of one line has its boxes at the same places. Whole numbers may have any size; with floating-point
numbers among them, all are at most `m` in size, and `m` with twice `m` for each box is less than
`2 ^ 50`. -/
theorem stack_lines_up (hx : origin.x.IsInteger i m x) (hy : origin.y.IsInteger i m y)
    (hgap : gap.IsInteger i m g) (hg : 0 ≤ g) (hwidths : ArePositive i m Box.width boxes)
    (hheights : ArePositive i m Box.height boxes) (hrange : AreInRange boxes origin gap)
    (hroom : i = .bounded → m + boxes.length * (2 * m) < 2 ^ 50) (axis : Axis) (shown : String) :
    ∃ s length placed, (coordinate axis origin).IsInteger i m s ∧
      stack boxes (some axis) shown origin gap = .ok placed ∧
      (∀ j b, boxes[j]? = some b → (side axis b).IsInteger i m (length j)) ∧
      List.Forall₂ (StandsInLine i axis origin (lineStart s g length)) boxes.zipIdx placed ∧
      ∀ columns shown' placed', IsOneLine axis columns boxes.length →
        grid boxes origin (some columns) shown' gap = .ok placed' → placed' = placed := by
  obtain ⟨horigin, hcheck, hchecks⟩ := checks_ok hx hy hgap hg hwidths hheights hrange
  have hsides := side_positive hwidths hheights axis
  obtain ⟨s, hs⟩ := exists_coordinate hx hy axis
  obtain ⟨placed, length, hplaced, hlength, hstands⟩ :=
    stack_stands shown horigin hcheck hchecks hs hgap hsides hroom
  refine ⟨s, length, placed, hs, hplaced, hlength, hstands, ?_⟩
  intro columns shown' placed' hline hgrid
  exact Except.ok.inj ((stack_eq_of_grid shown hgrid hline hs hgap hsides hroom).symm.trans hplaced)

/-- Two boxes with sides that are exact only as whole numbers, in one column and in more columns
than boxes. -/
theorem stack_lines_up_both :
    let boxes : List (Box ℕ) := [⟨50, .whole (2 ^ 60 + 1), 0⟩, ⟨.whole (2 ^ 70), 15, 1⟩]
    let origin : Point := ⟨.whole (-7), 3⟩
    let below : List (Placed ℕ) :=
      [⟨origin, boxes[0]⟩, ⟨⟨.whole (-7), .whole (2 ^ 60 + 9)⟩, boxes[1]⟩]
    let beside : List (Placed ℕ) := [⟨origin, boxes[0]⟩, ⟨⟨48, 3⟩, boxes[1]⟩]
    AreInRange boxes origin 5 ∧ ArePositive .exact 0 Box.width boxes ∧
      ArePositive .exact 0 Box.height boxes ∧
      stack boxes (some .vertical) "" origin 5 = .ok below ∧
      grid boxes origin (some 1) "" 5 = .ok below ∧
      stack boxes (some .horizontal) "" origin 5 = .ok beside ∧
      grid boxes origin (some 7) "" 5 = .ok beside := by
  intro boxes origin below beside
  have hrange : AreInRange boxes origin 5 := by decide +kernel
  have hwidths : ArePositive .exact 0 Box.width boxes :=
    List.forall_mem_cons.mpr ⟨⟨50, by decide, Scalar.isInteger_whole nofun⟩,
      List.forall_mem_singleton.mpr ⟨2 ^ 70, by decide, Scalar.isInteger_whole nofun⟩⟩
  have hheights : ArePositive .exact 0 Box.height boxes :=
    List.forall_mem_cons.mpr ⟨⟨2 ^ 60 + 1, by decide, Scalar.isInteger_whole nofun⟩,
      List.forall_mem_singleton.mpr ⟨15, by decide, Scalar.isInteger_whole nofun⟩⟩
  have hx : origin.x.IsInteger .exact 0 (-7) := Scalar.isInteger_whole nofun
  have hy : origin.y.IsInteger .exact 0 3 := Scalar.isInteger_whole nofun
  have hgap : Scalar.IsInteger .exact 0 5 5 := Scalar.isInteger_whole nofun
  have hlines (axis : Axis) :=
    stack_lines_up hx hy hgap (by decide) hwidths hheights hrange nofun axis ""
  have hbelow : grid boxes origin (some 1) "" 5 = .ok below := by decide +kernel
  have hbeside : grid boxes origin (some 7) "" 5 = .ok beside := by decide +kernel
  obtain ⟨-, -, placed, -, hstack, -, -, hsame⟩ := hlines .vertical
  obtain ⟨-, -, placed', -, hstack', -, -, hsame'⟩ := hlines .horizontal
  obtain rfl := hsame 1 "" below rfl hbelow
  obtain rfl := hsame' 7 "" beside (by decide) hbeside
  exact ⟨hrange, hwidths, hheights, hstack, hbelow, hstack', hbeside⟩

end Stack

end Layout
end DiagramScript
