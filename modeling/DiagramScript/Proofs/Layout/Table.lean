import DiagramScript.Proofs.Layout.Apart
import DiagramScript.Proofs.Number.Integer
import Mathlib.Algebra.Order.BigOperators.Group.Finset

/-
  Grids of integers.

  Where the sides of boxes, the origin and the gap are integers, a table of lines holds where each
  line starts: behind all lines in front of it, with a gap behind each (`lineStart`, `offsets_at`).
  A column is as wide as its widest box and a row as tall as its tallest (`AreExtents`). So every box
  of a grid stands where its column and its row start, and any two boxes have at least the gap
  between them, along one of the axes (`grid_stands`).
-/

namespace DiagramScript

/-! ## Distance -/

/-- Two regions with a gap between them along one of the axes. -/
def Region.Separated (gap : ℚ) (r s : Region) : Prop :=
  ∃ axis, r.near axis + r.length axis + gap ≤ s.near axis ∨
    s.near axis + s.length axis + gap ≤ r.near axis

theorem Region.Separated.apart {gap : ℚ} {r s : Region} (h : r.Separated gap s) (hgap : 0 ≤ gap) :
    r.Apart s := by
  obtain ⟨axis, hle | hle⟩ := h
  · exact apart_of_near (le_of_add_le_of_nonneg_left hle hgap)
  · exact (apart_of_near (le_of_add_le_of_nonneg_left hle hgap)).symm

/-- A box whose sides are integers. -/
def Box.IsInteger {α : Type} (i : Integers) (m : ℤ) (b : Box α) : Prop :=
  (∃ w, b.width.IsInteger i m w) ∧ ∃ h, b.height.IsInteger i m h

namespace Layout
variable {α : Type} {i : Integers} {gap : Scalar} {m g : ℤ}

/-! ## Lines -/

/-- Where a line starts when lines of some lengths stand a gap apart, the first one at `start`. -/
def lineStart (start gap : ℤ) (length : ℕ → ℤ) (k : ℕ) : ℤ :=
  start + ∑ j ∈ Finset.range k, (length j + gap)

@[simp] theorem lineStart_zero (start gap : ℤ) (length : ℕ → ℤ) :
    lineStart start gap length 0 = start := by
  rw [lineStart, Finset.range_zero, Finset.sum_empty, add_zero]

theorem lineStart_succ (start gap : ℤ) (length : ℕ → ℤ) (k : ℕ) :
    lineStart start gap length (k + 1) =
      lineStart (start + length 0 + gap) gap (fun j => length (j + 1)) k := by
  rw [lineStart, lineStart, Finset.sum_range_succ']
  ring

/-- A line ends a gap in front of every later one. -/
theorem lineStart_before {start : ℤ} {length : ℕ → ℤ} (hg : 0 ≤ g) {j k : ℕ} (hjk : j < k)
    (hlength : ∀ l < k, 0 ≤ length l) :
    lineStart start g length j + length j + g ≤ lineStart start g length k := by
  have hle : ∑ l ∈ Finset.range (j + 1), (length l + g) ≤ ∑ l ∈ Finset.range k, (length l + g) := by
    refine Finset.sum_le_sum_of_subset_of_nonneg (Finset.range_subset_range.mpr hjk) ?_
    intro l hl _
    have := hlength l (Finset.mem_range.mp hl)
    omega
  rw [Finset.sum_range_succ] at hle
  unfold lineStart
  omega

theorem room_next {c : ℤ} {k : ℕ} (hgap : gap.IsInteger i m g)
    (hroom : i = .bounded → c + (k + 1 : ℕ) * (2 * m) < 2 ^ 50) (hi : i = .bounded) :
    c + m + m < 2 ^ 50 ∧ c + m + m + k * (2 * m) < 2 ^ 50 := by
  have hm : 0 ≤ m := (abs_nonneg g).trans (hgap.allows hi)
  have hlater : 0 ≤ (k : ℤ) * (2 * m) := by positivity
  have hall := hroom hi
  push_cast at hall
  constructor
  · linarith
  · linarith

theorem next_of_room {start e : Scalar} {c s n : ℤ} {k : ℕ} (hstart : start.IsInteger i c s)
    (he : e.IsInteger i m n) (hgap : gap.IsInteger i m g)
    (hroom : i = .bounded → c + (k + 1 : ℕ) * (2 * m) < 2 ^ 50) :
    ∃ edge next, start.add e = .ok edge ∧ edge.add gap = .ok next ∧
      next.IsInteger i (c + m + m) (s + n + g) := by
  have hfirst (hi : i = .bounded) : c + m < 2 ^ 50 := by
    have hm : 0 ≤ m := (abs_nonneg g).trans (hgap.allows hi)
    have := (room_next hgap hroom hi).1
    omega
  obtain ⟨edge, hedge, hedgeInt⟩ := (hstart.add_of_room he hfirst).exists_ok
  obtain ⟨next, hnext, hnextInt⟩ :=
    (hedgeInt.add_of_room hgap fun hi => (room_next hgap hroom hi).1).exists_ok
  exact ⟨edge, next, hedge, hnext, hnextInt⟩

theorem offsets_head {start x : Scalar} {lengths starts : List Scalar}
    (h : offsets gap start lengths = .ok starts) (hx : starts[0]? = some x) : x = start := by
  unfold offsets at h
  split at h
  · cases h
    cases hx
  · cases h
    exact (Option.some.inj hx).symm
  · obtain ⟨edge, -, h⟩ := Outcome.bind_eq_ok.mp h
    obtain ⟨next, -, h⟩ := Outcome.bind_eq_ok.mp h
    obtain ⟨rest, -, h⟩ := Outcome.bind_eq_ok.mp h
    cases h
    exact (Option.some.inj hx).symm

theorem offsets_cons {start e e' edge next : Scalar} {es : List Scalar}
    (hedge : start.add e = .ok edge) (hnext : edge.add gap = .ok next) :
    offsets gap start (e :: e' :: es) =
      offsets gap next (e' :: es) >>= fun rest => .ok (start :: rest) := by
  rw [offsets, hedge]
  show (edge.add gap >>= _) = _
  rw [hnext]
  rfl

theorem offsets_at {start x : Scalar} {lengths xs : List Scalar} {c s : ℤ} {length : ℕ → ℤ} {k : ℕ}
    (h : offsets gap start lengths = .ok xs) (hx : xs[k]? = some x)
    (hstart : start.IsInteger i c s) (hgap : gap.IsInteger i m g)
    (hlengths : ∀ j < k, ∀ e, lengths[j]? = some e → e.IsInteger i m (length j))
    (hroom : i = .bounded → c + k * (2 * m) < 2 ^ 50) :
    x.IsInteger i (c + k * (2 * m)) (lineStart s g length k) := by
  -- By induction on the lines in front of it: a line starts behind these, if it has a start.
  induction k generalizing start lengths xs c s length with
  | zero =>
    rw [offsets_head h hx, lineStart_zero]
    exact hstart.mono (by simp)
  | succ k ih =>
    rcases lengths with - | ⟨e, - | ⟨e', es⟩⟩
    · cases h
      cases hx
    · cases h
      cases hx
    · have hfirst := hlengths 0 (Nat.succ_pos k) e rfl
      obtain ⟨edge, next, hedge, hnext, hnextInt⟩ := next_of_room hstart hfirst hgap hroom
      rw [offsets_cons hedge hnext] at h
      obtain ⟨rest, hrest, h⟩ := Outcome.bind_eq_ok.mp h
      cases h
      have hstep := ih hrest hx hnextInt
        (fun j hj e'' he'' => hlengths (j + 1) (Nat.succ_lt_succ hj) e'' he'')
        fun hi => (room_next hgap hroom hi).2
      rw [← lineStart_succ] at hstep
      refine hstep.mono (le_of_eq ?_)
      push_cast
      ring

theorem offsets_within {start x : Scalar} {lengths xs : List Scalar} {s : ℤ} {length : ℕ → ℤ}
    {k n : ℕ} (h : offsets gap start lengths = .ok xs) (hx : xs[k]? = some x)
    (hstart : start.IsInteger i m s) (hgap : gap.IsInteger i m g)
    (hlengths : ∀ j < k, ∀ e, lengths[j]? = some e → e.IsInteger i m (length j)) (hk : k ≤ n)
    (hroom : i = .bounded → m + n * (2 * m) < 2 ^ 50) :
    x.IsInteger i (2 ^ 50) (lineStart s g length k) := by
  have hsmall (hi : i = .bounded) : m + k * (2 * m) < 2 ^ 50 := by
    have hm : 0 ≤ m := (abs_nonneg g).trans (hgap.allows hi)
    have hle : (k : ℤ) ≤ n := by exact_mod_cast hk
    have := mul_le_mul_of_nonneg_right hle (show 0 ≤ 2 * m by omega)
    have := hroom hi
    omega
  have hat := offsets_at h hx hstart hgap hlengths hsmall
  exact hat.allow fun hi => (hat.allows hi).trans (hsmall hi).le

/-! ## Extents -/

/-- The greatest lengths on the lines of a grid that hold boxes. -/
def AreExtents (measure : Box α → Scalar) (lineOf : ℕ → ℕ) (boxes : List (Box α))
    (length : ℕ → ℤ) : Prop :=
  ∀ line, (∃ j < boxes.length, lineOf j = line) →
    IsGreatest {n : ℤ | ∃ j b, boxes[j]? = some b ∧ lineOf j = line ∧ (measure b).At n}
      (length line)

/-- The lengths of boxes are integers above zero. -/
def ArePositive (i : Integers) (m : ℤ) (measure : Box α → Scalar) (boxes : List (Box α)) : Prop :=
  ∀ b ∈ boxes, ∃ n, 0 < n ∧ (measure b).IsInteger i m n

section Extents
variable {measure : Box α → Scalar} {lineOf : ℕ → ℕ} {boxes : List (Box α)} {length : ℕ → ℤ}

theorem mem_onLine {line : ℕ} {a : Scalar} :
    a ∈ ((boxes.zipIdx.filter fun b => lineOf b.2 == line).map fun b => measure b.1) ↔
      ∃ j b, boxes[j]? = some b ∧ lineOf j = line ∧ measure b = a := by
  simp only [List.mem_map, List.mem_filter, List.mem_zipIdx_iff_getElem?, Prod.exists, beq_iff_eq]
  constructor
  · rintro ⟨b, j, ⟨hb, hj⟩, rfl⟩
    exact ⟨j, b, hb, hj, rfl⟩
  · rintro ⟨j, b, hb, hj, rfl⟩
    exact ⟨b, j, ⟨hb, hj⟩, rfl⟩

theorem exists_extent (hboxes : ArePositive i m measure boxes) {line : ℕ}
    (hline : ∃ j < boxes.length, lineOf j = line) :
    ∃ n, (extent measure lineOf line boxes).IsInteger i m n ∧
      IsGreatest {n : ℤ | ∃ j b, boxes[j]? = some b ∧ lineOf j = line ∧ (measure b).At n} n := by
  let lengths := (boxes.zipIdx.filter fun b => lineOf b.2 == line).map fun b => measure b.1
  have hne : lengths ≠ [] := by
    obtain ⟨j, hj, hline⟩ := hline
    exact List.ne_nil_of_mem (mem_onLine.mpr ⟨j, _, List.getElem?_eq_getElem hj, hline, rfl⟩)
  have hlengths : ∀ a ∈ lengths, ∃ n, 0 < n ∧ a.IsInteger i m n := by
    intro a ha
    obtain ⟨j, b, hb, -, rfl⟩ := mem_onLine.mp ha
    exact hboxes b (List.mem_of_getElem? hb)
  obtain ⟨n, hn, hgreatest⟩ := Scalar.exists_greatest hne hlengths
  have hset : {k : ℤ | ∃ j b, boxes[j]? = some b ∧ lineOf j = line ∧ (measure b).At k} =
      {k : ℤ | ∃ a ∈ lengths, a.At k} := by
    ext k
    constructor
    · rintro ⟨j, b, hb, hj, hk⟩
      exact ⟨measure b, mem_onLine.mpr ⟨j, b, hb, hj, rfl⟩, hk⟩
    · rintro ⟨a, ha, hk⟩
      obtain ⟨j, b, hb, hj, rfl⟩ := mem_onLine.mp ha
      exact ⟨j, b, hb, hj, hk⟩
  rw [hset]
  exact ⟨n, hn, hgreatest⟩

/-- The lines that hold boxes have extents, and the tables of a grid hold these. -/
theorem exists_extents (hboxes : ArePositive i m measure boxes) (lineOf : ℕ → ℕ) :
    ∃ length, AreExtents measure lineOf boxes length ∧
      ∀ line, (∃ j < boxes.length, lineOf j = line) →
        (extent measure lineOf line boxes).IsInteger i m (length line) := by
  have hextent (line : ℕ) : ∃ n, (∃ j < boxes.length, lineOf j = line) →
      (extent measure lineOf line boxes).IsInteger i m n ∧
        IsGreatest {n : ℤ | ∃ j b, boxes[j]? = some b ∧ lineOf j = line ∧ (measure b).At n} n := by
    by_cases hline : ∃ j < boxes.length, lineOf j = line
    · obtain ⟨n, hn⟩ := exists_extent hboxes hline
      exact ⟨n, fun _ => hn⟩
    · exact ⟨0, fun h => (hline h).elim⟩
  choose length hlength using hextent
  exact ⟨length, fun line h => (hlength line h).2, fun line h => (hlength line h).1⟩

theorem AreExtents.le (h : AreExtents measure lineOf boxes length) {j : ℕ} {b : Box α} {n : ℤ}
    (hb : boxes[j]? = some b) (hn : (measure b).At n) : n ≤ length (lineOf j) :=
  (h _ ⟨j, (List.getElem?_eq_some_iff.mp hb).1, rfl⟩).2 ⟨j, b, hb, rfl, hn⟩

theorem AreExtents.pos (h : AreExtents measure lineOf boxes length)
    (hboxes : ArePositive i m measure boxes) {j : ℕ} (hj : j < boxes.length) :
    0 < length (lineOf j) := by
  obtain ⟨n, hpos, hn⟩ := hboxes _ (List.getElem_mem hj)
  exact hpos.trans_le (h.le (List.getElem?_eq_getElem hj) hn.value)

end Extents

/-! ## Checks -/

theorem pos_of_checkLength {what : String} {a : Scalar} {v : ℚ} {u : Unit}
    (h : checkLength what a = .ok u) (ha : a.At v) : 0 < v := by
  obtain ⟨finite, -, h⟩ := Outcome.bind_eq_ok.mp h
  split at h
  · cases h
  · rename_i hcheck
    rw [Bool.not_eq_true, Bool.or_eq_false_iff] at hcheck
    by_contra hle
    exact Bool.eq_false_iff.mp hcheck.2 ((Scalar.le_at ha Scalar.zero_at).mpr (not_lt.mp hle))

theorem checkCells_eq_ok {columns rows k : ℕ} {boxes : List (Box α)} {u : Unit}
    (h : checkCells columns rows k boxes = .ok u) :
    (∀ b ∈ boxes, checkBox b = .ok ()) ∧ ∀ j < boxes.length, (k + j) / columns < rows := by
  induction boxes generalizing k with
  | nil => exact ⟨List.forall_mem_nil _, fun j hj => absurd hj (Nat.not_lt_zero j)⟩
  | cons b bs ih =>
    obtain ⟨_, hb, h⟩ := Outcome.bind_eq_ok.mp h
    split at h
    · cases h
    · rename_i hrow
      obtain ⟨hbs, hrows⟩ := ih h
      refine ⟨List.forall_mem_cons.mpr ⟨hb, hbs⟩, fun j hj => ?_⟩
      cases j with
      | zero => exact not_le.mp hrow
      | succ j =>
        rw [← Nat.add_assoc, Nat.add_right_comm]
        exact hrows j (Nat.lt_of_succ_lt_succ hj)

theorem gridOf_eq_ok {boxes : List (Box α)} {origin : Point} {columns : ℕ}
    {placed : List (Placed α)} (h : gridOf boxes origin columns gap = .ok placed) :
    ∃ rows xs ys, checkCells columns rows 0 boxes = .ok () ∧
      offsets gap origin.x (columnWidths columns boxes) = .ok xs ∧
      offsets gap origin.y (rowHeights columns rows boxes) = .ok ys ∧
      List.Forall₂ (fun b q => cell columns xs ys b = .ok q) boxes.zipIdx placed := by
  unfold gridOf at h
  split at h
  · rename_i hempty
    obtain rfl := List.isEmpty_iff.mp hempty
    cases h
    have hwidths : columnWidths columns ([] : List (Box α)) = [] := by
      rw [columnWidths, List.length_nil, Nat.min_zero, List.range_zero, List.map_nil]
    exact ⟨0, [], [], rfl, by rw [hwidths, offsets], rfl, .nil⟩
  · obtain ⟨rows, -, h⟩ := Outcome.bind_eq_ok.mp h
    obtain ⟨_, hcells, h⟩ := Outcome.bind_eq_ok.mp h
    obtain ⟨xs, hxs, h⟩ := Outcome.bind_eq_ok.mp h
    obtain ⟨ys, hys, h⟩ := Outcome.bind_eq_ok.mp h
    exact ⟨rows, xs, ys, hcells, hxs, hys, Outcome.forall₂_of_mapM_ok h⟩

theorem grid_eq_ok {boxes : List (Box α)} {origin : Point} {columns : ℕ} {shown : String}
    {placed : List (Placed α)} (h : grid boxes origin (some columns) shown gap = .ok placed) :
    checkOrigin origin = .ok () ∧ checkGap gap = .ok () ∧ 0 < columns ∧
      gridOf boxes origin columns gap = .ok placed := by
  obtain ⟨_, horigin, h⟩ := Outcome.bind_eq_ok.mp h
  obtain ⟨_, hgap, h⟩ := Outcome.bind_eq_ok.mp h
  cases columns with
  | zero => cases h
  | succ n => exact ⟨horigin, hgap, n.succ_pos, h⟩

/-! ## Places -/

/-- A box stands at the crossing of its column and its row. -/
structure StandsAt (i : Integers) (columns : ℕ) (across down : ℕ → ℤ) (b : Box α × ℕ)
    (q : Placed α) : Prop where
  box : q.box = b.1
  x : q.corner.x.IsInteger i (2 ^ 50) (across (b.2 % columns))
  y : q.corner.y.IsInteger i (2 ^ 50) (down (b.2 / columns))

theorem exists_on_line {columns j : ℕ} (hcolumns : 0 < columns) :
    (∀ k ≤ j % columns, ∃ l ≤ j, l % columns = k) ∧ ∀ k ≤ j / columns, ∃ l ≤ j, l / columns = k := by
  constructor
  · intro k hk
    have hlt : k < columns := hk.trans_lt (Nat.mod_lt j hcolumns)
    exact ⟨k, hk.trans (Nat.mod_le j columns), Nat.mod_eq_of_lt hlt⟩
  · intro k hk
    refine ⟨k * columns, ?_, Nat.mul_div_cancel k hcolumns⟩
    exact (Nat.mul_le_mul_right columns hk).trans (Nat.div_mul_le_self j columns)

section Grid
variable {boxes : List (Box α)} {origin : Point} {columns : ℕ} {placed : List (Placed α)} {x y : ℤ}

theorem start_of_table (lineOf : ℕ → ℕ) {measure : Box α → Scalar} {lines j : ℕ} {start v : Scalar}
    {s : ℤ} {starts : List Scalar} {length : ℕ → ℤ}
    (h : offsets gap start ((List.range lines).map fun line => extent measure lineOf line boxes) =
      .ok starts)
    (hv : starts[lineOf j]? = some v) (hstart : start.IsInteger i m s) (hgap : gap.IsInteger i m g)
    (hroom : i = .bounded → m + boxes.length * (2 * m) < 2 ^ 50) (hj : j < boxes.length)
    (hline : ∀ k ≤ lineOf j, ∃ l ≤ j, lineOf l = k) (hle : lineOf j ≤ j)
    (hlength : ∀ line, (∃ j < boxes.length, lineOf j = line) →
      (extent measure lineOf line boxes).IsInteger i m (length line)) :
    v.IsInteger i (2 ^ 50) (lineStart s g length (lineOf j)) := by
  refine offsets_within h hv hstart hgap (fun k hk e he => ?_) (hle.trans hj.le) hroom
  rw [List.getElem?_map, Option.map_eq_some_iff] at he
  obtain ⟨line, hmem, rfl⟩ := he
  obtain ⟨-, rfl⟩ := List.getElem?_eq_some_iff.mp hmem
  rw [List.getElem_range]
  obtain ⟨l, hl, hkl⟩ := hline k hk.le
  exact hlength k ⟨l, hl.trans_lt hj, hkl⟩

/-- The boxes of a grid of integers stand at its columns and rows, which are as wide and as tall as
their greatest boxes, a gap apart. -/
theorem gridOf_stands (h : gridOf boxes origin columns gap = .ok placed) (hcolumns : 0 < columns)
    (hx : origin.x.IsInteger i m x) (hy : origin.y.IsInteger i m y) (hgap : gap.IsInteger i m g)
    (hwidths : ArePositive i m Box.width boxes) (hheights : ArePositive i m Box.height boxes)
    (hroom : i = .bounded → m + boxes.length * (2 * m) < 2 ^ 50) :
    ∃ wide tall, AreExtents Box.width (· % columns) boxes wide ∧
      AreExtents Box.height (· / columns) boxes tall ∧
      List.Forall₂ (StandsAt i columns (lineStart x g wide) (lineStart y g tall)) boxes.zipIdx
        placed := by
  obtain ⟨rows, xs, ys, -, hxs, hys, hcells⟩ := gridOf_eq_ok h
  obtain ⟨wide, hwide, hwideAt⟩ := exists_extents hwidths (· % columns)
  obtain ⟨tall, htall, htallAt⟩ := exists_extents hheights (· / columns)
  refine ⟨wide, tall, hwide, htall, ?_⟩
  refine List.forall₂_iff_zip.mpr ⟨hcells.length_eq, fun {b q} hmem => ?_⟩
  have hcell := (List.forall₂_iff_zip.mp hcells).2 hmem
  obtain ⟨b, j⟩ := b
  have hj : j < boxes.length := by
    have := List.snd_lt_of_mem_zipIdx (List.of_mem_zip hmem).1
    omega
  obtain ⟨hacross, hdown⟩ := exists_on_line (j := j) hcolumns
  obtain ⟨v, w, hv, hw, rfl⟩ := cell_eq_ok hcell
  refine ⟨rfl, ?_, ?_⟩
  · exact start_of_table (· % columns) hxs hv hx hgap hroom hj hacross (Nat.mod_le j columns) hwideAt
  · exact start_of_table (· / columns) hys hw hy hgap hroom hj hdown (Nat.div_le_self j columns)
      htallAt

theorem arePositive_of_gridOf (h : gridOf boxes origin columns gap = .ok placed)
    (hboxes : ∀ b ∈ boxes, b.IsInteger i m) :
    ArePositive i m Box.width boxes ∧ ArePositive i m Box.height boxes := by
  obtain ⟨rows, xs, ys, hcells, -⟩ := gridOf_eq_ok h
  have hchecks := (checkCells_eq_ok hcells).1
  constructor
  · intro b hb
    obtain ⟨⟨n, hn⟩, -⟩ := hboxes b hb
    obtain ⟨_, hwidth, -⟩ := Outcome.bind_eq_ok.mp (hchecks b hb)
    exact ⟨n, by exact_mod_cast pos_of_checkLength hwidth hn.value, hn⟩
  · intro b hb
    obtain ⟨-, n, hn⟩ := hboxes b hb
    obtain ⟨_, -, hheight⟩ := Outcome.bind_eq_ok.mp (hchecks b hb)
    exact ⟨n, by exact_mod_cast pos_of_checkLength hheight hn.value, hn⟩

/-- A region stands in a column and in a row that have room for it. -/
structure IsInCell (columns : ℕ) (x y g : ℤ) (wide tall : ℕ → ℤ) (j : ℕ) (r : Region) : Prop where
  left : r.left = lineStart x g wide (j % columns)
  top : r.top = lineStart y g tall (j / columns)
  width : r.width ≤ wide (j % columns)
  height : r.height ≤ tall (j / columns)

/-- Of two boxes one stands in a column in front of that of the other one, or they share a column
and the first one stands in a row above. -/
theorem IsInCell.separated {wide tall : ℕ → ℤ} {j k : ℕ} {r s : Region} (hcolumns : 0 < columns)
    (hg : 0 ≤ g) (hwide : ∀ l < boxes.length, 0 < wide (l % columns))
    (htall : ∀ l < boxes.length, 0 < tall (l / columns))
    (hr : IsInCell columns x y g wide tall j r) (hs : IsInCell columns x y g wide tall k s)
    (hjk : j < k) (hk : k < boxes.length) : r.Separated g s := by
  have hcolumn (l l' : ℕ) (hl' : l' < boxes.length) (hlt : l % columns < l' % columns) :
      (lineStart x g wide (l % columns) + wide (l % columns) + g : ℚ) ≤
        lineStart x g wide (l' % columns) := by
    exact_mod_cast lineStart_before hg hlt fun c hc => by
      obtain ⟨n, hn, rfl⟩ := (exists_on_line hcolumns).1 c hc.le
      exact (hwide n (hn.trans_lt hl')).le
  rcases Nat.lt_trichotomy (j % columns) (k % columns) with hlt | heq | hgt
  · refine ⟨.horizontal, .inl ?_⟩
    have := hcolumn j k hk hlt
    simp only [Region.near, Region.length, hr.left, hs.left]
    linarith [hr.width]
  · have hstart : (lineStart y g tall (j / columns) + tall (j / columns) + g : ℚ) ≤
        lineStart y g tall (k / columns) := by
      exact_mod_cast lineStart_before hg (row_lt_of_column_eq heq hjk) fun c hc => by
        obtain ⟨n, hn, rfl⟩ := (exists_on_line hcolumns).2 c hc.le
        exact (htall n (hn.trans_lt hk)).le
    refine ⟨.vertical, .inl ?_⟩
    simp only [Region.near, Region.length, hr.top, hs.top]
    linarith [hr.height]
  · refine ⟨.horizontal, .inr ?_⟩
    have := hcolumn k j (hjk.trans hk) hgt
    simp only [Region.near, Region.length, hr.left, hs.left]
    linarith [hs.width]

/-- A grid of integers has each box at the crossing of its column and its row; these are as wide
and as tall as their greatest boxes and a gap apart, so any two boxes have at least a gap between
them along an axis. Whole numbers may have any size; with floating-point numbers among them, all are
at most `m` in size, and `m` with twice `m` for each box is less than `2 ^ 50`. -/
theorem grid_stands {shown : String} (h : grid boxes origin (some columns) shown gap = .ok placed)
    (hx : origin.x.IsInteger i m x) (hy : origin.y.IsInteger i m y) (hgap : gap.IsInteger i m g)
    (hboxes : ∀ b ∈ boxes, b.IsInteger i m)
    (hroom : i = .bounded → m + boxes.length * (2 * m) < 2 ^ 50) :
    ∃ wide tall, AreExtents Box.width (· % columns) boxes wide ∧
      AreExtents Box.height (· / columns) boxes tall ∧
      List.Forall₂ (StandsAt i columns (lineStart x g wide) (lineStart y g tall)) boxes.zipIdx
        placed ∧
      ∃ rs, List.Forall₂ Placed.At placed rs ∧
        rs.Pairwise fun r s => r.Separated g s ∧ r.Apart s := by
  obtain ⟨-, hcheck, hcolumns, hgrid⟩ := grid_eq_ok h
  have hg : 0 ≤ g := by exact_mod_cast nonneg_of_checkGap hcheck hgap.value
  obtain ⟨hwidths, hheights⟩ := arePositive_of_gridOf hgrid hboxes
  obtain ⟨wide, tall, hwide, htall, hstands⟩ :=
    gridOf_stands hgrid hcolumns hx hy hgap hwidths hheights hroom
  refine ⟨wide, tall, hwide, htall, hstands, ?_⟩
  let inCell (j : ℕ) (r : Region) : Prop :=
    j < boxes.length ∧ IsInCell columns x y g wide tall j r
  -- The regions are made from the starts of the lines and the sides of the boxes.
  obtain ⟨rs, hrs, hcells⟩ := Outcome.exists_between (P := Placed.At)
    (Q := fun b r => inCell b.2 r) hstands fun b q hb hq => by
      have hat := List.mem_zipIdx_iff_getElem?.mp hb
      obtain ⟨⟨w, hw⟩, t, ht⟩ := hboxes b.1 (List.mem_of_getElem? hat)
      refine ⟨⟨_, _, w, t⟩, ⟨hq.x.value, hq.y.value, ?_, ?_⟩,
        (List.getElem?_eq_some_iff.mp hat).1, ⟨rfl, rfl, ?_, ?_⟩⟩
      · rw [hq.box]
        exact hw.value
      · rw [hq.box]
        exact ht.value
      · exact Int.cast_le.mpr (hwide.le hat hw.value)
      · exact Int.cast_le.mpr (htall.le hat ht.value)
  refine ⟨rs, hrs, pairwise_of_numbers (R := inCell) hcells fun j k r s hr hs hjk => ?_⟩
  have hseparated := hr.2.separated hcolumns hg (fun l hl => hwide.pos hwidths hl)
    (fun l hl => htall.pos hheights hl) hs.2 hjk hs.1
  exact ⟨hseparated, hseparated.apart (by exact_mod_cast hg)⟩

/-- Two columns and three rows, the last one not full, with sides that are exact only as whole
numbers. -/
theorem grid_stands_partial :
    let boxes : List (Box ℕ) := [⟨30, 10, 0⟩, ⟨50, .whole (2 ^ 60 + 1), 1⟩, ⟨.whole (2 ^ 70), 15, 2⟩,
      ⟨20, 5, 3⟩, ⟨10, 8, 4⟩]
    let origin : Point := ⟨.whole (-7), 3⟩
    ∃ placed, grid boxes origin (some 2) "" 5 = .ok placed ∧
      placed.map (·.corner) = [⟨.whole (-7), 3⟩, ⟨.whole (2 ^ 70 - 2), 3⟩,
        ⟨.whole (-7), .whole (2 ^ 60 + 9)⟩, ⟨.whole (2 ^ 70 - 2), .whole (2 ^ 60 + 9)⟩,
        ⟨.whole (-7), .whole (2 ^ 60 + 29)⟩] ∧
      (∀ b ∈ boxes, b.IsInteger .exact 0) ∧
      ∃ wide tall, AreExtents Box.width (· % 2) boxes wide ∧
        AreExtents Box.height (· / 2) boxes tall ∧
        List.Forall₂ (StandsAt .exact 2 (lineStart (-7) 5 wide) (lineStart 3 5 tall)) boxes.zipIdx
          placed ∧
        ∃ rs, List.Forall₂ Placed.At placed rs ∧
          rs.Pairwise fun r s => r.Separated 5 s ∧ r.Apart s := by
  intro boxes origin
  let y : Scalar := .whole (2 ^ 60 + 9)
  let x : Scalar := .whole (2 ^ 70 - 2)
  have hgrid : grid boxes origin (some 2) "" 5 = .ok [⟨origin, boxes[0]⟩, ⟨⟨x, 3⟩, boxes[1]⟩,
      ⟨⟨.whole (-7), y⟩, boxes[2]⟩, ⟨⟨x, y⟩, boxes[3]⟩,
      ⟨⟨.whole (-7), .whole (2 ^ 60 + 29)⟩, boxes[4]⟩] := by decide +kernel
  have hboxes : ∀ b ∈ boxes, b.IsInteger .exact 0 := by
    have hcheck : ∀ b ∈ boxes, (b.width.integer? .exact 0).isSome = true ∧
        (b.height.integer? .exact 0).isSome = true := by decide +kernel
    exact fun b hb => ⟨Scalar.isInteger_of_isSome (hcheck b hb).1,
      Scalar.isInteger_of_isSome (hcheck b hb).2⟩
  exact ⟨_, hgrid, rfl, hboxes, grid_stands hgrid (Scalar.isInteger_whole nofun)
    (Scalar.isInteger_whole nofun) (Scalar.isInteger_whole nofun) hboxes nofun⟩

end Grid

end Layout
end DiagramScript
