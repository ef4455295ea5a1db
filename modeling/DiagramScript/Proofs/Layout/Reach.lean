import DiagramScript.Proofs.Geometry.Middle
import DiagramScript.Proofs.Layout.Whole

/-
  Layouts of moderate numbers.

  A layout of boxes whose sides are neither tiny nor huge is made, or its geometry is refused;
  no computation in it breaks off and no box misses its row (`stack_reaches`, `grid_reaches`).
  From box to box a corner moves by at most a side, a gap and the two errors of the sums, so
  four reaches for each box bound every corner.
-/

namespace DiagramScript

/-- A box with sides that are neither tiny nor huge. -/
def Box.HasSides {α : Type} (b : Box α) : Prop := b.width.IsSide ∧ b.height.IsSide

namespace Layout
variable {α : Type} {gap : Scalar} {k : ℕ}

theorem isFinite_of_regular {a : Scalar} {m : ℕ} (h : a.Regular m k) (hk : k ≤ far) :
    a.isFinite = .ok true :=
  h.within.isFinite hk

theorem checkLength_own (what : String) {a : Scalar} (h : a.IsSide) :
    Settles Fault.Own (fun _ => True) (checkLength what a) := by
  rw [checkLength, isFinite_of_regular h.moderate.regular (by decide)]
  exact .ite (fun _ => .error (.layout _ _)) fun _ => .ok trivial

theorem checkBox_own {b : Box α} (h : b.HasSides) :
    Settles Fault.Own (fun _ => True) (checkBox b) :=
  (checkLength_own "width" h.1).bind fun _ _ => checkLength_own "height" h.2

theorem checkGap_own (h : gap.Regular 132 1) :
    Settles Fault.Own (fun _ => True) (checkGap gap) := by
  rw [checkGap, isFinite_of_regular h (by decide)]
  exact .ite (fun _ => .error (.layout _ _)) fun _ => .ok trivial

theorem checkOrigin_own {p : Point} (h : p.Regular 132 1) :
    Settles Fault.Own (fun _ => True) (checkOrigin p) := by
  rw [checkOrigin, isFinite_of_regular h.x (by decide), isFinite_of_regular h.y (by decide)]
  exact .ok trivial

/-! ## Stacks -/

theorem side_isSide {b : Box α} (h : b.HasSides) (axis : Axis) : (side axis b).IsSide := by
  cases axis with
  | vertical => exact h.2
  | horizontal => exact h.1

theorem advance_reaches (axis : Axis) {p : Point} {b : Box α} (hp : p.Regular 132 k)
    (hgap : gap.Regular 132 1) (hb : b.HasSides) (hk : k ≤ far) :
    Gives (Point.Regular 132 (k + 4)) (advance axis gap p b) := by
  have hthree : 3 ≤ far := by decide
  have hstep := (side_isSide hb axis).moderate.regular.add hgap (by norm_num) (by decide)
    (by decide)
  cases axis with
  | vertical =>
    refine hstep.bind fun step hstep => ?_
    refine (hp.y.add hstep (by norm_num) hk hthree).bind fun y hy => .ok ⟨?_, ?_⟩
    · exact hp.x.mono le_rfl (by omega)
    · exact hy.mono le_rfl (by omega)
  | horizontal =>
    refine hstep.bind fun step hstep => ?_
    refine (hp.x.add hstep (by norm_num) hk hthree).bind fun x hx => .ok ⟨?_, ?_⟩
    · exact hx.mono le_rfl (by omega)
    · exact hp.y.mono le_rfl (by omega)

theorem stackFrom_reaches (axis : Axis) {p : Point} {boxes : List (Box α)}
    (hp : p.Regular 132 k) (hgap : gap.Regular 132 1) (hboxes : ∀ b ∈ boxes, b.HasSides)
    (hroom : k + 4 * boxes.length ≤ far) :
    Settles Fault.Own
      (fun placed => ∀ q ∈ placed, q.box ∈ boxes ∧ q.corner.Regular 132 (k + 4 * boxes.length))
      (stackFrom axis gap p boxes) := by
  induction boxes generalizing p k with
  | nil => exact .ok fun q hq => by cases hq
  | cons b bs ih =>
    obtain ⟨hb, hbs⟩ := List.forall_mem_cons.mp hboxes
    rw [List.length_cons] at hroom ⊢
    refine (checkBox_own hb).bind fun _ _ => ?_
    refine (Settles.of_gives (advance_reaches axis hp hgap hb (by omega))).bind fun next hnext => ?_
    refine (ih hnext hbs (by omega)).bind fun rest hrest => .ok ?_
    intro q hq
    rcases List.mem_cons.mp hq with rfl | hq
    · exact ⟨List.mem_cons_self, hp.mono le_rfl (by omega)⟩
    · obtain ⟨hbox, hcorner⟩ := hrest q hq
      exact ⟨List.mem_cons_of_mem b hbox, hcorner.mono le_rfl (by omega)⟩

theorem stack_reaches {boxes : List (Box α)} (axis : Option Axis) (shown : String)
    {origin : Point} (horigin : origin.Regular 132 1) (hgap : gap.Regular 132 1)
    (hboxes : ∀ b ∈ boxes, b.HasSides) (hroom : 1 + 4 * (boxes.length + 1) ≤ far) :
    Settles Fault.Own
      (fun placed => ∀ q ∈ placed, q.box ∈ boxes ∧
        q.corner.Regular 132 (1 + 4 * (boxes.length + 1)))
      (stack boxes axis shown origin gap) := by
  cases axis with
  | none => exact .error (.layout _ _)
  | some axis =>
    refine (checkOrigin_own horigin).bind fun _ _ => (checkGap_own hgap).bind fun _ _ => ?_
    refine (stackFrom_reaches axis horigin hgap hboxes (by omega)).imp fun placed hplaced => ?_
    intro q hq
    obtain ⟨hbox, hcorner⟩ := hplaced q hq
    exact ⟨hbox, hcorner.mono le_rfl (by omega)⟩

/-! ## Grids -/

/-- The quotient of boxes by columns lies past the row of each box by the share of one box at
least. -/
theorem row_add_le {n columns i : ℕ} (hcolumns : columns ≠ 0) (hi : i < n) :
    ((i / columns : ℕ) : ℚ) + 1 / columns ≤ (n : ℚ) / columns := by
  have hpos : (0 : ℚ) < columns := by exact_mod_cast Nat.pos_of_ne_zero hcolumns
  have hmul : i / columns * columns + 1 ≤ n := by
    have := Nat.div_mul_le_self i columns
    omega
  have hcast : ((i / columns : ℕ) : ℚ) * columns + 1 ≤ n := by exact_mod_cast hmul
  rw [le_div_iff₀ hpos, add_mul, one_div_mul_cancel hpos.ne']
  exact hcast

/-- Rounding leaves the quotient past the row of each box, unless the columns are so many that it
is rounded to zero. -/
theorem row_lt_rounded {n columns i : ℕ} {z : ℚ} (hcolumns : columns ≠ 0) (hn : n < 2 ^ 53)
    (hmany : columns < n * (2 * Binary64.one)) (hround : Binary64.Rounds ((n : ℚ) / columns) z)
    (hi : i < n) : ((i / columns : ℕ) : ℚ) < z := by
  have hpos : (0 : ℚ) < columns := by exact_mod_cast Nat.pos_of_ne_zero hcolumns
  have hrow := row_add_le hcolumns hi
  rcases hround.error with htiny | hshare
  · have hlow := (abs_le.mp (show |z - (n : ℚ) / columns| ≤ Binary64.tiny / 2 by linarith)).1
    rcases Nat.lt_or_ge i columns with hfirst | hlater
    · -- In the first row it is the quotient itself that is more than half of the least number.
      have hhalf : Binary64.tiny / 2 < (n : ℚ) / columns := by
        have hone : (0 : ℚ) < Binary64.one := by exact_mod_cast Binary64.one_pos
        have hcast : (columns : ℚ) < n * (2 * Binary64.one) := by exact_mod_cast hmany
        rw [Binary64.tiny, div_div, div_lt_div_iff₀ (mul_pos hone two_pos) hpos]
        linarith
      rw [Nat.div_eq_of_lt hfirst, Nat.cast_zero]
      linarith
    · -- In a later row the columns are fewer than the boxes, so one box is a large share.
      have hshort : (columns : ℚ) ≤ 2 ^ 53 := by
        exact_mod_cast hlater.trans (hi.trans hn).le
      have hshare := one_div_le_one_div_of_le hpos hshort
      have hle := Binary64.tiny_le (m := 53) (by norm_num)
      have htiny := Binary64.tiny_pos
      linarith
  · -- The error is a share of the quotient, and less than that of one box.
    have hcast : (n : ℚ) < 2 ^ 53 := by exact_mod_cast hn
    have hunit := div_lt_div_of_pos_right ((div_lt_one (by positivity)).mpr hcast) hpos
    rw [abs_of_nonneg (quotient_le n hcolumns).1, div_right_comm] at hshare
    have hlow := (abs_le.mp hshare).1
    linarith

/-- There is a row for every box, and at most one row more than boxes. -/
theorem rowCount_reaches {n columns : ℕ} (hcolumns : columns ≠ 0) (hn : n < 2 ^ 53)
    (hmany : columns < n * (2 * Binary64.one)) :
    Gives (fun rows => rows ≤ n + 1 ∧ ∀ i < n, i / columns < rows) (rowCount n columns) := by
  obtain ⟨rows, hrows, z, k, hround, hzk, -, rfl⟩ := (rowCount_near hcolumns hn).exists_ok
  rw [hrows]
  refine .ok ⟨rowCount_le hrows hcolumns hn, fun i hi => ?_⟩
  have hlt : ((i / columns : ℕ) : ℚ) < k :=
    (row_lt_rounded hcolumns hn hmany hround hi).trans_le hzk
  generalize i / columns = r at hlt ⊢
  have hcast : (r : ℤ) < k := by exact_mod_cast hlt
  omega

/-- One box alone is far enough from none for so few columns. -/
theorem columns_lt {n columns e : ℕ} (hn : n ≠ 0) (hlarge : columns ≤ 2 ^ e) (he : e ≤ 1000) :
    columns < n * (2 * Binary64.one) := by
  have hone : columns ≤ Binary64.one := by
    rw [Binary64.one_eq (Nat.add_sub_cancel' (he.trans (by norm_num : 1000 ≤ 1074)))]
    exact hlarge.trans (Nat.le_mul_of_pos_right _ (Nat.two_pow_pos _))
  have hpos := Binary64.one_pos
  generalize Binary64.one = unit at hone hpos ⊢
  calc columns ≤ unit := hone
    _ < 1 * (2 * unit) := by omega
    _ ≤ n * (2 * unit) := Nat.mul_le_mul_right _ (Nat.one_le_iff_ne_zero.mpr hn)

theorem checkCells_own {columns rows i : ℕ} {boxes : List (Box α)}
    (hboxes : ∀ b ∈ boxes, b.HasSides)
    (hrows : ∀ j < i + boxes.length, j / columns < rows) :
    Settles Fault.Own (fun _ => True) (checkCells columns rows i boxes) := by
  induction boxes generalizing i with
  | nil => exact .ok trivial
  | cons b bs ih =>
    obtain ⟨hb, hbs⟩ := List.forall_mem_cons.mp hboxes
    rw [List.length_cons] at hrows
    refine (checkBox_own hb).bind fun _ _ => ?_
    rw [if_neg (not_le.mpr (hrows i (by omega)))]
    exact ih hbs fun j hj => hrows j (by omega)

theorem extent_regular {measure : Box α → Scalar} (lineOf : Nat → Nat) (line : Nat)
    {boxes : List (Box α)} (hboxes : ∀ b ∈ boxes, (measure b).IsSide) :
    (extent measure lineOf line boxes).Regular 132 1 := by
  have hzero : Scalar.Regular 132 1 (.real (.zero false)) :=
    Scalar.Moderate.regular ⟨0, Scalar.real_zero_at false, by simp, .inl rfl⟩
  refine Scalar.maximum_of (P := Scalar.Regular 132 1) hzero fun n hn => ?_
  obtain ⟨b, hb, rfl⟩ := List.mem_map.mp hn
  have hmem := List.fst_mem_of_mem_zipIdx (List.mem_filter.mp hb).1
  exact (hboxes b.1 hmem).moderate.regular

theorem extents_regular {measure : Box α → Scalar} (lineOf : Nat → Nat) (count : ℕ)
    {boxes : List (Box α)} (hboxes : ∀ b ∈ boxes, (measure b).IsSide) :
    ∀ e ∈ (List.range count).map fun line => extent measure lineOf line boxes,
      e.Regular 132 1 := by
  intro e he
  obtain ⟨line, -, rfl⟩ := List.mem_map.mp he
  exact extent_regular lineOf line hboxes

theorem offsets_reaches {start : Scalar} {extents : List Scalar} (hstart : start.Regular 132 k)
    (hgap : gap.Regular 132 1) (hextents : ∀ e ∈ extents, e.Regular 132 1)
    (hroom : k + 4 * extents.length ≤ far) :
    Gives (fun xs => xs.length = extents.length ∧
      ∀ x ∈ xs, x.Regular 132 (k + 4 * extents.length)) (offsets gap start extents) := by
  fun_induction offsets gap start extents generalizing k with
  | case1 start => exact .ok ⟨rfl, fun x hx => by cases hx⟩
  | case2 start e =>
    refine .ok ⟨rfl, fun x hx => ?_⟩
    rw [List.mem_singleton.mp hx]
    exact hstart.mono le_rfl (by omega)
  | case3 start e e' es ih =>
    obtain ⟨he, hes⟩ := List.forall_mem_cons.mp hextents
    rw [List.length_cons] at hroom ⊢
    refine (hstart.add he (by norm_num) (by omega) (by decide)).bind fun edge hedge => ?_
    refine (hedge.add hgap (by norm_num) (by omega) (by decide)).bind fun next hnext => ?_
    refine (ih next (hnext.mono le_rfl (by omega : _ ≤ k + 4)) hes (by omega)).bind ?_
    intro rest hrest
    refine .ok ⟨congrArg Nat.succ hrest.1, ?_⟩
    refine List.forall_mem_cons.mpr ⟨hstart.mono le_rfl (by omega), fun x hx => ?_⟩
    exact (hrest.2 x hx).mono le_rfl (by omega)

theorem cell_reaches {columns : ℕ} {xs ys : List Scalar} {b : Box α × ℕ}
    (hx : b.2 % columns < xs.length) (hy : b.2 / columns < ys.length)
    (hxs : ∀ x ∈ xs, x.Regular 132 k) (hys : ∀ y ∈ ys, y.Regular 132 k) :
    Gives (fun q => q.box = b.1 ∧ q.corner.Regular 132 k) (cell columns xs ys b) := by
  rw [cell, List.getElem?_eq_getElem hx, List.getElem?_eq_getElem hy]
  exact .ok ⟨rfl, hxs _ (List.getElem_mem hx), hys _ (List.getElem_mem hy)⟩

theorem gridOf_reaches {boxes : List (Box α)} {origin : Point} {columns e : ℕ}
    (hcolumns : columns ≠ 0) (hlarge : columns ≤ 2 ^ e) (he : e ≤ 1000)
    (horigin : origin.Regular 132 1) (hgap : gap.Regular 132 1)
    (hboxes : ∀ b ∈ boxes, b.HasSides) (hroom : 1 + 4 * (boxes.length + 1) ≤ far) :
    Settles Fault.Own
      (fun placed => ∀ q ∈ placed, q.box ∈ boxes ∧
        q.corner.Regular 132 (1 + 4 * (boxes.length + 1)))
      (gridOf boxes origin columns gap) := by
  have hfar : far < 2 ^ 50 := by decide
  unfold gridOf
  refine .ite (fun _ => .ok fun q hq => by cases hq) fun hboxless => ?_
  have hsome : boxes.length ≠ 0 := fun h => hboxless (by rw [List.length_eq_zero_iff.mp h]; rfl)
  -- The columns are not so many that the count of rows is rounded to zero.
  have hmany := columns_lt hsome hlarge he
  refine (Settles.of_gives (rowCount_reaches hcolumns (by omega) hmany)).bind fun rows hrows => ?_
  refine (checkCells_own hboxes (i := 0) fun j hj => hrows.2 j (by omega)).bind fun _ _ => ?_
  have hwidths := extents_regular (· % columns) (min columns boxes.length)
    fun b hb => (hboxes b hb).1
  have hheights := extents_regular (· / columns) rows fun b hb => (hboxes b hb).2
  refine (Settles.of_gives (offsets_reaches horigin.x hgap hwidths ?_)).bind ?_
  · rw [List.length_map, List.length_range]
    omega
  intro xs hxs
  refine (Settles.of_gives (offsets_reaches horigin.y hgap hheights ?_)).bind ?_
  · rw [List.length_map, List.length_range]
    omega
  intro ys hys
  rw [List.length_map, List.length_range] at hxs hys
  refine Settles.of_gives (Settles.mapM fun b hb => ?_)
  have hnumber : b.2 < boxes.length := by
    have := List.snd_lt_of_mem_zipIdx hb
    omega
  have hmem := List.fst_mem_of_mem_zipIdx hb
  -- The tables are long enough for the column and the row of every box.
  refine (cell_reaches (k := 1 + 4 * (boxes.length + 1)) ?_ ?_ ?_ ?_).imp fun q hq => ?_
  · rw [hxs.1, Nat.lt_min]
    exact ⟨Nat.mod_lt _ (Nat.pos_of_ne_zero hcolumns), lt_of_le_of_lt (Nat.mod_le _ _) hnumber⟩
  · rw [hys.1]
    exact hrows.2 b.2 hnumber
  · exact fun x hx => (hxs.2 x hx).mono le_rfl (by omega)
  · exact fun y hy => (hys.2 y hy).mono le_rfl (by omega)
  · exact ⟨hq.1 ▸ hmem, hq.2⟩

theorem grid_reaches {boxes : List (Box α)} {origin : Point} {columns e : ℕ} (shown : String)
    (hlarge : columns ≤ 2 ^ e) (he : e ≤ 1000) (horigin : origin.Regular 132 1)
    (hgap : gap.Regular 132 1) (hboxes : ∀ b ∈ boxes, b.HasSides)
    (hroom : 1 + 4 * (boxes.length + 1) ≤ far) :
    Settles Fault.Own
      (fun placed => ∀ q ∈ placed, q.box ∈ boxes ∧
        q.corner.Regular 132 (1 + 4 * (boxes.length + 1)))
      (grid boxes origin (some columns) shown gap) := by
  refine (checkOrigin_own horigin).bind fun _ _ => (checkGap_own hgap).bind fun _ _ => ?_
  cases columns with
  | zero => exact .error (.layout _ _)
  | succ n => exact gridOf_reaches n.succ_ne_zero hlarge he horigin hgap hboxes hroom

end Layout

end DiagramScript
