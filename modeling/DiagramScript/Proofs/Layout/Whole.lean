import DiagramScript.Proofs.Layout.Apart

/-
  Layouts of small whole numbers.

  A layout whose sides, gap and origin are whole numbers never leaves the whole numbers, and
  none of its additions rounds while the coordinates stay small (`Block.exact_of_whole`). The
  bound of a coordinate grows by a side and a gap from box to box.
-/

namespace DiagramScript

/-- A box whose sides are whole numbers of at most the given size. -/
def Box.IsWhole {α : Type} (m : ℤ) (b : Box α) : Prop := b.width.IsWhole m ∧ b.height.IsWhole m

namespace Layout
variable {α : Type} {gap : Scalar} {m : ℤ}

/-! ## Stacks -/

theorem side_whole {b : Box α} (h : b.IsWhole m) (axis : Axis) : (side axis b).IsWhole m := by
  cases axis with
  | vertical => exact h.2
  | horizontal => exact h.1

theorem coordinate_advance {axis : Axis} {p next : Point} {b : Box α}
    (h : advance axis gap p b = .ok next) :
    ∃ step, (side axis b).add gap = .ok step ∧
      (coordinate axis p).add step = .ok (coordinate axis next) := by
  cases axis with
  | vertical =>
    obtain ⟨step, hstep, h⟩ := Outcome.bind_eq_ok.mp h
    obtain ⟨y, hy, h⟩ := Outcome.bind_eq_ok.mp h
    cases h
    exact ⟨step, hstep, hy⟩
  | horizontal =>
    obtain ⟨step, hstep, h⟩ := Outcome.bind_eq_ok.mp h
    obtain ⟨x, hx, h⟩ := Outcome.bind_eq_ok.mp h
    cases h
    exact ⟨step, hstep, hx⟩

theorem stackExact_of_whole {axis : Axis} {p : Point} {boxes : List (Box α)} {c : ℤ}
    (hp : (coordinate axis p).IsWhole c) (hgap : gap.IsWhole m)
    (hboxes : ∀ b ∈ boxes, b.IsWhole m) (hc : 0 ≤ c) (hm : 0 ≤ m)
    (hroom : c + boxes.length * (2 * m) < 2 ^ 50) : StackExact axis gap p boxes := by
  induction boxes generalizing p c with
  | nil => trivial
  | cons b bs ih =>
    have hside := side_whole (hboxes b List.mem_cons_self) axis
    rw [List.length_cons] at hroom
    push_cast at hroom
    have hlength : (0 : ℤ) ≤ bs.length * (2 * m) := by positivity
    have hfirst : c + (m + m) < 2 ^ 50 := by linarith
    refine ⟨hside.addsExactly hgap (by omega), ?_, ?_⟩
    · intro step hstep
      exact hp.addsExactly (hside.add hgap (by omega) hstep) hfirst
    · intro next hnext
      obtain ⟨step, hstep, hcoordinate⟩ := coordinate_advance hnext
      have hstepWhole := hside.add hgap (by omega) hstep
      refine ih (hp.add hstepWhole hfirst hcoordinate) ?_ (by omega) (by linarith)
      exact fun b' hb' => hboxes b' (List.mem_cons_of_mem b hb')

/-! ## Grids -/

theorem offsetsExact_of_whole {start : Scalar} {extents : List Scalar} {c : ℤ}
    (hstart : start.IsWhole c) (hgap : gap.IsWhole m) (hextents : ∀ e ∈ extents, e.IsWhole m)
    (hc : 0 ≤ c) (hm : 0 ≤ m) (hroom : c + extents.length * (2 * m) < 2 ^ 50) :
    OffsetsExact gap start extents := by
  fun_induction OffsetsExact gap start extents generalizing c with
  | case1 => trivial
  | case2 => trivial
  | case3 start e e' es ih =>
    have he := hextents e List.mem_cons_self
    rw [List.length_cons] at hroom
    push_cast at hroom
    have hlength : (0 : ℤ) ≤ (e' :: es).length * (2 * m) := by positivity
    have hfirst : c + m + m < 2 ^ 50 := by linarith
    refine ⟨hstart.addsExactly he (by omega), ?_⟩
    intro edge hedge
    have hedgeWhole := hstart.add he (by omega) hedge
    refine ⟨hedgeWhole.addsExactly hgap hfirst, ?_⟩
    intro next hnext
    refine ih next (hedgeWhole.add hgap hfirst hnext) ?_ (by omega) (by linarith)
    exact fun e'' he'' => hextents e'' (List.mem_cons_of_mem e he'')

theorem extent_whole {measure : Box α → Scalar} (lineOf : Nat → Nat) (line : Nat)
    {boxes : List (Box α)} (hm : 0 ≤ m) (hboxes : ∀ b ∈ boxes, (measure b).IsWhole m) :
    (extent measure lineOf line boxes).IsWhole m := by
  have hzero : Scalar.IsWhole m (.real (.zero false)) :=
    ⟨0, Scalar.real_zero_at false, by simpa using hm⟩
  refine Scalar.maximum_of (P := Scalar.IsWhole m) hzero fun n hn => ?_
  obtain ⟨b, hb, rfl⟩ := List.mem_map.mp hn
  exact hboxes b.1 (List.fst_mem_of_mem_zipIdx (List.mem_filter.mp hb).1)

theorem extents_whole {measure : Box α → Scalar} (lineOf : Nat → Nat) (count : Nat)
    {boxes : List (Box α)} (hm : 0 ≤ m) (hboxes : ∀ b ∈ boxes, (measure b).IsWhole m) :
    ∀ e ∈ (List.range count).map fun line => extent measure lineOf line boxes, e.IsWhole m := by
  intro e he
  obtain ⟨line, -, rfl⟩ := List.mem_map.mp he
  exact extent_whole lineOf line hm hboxes

theorem quotient_le {columns : Nat} (n : Nat) (hcolumns : columns ≠ 0) :
    0 ≤ (n : ℚ) / columns ∧ (n : ℚ) / columns ≤ n := by
  have hone : (1 : ℚ) ≤ columns := by exact_mod_cast Nat.one_le_iff_ne_zero.mpr hcolumns
  exact ⟨by positivity, div_le_self (Nat.cast_nonneg n) hone⟩

theorem rowCount_near {n columns : Nat} (hcolumns : columns ≠ 0) (hn : n < 2 ^ 53) :
    Gives (fun rows => ∃ (z : ℚ) (k : ℤ), Binary64.Rounds ((n : ℚ) / columns) z ∧ z ≤ k ∧
      k < z + 1 ∧ rows = k.toNat) (rowCount n columns) := by
  have hcast : (n : ℚ) < 2 ^ 53 := by exact_mod_cast hn
  obtain ⟨hnonneg, hquotient⟩ := quotient_le n hcolumns
  have hcolumns : (columns : ℤ) ≠ 0 := by exact_mod_cast hcolumns
  obtain ⟨x, z, hx, hz, hround⟩ := Scalar.ofQuotient_at (m := n) (e := 53) hcolumns
    (by push_cast; rw [abs_of_nonneg hnonneg]; linarith) (by norm_num)
  have hdiv : (Scalar.whole n).div (.whole columns) = .ok (.real x) := by
    show (if (columns : ℤ) = 0 then _ else _) = _
    rw [if_neg hcolumns, hx]
  push_cast at hround
  rw [rowCount, hdiv]
  show Gives _ ((Scalar.real x).ceil >>= fun k => .ok k.toNat)
  refine Settles.bind (Scalar.ceil_at (a := .real x) hz) fun k hk => ?_
  exact .ok ⟨z, k, hround, hk.1, hk.2, rfl⟩

/-- Rounding may add a row to those that the boxes need, and no more. -/
theorem rowCount_le {n columns rows : Nat} (h : rowCount n columns = .ok rows)
    (hcolumns : columns ≠ 0) (hn : n < 2 ^ 53) : rows ≤ n + 1 := by
  obtain ⟨z, k, hround, -, hk, rfl⟩ := (rowCount_near hcolumns hn).of_ok h
  have hcast : (n : ℚ) < 2 ^ 53 := by exact_mod_cast hn
  obtain ⟨hnonneg, hquotient⟩ := quotient_le n hcolumns
  have hclose : |z - (n : ℚ) / columns| < 1 := by
    rcases hround.error with herror | herror
    · have htiny := Binary64.tiny_le (m := 1) (by norm_num)
      linarith
    · rw [abs_of_nonneg hnonneg] at herror
      linarith
  have : (k : ℚ) < (n + 2 : ℤ) := by
    have := (abs_lt.mp hclose).2
    push_cast
    linarith
  have : k < n + 2 := by exact_mod_cast this
  omega

end Layout

/-- No addition rounds in a block of small whole numbers. -/
theorem Block.exact_of_whole {b : Block} {boxes : List (Box ShapeInstruction)} {c m : ℤ}
    (hx : b.origin.x.IsWhole c) (hy : b.origin.y.IsWhole c) (hgap : b.gap.IsWhole m)
    (hboxes : ∀ box ∈ boxes, box.IsWhole m) (hc : 0 ≤ c) (hm : 1 ≤ m)
    (hcolumns : b.arrangement ≠ .grid 0)
    (hroom : c + (boxes.length + 1) * (2 * m) < 2 ^ 50) : b.Exact boxes := by
  have hlength : (boxes.length : ℤ) ≤ boxes.length * (2 * m) :=
    le_mul_of_one_le_right (by positivity) (by omega)
  have hsplit : (boxes.length + 1) * (2 * m) = boxes.length * (2 * m) + 2 * m := by ring
  unfold Exact
  cases harrangement : b.arrangement with
  | stack direction =>
    intro axis _
    refine Layout.stackExact_of_whole (c := c) ?_ hgap hboxes hc (by omega) (by omega)
    cases axis with
    | vertical => exact hy
    | horizontal => exact hx
  | grid columns =>
    intro rows hrows
    have hcolumns : columns ≠ 0 := by
      rintro rfl
      exact hcolumns harrangement
    have hrow := Layout.rowCount_le hrows hcolumns (by omega)
    -- There are no more columns than boxes, and at most one row more, where the count is rounded
    -- up.
    have hmul (k : Nat) (hk : k ≤ boxes.length + 1) :
        (k : ℤ) * (2 * m) ≤ (boxes.length + 1) * (2 * m) :=
      mul_le_mul_of_nonneg_right (by exact_mod_cast hk) (by omega)
    constructor
    · refine Layout.offsetsExact_of_whole hx hgap ?_ hc (by omega) ?_
      · exact Layout.extents_whole _ _ (by omega) fun box hbox => (hboxes box hbox).1
      · rw [Layout.columnWidths, List.length_map, List.length_range]
        have := hmul (min columns boxes.length) (by omega)
        omega
    · refine Layout.offsetsExact_of_whole hy hgap ?_ hc (by omega) ?_
      · exact Layout.extents_whole _ _ (by omega) fun box hbox => (hboxes box hbox).2
      · rw [Layout.rowHeights, List.length_map, List.length_range]
        have := hmul rows hrow
        omega

/-- Whether the origin and the gap of a block and the sides of its boxes are whole numbers of at
most the given size, few enough for the coordinates to stay small. -/
def Block.isWhole (m : ℤ) (b : Block) (boxes : List (Box ShapeInstruction)) : Bool :=
  b.origin.x.isWhole m && b.origin.y.isWhole m && b.gap.isWhole m &&
    boxes.all (fun box => box.width.isWhole m && box.height.isWhole m) &&
      decide (1 ≤ m ∧ b.arrangement ≠ .grid 0 ∧ m + (boxes.length + 1) * (2 * m) < 2 ^ 50)

theorem Block.exact_of_check {b : Block} {boxes : List (Box ShapeInstruction)} {m : ℤ}
    (h : b.isWhole m boxes = true) : b.Exact boxes := by
  simp only [isWhole, Bool.and_eq_true, List.all_eq_true, decide_eq_true_eq] at h
  obtain ⟨⟨⟨⟨hx, hy⟩, hgap⟩, hboxes⟩, hm, hcolumns, hroom⟩ := h
  refine exact_of_whole (Scalar.isWhole_of_check hx) (Scalar.isWhole_of_check hy)
    (Scalar.isWhole_of_check hgap) ?_ (by omega) hm hcolumns hroom
  intro box hbox
  obtain ⟨hwidth, hheight⟩ := hboxes box hbox
  exact ⟨Scalar.isWhole_of_check hwidth, Scalar.isWhole_of_check hheight⟩

end DiagramScript
