import DiagramScript.Proofs.Grouping
import DiagramScript.Proofs.Layout
import DiagramScript.Proofs.Layout.Reach

/-
  Grids of valid boxes.

  A grid of boxes with finite positive sides puts every box at a place, in their order
  (`grid_total`). It misses two things. The number of rows is a floating-point quotient, so it is
  rounded to none where the columns are very many against the boxes, and the first box is then
  looked up in a row that is not there. And sums of whole numbers stay exact, so such a sum can be
  too large for the floating-point number that is added next. Whole numbers that add up to one in
  range keep every sum on the way in range (`wholeTotal`).
-/

namespace DiagramScript

/-! ## Whole numbers in range -/

namespace Binary64

/-- Whether the whole numbers of a size have a nearest floating-point number. -/
def InRange (n : ℕ) : Prop := (ofInt? n).isSome = true

instance (n : ℕ) : Decidable (InRange n) := inferInstanceAs (Decidable (_ = true))

theorem ofInt?_eq (n : ℤ) : ∃ x : Binary64, x.isFinite = true ∧
    ofInt? n = if rankOfRatio (n.natAbs * one) 1 < magnitudes then some x else none := by
  have hunits : (n * one : ℤ).natAbs = n.natAbs * one := by
    rw [Int.natAbs_mul, Int.natAbs_natCast]
  unfold ofInt? ofUnits
  split
  · rename_i h
    have hrank : rankOfRatio (n.natAbs * one) 1 = 0 := by
      rw [rankOfRatio_one_eq_zero, ← hunits, h, Int.natAbs_zero]
    exact ⟨zero false, rfl, by rw [hrank, if_pos (by decide)]; rfl⟩
  · rw [hunits, ofRatio, ofRank]
    split
    · exact ⟨_, rfl, rfl⟩
    · exact ⟨zero false, rfl, rfl⟩

theorem inRange_iff {n : ℤ} : InRange n.natAbs ↔ rankOfRatio (n.natAbs * one) 1 < magnitudes := by
  obtain ⟨x, -, hx⟩ := ofInt?_eq (n.natAbs : ℤ)
  rw [InRange, hx, Int.natAbs_natCast]
  split
  · simp [*]
  · simp [*]

theorem InRange.mono {m n : ℕ} (h : InRange n) (hle : m ≤ n) : InRange m := by
  have hrank := (inRange_iff (n := (n : ℤ))).mp h
  exact (inRange_iff (n := (m : ℤ))).mpr
    ((rankOfRatio_one_mono (Nat.mul_le_mul_right one hle)).trans_lt hrank)

end Binary64

namespace Scalar

/-- The size of the whole number that a scalar is, which a floating-point number is not. -/
def wholeSize : Scalar → ℕ
  | whole n => n.natAbs
  | real _ => 0
  | flag _ => 1

variable {own : Fault → Prop} {a b : Scalar} {v : ℚ}

theorem wholeSize_plain (a : Scalar) : a.plain.wholeSize ≤ a.wholeSize := by
  cases a with
  | flag b => cases b <;> decide
  | _ => exact le_rfl

/-- A scalar has a floating-point number nearest to it, unless it is a whole number too large. -/
theorem toReal_settles
    (h : Binary64.InRange a.wholeSize ∨ own (.arithmetic .wholeTooLarge)) :
    Settles own (fun x => a.IsFinite → x.isFinite = true) a.toReal := by
  cases a with
  | whole n =>
    obtain ⟨x, hfinite, hx⟩ := Binary64.ofInt?_eq n
    rw [toReal, hx]
    split_ifs with hrank
    · exact .ok fun _ => hfinite
    · exact .error (h.resolve_left fun hrange => hrank (Binary64.inRange_iff.mp hrange))
  | real x => exact .ok id
  | flag b => exact .ok False.elim

theorem isFinite_settles (ha : a.IsFinite)
    (h : Binary64.InRange a.wholeSize ∨ own (.arithmetic .wholeTooLarge)) :
    Settles own (· = true) a.isFinite :=
  (toReal_settles h).bind fun _ hx => .ok (hx ha)

theorem add_settles
    (h : Binary64.InRange (a.wholeSize + b.wholeSize) ∨ own (.arithmetic .wholeTooLarge)) :
    Settles own (fun c => c.wholeSize ≤ a.wholeSize + b.wholeSize) (a.add b) := by
  have ha := wholeSize_plain a
  have hb := wholeSize_plain b
  have hterm {c : Scalar} (hc : c.wholeSize ≤ a.wholeSize + b.wholeSize) :=
    toReal_settles (a := c) (h.imp_left fun hrange => hrange.mono hc)
  unfold add arith
  split
  · rename_i m n hm hn
    rw [hm] at ha
    rw [hn] at hb
    exact .ok ((Int.natAbs_add_le m n).trans (add_le_add ha hb))
  · refine (hterm (by omega)).bind fun x _ => (hterm (by omega)).bind fun y _ => ?_
    exact .ok (Nat.zero_le _)

end Scalar

/-! ## Checks -/

namespace Layout
variable {α : Type} {own : Fault → Prop} {boxes : List (Box α)} {origin : Point} {gap : Scalar}
  {columns : ℕ}

theorem checkLength_settles (what : String) {a : Scalar} (ha : a.IsPositive)
    (h : Binary64.InRange a.wholeSize ∨ own (.arithmetic .wholeTooLarge)) :
    Settles own (fun _ => True) (checkLength what a) := by
  obtain ⟨v, hv, hpos⟩ := ha.exists_at
  have habove : a.le 0 = false := by
    rw [Bool.eq_false_iff, ne_eq, Scalar.le_at hv Scalar.zero_at]
    exact not_le.mpr hpos
  refine (Scalar.isFinite_settles ha.finite h).bind ?_
  rintro _ rfl
  rw [habove]
  exact .ok trivial

theorem checkGap_settles (hgap : gap.IsFinite) (hsign : Scalar.le 0 gap = true)
    (h : Binary64.InRange gap.wholeSize ∨ own (.arithmetic .wholeTooLarge)) :
    Settles own (fun _ => True) (checkGap gap) := by
  obtain ⟨v, hv⟩ := hgap.exists_at
  have habove : gap.lt 0 = false := by
    rw [Bool.eq_false_iff, ne_eq, Scalar.lt_at hv Scalar.zero_at]
    exact not_lt.mpr ((Scalar.le_at Scalar.zero_at hv).mp hsign)
  refine (Scalar.isFinite_settles hgap h).bind ?_
  rintro _ rfl
  rw [habove]
  exact .ok trivial

theorem checkOrigin_settles (horigin : origin.IsFinite)
    (hx : Binary64.InRange origin.x.wholeSize ∨ own (.arithmetic .wholeTooLarge))
    (hy : Binary64.InRange origin.y.wholeSize ∨ own (.arithmetic .wholeTooLarge)) :
    Settles own (fun _ => True) (checkOrigin origin) := by
  refine (Scalar.isFinite_settles horigin.1 hx).bind ?_
  rintro _ rfl
  refine (Scalar.isFinite_settles horigin.2 hy).bind ?_
  rintro _ rfl
  exact .ok trivial

/-- What the sizes of the whole numbers along an axis add up to, with a gap on either side of each
length. -/
def wholeTotal (start gap : Scalar) (lengths : List Scalar) : ℕ :=
  start.wholeSize + (lengths.map Scalar.wholeSize).sum + (lengths.length + 1) * gap.wholeSize

/-- Whether the whole numbers along each axis add up to one in range. -/
def HasRoom (boxes : List (Box α)) (origin : Point) (gap : Scalar) : Prop :=
  Binary64.InRange (wholeTotal origin.x gap (boxes.map Box.width)) ∧
    Binary64.InRange (wholeTotal origin.y gap (boxes.map Box.height))

instance (boxes : List (Box α)) (origin : Point) (gap : Scalar) :
    Decidable (HasRoom boxes origin gap) := inferInstanceAs (Decidable (_ ∧ _))

section Axis
variable {start : Scalar} {lengths : List Scalar}

theorem start_le_wholeTotal : start.wholeSize ≤ wholeTotal start gap lengths := by
  unfold wholeTotal
  omega

theorem gap_le_wholeTotal : gap.wholeSize ≤ wholeTotal start gap lengths := by
  have := Nat.le_mul_of_pos_left gap.wholeSize (Nat.succ_pos lengths.length)
  rw [Nat.succ_eq_add_one] at this
  unfold wholeTotal
  omega

theorem length_le_wholeTotal (start gap : Scalar) {a : Scalar} (h : a ∈ lengths) :
    a.wholeSize ≤ wholeTotal start gap lengths := by
  have := List.le_sum_of_mem (List.mem_map_of_mem (f := Scalar.wholeSize) h)
  unfold wholeTotal
  omega

theorem offsets_settles (h : Binary64.InRange (start.wholeSize +
      (lengths.map Scalar.wholeSize).sum + (lengths.length - 1) * gap.wholeSize) ∨
        own (.arithmetic .wholeTooLarge)) :
    Settles own (fun xs => xs.length = lengths.length) (offsets gap start lengths) := by
  fun_induction offsets gap start lengths with
  | case1 start => exact .ok rfl
  | case2 start e => exact .ok rfl
  | case3 start e e' es ih =>
    simp only [List.map_cons, List.sum_cons, List.length_cons, Nat.add_sub_cancel,
      Nat.add_mul, Nat.one_mul] at h ih ⊢
    refine (Scalar.add_settles (h.imp_left fun hrange => hrange.mono (by omega))).bind ?_
    intro edge hedge
    refine (Scalar.add_settles (h.imp_left fun hrange => hrange.mono (by omega))).bind ?_
    intro next hnext
    refine (ih next (h.imp_left fun hrange => hrange.mono (by omega))).bind fun rest hrest => ?_
    exact .ok (congrArg Nat.succ hrest)

end Axis

/-- The whole numbers among the extents of the lines are those of different boxes. -/
theorem sum_extent_le (boxes : List (Box α)) (measure : Box α → Scalar) (lineOf : ℕ → ℕ)
    {lines : ℕ} (hlines : ∀ i < boxes.length, lineOf i < lines) :
    (((List.range lines).map fun line => extent measure lineOf line boxes).map
      Scalar.wholeSize).sum ≤ ((boxes.map measure).map Scalar.wholeSize).sum := by
  let size (b : Box α × ℕ) : ℕ := (measure b.1).wholeSize
  let members (line : ℕ) : List (Box α × ℕ) :=
    boxes.zipIdx.filter fun b => lineOf b.2 == line
  have hextent (line : ℕ) :
      (extent measure lineOf line boxes).wholeSize ≤ ((members line).map size).sum := by
    refine Scalar.maximum_of (P := fun a => a.wholeSize ≤ ((members line).map size).sum)
      (Nat.zero_le _) fun a ha => ?_
    obtain ⟨b, hb, rfl⟩ := List.mem_map.mp ha
    exact List.le_sum_of_mem (List.mem_map_of_mem (f := size) hb)
  -- Every box is a member of one line, so no size is counted twice.
  have hperm : ((List.range lines).flatMap members).Perm boxes.zipIdx := by
    refine flatMap_filter_perm (f := fun b : Box α × ℕ => lineOf b.2) List.nodup_range ?_
    intro b hb
    have := List.snd_lt_of_mem_zipIdx hb
    exact List.mem_range.mpr (hlines b.2 (by omega))
  rw [List.map_map]
  calc
    _ ≤ ((List.range lines).map fun line => ((members line).map size).sum).sum :=
      List.sum_le_sum fun line _ => hextent line
    _ = (((List.range lines).flatMap members).map size).sum := by
      rw [List.map_flatMap, List.flatMap, List.sum_flatten, List.map_map]
      rfl
    _ = (boxes.zipIdx.map size).sum := (hperm.map size).sum_eq
    _ = ((boxes.map measure).map Scalar.wholeSize).sum := by
      rw [← List.zipIdx_map_fst 0 boxes, List.map_map, List.map_map, List.zipIdx_map_fst]
      rfl

/-! ## Grids -/

theorem checkBox_settles {b : Box α} (hb : b.IsPositive) (hmem : b ∈ boxes)
    (h : HasRoom boxes origin gap ∨ own (.arithmetic .wholeTooLarge)) :
    Settles own (fun _ => True) (checkBox b) := by
  have hwidth := length_le_wholeTotal origin.x gap
    (List.mem_map_of_mem (f := Box.width) hmem)
  have hheight := length_le_wholeTotal origin.y gap
    (List.mem_map_of_mem (f := Box.height) hmem)
  exact (checkLength_settles _ hb.1 (h.imp_left fun hroom => hroom.1.mono hwidth)).bind
    fun _ _ => checkLength_settles _ hb.2 (h.imp_left fun hroom => hroom.2.mono hheight)

theorem checkCells_settles {cells : List (Box α)} {rows i : ℕ} (hcells : cells ⊆ boxes)
    (hboxes : ∀ b ∈ boxes, b.IsPositive)
    (h : HasRoom boxes origin gap ∨ own (.arithmetic .wholeTooLarge))
    (hrows : ∀ j < i + cells.length, j / columns < rows) :
    Settles own (fun _ => True) (checkCells columns rows i cells) := by
  induction cells generalizing i with
  | nil => exact .ok trivial
  | cons b bs ih =>
    obtain ⟨hb, hbs⟩ := List.cons_subset.mp hcells
    rw [List.length_cons] at hrows
    refine (checkBox_settles (hboxes b hb) hb h).bind fun _ _ => ?_
    rw [if_neg (not_le.mpr (hrows i (by omega)))]
    exact ih hbs fun j hj => hrows j (by omega)

theorem gridOf_settles (hboxes : ∀ b ∈ boxes, b.IsPositive)
    (h : HasRoom boxes origin gap ∨ own (.arithmetic .wholeTooLarge)) (hcolumns : columns ≠ 0)
    (hcount : boxes.length < 2 ^ 53)
    (hfew : boxes = [] ∨ columns < boxes.length * (2 * Binary64.one)) :
    Settles own (fun _ => True) (gridOf boxes origin columns gap) := by
  unfold gridOf
  refine .ite (fun _ => .ok trivial) fun hsome => ?_
  have hfew := hfew.resolve_left fun hnil => hsome (List.isEmpty_iff.mpr hnil)
  refine (Settles.of_gives (rowCount_reaches hcolumns hcount hfew)).bind fun rows hrows => ?_
  refine (checkCells_settles (i := 0) (List.Subset.refl _) hboxes h ?_).bind fun _ _ => ?_
  · exact fun j hj => hrows.2 j (by omega)
  -- The lines share the boxes, so their extents add up to no more than the sides of the boxes.
  have hcolumn (i : ℕ) (hi : i < boxes.length) : i % columns < min columns boxes.length :=
    lt_min (Nat.mod_lt _ (Nat.pos_of_ne_zero hcolumns)) ((Nat.mod_le _ _).trans_lt hi)
  have hwidths := sum_extent_le boxes Box.width (· % columns) hcolumn
  have hheights := sum_extent_le boxes Box.height (· / columns) hrows.2
  refine (offsets_settles ?_).bind fun xs hxs => ?_
  · refine h.imp_left fun hroom => hroom.1.mono ?_
    have hgaps := Nat.mul_le_mul_right gap.wholeSize
      (show min columns boxes.length - 1 ≤ boxes.length + 1 by omega)
    rw [wholeTotal, List.length_map, List.length_map, List.length_range]
    omega
  refine (offsets_settles ?_).bind fun ys hys => ?_
  · refine h.imp_left fun hroom => hroom.2.mono ?_
    have hgaps := Nat.mul_le_mul_right gap.wholeSize
      (show rows - 1 ≤ boxes.length + 1 by omega)
    rw [wholeTotal, List.length_map, List.length_map, List.length_range]
    omega
  rw [List.length_map, List.length_range] at hxs hys
  -- There is a start for the column and for the row of every box.
  have hcells (b : Box α × ℕ) (hb : b ∈ boxes.zipIdx) :
      Settles own (fun _ => True) (cell columns xs ys b) := by
    have hnumber : b.2 < boxes.length := by
      have := List.snd_lt_of_mem_zipIdx hb
      omega
    rw [cell, List.getElem?_eq_getElem (hxs ▸ hcolumn b.2 hnumber),
      List.getElem?_eq_getElem (hys ▸ hrows.2 b.2 hnumber)]
    exact .ok trivial
  exact (Settles.mapM hcells).imp fun _ _ => trivial

theorem two_mul_one : 2 * Binary64.one = 2 ^ 1075 := by decide +kernel

theorem rankOfRatio_eq_zero {n d : ℕ} (hd : 0 < d) (h : 2 * n ≤ d) :
    Binary64.rankOfRatio n d = 0 := by
  have hlt : n < d := by omega
  have hshift : Binary64.shiftOf (n / d) = 0 := by
    rw [Nat.div_eq_of_lt hlt]
    decide
  unfold Binary64.rankOfRatio roundHalfEven
  dsimp only
  rw [hshift, Nat.zero_mul, Nat.zero_add]
  show (if 2 * (n % (d * 1)) < d * 1 ∨ _ ∧ n / (d * 1) % 2 = 0 then n / (d * 1) else _) = 0
  rw [Nat.mul_one, Nat.mod_eq_of_lt hlt, Nat.div_eq_of_lt hlt, if_pos (by omega)]

theorem rowCount_eq_zero {n : ℕ} (hcolumns : columns ≠ 0)
    (h : n * (2 * Binary64.one) ≤ columns) : rowCount n columns = .ok 0 := by
  have hrank : Binary64.rankOfRatio (n * Binary64.one) columns = 0 := by
    refine rankOfRatio_eq_zero (Nat.pos_of_ne_zero hcolumns) ?_
    rwa [Nat.mul_left_comm]
  have hquotient : Binary64.ofQuotient? n columns = some (.zero false) := by
    unfold Binary64.ofQuotient? Binary64.ofRatio
    rw [Int.natAbs_natCast, Int.natAbs_natCast, hrank]
    have hsign (k : ℕ) : decide ((k : ℤ) < 0) = false := decide_eq_false (by omega)
    rw [hsign, hsign]
    rfl
  have hdiv : (Scalar.whole n).div (.whole columns) = .ok (.real (.zero false)) := by
    show (if (columns : ℤ) = 0 then _ else _) = _
    rw [if_neg (by exact_mod_cast hcolumns), hquotient]
  rw [rowCount, hdiv]
  decide +kernel

/-- With no row the first box is looked up past the end of the table. -/
theorem gridOf_breaks (hboxes : ∀ b ∈ boxes, b.IsPositive)
    (h : HasRoom boxes origin gap ∨ own (.arithmetic .wholeTooLarge)) (hcolumns : columns ≠ 0)
    (hsome : boxes ≠ []) (hmany : boxes.length * (2 * Binary64.one) ≤ columns) :
    Settles (fun e => own e ∨ e = .outOfRange) (fun _ => False)
      (gridOf boxes origin columns gap) := by
  unfold gridOf
  rw [if_neg (mt List.isEmpty_iff.mp hsome), rowCount_eq_zero hcolumns hmany]
  refine (Settles.same 0).bind ?_
  rintro _ rfl
  obtain ⟨b, bs, rfl⟩ := List.exists_cons_of_ne_nil hsome
  have hfirst : Settles (fun e => own e ∨ e = .outOfRange) (fun _ => False)
      (checkCells columns 0 0 (b :: bs)) := by
    have hcheck : Settles own (fun _ => True) (checkBox b) :=
      checkBox_settles (hboxes b List.mem_cons_self) List.mem_cons_self h
    refine (hcheck.mono (fun _ => .inl) fun _ => id).bind fun _ _ => ?_
    exact .error (.inr rfl)
  exact hfirst.bind fun _ => False.elim

/-- A grid of boxes with finite positive sides has every box, in their order, unless the columns
are so many that no row is left, or the whole numbers along an axis add up to one out of range. -/
theorem grid_total (shown : String) (hboxes : ∀ b ∈ boxes, b.IsPositive)
    (horigin : origin.IsFinite) (hgap : gap.IsFinite) (hsign : Scalar.le 0 gap = true)
    (hcolumns : 0 < columns) (hcount : boxes.length < 2 ^ 53) :
    (∃ placed, grid boxes origin (some columns) shown gap = .ok placed ∧
        placed.map (·.box) = boxes ∧ (boxes = [] ∨ columns < boxes.length * 2 ^ 1075)) ∨
      (grid boxes origin (some columns) shown gap = .error .outOfRange ∧
        boxes ≠ [] ∧ boxes.length * 2 ^ 1075 ≤ columns) ∨
      (grid boxes origin (some columns) shown gap = .error (.arithmetic .wholeTooLarge) ∧
        ¬ HasRoom boxes origin gap) := by
  let own (e : Fault) : Prop := e = .arithmetic .wholeTooLarge ∧ ¬ HasRoom boxes origin gap
  -- Either the whole numbers stay in range, or running out of it is to be expected.
  have hroom : HasRoom boxes origin gap ∨ own (.arithmetic .wholeTooLarge) :=
    (em _).imp_right fun h => ⟨rfl, h⟩
  have horigin : Settles own (fun _ => True) (checkOrigin origin) :=
    checkOrigin_settles horigin (hroom.imp_left fun h => h.1.mono start_le_wholeTotal)
      (hroom.imp_left fun h => h.2.mono start_le_wholeTotal)
  have hgap : Settles own (fun _ => True) (checkGap gap) :=
    checkGap_settles hgap hsign (hroom.imp_left fun h => h.1.mono gap_le_wholeTotal)
  obtain ⟨n, rfl⟩ := Nat.exists_eq_add_one.mpr hcolumns
  rw [← two_mul_one]
  by_cases hmany : boxes ≠ [] ∧ boxes.length * (2 * Binary64.one) ≤ n + 1
  · have hbreaks : Settles (fun e => own e ∨ e = .outOfRange) (fun _ => False)
        (grid boxes origin (some (n + 1)) shown gap) := by
      refine (horigin.mono (fun _ => .inl) fun _ => id).bind fun _ _ => ?_
      refine (hgap.mono (fun _ => .inl) fun _ => id).bind fun _ _ => ?_
      exact gridOf_breaks hboxes hroom n.succ_ne_zero hmany.1 hmany.2
    cases hgrid : grid boxes origin (some (n + 1)) shown gap with
    | ok placed => exact (hbreaks.of_ok hgrid).elim
    | error e =>
      rcases hbreaks.ends.of_error hgrid with ⟨rfl, hfull⟩ | rfl
      · exact .inr (.inr ⟨rfl, hfull⟩)
      · exact .inr (.inl ⟨rfl, hmany⟩)
  · have hfew : boxes = [] ∨ n + 1 < boxes.length * (2 * Binary64.one) := by
      rw [not_and_or, not_not, not_le] at hmany
      exact hmany
    have hgrid : Settles own (fun _ => True) (grid boxes origin (some (n + 1)) shown gap) :=
      horigin.bind fun _ _ => hgap.bind fun _ _ =>
        gridOf_settles hboxes hroom n.succ_ne_zero hcount hfew
    have hends := grid_ends boxes origin (some (n + 1)) shown gap
    cases hplaced : grid boxes origin (some (n + 1)) shown gap with
    | ok placed => exact .inl ⟨placed, rfl, hends.of_ok hplaced, hfew⟩
    | error e =>
      obtain ⟨rfl, hfull⟩ := hgrid.ends.of_error hplaced
      exact .inr (.inr ⟨rfl, hfull⟩)

/-- Two boxes side by side, in the one row that so many columns leave. -/
theorem grid_total_wide :
    let boxes : List (Box ℕ) := [⟨10, .ofPlaces 25 1, 1⟩, ⟨.ofPlaces 15 1, 20, 2⟩]
    let origin : Point := ⟨.whole (-3), .ofPlaces 5 1⟩
    let gap : Scalar := .ofPlaces 75 2
    let columns : ℕ := 2 * 2 ^ 1075 - 1
    (∀ b ∈ boxes, b.IsPositive) ∧ origin.IsFinite ∧ gap.IsFinite ∧ Scalar.le 0 gap = true ∧
      0 < columns ∧ boxes.length < 2 ^ 53 ∧
      ∃ placed, grid boxes origin (some columns) "" gap = .ok placed ∧
        placed.map (·.box) = boxes := by
  intro boxes origin gap columns
  have hboxes : ∀ b ∈ boxes, b.IsPositive := by decide +kernel
  have horigin : origin.IsFinite := by decide +kernel
  have hgap : gap.IsFinite := by decide +kernel
  have hsign : Scalar.le 0 gap = true := by decide +kernel
  have hcolumns : 0 < columns := by decide +kernel
  have hcount : boxes.length < 2 ^ 53 := by decide
  have hfew : columns < boxes.length * 2 ^ 1075 := by decide +kernel
  have hroom : HasRoom boxes origin gap := by decide +kernel
  refine ⟨hboxes, horigin, hgap, hsign, hcolumns, hcount, ?_⟩
  rcases grid_total "" hboxes horigin hgap hsign hcolumns hcount with hplaced | hmany | hfull
  · obtain ⟨placed, hgrid, hplaced, -⟩ := hplaced
    exact ⟨placed, hgrid, hplaced⟩
  · exact absurd hmany.2.2 (not_le.mpr hfew)
  · exact absurd hroom hfull.2

/-- One box and more columns than a quotient can tell from none. -/
theorem grid_no_row :
    grid [⟨10, 10, ()⟩] ⟨0, 0⟩ (some (10 ^ 400)) "" 0 = .error .outOfRange := by
  decide +kernel

end Layout

end DiagramScript
