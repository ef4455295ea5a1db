import Mathlib.Data.List.Forall2
import Mathlib.Tactic.Linarith
import DiagramScript.Block
import DiagramScript.Proofs.Number.Exact

/-
  Layouts keep boxes apart.

  Where no addition of a layout rounds, its boxes are regions of the plane that do not
  overlap: in a stack each box starts a gap behind the box before it (`stackFrom_follows`), and
  in a grid two boxes stand in different columns or in different rows, each of which has room
  for its greatest box (`gridOf_apart`).
-/

namespace DiagramScript

/-! ## Regions -/

/-- A rectangle of the plane. -/
structure Region where
  left : ℚ
  top : ℚ
  width : ℚ
  height : ℚ

namespace Region

/-- Whether a point lies inside, not on the border. -/
def Inside (r : Region) (x y : ℚ) : Prop :=
  r.left < x ∧ x < r.left + r.width ∧ r.top < y ∧ y < r.top + r.height

/-- Two regions without a point inside both. -/
def Apart (r s : Region) : Prop := ∀ x y, ¬ (r.Inside x y ∧ s.Inside x y)

theorem Apart.symm {r s : Region} (h : r.Apart s) : s.Apart r :=
  fun x y hxy => h x y ⟨hxy.2, hxy.1⟩

theorem apart_of_left {r s : Region} (h : r.left + r.width ≤ s.left) : r.Apart s := by
  intro x y hxy
  obtain ⟨⟨-, hr, -, -⟩, ⟨hs, -, -, -⟩⟩ := hxy
  linarith

theorem apart_of_above {r s : Region} (h : r.top + r.height ≤ s.top) : r.Apart s := by
  intro x y hxy
  obtain ⟨⟨-, -, -, hr⟩, ⟨-, -, hs, -⟩⟩ := hxy
  linarith

/-- Where a region starts along an axis. -/
def near (axis : Axis) (r : Region) : ℚ :=
  match axis with
  | .vertical => r.top
  | .horizontal => r.left

/-- How long a region is along an axis. -/
def length (axis : Axis) (r : Region) : ℚ :=
  match axis with
  | .vertical => r.height
  | .horizontal => r.width

theorem apart_of_near {axis : Axis} {r s : Region} (h : r.near axis + r.length axis ≤ s.near axis) :
    r.Apart s := by
  cases axis with
  | vertical => exact apart_of_above h
  | horizontal => exact apart_of_left h

/-- A region follows another one along an axis, a gap behind it. -/
def Follows (axis : Axis) (gap : ℚ) (r s : Region) : Prop :=
  s.near axis = r.near axis + r.length axis + gap

end Region

/-- The region that a box covers at its place. -/
structure Placed.At {α : Type} (q : Placed α) (r : Region) : Prop where
  x : q.corner.x.At r.left
  y : q.corner.y.At r.top
  width : q.box.width.At r.width
  height : q.box.height.At r.height

/-- A box with finite sides above zero. -/
def Box.IsPositive {α : Type} (b : Box α) : Prop := b.width.IsPositive ∧ b.height.IsPositive

instance {α : Type} (b : Box α) : Decidable b.IsPositive := inferInstanceAs (Decidable (_ ∧ _))

/-- A point at a place of the plane. -/
def Point.At (p : Point) (x y : ℚ) : Prop := p.x.At x ∧ p.y.At y

namespace Layout
variable {α : Type}

theorem nonneg_of_checkGap {gap : Scalar} {v : ℚ} {u : Unit} (h : checkGap gap = .ok u)
    (hgap : gap.At v) : 0 ≤ v := by
  obtain ⟨finite, -, h⟩ := Outcome.bind_eq_ok.mp h
  split at h
  · cases h
  · rename_i hcheck
    rw [Bool.not_eq_true, Bool.or_eq_false_iff] at hcheck
    by_contra hlt
    exact Bool.eq_false_iff.mp hcheck.2 ((Scalar.lt_at hgap Scalar.zero_at).mpr (not_le.mp hlt))

/-! ## Stacks -/

/-- The side of a box along an axis. -/
def side (axis : Axis) (b : Box α) : Scalar :=
  match axis with
  | .vertical => b.height
  | .horizontal => b.width

/-- The coordinate of a point along an axis. -/
def coordinate (axis : Axis) (p : Point) : Scalar :=
  match axis with
  | .vertical => p.y
  | .horizontal => p.x

/-- No addition of a stack rounds. -/
def StackExact (axis : Axis) (gap : Scalar) : Point → List (Box α) → Prop
  | _, [] => True
  | p, b :: bs =>
    (side axis b).AddsExactly gap ∧
      (∀ step, (side axis b).add gap = .ok step → (coordinate axis p).AddsExactly step) ∧
        ∀ next, advance axis gap p b = .ok next → StackExact axis gap next bs

/-- The next place of a stack lies a gap behind the box. -/
theorem advance_follows {axis : Axis} {gap : Scalar} {p next : Point} {b : Box α} {r : Region}
    {g : ℚ} (h : advance axis gap p b = .ok next) (hside : (side axis b).AddsExactly gap)
    (hplace : ∀ step, (side axis b).add gap = .ok step → (coordinate axis p).AddsExactly step)
    (hr : Placed.At ⟨p, b⟩ r) (hgap : gap.At g) :
    ∃ x y, next.At x y ∧ ∀ w h, r.Follows axis g ⟨x, y, w, h⟩ := by
  cases axis with
  | vertical =>
    obtain ⟨step, hstep, h⟩ := Outcome.bind_eq_ok.mp h
    obtain ⟨y, hy, h⟩ := Outcome.bind_eq_ok.mp h
    cases h
    have hstepAt := hside.at hstep hr.height hgap
    have hyAt := (hplace step hstep).at hy hr.y hstepAt
    exact ⟨_, _, ⟨hr.x, hyAt⟩, fun _ _ => (add_assoc _ _ _).symm⟩
  | horizontal =>
    obtain ⟨step, hstep, h⟩ := Outcome.bind_eq_ok.mp h
    obtain ⟨x, hx, h⟩ := Outcome.bind_eq_ok.mp h
    cases h
    have hstepAt := hside.at hstep hr.width hgap
    have hxAt := (hplace step hstep).at hx hr.x hstepAt
    exact ⟨_, _, ⟨hxAt, hr.y⟩, fun _ _ => (add_assoc _ _ _).symm⟩

theorem stackFrom_follows {axis : Axis} {gap : Scalar} {p : Point} {boxes : List (Box α)}
    {placed : List (Placed α)} {x y g : ℚ} (h : stackFrom axis gap p boxes = .ok placed)
    (hexact : StackExact axis gap p boxes) (hgap : gap.At g) (hp : p.At x y)
    (hboxes : ∀ b ∈ boxes, b.IsPositive) :
    ∃ rs, List.Forall₂ Placed.At placed rs ∧ (∀ r ∈ rs, 0 < r.length axis) ∧
      rs.IsChain (Region.Follows axis g) ∧ ∀ r ∈ rs.head?, r.left = x ∧ r.top = y := by
  -- By induction on the boxes: each starts where the one in front of it and the gap end.
  induction boxes generalizing p placed x y with
  | nil =>
    cases h
    exact ⟨[], .nil, by simp, .nil, by simp⟩
  | cons b bs ih =>
    obtain ⟨-, -, h⟩ := Outcome.bind_eq_ok.mp h
    obtain ⟨next, hnext, h⟩ := Outcome.bind_eq_ok.mp h
    obtain ⟨rest, hrest, h⟩ := Outcome.bind_eq_ok.mp h
    cases h
    obtain ⟨hwidth, hheight⟩ := hboxes b List.mem_cons_self
    obtain ⟨width, hwidth, hwidthPos⟩ := hwidth.exists_at
    obtain ⟨height, hheight, hheightPos⟩ := hheight.exists_at
    let r : Region := ⟨x, y, width, height⟩
    have hr : Placed.At ⟨p, b⟩ r := ⟨hp.1, hp.2, hwidth, hheight⟩
    obtain ⟨hside, hplace, hlater⟩ := hexact
    obtain ⟨x', y', hnextAt, hfollows⟩ := advance_follows hnext hside hplace hr hgap
    obtain ⟨rs, hrs, hpos, hchain, hhead⟩ :=
      ih hrest (hlater next hnext) hnextAt fun c hc => hboxes c (List.mem_cons_of_mem b hc)
    refine ⟨r :: rs, .cons hr hrs, ?_, ?_, by simp [r]⟩
    · refine List.forall_mem_cons.mpr ⟨?_, hpos⟩
      cases axis with
      | vertical => exact hheightPos
      | horizontal => exact hwidthPos
    · refine List.isChain_cons.mpr ⟨fun s hs => ?_, hchain⟩
      obtain ⟨rfl, rfl⟩ := hhead s hs
      exact hfollows s.width s.height

theorem behind_of_follows {axis : Axis} {g : ℚ} (hg : 0 ≤ g) {r : Region} {rs : List Region}
    (hpos : ∀ s ∈ rs, 0 < s.length axis) (h : (r :: rs).IsChain (Region.Follows axis g)) :
    ∀ s ∈ rs, r.near axis + r.length axis ≤ s.near axis := by
  induction rs generalizing r with
  | nil => exact fun s hs => by cases hs
  | cons t rs ih =>
    obtain ⟨hfollows, hrest⟩ := List.isChain_cons_cons.mp h
    have hnext : r.near axis + r.length axis ≤ t.near axis := by
      rw [hfollows]
      exact le_add_of_nonneg_right hg
    refine List.forall_mem_cons.mpr ⟨hnext, fun s hs => ?_⟩
    have hlater := ih (fun u hu => hpos u (List.mem_cons_of_mem t hu)) hrest s hs
    have htpos := hpos t List.mem_cons_self
    linarith

theorem apart_of_follows {axis : Axis} {g : ℚ} (hg : 0 ≤ g) {rs : List Region}
    (hpos : ∀ s ∈ rs, 0 < s.length axis) (h : rs.IsChain (Region.Follows axis g)) :
    rs.Pairwise Region.Apart := by
  induction rs with
  | nil => exact .nil
  | cons r rs ih =>
    have hpos' : ∀ s ∈ rs, 0 < s.length axis := fun s hs => hpos s (List.mem_cons_of_mem r hs)
    refine .cons (fun s hs => ?_) (ih hpos' (List.isChain_cons.mp h).2)
    exact Region.apart_of_near (behind_of_follows hg hpos' h s hs)

/-! ## Grids -/

/-- The widths of the columns of a grid that hold boxes. -/
def columnWidths (columns : Nat) (boxes : List (Box α)) : List Scalar :=
  (List.range (min columns boxes.length)).map fun c => extent Box.width (· % columns) c boxes

/-- The heights of the rows of a grid. -/
def rowHeights (columns rows : Nat) (boxes : List (Box α)) : List Scalar :=
  (List.range rows).map fun r => extent Box.height (· / columns) r boxes

/-- No addition along the lines of a grid rounds. -/
def OffsetsExact (gap : Scalar) : Scalar → List Scalar → Prop
  | _, [] => True
  | _, [_] => True
  | start, e :: e' :: es =>
    start.AddsExactly e ∧ ∀ edge, start.add e = .ok edge →
      edge.AddsExactly gap ∧ ∀ next, edge.add gap = .ok next → OffsetsExact gap next (e' :: es)

/-- A stretch of an axis: where it starts and how long it is. -/
structure Span where
  start : ℚ
  length : ℚ

/-- A stretch ends where another one starts, or before. -/
def Span.Before (s t : Span) : Prop := s.start + s.length ≤ t.start

/-- The lines of a grid do not overlap. -/
theorem offsets_apart {gap start : Scalar} {extents starts : List Scalar} {v g : ℚ}
    (h : offsets gap start extents = .ok starts) (hexact : OffsetsExact gap start extents)
    (hgap : gap.At g) (hg : 0 ≤ g) (hstart : start.At v)
    (hextents : ∀ e ∈ extents, ∃ w, e.At w ∧ 0 ≤ w) :
    ∃ spans : List Span, List.Forall₂ (fun s p => s.At p.start) starts spans ∧
      List.Forall₂ (fun e p => e.At p.length) extents spans ∧ spans.Pairwise Span.Before ∧
        ∀ p ∈ spans, v ≤ p.start := by
  -- By induction on the table: all later lines start behind the edge of the first one.
  fun_induction offsets gap start extents generalizing starts v with
  | case1 =>
    cases h
    exact ⟨[], .nil, .nil, .nil, by simp⟩
  | case2 start e =>
    cases h
    obtain ⟨w, hw, -⟩ := hextents e List.mem_cons_self
    exact ⟨[⟨v, w⟩], .cons hstart .nil, .cons hw .nil, List.pairwise_singleton _ _, by simp⟩
  | case3 start e e' es ih =>
    obtain ⟨edge, hedge, h⟩ := Outcome.bind_eq_ok.mp h
    obtain ⟨next, hnext, h⟩ := Outcome.bind_eq_ok.mp h
    obtain ⟨rest, hrest, h⟩ := Outcome.bind_eq_ok.mp h
    cases h
    obtain ⟨w, hw, hwpos⟩ := hextents e List.mem_cons_self
    obtain ⟨hadd, hlater⟩ := hexact
    obtain ⟨haddGap, hlater⟩ := hlater edge hedge
    have hedgeAt := hadd.at hedge hstart hw
    have hnextAt := haddGap.at hnext hedgeAt hgap
    obtain ⟨spans, hstarts, hlengths, hpairs, hfrom⟩ := ih next hrest (hlater next hnext) hnextAt
      fun e'' he'' => hextents e'' (List.mem_cons_of_mem e he'')
    refine ⟨⟨v, w⟩ :: spans, .cons hstart hstarts, .cons hw hlengths, ?_, ?_⟩
    · refine .cons (fun p hp => ?_) hpairs
      show v + w ≤ p.start
      linarith [hfrom p hp]
    · refine List.forall_mem_cons.mpr ⟨le_rfl, fun p hp => ?_⟩
      linarith [hfrom p hp]

theorem extent_room {measure : Box α → Scalar} (lineOf : Nat → Nat) (line : Nat)
    {boxes : List (Box α)} (hboxes : ∀ b ∈ boxes, ∃ w, (measure b).At w) :
    ∃ m, (extent measure lineOf line boxes).At m ∧ 0 ≤ m ∧
      ∀ b i, (b, i) ∈ boxes.zipIdx → lineOf i = line → ∀ w, (measure b).At w → w ≤ m := by
  have hline : ∀ n ∈ (boxes.zipIdx.filter fun b => lineOf b.2 == line).map fun b => measure b.1,
      ∃ w, n.At w := by
    intro n hn
    obtain ⟨b, hb, rfl⟩ := List.mem_map.mp hn
    exact hboxes b.1 (List.fst_mem_of_mem_zipIdx (List.mem_filter.mp hb).1)
  obtain ⟨m, hm, hpos, hall⟩ := Scalar.foldl_max_at (Scalar.real_zero_at false) hline
  refine ⟨m, hm, hpos, fun b i hmem hline w hw => ?_⟩
  refine hall _ (List.mem_map.mpr ⟨(b, i), List.mem_filter.mpr ⟨hmem, ?_⟩, rfl⟩) w hw
  rw [hline, beq_self_eq_true]

theorem span_of_start {R : Scalar → Span → Prop} {xs : List Scalar} {spans : List Span}
    (h : List.Forall₂ R xs spans) {k : Nat} {x : Scalar} (hx : xs[k]? = some x) :
    ∃ s, spans[k]? = some s ∧ R x s := by
  induction h generalizing k with
  | nil => cases hx
  | cons hr _ ih =>
    cases k with
    | zero =>
      cases hx
      exact ⟨_, rfl, hr⟩
    | succ k => exact ih hx

theorem length_of_span {f : Nat → Scalar} {n : Nat} {spans : List Span}
    (h : List.Forall₂ (fun e p => e.At p.length) ((List.range n).map f) spans) {k : Nat} {s : Span}
    (hs : spans[k]? = some s) : (f k).At s.length := by
  obtain ⟨hk, rfl⟩ := List.getElem?_eq_some_iff.mp hs
  have hlength := h.length_eq
  rw [List.length_map, List.length_range] at hlength
  have hat := h.get (i := k) (by simpa [hlength] using hk) hk
  simpa using hat

theorem before_of_lt {spans : List Span} (h : spans.Pairwise Span.Before) {j k : Nat} {s t : Span}
    (hs : spans[j]? = some s) (ht : spans[k]? = some t) (hjk : j < k) : s.Before t := by
  obtain ⟨hj, rfl⟩ := List.getElem?_eq_some_iff.mp hs
  obtain ⟨hk, rfl⟩ := List.getElem?_eq_some_iff.mp ht
  exact List.pairwise_iff_getElem.mp h j k hj hk hjk

/-- A region stands at the crossing of its column and its row, which have room for it. -/
structure Fits (columns : Nat) (across down : List Span) (i : Nat) (r : Region) : Prop where
  column : ∃ s, across[i % columns]? = some s ∧ r.left = s.start ∧ r.width ≤ s.length
  row : ∃ s, down[i / columns]? = some s ∧ r.top = s.start ∧ r.height ≤ s.length

theorem row_lt_of_column_eq {columns i j : Nat} (h : i % columns = j % columns) (hij : i < j) :
    i / columns < j / columns := by
  by_contra hle
  have hmul := Nat.mul_le_mul_left columns (Nat.le_of_not_lt hle)
  have hi := Nat.div_add_mod i columns
  have hj := Nat.div_add_mod j columns
  omega

/-- Two boxes of a grid stand in different columns or in different rows. -/
theorem Fits.apart {columns : Nat} {across down : List Span} (hacross : across.Pairwise Span.Before)
    (hdown : down.Pairwise Span.Before) {i j : Nat} {r s : Region}
    (hr : Fits columns across down i r) (hs : Fits columns across down j s) (hij : i < j) :
    r.Apart s := by
  obtain ⟨c, hc, hrleft, hrwidth⟩ := hr.column
  obtain ⟨d, hd, hsleft, hswidth⟩ := hs.column
  rcases Nat.lt_trichotomy (i % columns) (j % columns) with hlt | heq | hgt
  · have hbefore : c.start + c.length ≤ d.start := before_of_lt hacross hc hd hlt
    exact Region.apart_of_left (by linarith)
  · obtain ⟨e, he, hrtop, hrheight⟩ := hr.row
    obtain ⟨f, hf, hstop, -⟩ := hs.row
    have hbefore : e.start + e.length ≤ f.start :=
      before_of_lt hdown he hf (row_lt_of_column_eq heq hij)
    exact Region.apart_of_above (by linarith)
  · have hbefore : d.start + d.length ≤ c.start := before_of_lt hacross hd hc hgt
    exact (Region.apart_of_left (by linarith)).symm

theorem exists_sides {boxes : List (Box α)} (hboxes : ∀ b ∈ boxes, b.IsPositive) :
    (∀ b ∈ boxes, ∃ w, b.width.At w) ∧ ∀ b ∈ boxes, ∃ t, b.height.At t := by
  refine ⟨fun b hb => ?_, fun b hb => ?_⟩
  · obtain ⟨w, hw, -⟩ := (hboxes b hb).1.exists_at
    exact ⟨w, hw⟩
  · obtain ⟨t, ht, -⟩ := (hboxes b hb).2.exists_at
    exact ⟨t, ht⟩

theorem cell_eq_ok {columns : Nat} {xs ys : List Scalar} {b : Box α × Nat} {q : Placed α}
    (h : cell columns xs ys b = .ok q) :
    ∃ x y, xs[b.2 % columns]? = some x ∧ ys[b.2 / columns]? = some y ∧ q = ⟨⟨x, y⟩, b.1⟩ := by
  unfold cell at h
  split at h
  · rename_i x y hx hy
    exact ⟨x, y, hx, hy, (Except.ok.inj h).symm⟩
  · cases h

theorem cell_fits {columns rows : Nat} {xs ys : List Scalar} {boxes : List (Box α)}
    {across down : List Span} {b : Box α × Nat} {q : Placed α}
    (h : cell columns xs ys b = .ok q) (hmem : b ∈ boxes.zipIdx)
    (hboxes : ∀ b ∈ boxes, b.IsPositive)
    (hxs : List.Forall₂ (fun s p => s.At p.start) xs across)
    (hys : List.Forall₂ (fun s p => s.At p.start) ys down)
    (hwidths : List.Forall₂ (fun e p => e.At p.length) (columnWidths columns boxes) across)
    (hheights : List.Forall₂ (fun e p => e.At p.length) (rowHeights columns rows boxes) down) :
    ∃ r, q.At r ∧ Fits columns across down b.2 r := by
  obtain ⟨b, i⟩ := b
  obtain ⟨x, y, hx, hy, rfl⟩ := cell_eq_ok h
  obtain ⟨hwide, htall⟩ := exists_sides hboxes
  obtain ⟨w, hw⟩ := hwide b (List.fst_mem_of_mem_zipIdx hmem)
  obtain ⟨t, ht⟩ := htall b (List.fst_mem_of_mem_zipIdx hmem)
  obtain ⟨c, hc, hcx⟩ := span_of_start hxs hx
  obtain ⟨e, he, hey⟩ := span_of_start hys hy
  obtain ⟨m, hm, -, hroom⟩ := extent_room (· % columns) (i % columns) hwide
  obtain ⟨n, hn, -, hroom'⟩ := extent_room (· / columns) (i / columns) htall
  have hmc := hm.unique (length_of_span hwidths hc)
  have hne := hn.unique (length_of_span hheights he)
  refine ⟨⟨c.start, e.start, w, t⟩, ⟨hcx, hey, hw, ht⟩, ⟨c, hc, rfl, ?_⟩, ⟨e, he, rfl, ?_⟩⟩
  · exact hmc ▸ hroom b i hmem rfl w hw
  · exact hne ▸ hroom' b i hmem rfl t ht

theorem pairwise_of_numbers {R : Nat → Region → Prop} {T : Region → Region → Prop}
    {boxes : List (Box α)} {rs : List Region}
    (h : List.Forall₂ (fun b r => R b.2 r) boxes.zipIdx rs)
    (hT : ∀ i j r s, R i r → R j s → i < j → T r s) : rs.Pairwise T := by
  rw [List.pairwise_iff_getElem]
  intro i j hi hj hij
  have hlength := h.length_eq
  have hR (k : Nat) (hk : k < rs.length) : R k rs[k] := by
    have hat := h.get (i := k) (by omega) hk
    simpa using hat
  exact hT i j _ _ (hR i hi) (hR j hj) hij

/-- The boxes of a grid do not overlap. -/
theorem gridOf_apart {boxes : List (Box α)} {origin : Point} {columns : Nat} {gap : Scalar}
    {placed : List (Placed α)} {x y g : ℚ} (h : gridOf boxes origin columns gap = .ok placed)
    (hexact : ∀ rows, rowCount boxes.length columns = .ok rows →
      OffsetsExact gap origin.x (columnWidths columns boxes) ∧
        OffsetsExact gap origin.y (rowHeights columns rows boxes))
    (hgap : gap.At g) (hg : 0 ≤ g) (hp : origin.At x y) (hboxes : ∀ b ∈ boxes, b.IsPositive) :
    ∃ rs, List.Forall₂ Placed.At placed rs ∧ rs.Pairwise Region.Apart := by
  unfold gridOf at h
  split at h
  · cases h
    exact ⟨[], .nil, .nil⟩
  · obtain ⟨rows, hrows, h⟩ := Outcome.bind_eq_ok.mp h
    obtain ⟨-, -, h⟩ := Outcome.bind_eq_ok.mp h
    obtain ⟨xs, hxs, h⟩ := Outcome.bind_eq_ok.mp h
    obtain ⟨ys, hys, h⟩ := Outcome.bind_eq_ok.mp h
    obtain ⟨hacross, hdown⟩ := hexact rows hrows
    -- Every extent is that of a line of boxes with finite sides.
    have hextent {measure : Box α → Scalar} (hmeasure : ∀ b ∈ boxes, ∃ w, (measure b).At w)
        (lineOf : Nat → Nat) (line : Nat) :
        ∃ w, (extent measure lineOf line boxes).At w ∧ 0 ≤ w :=
      let ⟨m, hm, hpos, _⟩ := extent_room lineOf line hmeasure
      ⟨m, hm, hpos⟩
    obtain ⟨hwide, htall⟩ := exists_sides hboxes
    obtain ⟨across, hacrossAt, hwidths, hacrossApart, -⟩ :=
      offsets_apart hxs hacross hgap hg hp.1 fun e he => by
        obtain ⟨c, -, rfl⟩ := List.mem_map.mp he
        exact hextent hwide _ c
    obtain ⟨down, hdownAt, hheights, hdownApart, -⟩ :=
      offsets_apart hys hdown hgap hg hp.2 fun e he => by
        obtain ⟨r, -, rfl⟩ := List.mem_map.mp he
        exact hextent htall _ r
    obtain ⟨rs, hrs, hfits⟩ := Outcome.exists_of_mapM_ok (P := Placed.At)
      (Q := fun b r => Fits columns across down b.2 r) h fun b hb q hq =>
        cell_fits hq hb hboxes hacrossAt hdownAt hwidths hheights
    exact ⟨rs, hrs, pairwise_of_numbers hfits fun i j r s hr hs hij =>
      hr.apart hacrossApart hdownApart hs hij⟩

end Layout

/-! ## Blocks -/

namespace Block

/-- No addition rounds where a block places some boxes. -/
def Exact (b : Block) (boxes : List (Box ShapeInstruction)) : Prop :=
  match b.arrangement with
  | .stack direction =>
    ∀ axis, Axis.ofName? direction = some axis → Layout.StackExact axis b.gap b.origin boxes
  | .grid columns =>
    ∀ rows, Layout.rowCount boxes.length columns = .ok rows →
      Layout.OffsetsExact b.gap b.origin.x (Layout.columnWidths columns boxes) ∧
        Layout.OffsetsExact b.gap b.origin.y (Layout.rowHeights columns rows boxes)

/-- The axis of a stack; a grid has none. -/
def axis? (b : Block) : Option Axis :=
  match b.arrangement with
  | .stack direction => Axis.ofName? direction
  | .grid _ => none

/-- A block whose origin and gap are finite, as a header gives them. -/
structure IsPlain (b : Block) : Prop where
  origin : b.origin.IsFinite
  gap : ∃ x, b.gap = .real x

theorem header_plain (text : List Char) (line : LineNumber) :
    Yields IsPlain (header text line) := by
  unfold header
  dsimp only
  split
  · split
    · exact Settles.fails _
    · refine (Measure.position_finite line _).yields.bind fun origin horigin => ?_
      exact Settles.ok ⟨horigin, _, rfl⟩
  · split
    · exact Settles.fails _
    · refine (Settles.any _).bind fun n _ => ?_
      apply Settles.ite
      · exact fun _ => Settles.fails _
      · intro _
        refine (Measure.position_finite line _).yields.bind fun origin horigin => ?_
        exact Settles.ok ⟨horigin, _, rfl⟩

theorem exists_gap {x : Binary64} {u : Unit} (h : Layout.checkGap (.real x) = .ok u) :
    ∃ g, (Scalar.real x).At g ∧ 0 ≤ g := by
  obtain ⟨finite, hfinite, hcheck⟩ := Outcome.bind_eq_ok.mp h
  cases hfinite
  split at hcheck
  · cases hcheck
  · rename_i hgap
    rw [Bool.not_eq_true, Bool.or_eq_false_iff, Bool.not_eq_false'] at hgap
    obtain ⟨g, hg⟩ := Scalar.IsFinite.exists_at (a := .real x) hgap.1
    exact ⟨g, hg, Layout.nonneg_of_checkGap h hg⟩

/-- A block does not let its boxes overlap, and those of a stack follow one another. -/
theorem place_apart {b : Block} {boxes : List (Box ShapeInstruction)}
    {placed : List (Placed ShapeInstruction)} (h : b.place boxes = .ok placed) (hb : b.IsPlain)
    (hexact : b.Exact boxes) (hboxes : ∀ box ∈ boxes, box.IsPositive) :
    ∃ rs, List.Forall₂ Placed.At placed rs ∧ rs.Pairwise Region.Apart ∧
      ∀ axis ∈ b.axis?, ∃ g, b.gap.At g ∧ rs.IsChain (Region.Follows axis g) := by
  obtain ⟨⟨hx, hy⟩, n, hgap⟩ := hb
  obtain ⟨x, hx⟩ := hx.exists_at
  obtain ⟨y, hy⟩ := hy.exists_at
  unfold place at h
  unfold Exact at hexact
  unfold axis?
  cases harrangement : b.arrangement with
  | stack direction =>
    rw [harrangement] at h hexact
    unfold Layout.stack at h
    dsimp only at h hexact ⊢
    split at h
    · cases h
    · rename_i axis haxis
      obtain ⟨-, -, h⟩ := Outcome.bind_eq_ok.mp h
      obtain ⟨_, hcheck, h⟩ := Outcome.bind_eq_ok.mp h
      rw [hgap] at hcheck
      obtain ⟨g, hg, hpos⟩ := exists_gap hcheck
      rw [← hgap] at hg
      -- Each box starts where the one in front of it ends, with the gap between them.
      obtain ⟨rs, hrs, hlengths, hchain, -⟩ :=
        Layout.stackFrom_follows h (hexact axis haxis) hg ⟨hx, hy⟩ hboxes
      refine ⟨rs, hrs, Layout.apart_of_follows hpos hlengths hchain, fun axis' haxis' => ?_⟩
      rw [haxis, Option.mem_some_iff] at haxis'
      exact ⟨g, hg, haxis' ▸ hchain⟩
  | grid columns =>
    rw [harrangement] at h hexact
    unfold Layout.grid at h
    dsimp only at h hexact ⊢
    obtain ⟨-, -, h⟩ := Outcome.bind_eq_ok.mp h
    obtain ⟨_, hcheck, hgrid⟩ := Outcome.bind_eq_ok.mp h
    rw [hgap] at hcheck
    obtain ⟨g, hg, hpos⟩ := exists_gap hcheck
    rw [← hgap] at hg
    -- No grid has zero columns; it is refused before its boxes are placed.
    cases columns with
    | zero => cases hgrid
    | succ n =>
      obtain ⟨rs, hrs, hapart⟩ := Layout.gridOf_apart hgrid hexact hg hpos ⟨hx, hy⟩ hboxes
      exact ⟨rs, hrs, hapart, fun axis haxis => by cases haxis⟩

end Block

end DiagramScript
