import DiagramScript.Proofs.Geometry.Border
import DiagramScript.Proofs.Page.Steps
import DiagramScript.Proofs.Source.Moderate

/-
  Pages whose shapes stay in reach.

  Every instruction of a batch adds one shape, a few reaches further out than the shapes before
  (`create_reaches`), and every frame that grows does so by a few reaches (`growFrame_reaches`).
  So a batch whose instructions are in reach is put on a page with all its shapes in reach, or
  refused with an error of the library (`apply_reaches`).
-/

namespace DiagramScript

/-! ## Shapes -/

/-- A shape that can be drawn: its fields are within some reaches. -/
structure Shape.Reaches (k : ℕ) (s : Shape) : Prop where
  known : ∃ kind, s.kind = .known kind
  box : Bounds.Inside k ⟨s.x, s.y, s.w, s.h⟩
  start : ∀ p ∈ s.start, p.Within (3 * k)
  finish : ∀ p ∈ s.finish, p.Within (3 * k)
  lines : s.kind = .known .text → Text.lineCount s.label ≤ lineLimit

/-- A shape whose bounds have a middle that connectors can start from. -/
structure Shape.Steady (k : ℕ) (s : Shape) : Prop extends s.Reaches k where
  solid : Gives (Bounds.Solid k) s.bounds

theorem Text.height_le {text : String} (h : lineCount text ≤ lineLimit) (t : Tier) :
    lineCount text * t.lineHeight ≤ 2 ^ 80 :=
  calc lineCount text * t.lineHeight
      ≤ lineLimit * 44 := Nat.mul_le_mul h t.lineHeight_le
    _ ≤ 2 ^ 80 := by decide

namespace Shape
variable {k l : ℕ} {s : Shape}

theorem Reaches.mono (h : s.Reaches k) (hk : k ≤ l) : s.Reaches l :=
  ⟨h.known, h.box.mono hk, fun p hp => (h.start p hp).mono (by omega),
    fun p hp => (h.finish p hp).mono (by omega), h.lines⟩

theorem Steady.mono (h : s.Steady k) (hk : k ≤ l) : s.Steady l :=
  ⟨h.toReaches.mono hk, h.solid.imp fun _ hb => hb.mono hk⟩

theorem Steady.center (h : s.Steady k) (hk : 2 * k + 1 ≤ far) :
    Gives (Point.Regular 133 (k + 2)) s.center :=
  h.solid.bind fun _ hb => hb.center hk

theorem Steady.bottom (h : s.Steady k) (hk : 2 * k ≤ far) :
    Gives (Scalar.Within (k + 1)) s.bottom :=
  h.solid.bind fun _ hb => hb.inside.bottom hk

/-- A shape with a place in reach and sides of a moderate length is steady. -/
theorem steady_of_sides {kind : Kind} (hkind : s.kind = .known kind) (hshape : kind ≠ .connector)
    (hx : s.x.Regular 132 k) (hy : s.y.Regular 132 k) (hw : s.w.IsSide) (hh : s.h.IsSide)
    (hlines : kind = .text → Text.lineCount s.label ≤ lineLimit) (hstart : s.start = none)
    (hfinish : s.finish = none) : s.Steady (k + 1) := by
  obtain ⟨vx, wx, hwide⟩ := hx.solid hw
  obtain ⟨vy, wy, hhigh⟩ := hy.solid hh
  have hbox : Bounds.Solid (k + 1) ⟨s.x, s.y, s.w, s.h⟩ := ⟨⟨vx, wx, hwide⟩, ⟨vy, wy, hhigh⟩⟩
  refine ⟨⟨⟨kind, hkind⟩, hbox.inside, ?_, ?_, ?_⟩, ?_⟩
  · intro p hp
    rw [hstart] at hp
    cases hp
  · intro p hp
    rw [hfinish] at hp
    cases hp
  · intro htext
    rw [hkind, ShapeKind.known.injEq] at htext
    exact hlines htext
  · unfold bounds
    rw [hkind]
    cases kind with
    | connector => exact absurd rfl hshape
    | text =>
      -- The bounds of a text are as high as its lines, whatever height it stores.
      refine .ok ⟨hx.solid (Scalar.max_of (Scalar.isSide_whole (n := 40) (by decide) ?_) hw),
        hy.solid (Scalar.isSide_whole ?_ ?_)⟩
      · norm_num
      · exact Nat.mul_pos (Nat.succ_pos _) (Tier.lineHeight_pos _)
      · exact Text.height_le (hlines rfl) _
    | _ => exact .ok hbox

end Shape

namespace Page
variable {k : ℕ} {p : Page}

/-- A page whose shapes are steady. -/
def Steady (k : ℕ) (p : Page) : Prop := ∀ s ∈ p.shapes, s.Steady k

theorem Steady.mono {l : ℕ} (h : p.Steady k) (hk : k ≤ l) : p.Steady l :=
  fun s hs => (h s hs).mono hk

theorem Steady.empty : Page.empty.Steady k := fun s hs => by cases hs

/-- A shape is added as it is, or its id is taken. -/
theorem Steady.add (h : p.Steady k) {s : Shape} (hs : s.Steady k) :
    Settles Fault.Own (Steady k) (p.add s) := by
  unfold Page.add
  refine .ite (fun _ => .error (.document _ _)) fun _ => .ok fun t ht => ?_
  rw [shapes, List.map_append, List.mem_append] at ht
  rcases ht with ht | ht
  · exact h t ht
  · rw [List.mem_singleton.mp ht]
    exact hs

theorem newId_own (p : Page) (custom : Option String) (line : LineNumber) :
    Settles Fault.Own (fun _ => True) (p.newId custom line) := by
  unfold newId
  split
  · exact .ok trivial
  · exact .ite (fun _ => .error (.document _ _)) fun _ => .ok trivial

/-! ## New shapes -/

/-- A shape without a place of its own goes a few reaches below the others. -/
theorem newPosition_reaches (h : p.Steady k) {i : ShapeInstruction} (hi : i.Reaches k)
    (hk : 2 * k + 4 ≤ far) : Gives (Point.Regular 132 (k + 4)) (p.newPosition i) := by
  have hgap : Bounds.placementGap.Within 1 := .of_nat (n := 40) (by norm_num)
  have hzero : Scalar.Within (k + 4) (.whole 0) := .whole (by
    rw [Int.cast_zero, abs_zero]
    exact mul_nonneg (Nat.cast_nonneg _) reach_pos.le)
  unfold newPosition
  split
  · rename_i position hposition
    exact .ok ((hi.position position hposition).mono le_rfl (by omega))
  · refine (Settles.mapM fun s hs => (h s hs).bottom (by omega)).bind fun bottoms hbottoms => ?_
    cases bottoms with
    | nil => exact .ok ⟨.of_whole hzero, .of_whole hzero⟩
    | cons b rest =>
      obtain ⟨hb, hrest⟩ := List.forall_mem_cons.mp hbottoms
      have hmaximum := Scalar.maximum_of (P := Scalar.Within (k + 1)) hb hrest
      refine (hmaximum.add hgap (by omega) (by decide)).bind fun y hy => ?_
      exact hy.ceil.bind fun n hn => .ok ⟨.of_whole hzero, .of_whole hn⟩

theorem newShape_reaches (h : p.Steady k) {i : ShapeInstruction} (hi : i.Reaches k)
    (hk : 2 * k + 4 ≤ far) : Settles Fault.Own (Shape.Steady (k + 5)) (p.newShape i) := by
  refine (Settles.of_gives (newPosition_reaches h hi hk)).bind fun position hposition => ?_
  obtain ⟨size, hsize, hw, hh⟩ := hi.size.exists_ok
  have hkind : i.kind ≠ .connector := by
    intro hconnector
    rw [Block.sizeOf, if_pos hconnector] at hsize
    cases hsize
  rw [hsize]
  refine (Settles.same size).bind ?_
  rintro _ rfl
  refine (newId_own p i.id i.line).bind fun id _ => .ok ?_
  refine Shape.steady_of_sides (k := k + 4) rfl hkind hposition.x hposition.y hw hh ?_ rfl rfl
  intro htext
  rw [htext, if_neg (by decide), orElseText_empty]
  exact hi.lines

theorem createShape_reaches (h : p.Steady k) {i : ShapeInstruction} (hi : i.Reaches k)
    (hk : 2 * k + 4 ≤ far) :
    Settles Fault.Own (fun r => Steady (k + 5) r.1) (p.createShape i).result := by
  simp only [createShape, Report.result_bind, Report.result_liftM, Report.result_tell,
    Report.result_pure]
  refine (newShape_reaches h hi hk).bind fun s hs => ?_
  exact ((h.mono (by omega)).add hs).bind fun q hq => .ok hq

/-! ## New connectors -/

theorem mem_shapes_of_find? {text : String} {s : Shape} (h : p.find? text = some s) :
    s ∈ p.shapes := by
  have hget {id : String} (h : p.get? id = some s) : s ∈ p.shapes := by
    obtain ⟨l, hl, rfl⟩ := Option.map_eq_some_iff.mp h
    exact List.mem_map_of_mem (List.mem_of_find?_eq_some hl)
  rw [find?, Option.or_eq_some_iff, Option.or_eq_some_iff] at h
  rcases h with (h | ⟨-, h⟩) | ⟨-, h⟩
  · exact hget h
  · exact hget h
  · exact List.mem_of_find?_eq_some h

/-- What a connector end refers to, in reach. -/
structure Anchor.Reaches (k : ℕ) (a : Anchor) : Prop where
  point : a.point.Regular 133 (k + 2)
  shape : ∀ s ∈ a.shape, s.Steady k

theorem anchor_reaches (h : p.Steady k) {text : String} {line : LineNumber}
    (htext : Measure.Reaches text line) (hk : 2 * k + 1 ≤ far) :
    Settles Fault.Own (Anchor.Reaches k) (p.anchor text line) := by
  unfold anchor
  refine .ite (fun hposition => ?_) fun _ => ?_
  · refine ((Measure.position_finite line text).also (htext hposition)).bind fun point hpoint => ?_
    exact .ok ⟨hpoint.2.mono (by decide) (by omega), fun s hs => by cases hs⟩
  · split
    · exact .error (.resolution _ _)
    · rename_i s hs
      have hsteady := h s (mem_shapes_of_find? hs)
      refine (Settles.of_gives (hsteady.center hk)).bind fun point hpoint => .ok ⟨hpoint, ?_⟩
      intro t ht
      cases ht
      exact hsteady

theorem Anchor.Reaches.tip {a : Anchor} (h : a.Reaches k) {other : Point}
    (hother : other.Regular 133 (k + 2)) {padding : Scalar} (hpadding : padding.Within 1)
    (hk : 3 * k + 7 ≤ far) : Gives (Point.Within (k + 11)) (a.tip other padding) := by
  unfold Anchor.tip
  split
  · exact .ok (h.point.within.mono (by omega))
  · rename_i s hs
    exact Border.point_within (h.shape s hs).solid hother (by omega) hpadding

theorem offset_reaches {a b : Scalar} (ha : a.Within k) (hb : b.Within k)
    (hk : 2 * k + 1 ≤ far) :
    Gives (fun d => d.Within (2 * k + 1) ∧ Gives (Scalar.Within (k + 2)) (b.add d)) (a.sub b) := by
  obtain ⟨v, hv, hvle⟩ := ha
  obtain ⟨w, hw, hwle⟩ := hb
  refine (Scalar.sub_add_near hv hw hvle hwle hk).imp fun d hd => ⟨hd.1, hd.2.imp ?_⟩
  rintro c ⟨z, hz, hnear⟩
  have hz' := abs_sub_abs_le_abs_sub z v
  refine ⟨z, hz, ?_⟩
  push_cast
  linarith

/-- An axis of the box between two points is at least as long as 1. -/
theorem span_solid {a b : Scalar} (ha : a.Within k) (hb : b.Within k) (hk : k ≤ far) :
    Gives (fun d => ∃ v w, Scalar.Solid (k + 1) (a.min b) (Scalar.max 1 d.abs) v w)
      (b.sub a) := by
  obtain ⟨v, hv, hvle⟩ := ha
  obtain ⟨w, hw, hwle⟩ := hb
  refine (Scalar.sub_near hw hv (Scalar.le_far hk hwle) (Scalar.le_far hk hvle)).imp ?_
  rintro d ⟨z, hz, herror, -⟩
  have hone : (1 : Scalar).At 1 := Scalar.whole_at 1
  have hlength := Scalar.max_at hone (Scalar.abs_at hz)
  have hreach := one_le_reach
  have hz' := abs_sub_abs_le_abs_sub z (w - v)
  have hle : max 1 |z| ≤ |w - v| + reach :=
    max_le (by linarith [abs_nonneg (w - v)]) (by linarith)
  have hge : 1 ≤ max 1 |z| := le_max_left 1 |z|
  -- Without rounding the box ends at the greater coordinate. Rounding and the least length add one
  -- reach at most.
  have hfar : min v w + |w - v| = max v w := by
    rw [← max_sub_min_eq_abs v w, add_sub_cancel]
  obtain ⟨hvlow, hvhigh⟩ := abs_le.mp hvle
  obtain ⟨hwlow, hwhigh⟩ := abs_le.mp hwle
  have hlow : -(k * reach) ≤ min v w := le_min hvlow hwlow
  have hhigh : max v w ≤ k * reach := max_le hvhigh hwhigh
  have hle' : min v w ≤ max v w := min_le_max
  refine ⟨min v w, max 1 |z|, ⟨⟨Scalar.min_at hv hw, hlength, ?_, ?_⟩, ?_, .inl hge⟩⟩
  · push_cast
    exact abs_le.mpr ⟨by linarith, by linarith⟩
  · push_cast
    exact abs_le.mpr ⟨by linarith, by linarith⟩
  · exact le_trans (by norm_num) hge

theorem connectorShape_steady {id : String} {i : ConnectorInstruction} {first last : Point}
    (hfirst : first.Within k) (hlast : last.Within k) (hk : 2 * k + 3 ≤ far) :
    Gives (Shape.Steady (k + 3)) (connectorShape id i first last) := by
  have hx := Scalar.min_of (P := Scalar.Within k) hfirst.x hlast.x
  have hy := Scalar.min_of (P := Scalar.Within k) hfirst.y hlast.y
  refine (offset_reaches hfirst.x hx (by omega)).bind fun sx hsx => ?_
  refine (offset_reaches hfirst.y hy (by omega)).bind fun sy hsy => ?_
  refine (offset_reaches hlast.x hx (by omega)).bind fun ex hex => ?_
  refine (offset_reaches hlast.y hy (by omega)).bind fun ey hey => .ok ?_
  have hpoint {offset : Point}
      (hx : Gives (Scalar.Within (k + 2)) ((first.x.min last.x).add offset.x))
      (hy : Gives (Scalar.Within (k + 2)) ((first.y.min last.y).add offset.y)) :
      Gives (Point.Within (k + 2)) ((first.x.min last.x).add offset.x >>= fun x =>
        (first.y.min last.y).add offset.y >>= fun y => .ok ⟨x, y⟩) :=
    hx.bind fun x hx => hy.bind fun y hy => .ok ⟨hx, hy⟩
  -- A connector stores no sides: its bounds are computed from its ends.
  have hempty {a : Scalar} (ha : a.Within k) : ∃ v w, Scalar.Spans (k + 3) a 0 v w := by
    obtain ⟨v, hv, hle⟩ := ha.mono (by omega : k ≤ k + 3)
    exact ⟨v, 0, hv, Scalar.zero_at, hle, by rwa [add_zero]⟩
  refine ⟨⟨⟨.connector, rfl⟩, ⟨hempty hx, hempty hy⟩, ?_, ?_, fun h => by cases h⟩, ?_⟩
  · intro p hp
    cases hp
    exact ⟨hsx.1.mono (by omega), hsy.1.mono (by omega)⟩
  · intro p hp
    cases hp
    exact ⟨hex.1.mono (by omega), hey.1.mono (by omega)⟩
  · refine (hpoint hsx.2 hsy.2).bind fun a ha => (hpoint hex.2 hey.2).bind fun b hb => ?_
    refine (span_solid ha.x hb.x (by omega)).bind fun dx hdx => ?_
    exact (span_solid ha.y hb.y (by omega)).bind fun dy hdy => .ok ⟨hdx, hdy⟩

theorem newConnector_reaches (h : p.Steady k) {i : ConnectorInstruction}
    (hsource : Measure.Reaches i.source i.line) (htarget : Measure.Reaches i.target i.line)
    {padding : Scalar} (hpadding : padding.Within 1) (hk : 3 * k + 25 ≤ far) :
    Settles Fault.Own (fun r => r.1.Steady (k + 14)) (p.newConnector padding i) := by
  refine (anchor_reaches h hsource (by omega)).bind fun source hs => ?_
  refine (anchor_reaches h htarget (by omega)).bind fun target ht => ?_
  refine (Settles.of_gives (hs.tip ht.point hpadding (by omega))).bind fun first hfirst => ?_
  refine (Settles.of_gives (ht.tip hs.point hpadding (by omega))).bind fun last hlast => ?_
  refine (newId_own p i.id i.line).bind fun id _ => ?_
  refine (Settles.of_gives (connectorShape_steady hfirst hlast (by omega))).bind fun s hs => ?_
  exact .ok hs

theorem Steady.bind (h : p.Steady k) (b : Binding) :
    Settles Fault.Own (Steady k) (p.bind b) := by
  have hcheck (id : String) : Settles Fault.Own (fun _ => True) (p.checkId id) := by
    unfold checkId
    exact .ite (fun _ => .ok trivial) fun _ => .error (.document _ _)
  exact (hcheck _).bind fun _ _ => (hcheck _).bind fun _ _ => .ok h

theorem Steady.bindEnd (h : p.Steady k) (connector terminal : String) (target : Option Shape) :
    Settles Fault.Own (Steady k) (p.bindEnd connector terminal target).result := by
  cases target with
  | none => exact .ok h
  | some s =>
    simp only [Page.bindEnd, Report.result_bind, Report.result_liftM, Report.result_tell,
      Report.result_pure]
    exact (h.bind _).bind fun q hq => .ok hq

theorem createConnector_reaches (h : p.Steady k) {i : ConnectorInstruction}
    (hsource : Measure.Reaches i.source i.line) (htarget : Measure.Reaches i.target i.line)
    {padding : Scalar} (hpadding : padding.Within 1) (hk : 3 * k + 25 ≤ far) :
    Settles Fault.Own (fun r => Steady (k + 14) r.1) (p.createConnector padding i).result := by
  simp only [createConnector, Report.result_bind, Report.result_liftM, Report.result_pure]
  refine (newConnector_reaches h hsource htarget hpadding hk).bind fun ends hends => ?_
  refine ((h.mono (by omega)).add hends).bind fun q hq => ?_
  exact (hq.bindEnd _ _ _).bind fun q hq => (hq.bindEnd _ _ _).bind fun q hq => .ok hq

/-! ## Batches -/

theorem create_reaches (h : p.Steady k) {i : Instruction} (hi : i.Reaches k) {padding : Scalar}
    (hpadding : padding.Within 1) (hk : 3 * k + 25 ≤ far) :
    Settles Fault.Own (fun r => Steady (k + 14) r.1) (create padding p i).result := by
  cases i with
  | shape i =>
    exact (createShape_reaches h hi (by omega)).imp fun r hr => hr.mono (by omega)
  | connector i => exact createConnector_reaches h hi.1 hi.2 hpadding hk

theorem createAll_reaches {is : List Instruction} {l : ℕ} (h : p.Steady k)
    (his : ∀ i ∈ is, i.Reaches l) (hl : l ≤ k) {padding : Scalar} (hpadding : padding.Within 1)
    (hk : 3 * (k + 14 * is.length) + 25 ≤ far) :
    Settles Fault.Own (fun r => Steady (k + 14 * is.length) r.1)
      (createAll padding p is).result := by
  induction is generalizing p k with
  | nil => exact .ok h
  | cons i is ih =>
    obtain ⟨hi, his⟩ := List.forall_mem_cons.mp his
    rw [List.length_cons] at hk ⊢
    rw [result_createAll_cons]
    refine (create_reaches h (hi.mono hl) hpadding (by omega)).bind fun q hq => ?_
    refine (ih hq his (by omega) (by omega)).bind fun r hr => .ok ?_
    exact hr.mono (by omega)

/-! ## Frames -/

/-- A page whose shapes can be drawn. -/
def Reaches (k : ℕ) (p : Page) : Prop := ∀ s ∈ p.shapes, s.Reaches k

/-- The extent between two coordinates in reach. -/
theorem between_spans {a b : Scalar} (ha : a.Within k) (hb : b.Within k) (hk : k ≤ far) :
    Gives (fun d => ∃ v w, Scalar.Spans (k + 1) a d v w) (b.sub a) := by
  obtain ⟨v, hv, hvle⟩ := ha
  obtain ⟨w, hw, hwle⟩ := hb
  refine (Scalar.sub_near hw hv (Scalar.le_far hk hwle) (Scalar.le_far hk hvle)).imp ?_
  rintro d ⟨z, hz, herror, -⟩
  have hreach := reach_pos
  have hend : |v + z| ≤ |z - (w - v)| + |w| := by
    have := abs_add_le (z - (w - v)) w
    rwa [show z - (w - v) + w = v + z by ring] at this
  refine ⟨v, z, hv, hz, ?_, ?_⟩
  · push_cast
    linarith
  · push_cast
    linarith

theorem nearSpan_gives {c edge length : Scalar} {v w : ℚ}
    (hspan : Scalar.Spans k edge length v w) (hk : 2 * k + 1 ≤ far) :
    Gives (fun _ => True) (nearSpan c edge length) := by
  have htolerance : frameTolerance.Within 1 := .of_nat (n := 200) (by norm_num)
  have hedge : edge.Within k := ⟨v, hspan.start_at, hspan.low⟩
  refine (hedge.sub htolerance (by omega) (by decide)).bind fun low _ => ?_
  refine .ite (fun _ => ?_) fun _ => .ok trivial
  refine (hspan.end_near (by omega)).bind ?_
  rintro far' ⟨z, hz, -, hle⟩
  exact (Scalar.Within.add ⟨z, hz, hle⟩ htolerance (by omega) (by decide)).bind fun _ _ =>
    .ok trivial

theorem boundsNear_reaches {frame : Shape} {others : List Shape} (hframe : frame.Reaches k)
    (hothers : ∀ s ∈ others, s.Steady k) (hk : 2 * k + 1 ≤ far) :
    Gives (fun bs => ∀ b ∈ bs, b.Inside k) (boundsNear frame others) := by
  obtain ⟨⟨v, w, hx⟩, ⟨v', w', hy⟩⟩ := hframe.box
  induction others with
  | nil => exact .ok fun b hb => by cases hb
  | cons s others ih =>
    obtain ⟨hs, hothers⟩ := List.forall_mem_cons.mp hothers
    have hnear : Gives (fun _ => True) (isNear s frame) := by
      refine (hs.center (by omega)).bind fun c _ => ?_
      refine (nearSpan_gives hx (by omega)).bind fun _ _ => ?_
      exact .ite (fun _ => nearSpan_gives hy (by omega)) fun _ => .ok trivial
    refine hnear.bind fun _ _ => .ite (fun _ => ?_) fun _ => ih hothers
    refine hs.solid.bind fun b hb => (ih hothers).bind fun bs hbs => .ok ?_
    exact List.forall_mem_cons.mpr ⟨hb.inside, hbs⟩

/-- A box around boxes in reach is a few reaches wider than those. -/
theorem enclosing_inside {frame : Shape} {b : Bounds} {bs : List Bounds}
    (hframe : frame.Reaches k) (hb : b.Inside k) (hbs : ∀ b ∈ bs, b.Inside k)
    (hk : 2 * k + 3 ≤ far) : Gives (Bounds.Inside (k + 4)) (enclosing frame b bs) := by
  have hpadding : framePadding.Within 1 := .of_nat (n := 20) (by norm_num)
  have hcorner := hframe.box.corner
  -- The edges of the new box lie no further out than the padding around the boxes inside.
  have hlow (side : Bounds → Scalar) (hside : ∀ b, b.Inside k → (side b).Within k) {a : Scalar}
      (ha : a.Within k) : Gives (fun low => (a.min low).Within (k + 3))
        (((side b).minimum (bs.map side)).sub framePadding) := by
    have hminimum := Scalar.minimum_of (P := Scalar.Within k) (hside b hb) fun c hc => by
      obtain ⟨b', hb', rfl⟩ := List.mem_map.mp hc
      exact hside b' (hbs b' hb')
    refine (hminimum.sub hpadding (by omega) (by decide)).imp fun low hlow => ?_
    exact Scalar.min_of (P := Scalar.Within (k + 3)) (ha.mono (by omega)) (hlow.mono (by omega))
  have hhigh {a c : Scalar} {cs : List Scalar} (ha : a.Within (k + 1)) (hc : c.Within (k + 1))
      (hcs : ∀ c ∈ cs, c.Within (k + 1)) : Gives (fun high => (a.max high).Within (k + 3))
        ((c.maximum cs).add framePadding) := by
    have hmaximum := Scalar.maximum_of (P := Scalar.Within (k + 1)) hc hcs
    refine (hmaximum.add hpadding (by omega) (by decide)).imp fun high hhigh => ?_
    exact Scalar.max_of (P := Scalar.Within (k + 3)) (ha.mono (by omega)) (hhigh.mono (by omega))
  have hrights : Gives (fun cs => ∀ c ∈ cs, c.Within (k + 1)) (bs.mapM Bounds.right) :=
    .mapM fun b hb => (hbs b hb).right (by omega)
  have hbottoms : Gives (fun cs => ∀ c ∈ cs, c.Within (k + 1)) (bs.mapM Bounds.bottom) :=
    .mapM fun b hb => (hbs b hb).bottom (by omega)
  unfold enclosing
  refine (hlow Bounds.x (fun b hb => hb.corner.x) hcorner.x).bind fun left hleft => ?_
  refine (hlow Bounds.y (fun b hb => hb.corner.y) hcorner.y).bind fun top htop => ?_
  refine (hframe.box.right (by omega)).bind fun edge hedge => ?_
  refine (hb.right (by omega)).bind fun first hfirst => hrights.bind fun others hothers => ?_
  refine (hhigh hedge hfirst hothers).bind fun right hright => ?_
  refine (hframe.box.bottom (by omega)).bind fun edge hedge => ?_
  refine (hb.bottom (by omega)).bind fun first hfirst => hbottoms.bind fun others hothers => ?_
  refine (hhigh hedge hfirst hothers).bind fun bottom hbottom => ?_
  refine (between_spans hleft hright (by omega)).bind fun w hw => ?_
  exact (between_spans htop hbottom (by omega)).bind fun h hh => .ok ⟨hw, hh⟩

/-- A frame that grows does so by a few reaches. -/
theorem growFrame_reaches {frame : Shape} {others : List Shape} (hframe : frame.Reaches k)
    (hothers : ∀ s ∈ others, s.Steady k) (hk : 2 * k + 3 ≤ far) :
    Gives (Shape.Reaches (k + 4)) (growFrame others frame).result := by
  have hkeep := hframe.mono (by omega : k ≤ k + 4)
  simp only [growFrame, Report.result_bind, Report.result_liftM]
  refine (boundsNear_reaches hframe hothers (by omega)).bind fun bs hbs => ?_
  cases bs with
  | nil => exact .ok hkeep
  | cons b bs =>
    obtain ⟨hb, hbs⟩ := List.forall_mem_cons.mp hbs
    simp only [Report.result_bind, Report.result_liftM]
    refine (enclosing_inside hframe hb hbs hk).bind fun box hbox => ?_
    split
    · exact .ok hkeep
    · exact .ok { hkeep with box := hbox }

theorem growFrames_reaches {others : List Shape} {numbers : List Nat} (h : p.Reaches k)
    {l : ℕ} (hothers : ∀ s ∈ others, s.Steady l) (hl : l ≤ k)
    (hk : 2 * (k + 4 * numbers.length) + 3 ≤ far) :
    Gives (Reaches (k + 4 * numbers.length)) (growFrames others p numbers).result := by
  induction numbers generalizing p k with
  | nil => exact .ok h
  | cons n numbers ih =>
    rw [List.length_cons] at hk ⊢
    unfold growFrames
    split
    · exact (ih h hl (by omega)).imp fun q hq s hs => (hq s hs).mono (by omega)
    · rename_i layer hlayer
      have hframe := h layer.shape (List.mem_map_of_mem (List.mem_of_find?_eq_some hlayer))
      simp only [Report.result_bind]
      refine (growFrame_reaches hframe (fun s hs => (hothers s hs).mono hl) (by omega)).bind ?_
      intro s hs
      refine (ih (k := k + 4) ?_ (by omega) (by omega)).imp fun q hq t ht =>
        (hq t ht).mono (by omega)
      intro t ht
      obtain ⟨m, hm, rfl⟩ := List.mem_map.mp ht
      rcases layers_replace hm with ⟨-, hshape⟩ | ⟨-, hold⟩
      · exact hshape ▸ hs
      · exact (h m.shape (List.mem_map_of_mem hold)).mono (by omega)

/-- Frames go to the bottom and grow, each by a few reaches. -/
theorem settleFrames_reaches (h : p.Steady k) (hk : 2 * (k + 4 * p.layers.length) + 3 ≤ far) :
    Gives (Reaches (k + 4 * p.layers.length)) p.settleFrames.result := by
  have hperm := List.filter_append_perm (fun l : Layer => isFrame l.shape) p.layers
  simp only [settleFrames, framesToBottom_eq, Report.result_bind, Report.result_liftM]
  generalize p.layers.filter (isFrame ·.shape) ++ p.layers.filter (! isFrame ·.shape) = layers
    at hperm ⊢
  refine (Settles.same _).bind ?_
  intro q hq
  have hsteady : q.Steady k := by
    intro s hs
    rw [hq] at hs
    exact h s ((hperm.map Layer.shape).mem_iff.mp hs)
  have hcount : (q.layers.filter (isFrame ·.shape)).length ≤ p.layers.length := by
    rw [hq, ← hperm.length_eq]
    exact List.length_filter_le _ _
  have hothers (s : Shape) (hs : s ∈ q.shapes.filter (! isFrame ·)) : s.Steady k :=
    hsteady s (List.mem_of_mem_filter hs)
  refine (growFrames_reaches (fun s hs => (hsteady s hs).toReaches) hothers le_rfl ?_).imp ?_
  · rw [List.length_map]
    omega
  · intro r hr s hs
    rw [List.length_map] at hr
    exact (hr s hs).mono (by omega)

/-! ## Whole batches -/

theorem bindEnd_layers {connector terminal : String} {target : Option Shape} {q : Page}
    (h : (p.bindEnd connector terminal target).result = .ok q) : q.layers = p.layers := by
  rcases bindEnd_eq_ok.mp h with ⟨-, rfl⟩ | ⟨t, -, h⟩
  · rfl
  · obtain ⟨-, -, rfl⟩ := bind_eq_ok.mp h
    rfl

theorem length_layers_create {padding : Scalar} {i : Instruction} {q : Page} {id : String}
    (h : (create padding p i).result = .ok (q, id)) :
    q.layers.length = p.layers.length + 1 := by
  have hadd {s : Shape} {r : Page} (h : p.add s = .ok r) :
      r.layers.length = p.layers.length + 1 := by
    obtain ⟨-, rfl⟩ := add_eq_ok.mp h
    rw [List.length_append, List.length_singleton]
  cases i with
  | shape i =>
    obtain ⟨s, -, hq, -⟩ := createShape_eq_ok.mp h
    exact hadd hq
  | connector i =>
    obtain ⟨s, a, b, p₁, p₂, -, hp₁, hp₂, hq, -⟩ := createConnector_eq_ok.mp h
    rw [bindEnd_layers hq, bindEnd_layers hp₂]
    exact hadd hp₁

theorem length_layers_createAll {padding : Scalar} {is : List Instruction} {q : Page}
    {ids : List String} (h : (createAll padding p is).result = .ok (q, ids)) :
    q.layers.length = p.layers.length + is.length := by
  induction is generalizing p ids with
  | nil =>
    cases h
    rfl
  | cons i is ih =>
    obtain ⟨p₁, id, ids, hfirst, hrest, rfl⟩ := createAll_cons_eq_ok.mp h
    rw [ih hrest, length_layers_create hfirst, List.length_cons]
    omega

/-- How many reaches a batch takes at most, on a page with so many shapes. -/
def batchReach (shapes instructions : ℕ) : ℕ :=
  14 * instructions + 4 * (shapes + instructions)

/-- A batch in reach is put on a page in reach, or refused with an error of the library. -/
theorem apply_reaches {is : List Instruction} (h : p.Steady k) (his : ∀ i ∈ is, i.Reaches k)
    {padding : Scalar} (hpadding : padding.Within 1)
    (hk : 3 * (k + batchReach p.layers.length is.length) + 25 ≤ far) :
    Settles Fault.Own (fun r => r.1.Reaches (k + batchReach p.layers.length is.length))
      (p.apply padding is).result := by
  unfold batchReach at hk ⊢
  rw [result_apply]
  have hcreated := createAll_reaches (p := p.copy) h his le_rfl hpadding (by omega)
  refine (hcreated.also fun r hr => length_layers_createAll hr).bind fun q hq => ?_
  obtain ⟨hsteady, hcount⟩ := hq
  have hcount : q.1.layers.length = p.layers.length + is.length := hcount
  refine (Settles.of_gives (settleFrames_reaches hsteady (by omega))).bind fun r hr => ?_
  refine (Settles.same ()).bind fun _ _ => .ok fun s hs => ?_
  exact (hr s hs).mono (by omega)

end Page

end DiagramScript
