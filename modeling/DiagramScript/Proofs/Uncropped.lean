import DiagramScript.Proofs.Geometry.Rect
import DiagramScript.Proofs.Picture

/-
  Nothing is cropped.

  The viewport of shapes with integers as their fields is the smallest rectangle around their
  bounds, moved out by the padding on every side and never smaller than the least size
  (`Viewport.ofShapes_shows`). An image of it maps the left and the upper edge of the viewport to
  zero and the others to its size. So whatever lies in the bounds of a shape lies on the image:
  every box that is drawn, none of which is turned over, and both ends of every line
  (`callsWith_inside`).
-/

namespace DiagramScript

/-! ## Viewports -/

/-- The limit of the scale of an image in the bounded case. -/
def Integers.scaleLimit : ℤ := 2 ^ 11

namespace Viewport
variable {i : Integers} {p k : ℤ} {u : Rect} {v : Viewport} {padding scale : Scalar}
  {shapes : List Shape}

/-- The bounds that a viewport shows. -/
def box (v : Viewport) : Bounds := ⟨v.x, v.y, v.width, v.height⟩

/-- The width of a viewport around a rectangle with a padding. -/
def shownWidth (p : ℤ) (u : Rect) : ℤ := max 200 (u.right - u.left + 2 * p)

/-- The height of a viewport around a rectangle with a padding. -/
def shownHeight (p : ℤ) (u : Rect) : ℤ := max 120 (u.bottom - u.top + 2 * p)

/-- The rectangle that a viewport around another one shows. -/
def shown (p : ℤ) (u : Rect) : Rect :=
  ⟨u.left - p, u.top - p, u.left - p + shownWidth p u, u.top - p + shownHeight p u⟩

theorem grown_le_shown (p : ℤ) (u : Rect) : u.grown p ≤ shown p u := by
  rw [Rect.le_iff]
  simp only [Rect.grown, shown, shownWidth, shownHeight]
  omega

/-- A viewport around a rectangle with a padding. -/
structure Shows (i : Integers) (p : ℤ) (u : Rect) (v : Viewport) : Prop where
  x : v.x.IsInteger i (2 * Integers.boundsLimit) (u.left - p)
  y : v.y.IsInteger i (2 * Integers.boundsLimit) (u.top - p)
  width : v.width = .whole (shownWidth p u)
  height : v.height = .whole (shownHeight p u)
  wide : i.Allows (4 * Integers.boundsLimit) (shownWidth p u)
  high : i.Allows (4 * Integers.boundsLimit) (shownHeight p u)

theorem Shows.isRect (h : v.Shows i p u) : v.box.IsRect (shown p u) := by
  refine ⟨h.x.value, h.y.value, ?_, ?_⟩
  · rw [box, h.width, shown, add_sub_cancel_left]
    exact Scalar.whole_at _
  · rw [box, h.height, shown, add_sub_cancel_left]
    exact Scalar.whole_at _

theorem length_eq (least : ℤ) {low high : Scalar} {m n : ℤ}
    (hlow : low.IsInteger i Integers.boundsLimit m)
    (hhigh : high.IsInteger i Integers.boundsLimit n)
    (hpadding : padding.IsInteger i Integers.limit p) (hleast : |least| ≤ Integers.limit) :
    length (.whole least) low high padding = .ok (.whole (max least (n - m + 2 * p))) ∧
      i.Allows (4 * Integers.boundsLimit) (max least (n - m + 2 * p)) := by
  have htwo : (2 : Scalar).IsInteger i 2 2 := Scalar.isInteger_whole fun _ => by decide
  obtain ⟨extent, hextent, hvalue⟩ := (hhigh.sub hlow (by decide)).exists_ok
  obtain ⟨both, hboth, hvalue'⟩ :=
    (hpadding.mul htwo (by decide) (by decide) (by decide)).exists_ok
  obtain ⟨padded, hpadded, hsum⟩ := (hvalue.add hvalue' (by decide)).exists_ok
  rw [mul_comm 2 p]
  constructor
  · have hlength : length (.whole least) low high padding =
        .ok ((Scalar.whole least).max (.whole (n - m + p * 2))) := by
      simp only [length, hextent, hboth, hpadded, hsum.ceil, Outcome.bind_eq_ok, Except.ok.injEq,
        exists_eq_left']
    rw [hlength, Scalar.max_whole]
    congr 2
    omega
  · have hbound : i.Allows (4 * Integers.boundsLimit) least := fun _ => hleast.trans (by decide)
    exact hbound.max (hsum.allows.mono (by decide))

/-- Edges that are those of a rectangle. -/
structure Extent.Fills (i : Integers) (e : Extent) (u : Rect) : Prop where
  left : e.left.IsInteger i Integers.boundsLimit u.left
  top : e.top.IsInteger i Integers.boundsLimit u.top
  right : e.right.IsInteger i Integers.boundsLimit u.right
  bottom : e.bottom.IsInteger i Integers.boundsLimit u.bottom

theorem union_fills {b : Bounds} {bs : List Bounds} {r : Rect} {rs : List Rect}
    (hb : b.HasEdges i Integers.boundsLimit r)
    (hbs : List.Forall₂ (Bounds.HasEdges i Integers.boundsLimit) bs rs) :
    ∃ e, union b bs = .ok e ∧ e.Fills i (rs.foldl (· ⊔ ·) r) := by
  obtain ⟨hleft, htop, ⟨first, others, hfirst, hothers, hright⟩,
    lowest, lowests, hlowest, hlowests, hbottom⟩ := hb.union hbs (by decide)
  refine ⟨⟨_, _, _, _⟩, ?_, hleft, htop, hright, hbottom⟩
  simp only [union, hfirst, hothers, hlowest, hlowests, Outcome.bind_eq_ok, Except.ok.injEq,
    exists_eq_left']
  rfl

/-- The union of the bounds of some shapes is the smallest rectangle around them. -/
theorem extent_fills (hne : shapes ≠ []) (hshapes : ∀ s ∈ shapes, s.IsIntegral i) :
    ∃ u e, IsLUB {r | ∃ s ∈ shapes, s.Fills r} u ∧ extent? shapes = .ok (some e) ∧
      e.Fills i u := by
  obtain ⟨bounds, hbounds, -⟩ := (Settles.mapM fun s hs => (hshapes s hs).bounds).exists_ok
  -- Each shape has one rectangle, so those of all bounds in their order are all there are.
  obtain ⟨rs, hrs, hfills⟩ :
      ∃ rs, List.Forall₂ (Bounds.HasEdges i Integers.boundsLimit) bounds rs ∧
        List.Forall₂ Shape.Fills shapes rs := by
    refine Outcome.exists_of_mapM_ok hbounds fun s hs b hb => ?_
    obtain ⟨r, hr⟩ := (hshapes s hs).bounds.of_ok hb
    exact ⟨r, hr.toHasEdges, b, hb, hr.isRect⟩
  have hset : {r | ∃ s ∈ shapes, s.Fills r} = {r | r ∈ rs} := by
    ext r
    constructor
    · intro hr
      obtain ⟨s, hs, hr⟩ := hr
      obtain ⟨r', hmem, hr'⟩ := Outcome.exists_of_forall₂ hfills hs
      rw [hr.unique hr']
      exact hmem
    · exact fun hr => Outcome.exists_of_forall₂ hfills.flip hr
  obtain ⟨s, shapes, rfl⟩ := List.exists_cons_of_ne_nil hne
  obtain ⟨r, rs, -, -, rfl⟩ := List.forall₂_cons_left_iff.mp hfills
  obtain ⟨b, bs, hb, hbs, rfl⟩ := List.forall₂_cons_right_iff.mp hrs
  obtain ⟨e, hunion, he⟩ := union_fills hb hbs
  refine ⟨_, e, ?_, ?_, he⟩
  · have hcons : {t | t ∈ r :: rs} = insert r {t | t ∈ rs} := by
      ext t
      exact List.mem_cons
    rw [hset, hcons]
    exact Rect.isLUB_foldl r rs
  · simp only [extent?, hbounds, Outcome.bind_eq_ok, Except.ok.injEq, exists_eq_left',
      Outcome.map_eq_ok]
    exact ⟨e, hunion, rfl⟩

theorem around_shows {e : Extent} (he : e.Fills i u)
    (hpadding : padding.IsInteger i Integers.limit p) :
    ∃ v, around (some e) padding = .ok v ∧ v.Shows i p u := by
  obtain ⟨x, hx, hxvalue⟩ := (he.left.sub hpadding (by decide)).exists_ok
  obtain ⟨y, hy, hyvalue⟩ := (he.top.sub hpadding (by decide)).exists_ok
  obtain ⟨hwidth, hwide⟩ := length_eq 200 he.left he.right hpadding (by decide)
  obtain ⟨hheight, hhigh⟩ := length_eq 120 he.top he.bottom hpadding (by decide)
  refine ⟨⟨x, y, _, _⟩, ?_, hxvalue.mono (by decide), hyvalue.mono (by decide), rfl, rfl, hwide,
    hhigh⟩
  simp only [around, Outcome.bind_eq_ok]
  exact ⟨x, hx, y, hy, _, hwidth, _, hheight, rfl⟩

/-- The viewport of some shapes is around the smallest rectangle around their bounds. -/
theorem ofShapes_shows (hne : shapes ≠ []) (hshapes : ∀ s ∈ shapes, s.IsIntegral i)
    (hpadding : padding.IsInteger i Integers.limit p) :
    ∃ u v, IsLUB {r | ∃ s ∈ shapes, s.Fills r} u ∧ ofShapes shapes padding = .ok v ∧
      v.Shows i p u := by
  obtain ⟨u, e, hlub, hextent, he⟩ := extent_fills hne hshapes
  obtain ⟨v, hv, hshows⟩ := around_shows he hpadding
  exact ⟨u, v, hlub, Outcome.bind_eq_ok.mpr ⟨some e, hextent, hv⟩, hshows⟩

end Viewport

/-! ## Images -/

/-- A point with integers as its coordinates that lies on an image. -/
def Point.Inside (width height : ℤ) (q : Point) : Prop :=
  ∃ x y : ℤ, q.x.At x ∧ q.y.At y ∧ 0 ≤ x ∧ x ≤ width ∧ 0 ≤ y ∧ y ≤ height

namespace Raster

/-- A box with integers as its edges that is not turned over and lies on an image. -/
def Edges.Inside (width height : ℤ) (e : Edges) : Prop :=
  ∃ left top right bottom : ℤ, e.left.At left ∧ e.top.At top ∧ e.right.At right ∧
    e.bottom.At bottom ∧ (0 ≤ left ∧ left ≤ right ∧ right ≤ width) ∧
      0 ≤ top ∧ top ≤ bottom ∧ bottom ≤ height

/-- A call whose box or line lies on an image. -/
def Call.Inside (width height : ℤ) : Call → Prop
  | .ellipse box .. | .rounded box .. => box.Inside width height
  | .line first last .. => first.Inside width height ∧ last.Inside width height
  | _ => True

theorem Edges.inside_of_corners {width height : ℤ} {near far : Point}
    (hnear : near.Inside width height) (hfar : far.Inside width height) :
    Edges.Inside width height ⟨near.x, near.y, near.x.max far.x, near.y.max far.y⟩ := by
  obtain ⟨left, top, hleft, htop, hleft0, hleftw, htop0, htoph⟩ := hnear
  obtain ⟨right, bottom, hright, hbottom, -, hrightw, -, hbottomh⟩ := hfar
  refine ⟨left, top, max left right, max top bottom, hleft, htop, ?_, ?_,
    ⟨hleft0, le_max_left _ _, max_le hleftw hrightw⟩,
    htop0, le_max_left _ _, max_le htoph hbottomh⟩
  · exact_mod_cast Scalar.max_at hleft hright
  · exact_mod_cast Scalar.max_at htop hbottom

section Calls
variable {m : Mapping} (width height : ℤ)

theorem captionLine_inside (c : Caption) (size : Int) (index : Nat) (line : String) :
    Yields (Call.Inside width height) (captionLine m c size index line) := by
  refine Settles.of_forall_ok fun call hcall => ?_
  have hmark := (captionLine_mark hcall).1
  cases call with
  | text => trivial
  | _ => cases hmark

theorem caption_inside (c : Caption) :
    Yields (fun calls => ∀ call ∈ calls, call.Inside width height) (caption m c) :=
  Settles.after fun size => .mapM fun q _ => captionLine_inside width height c size q.2 q.1

theorem titled_inside (c : Option Caption) :
    Yields (fun calls => ∀ call ∈ calls, call.Inside width height) (caption? m c) := by
  cases c with
  | none => exact .ok (List.forall_mem_nil _)
  | some c => exact caption_inside width height c

theorem cons_inside {call : Call} {calls : Except Fault (List Call)} {width height : ℤ}
    (hcall : call.Inside width height)
    (hcalls : Yields (fun calls => ∀ call ∈ calls, call.Inside width height) calls) :
    Yields (fun calls => ∀ call ∈ calls, call.Inside width height)
      (calls >>= fun calls => .ok (call :: calls)) :=
  hcalls.bind fun _ hcalls => .ok (List.forall_mem_cons.mpr ⟨hcall, hcalls⟩)

theorem arrowhead_inside (a b : Point) (stroke : Scalar) (color : Rgba) :
    Yields (fun calls => ∀ call ∈ calls, call.Inside width height)
      (arrowhead m a b stroke color) := by
  refine Settles.of_forall_ok fun head hhead => ?_
  obtain ⟨dx, dy, -, -, hhead⟩ := arrowhead_eq_ok hhead
  split at hhead
  · subst hhead
    exact List.forall_mem_nil _
  · obtain ⟨points, rfl⟩ := hhead
    exact List.forall_mem_singleton.mpr trivial

end Calls

/-! ### Shapes -/

/-- An image of a viewport around a rectangle with a padding. -/
structure Mapping.Shows (i : Integers) (p k : ℤ) (u : Rect) (m : Mapping) : Prop where
  viewport : m.viewport.Shows i p u
  padding : 0 ≤ p
  scale : m.scale.IsInteger i Integers.scaleLimit k
  enlarges : 1 ≤ k

namespace Mapping.Shows
open Viewport (shownWidth shownHeight)
variable {i : Integers} {p k : ℤ} {u : Rect} {m : Mapping} {s : Shape}

theorem distance_inside {n low high least : ℤ} (hp : 0 ≤ p) (hk : 1 ≤ k) (hlow : low ≤ n)
    (hhigh : n ≤ high) :
    0 ≤ (n - (low - p)) * k ∧ (n - (low - p)) * k ≤ max least (high - low + 2 * p) * k :=
  ⟨mul_nonneg (by omega) (by omega), mul_le_mul_of_nonneg_right (by omega) (by omega)⟩

theorem point_inside (h : m.Shows i p k u) {x y : Scalar} {n l : ℤ}
    (hx : x.IsInteger i Integers.boundsLimit n) (hy : y.IsInteger i Integers.boundsLimit l)
    (hleft : u.left ≤ n) (hright : n ≤ u.right) (htop : u.top ≤ l) (hbottom : l ≤ u.bottom) :
    Gives (Point.Inside (shownWidth p u * k) (shownHeight p u * k)) (m.point x y) := by
  have hmul {d : Scalar} {n : ℤ}
      (hd : d.IsInteger i (Integers.boundsLimit + 2 * Integers.boundsLimit) n) :=
    hd.mul h.scale (by decide) (by decide) (by decide)
  refine (hx.sub h.viewport.x (by decide)).bind fun dx hdx => (hmul hdx).bind fun px hpx => ?_
  refine (hy.sub h.viewport.y (by decide)).bind fun dy hdy => (hmul hdy).bind fun py hpy => .ok ?_
  obtain ⟨hx0, hxw⟩ := distance_inside h.padding h.enlarges hleft hright
  obtain ⟨hy0, hyh⟩ := distance_inside h.padding h.enlarges htop hbottom
  exact ⟨_, _, hpx.value, hpy.value, hx0, hxw, hy0, hyh⟩

theorem edges_inside (h : m.Shows i p k u) {r : Rect}
    (hs : Bounds.Fills i Integers.boundsLimit ⟨s.x, s.y, s.w, s.h⟩ r) (hr : r ≤ u) :
    Gives (Edges.Inside (shownWidth p u * k) (shownHeight p u * k)) (m.edges s) := by
  obtain ⟨hleft, htop, hright, hbottom⟩ := hr
  have hwide := hs.wide
  have hhigh := hs.high
  refine (h.point_inside hs.x hs.y hleft (by omega) htop (by omega)).bind fun near hnear => ?_
  refine (hs.right_gives (by decide)).bind fun right hr => ?_
  refine (hs.bottom_gives (by decide)).bind fun bottom hb => ?_
  refine (h.point_inside hr hb (by omega) hright (by omega) hbottom).bind fun far hfar => .ok ?_
  exact Edges.inside_of_corners hnear hfar

/-- Both ends of a connector lie in its bounds. -/
theorem connector_inside (h : m.Shows i p k u) (hs : s.IsIntegral i)
    (hkind : s.kind = .known .connector) (hu : ∀ r, s.Fills r → r ≤ u) :
    Yields (fun calls => ∀ call ∈ calls, call.Inside (shownWidth p u * k) (shownHeight p u * k))
      (connector m s) := by
  refine Settles.bind (Settles.of_forall_ok fun _ ha => ha) fun start hstart => ?_
  refine Settles.bind (Settles.of_forall_ok fun _ hb => hb) fun finish hfinish => ?_
  split
  · rename_i a b
    -- The line is drawn between the two points that the bounds span.
    have ha := Viewport.absoluteOrPlace_of_absolute? hstart
    have hb := Viewport.absoluteOrPlace_of_absolute? hfinish
    obtain ⟨x, y, hx, hy⟩ := (hs.hasIntegers.absoluteOrPlace hs.start).of_ok ha
    obtain ⟨x', y', hx', hy'⟩ := (hs.hasIntegers.absoluteOrPlace hs.finish).of_ok hb
    obtain ⟨box, hbox, hfills⟩ := (Shape.span_fills hx hy hx' hy').exists_ok
    have hbounds : s.bounds = .ok box := by
      simp only [Shape.bounds, hkind, ha, hb, hbox, Outcome.bind_eq_ok, Except.ok.injEq,
        exists_eq_left']
    obtain ⟨hleft, htop, hright, hbottom⟩ := hu _ ⟨box, hbounds, hfills.isRect⟩
    have hwide := abs_le.mp (le_max_right 1 |x' - x|)
    have hhigh := abs_le.mp (le_max_right 1 |y' - y|)
    simp only at hleft htop hright hbottom
    refine (h.point_inside (hx.mono (by decide)) (hy.mono (by decide)) (by omega) (by omega)
      (by omega) (by omega)).yields.bind fun first hfirst => ?_
    refine (h.point_inside (hx'.mono (by decide)) (hy'.mono (by decide)) (by omega) (by omega)
      (by omega) (by omega)).yields.bind fun last hlast => ?_
    refine Settles.after fun width => ?_
    refine (arrowhead_inside (shownWidth p u * k) (shownHeight p u * k) a b s.strokeWidth _).bind
      fun head hhead => ?_
    refine Settles.after fun c =>
      (titled_inside (shownWidth p u * k) (shownHeight p u * k) c).bind fun texts htexts => .ok ?_
    refine List.forall_mem_cons.mpr ⟨⟨hfirst, hlast⟩, ?_⟩
    exact List.forall_mem_append.mpr ⟨hhead, htexts⟩
  · exact .ok (List.forall_mem_nil _)

theorem shape_inside (h : m.Shows i p k u) (hs : s.IsIntegral i) (hu : ∀ r, s.Fills r → r ≤ u) :
    Yields (fun calls => ∀ call ∈ calls, call.Inside (shownWidth p u * k) (shownHeight p u * k))
      (shape m s) := by
  have hedges (hbox : s.bounds = .ok ⟨s.x, s.y, s.w, s.h⟩) :
      Yields (Edges.Inside (shownWidth p u * k) (shownHeight p u * k)) (m.edges s) := by
    obtain ⟨r, hr⟩ := hs.bounds.of_ok hbox
    exact (h.edges_inside hr (hu r ⟨_, hbox, hr.isRect⟩)).yields
  -- A caption is drawn as text, so only the box of a shape and the line of a connector count.
  cases hkind : s.kind with
  | foreign name =>
    rw [shape, hkind]
    exact .ok (List.forall_mem_nil _)
  | known kind =>
    rw [Shape.bounds, hkind] at hedges
    rw [shape, hkind]
    cases kind with
    | rectangle =>
      refine Settles.after fun width => (hedges rfl).bind fun box hbox => ?_
      refine Settles.after fun r => Settles.after fun c => ?_
      exact cons_inside hbox (titled_inside _ _ c)
    | ellipse =>
      refine Settles.after fun width => (hedges rfl).bind fun box hbox => ?_
      refine Settles.after fun c => ?_
      exact cons_inside hbox (titled_inside _ _ c)
    | text => exact Settles.after fun c => caption_inside _ _ c
    | note =>
      refine (hedges rfl).bind fun box hbox => Settles.after fun r => ?_
      refine Settles.after fun width => Settles.after fun c => ?_
      exact cons_inside hbox (caption_inside _ _ c)
    | frame =>
      refine (hedges rfl).bind fun box hbox => Settles.after fun r => ?_
      refine Settles.after fun width => Settles.after fun c => ?_
      exact cons_inside hbox (titled_inside _ _ c)
    | connector => exact h.connector_inside hs hkind hu

end Mapping.Shows

/-! ### Whole images -/

open Viewport (shownWidth shownHeight)
variable {i : Integers} {p k n : ℤ} {u : Rect} {v : Viewport} {padding scale : Scalar}
  {shapes : List Shape} {calls : List Call}

theorem side_eq (hn : i.Allows (4 * Integers.boundsLimit) n) (hn1 : 1 ≤ n)
    (hscale : scale.IsInteger i Integers.scaleLimit k) (hk : 1 ≤ k) :
    side (.whole n) scale = .ok (n * k) := by
  obtain ⟨scaled, hscaled, hvalue⟩ := ((Scalar.isInteger_whole hn).mul hscale (by decide)
    (by decide) (by decide)).exists_ok
  have hone : 1 ≤ n * k := by nlinarith
  simp only [side, hscaled, hvalue.ceil, Outcome.bind_eq_ok, Except.ok.injEq, exists_eq_left',
    max_eq_right hone]

/-- The image is as large as what the viewport shows, at its scale, and what is drawn lies on it. -/
theorem callsWith_inside {look : Call → Except Fault Unit} {background : Value}
    (hv : Viewport.ofShapes shapes padding = .ok v) (h : Mapping.Shows i p k u ⟨v, scale⟩)
    (hshapes : ∀ s ∈ shapes, s.IsIntegral i) (hu : ∀ s ∈ shapes, ∀ r, s.Fills r → r ≤ u)
    (hcalls : callsWith look shapes background padding scale = .ok calls) :
    imageSize calls = (shownWidth p u * k, shownHeight p u * k) ∧
      ∀ call ∈ calls, call.Inside (shownWidth p u * k) (shownHeight p u * k) := by
  have hwidth := side_eq h.viewport.wide (by rw [shownWidth]; omega) h.scale h.enlarges
  have hheight := side_eq h.viewport.high (by rw [shownHeight]; omega) h.scale h.enlarges
  rw [← h.viewport.width] at hwidth
  rw [← h.viewport.height] at hheight
  simp only [callsWith, hv, hwidth, hheight, Outcome.bind_eq_ok, Except.ok.injEq,
    exists_eq_left'] at hcalls
  obtain ⟨color, -, _, -, groups, hgroups, rfl⟩ := hcalls
  -- The first two calls only make the image; all others come from the shapes.
  refine ⟨rfl, List.forall_mem_cons.mpr ⟨trivial, List.forall_mem_cons.mpr ⟨trivial, ?_⟩⟩⟩
  intro call hcall
  obtain ⟨group, hgroup, hcall⟩ := List.mem_flatten.mp hcall
  obtain ⟨s, hs, hdrawn⟩ := Outcome.mem_of_mapM_ok hgroups hgroup
  simp only [Outcome.bind_eq_ok, Except.ok.injEq] at hdrawn
  obtain ⟨_, hdrawn, _, -, rfl⟩ := hdrawn
  exact (h.shape_inside (hshapes s hs) (hu s hs)).of_ok hdrawn call hcall

end Raster

/-- Nothing is cropped. The viewport shows the smallest rectangle around the bounds of the shapes
with at least the padding on every side, and is no larger than that or than the least size; an
image of it holds every box, the right way round, and both ends of every line. Whole numbers may
have any size; with floating-point numbers among them, coordinates, lengths and the padding are at
most `2 ^ 32` in size and the scale is at most `2 ^ 11`. -/
theorem nothing_cropped {i : Integers} {p k : ℤ} {padding scale : Scalar} {shapes : List Shape}
    (hne : shapes ≠ []) (hshapes : ∀ s ∈ shapes, s.IsIntegral i)
    (hpadding : padding.IsInteger i Integers.limit p) (hp : 0 ≤ p)
    (hscale : scale.IsInteger i Integers.scaleLimit k) (hk : 1 ≤ k) :
    ∃ u w v, IsLUB {r | ∃ s ∈ shapes, s.Fills r} u ∧
      Viewport.ofShapes shapes padding = .ok v ∧ v.box.IsRect w ∧
        w.right - w.left = max 200 (u.right - u.left + 2 * p) ∧
          w.bottom - w.top = max 120 (u.bottom - u.top + 2 * p) ∧
            (∀ s ∈ shapes, ∃ r, s.Fills r ∧ r.grown p ≤ w) ∧
              ∀ look background calls,
                Raster.callsWith look shapes background padding scale = .ok calls →
                  let width := (w.right - w.left) * k
                  let height := (w.bottom - w.top) * k
                  Raster.imageSize calls = (width, height) ∧
                    ∀ call ∈ calls, call.Inside width height := by
  obtain ⟨u, v, hlub, hv, hshows⟩ := Viewport.ofShapes_shows hne hshapes hpadding
  have hu : ∀ s ∈ shapes, ∀ r, s.Fills r → r ≤ u := fun s hs r hr => hlub.1 ⟨s, hs, hr⟩
  have hwidth : (Viewport.shown p u).right - (Viewport.shown p u).left = Viewport.shownWidth p u :=
    add_sub_cancel_left _ _
  have hheight :
      (Viewport.shown p u).bottom - (Viewport.shown p u).top = Viewport.shownHeight p u :=
    add_sub_cancel_left _ _
  refine ⟨u, Viewport.shown p u, v, hlub, hv, hshows.isRect, hwidth, hheight, fun s hs => ?_,
    fun look background calls hcalls => ?_⟩
  · obtain ⟨r, hr⟩ := (hshapes s hs).fills
    exact ⟨r, hr, (Rect.grown_mono (hu s hs r hr)).trans (Viewport.grown_le_shown p u)⟩
  · rw [hwidth, hheight]
    exact Raster.callsWith_inside hv ⟨hshows, hp, hscale, hk⟩ hshapes hu hcalls

/-- A box with a floating-point edge, a text, an upright connector and a shape of a foreign kind,
which has no size but belongs to the drawing. -/
theorem nothing_cropped_mixed :
    let shapes : List Shape := [
      { id := "shape:box", kind := .known .rectangle, x := .whole (-50), y := .ofPlaces 10 0
        w := 300, h := 40, label := "A" },
      { id := "shape:words", kind := .known .text, x := 5, y := 100, label := "one\n\ntwo" },
      { id := "shape:arrow", kind := .known .connector, x := 260, y := .whole (-20)
        start := some ⟨0, 0⟩, finish := some ⟨0, 40⟩ },
      { id := "shape:star", kind := .foreign "star", x := 300, y := 30 }]
    let w : Rect := ⟨-74, -44, 324, 208⟩
    shapes ≠ [] ∧ (∀ s ∈ shapes, s.IsIntegral .bounded) ∧
      (24 : Scalar).IsInteger .bounded Integers.limit 24 ∧
        (2 : Scalar).IsInteger .bounded Integers.scaleLimit 2 ∧
          ∃ v calls, Viewport.ofShapes shapes 24 = .ok v ∧ v.box.IsRect w ∧
            (∀ s ∈ shapes, ∃ r, s.Fills r ∧ r.grown 24 ≤ w) ∧
              Raster.calls shapes (.text "white") 24 2 = .ok calls ∧
                Raster.imageSize calls = (796, 504) ∧ ∀ call ∈ calls, call.Inside 796 504 := by
  intro shapes w
  have hne : shapes ≠ [] := List.cons_ne_nil _ _
  have hshapes : ∀ s ∈ shapes, s.IsIntegral .bounded := by
    have hcheck : ∀ s ∈ shapes, s.isIntegral .bounded = true := by decide +kernel
    exact fun s hs => Shape.isIntegral_of_check (hcheck s hs)
  have hpadding : (24 : Scalar).IsInteger .bounded Integers.limit 24 :=
    Scalar.isInteger_whole fun _ => by decide
  have hscale : (2 : Scalar).IsInteger .bounded Integers.scaleLimit 2 :=
    Scalar.isInteger_whole fun _ => by decide
  obtain ⟨u, w', v, -, hv, hrect, -, -, hshown, hcalls⟩ :=
    nothing_cropped hne hshapes hpadding (by decide) hscale (by decide)
  have hv' : Viewport.ofShapes shapes 24 = .ok ⟨.whole (-74), .whole (-44), 398, 252⟩ := by
    decide +kernel
  obtain rfl := Except.ok.inj (hv.symm.trans hv')
  obtain rfl : w' = w := hrect.unique
    ⟨Scalar.whole_at (-74), Scalar.whole_at (-44), Scalar.whole_at 398, Scalar.whole_at 252⟩
  obtain ⟨calls, hdrawn, -⟩ := Outcome.exists_of_any (p := fun _ => true)
    (x := Raster.calls shapes (.text "white") 24 2) (by decide +kernel)
  obtain ⟨hsize, hinside⟩ := hcalls _ _ calls hdrawn
  exact ⟨hne, hshapes, hpadding, hscale, _, calls, hv, hrect, hshown, hdrawn, hsize, hinside⟩

end DiagramScript
