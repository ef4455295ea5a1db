import DiagramScript.Geometry.Border
import DiagramScript.Proofs.Outcome
import Mathlib.Data.Option.Defs

/-
  Geometry of shapes over any numbers.

  Bounds and border points are computed with a few operations (`Arithmetic`). With those of
  scalars this is what is computed for shapes (`borderPoint_figure`). What is computed with
  other numbers is related to it operation by operation: where each result of an operation in
  one arithmetic has a related result in another one (`Simulates`), each point that is found in
  the first one is related to one that is found in the second one (`borderPoint_follows`).
-/

namespace DiagramScript

open Outcome (Follows)

/-- The operations that geometry is computed with. -/
structure Arithmetic (N : Type) where
  natural : Nat → N
  infinity : N
  add : N → N → Except Fault N
  sub : N → N → Except Fault N
  mul : N → N → Except Fault N
  div : N → N → Except Fault N
  hypot : N → N → Except Fault N
  abs : N → N
  lt : N → N → Bool
  isZero : N → Bool

namespace Arithmetic
variable {N : Type} (A : Arithmetic N)

def half (a : N) : Except Fault N := A.div a (A.natural 2)

/-- The greater of two numbers, the first one unless the second lies above it. -/
def max (a b : N) : N := if A.lt a b then b else a

/-- The smaller of two numbers, the first one unless the second lies below it. -/
def min (a b : N) : N := if A.lt b a then b else a

end Arithmetic

/-- The arithmetic of scalars. -/
def Scalar.arithmetic : Arithmetic Scalar where
  natural n := .whole n
  infinity := .real (.infinite false)
  add := Scalar.add
  sub := Scalar.sub
  mul := Scalar.mul
  div := Scalar.div
  hypot := Scalar.hypot
  abs := Scalar.abs
  lt := Scalar.lt
  isZero := Scalar.isZero

namespace Plane

/-! ## Figures -/

@[ext]
structure Point (N : Type) where
  x : N
  y : N
  deriving DecidableEq

structure Box (N : Type) where
  x : N
  y : N
  w : N
  h : N
  deriving DecidableEq

/-- What the geometry of a shape depends on. -/
structure Figure (N : Type) where
  kind : ShapeKind
  x : N
  y : N
  w : N
  h : N
  label : String := ""
  style : Style := {}
  start : Option (Point N) := none
  finish : Option (Point N) := none

/-- How high the text of a figure is. -/
def Figure.textHeight {N : Type} (f : Figure N) : Nat :=
  Text.lineCount f.label * (Tier.ofOption f.style.size).lineHeight

section
variable {N : Type} (A : Arithmetic N)

/-- The middle of a box. -/
def center (b : Box N) : Except Fault (Point N) := do
  let dx ← A.half b.w
  let x ← A.add b.x dx
  let dy ← A.half b.h
  let y ← A.add b.y dy
  .ok ⟨x, y⟩

/-- An end of a connector; its place where the end is missing. -/
def endPoint (f : Figure N) (offset : Option (Point N)) : Except Fault (Point N) :=
  match offset with
  | none => .ok ⟨f.x, f.y⟩
  | some p => do
    let x ← A.add f.x p.x
    let y ← A.add f.y p.y
    .ok ⟨x, y⟩

/-- The box between two points, at least 1 wide and high. -/
def span (a b : Point N) : Except Fault (Box N) := do
  let dx ← A.sub b.x a.x
  let dy ← A.sub b.y a.y
  .ok ⟨A.min a.x b.x, A.min a.y b.y, A.max (A.natural 1) (A.abs dx),
    A.max (A.natural 1) (A.abs dy)⟩

/-- The bounding box. -/
def bounds (f : Figure N) : Except Fault (Box N) :=
  match f.kind with
  | .known .connector => do
    let a ← endPoint A f f.start
    let b ← endPoint A f f.finish
    span A a b
  | .known .text => .ok ⟨f.x, f.y, A.max (A.natural 40) f.w, A.natural f.textHeight⟩
  | .known _ => .ok ⟨f.x, f.y, f.w, f.h⟩
  | .foreign _ => .ok ⟨f.x, f.y, A.natural 0, A.natural 0⟩

/-! ## Rays -/

/-- How far along a ray the outline of an ellipse lies. -/
def ellipseScale (dx dy halfW halfH : N) : Except Fault N := do
  let u ← A.div dx halfW
  let v ← A.div dy halfH
  let length ← A.hypot u v
  A.div (A.natural 1) length

/-- How far along a ray an edge lies; a ray along the edge never reaches it. -/
def edgeScale (d half : N) : Except Fault N :=
  if A.isZero d then .ok A.infinity else A.div half (A.abs d)

/-- How far along a ray the nearer edge of a rectangle lies. -/
def rectangleScale (dx dy halfW halfH : N) : Except Fault N := do
  let tx ← edgeScale A dx halfW
  let ty ← edgeScale A dy halfH
  .ok (if A.lt ty tx then ty else tx)

/-- The point at a share of the way along a ray. -/
def along (p : Point N) (dx dy scale : N) : Except Fault (Point N) := do
  let ex ← A.mul dx scale
  let x ← A.add p.x ex
  let ey ← A.mul dy scale
  let y ← A.add p.y ey
  .ok ⟨x, y⟩

/-- A point moved along a direction by a length. -/
def push (p : Point N) (dx dy padding : N) : Except Fault (Point N) :=
  if A.isZero padding then .ok p
  else do
    let length ← A.hypot dx dy
    let ux ← A.div dx length
    let ox ← A.mul ux padding
    let x ← A.add p.x ox
    let uy ← A.div dy length
    let oy ← A.mul uy padding
    let y ← A.add p.y oy
    .ok ⟨x, y⟩

/-- Where the ray from the middle of a figure towards a point leaves the figure. -/
def borderPoint (f : Figure N) (toward : Point N) (padding : N) : Except Fault (Point N) := do
  let b ← bounds A f
  let c ← center A b
  let dx ← A.sub toward.x c.x
  let dy ← A.sub toward.y c.y
  if A.isZero dx && A.isZero dy then .ok c
  else do
    let halfW ← A.half b.w
    let halfH ← A.half b.h
    let scale ←
      if f.kind = .known .ellipse ∧ A.lt (A.natural 0) halfW ∧ A.lt (A.natural 0) halfH then
        ellipseScale A dx dy halfW halfH
      else rectangleScale A dx dy halfW halfH
    let edge ← along A c dx dy scale
    push A edge dx dy padding

end

/-! ## Shapes -/

def Point.ofScalars (p : DiagramScript.Point) : Point Scalar := ⟨p.x, p.y⟩

def Point.toScalars (p : Point Scalar) : DiagramScript.Point := ⟨p.x, p.y⟩

def Box.toScalars (b : Box Scalar) : Bounds := ⟨b.x, b.y, b.w, b.h⟩

/-- The figure of a shape. -/
def Figure.ofShape (s : Shape) : Figure Scalar where
  kind := s.kind
  x := s.x
  y := s.y
  w := s.w
  h := s.h
  label := s.label
  style := s.style
  start := s.start.map .ofScalars
  finish := s.finish.map .ofScalars

theorem absoluteOrPlace_figure (s : Shape) (offset : Option DiagramScript.Point) :
    s.absoluteOrPlace offset = Point.toScalars <$>
      endPoint Scalar.arithmetic (.ofShape s) (offset.map .ofScalars) := by
  cases offset with
  | none => rfl
  | some p =>
    simp only [Shape.absoluteOrPlace, Shape.absolute, Option.map_some, endPoint, map_bind]
    rfl

theorem span_figure (a b : Point Scalar) :
    Shape.span a.toScalars b.toScalars = Box.toScalars <$> span Scalar.arithmetic a b := by
  simp only [Shape.span, span, map_bind]
  rfl

theorem bounds_figure (s : Shape) :
    s.bounds = Box.toScalars <$> bounds Scalar.arithmetic (.ofShape s) := by
  unfold Shape.bounds bounds
  rw [show (Figure.ofShape s).kind = s.kind from rfl]
  cases s.kind with
  | foreign name => rfl
  | known kind =>
    cases kind with
    | connector =>
      simp only [absoluteOrPlace_figure, map_bind, bind_map_left, span_figure]
      rfl
    | _ => rfl

theorem half_scalar (a : Scalar) : Scalar.arithmetic.half a = a.half :=
  congrArg a.div (rfl : Scalar.arithmetic.natural 2 = .whole 2)

theorem center_figure (b : Box Scalar) :
    b.toScalars.center = Point.toScalars <$> center Scalar.arithmetic b := by
  simp only [Bounds.center, center, map_bind, half_scalar]
  rfl

theorem along_figure (p : Point Scalar) (dx dy scale : Scalar) :
    Border.along p.toScalars dx dy scale =
      Point.toScalars <$> along Scalar.arithmetic p dx dy scale := by
  simp only [Border.along, along, map_bind]
  rfl

theorem push_figure (p : Point Scalar) (dx dy padding : Scalar) :
    Border.push p.toScalars dx dy padding =
      Point.toScalars <$> push Scalar.arithmetic p dx dy padding := by
  unfold Border.push push
  rw [show Scalar.arithmetic.isZero padding = padding.isZero from rfl]
  split
  · rfl
  · simp only [map_bind]
    rfl

/-- Border points of shapes are computed with the arithmetic of scalars. -/
theorem borderPoint_figure (s : Shape) (toward : DiagramScript.Point) (padding : Scalar) :
    Border.point s toward padding = Point.toScalars <$>
      borderPoint Scalar.arithmetic (.ofShape s) (.ofScalars toward) padding := by
  unfold Border.point borderPoint
  simp only [bounds_figure, center_figure, map_bind, bind_map_left]
  refine bind_congr fun b => bind_congr fun c => bind_congr fun dx => bind_congr fun dy => ?_
  rw [apply_ite (Point.toScalars <$> ·)]
  refine if_congr Iff.rfl rfl ?_
  simp only [map_bind, half_scalar]
  refine bind_congr fun halfW => bind_congr fun halfH => ?_
  have hpush (scale : Scalar) :
      (Border.along c.toScalars dx dy scale >>= fun edge => Border.push edge dx dy padding) =
        Point.toScalars <$> (along Scalar.arithmetic c dx dy scale >>= fun edge =>
          push Scalar.arithmetic edge dx dy padding) := by
    simp only [along_figure, bind_map_left, push_figure, map_bind]
  rw [apply_ite (Point.toScalars <$> ·)]
  refine if_congr Iff.rfl ?_ ?_
  · rw [map_bind]
    exact bind_congr hpush
  · rw [map_bind]
    exact bind_congr hpush

end Plane

/-! ## Related numbers -/

/-- The results of operations in one arithmetic are related to results in another one. -/
structure Arithmetic.Simulates {M N : Type} (A : Arithmetic M) (B : Arithmetic N)
    (R : M → N → Prop) : Prop where
  natural : ∀ n, R (A.natural n) (B.natural n)
  infinity : R A.infinity B.infinity
  add : ∀ {a a' b b'}, R a a' → R b b' → Follows R (A.add a b) (B.add a' b')
  sub : ∀ {a a' b b'}, R a a' → R b b' → Follows R (A.sub a b) (B.sub a' b')
  mul : ∀ {a a' b b'}, R a a' → R b b' → Follows R (A.mul a b) (B.mul a' b')
  div : ∀ {a a' b b'}, R a a' → R b b' → Follows R (A.div a b) (B.div a' b')
  hypot : ∀ {a a' b b'}, R a a' → R b b' → Follows R (A.hypot a b) (B.hypot a' b')
  abs : ∀ {a a'}, R a a' → R (A.abs a) (B.abs a')
  lt : ∀ {a a' b b'}, R a a' → R b b' → A.lt a b = B.lt a' b'
  isZero : ∀ {a a'}, R a a' → A.isZero a = B.isZero a'

namespace Plane
variable {M N : Type} {A : Arithmetic M} {B : Arithmetic N} {R : M → N → Prop}

structure Point.Related (R : M → N → Prop) (p : Point M) (q : Point N) : Prop where
  x : R p.x q.x
  y : R p.y q.y

structure Box.Related (R : M → N → Prop) (b : Box M) (c : Box N) : Prop where
  x : R b.x c.x
  y : R b.y c.y
  w : R b.w c.w
  h : R b.h c.h

/-- Figures of one kind and text whose numbers are related. -/
structure Figure.Related (R : M → N → Prop) (f : Figure M) (g : Figure N) : Prop where
  kind : f.kind = g.kind
  x : R f.x g.x
  y : R f.y g.y
  w : R f.w g.w
  h : R f.h g.h
  textHeight : f.textHeight = g.textHeight
  start : Option.Rel (Point.Related R) f.start g.start
  finish : Option.Rel (Point.Related R) f.finish g.finish

namespace Simulation
variable (hAB : A.Simulates B R)
include hAB

theorem half_follows {a : M} {b : N} (h : R a b) : Follows R (A.half a) (B.half b) :=
  hAB.div h (hAB.natural 2)

theorem max_related {a b : M} {a' b' : N} (ha : R a a') (hb : R b b') :
    R (A.max a b) (B.max a' b') := by
  unfold Arithmetic.max
  rw [hAB.lt ha hb]
  split
  · exact hb
  · exact ha

theorem min_related {a b : M} {a' b' : N} (ha : R a a') (hb : R b b') :
    R (A.min a b) (B.min a' b') := by
  unfold Arithmetic.min
  rw [hAB.lt hb ha]
  split
  · exact hb
  · exact ha

theorem center_follows {b : Box M} {c : Box N} (h : b.Related R c) :
    Follows (Point.Related R) (center A b) (center B c) :=
  (half_follows hAB h.w).bind fun _ _ hdx => (hAB.add h.x hdx).bind fun _ _ hx =>
    (half_follows hAB h.h).bind fun _ _ hdy => (hAB.add h.y hdy).bind fun _ _ hy => .ok ⟨hx, hy⟩

theorem endPoint_follows {f : Figure M} {g : Figure N} (h : f.Related R g)
    {p : Option (Point M)} {q : Option (Point N)} (hpq : Option.Rel (Point.Related R) p q) :
    Follows (Point.Related R) (endPoint A f p) (endPoint B g q) := by
  cases hpq with
  | none => exact .ok ⟨h.x, h.y⟩
  | some hpq =>
    exact (hAB.add h.x hpq.x).bind fun _ _ hx => (hAB.add h.y hpq.y).bind fun _ _ hy => .ok ⟨hx, hy⟩

theorem span_follows {p p' : Point M} {q q' : Point N} (h : p.Related R q) (h' : p'.Related R q') :
    Follows (Box.Related R) (span A p p') (span B q q') := by
  refine (hAB.sub h'.x h.x).bind fun dx dx' hdx => (hAB.sub h'.y h.y).bind fun dy dy' hdy => ?_
  exact .ok ⟨min_related hAB h.x h'.x, min_related hAB h.y h'.y,
    max_related hAB (hAB.natural 1) (hAB.abs hdx), max_related hAB (hAB.natural 1) (hAB.abs hdy)⟩

theorem bounds_follows {f : Figure M} {g : Figure N} (h : f.Related R g) :
    Follows (Box.Related R) (bounds A f) (bounds B g) := by
  unfold bounds
  rw [h.kind, h.textHeight]
  cases g.kind with
  | foreign name => exact .ok ⟨h.x, h.y, hAB.natural 0, hAB.natural 0⟩
  | known kind =>
    cases kind with
    | connector =>
      exact (endPoint_follows hAB h h.start).bind fun p q hp =>
        (endPoint_follows hAB h h.finish).bind fun p' q' hp' => span_follows hAB hp hp'
    | text => exact .ok ⟨h.x, h.y, max_related hAB (hAB.natural 40) h.w, hAB.natural _⟩
    | _ => exact .ok ⟨h.x, h.y, h.w, h.h⟩

variable {dx dy halfW halfH scale padding : M} {dx' dy' halfW' halfH' scale' padding' : N}

theorem ellipseScale_follows (hdx : R dx dx') (hdy : R dy dy') (hw : R halfW halfW')
    (hh : R halfH halfH') :
    Follows R (ellipseScale A dx dy halfW halfH) (ellipseScale B dx' dy' halfW' halfH') :=
  (hAB.div hdx hw).bind fun _ _ hu => (hAB.div hdy hh).bind fun _ _ hv =>
    (hAB.hypot hu hv).bind fun _ _ hlength => hAB.div (hAB.natural 1) hlength

theorem edgeScale_follows (hdx : R dx dx') (hw : R halfW halfW') :
    Follows R (edgeScale A dx halfW) (edgeScale B dx' halfW') := by
  unfold edgeScale
  rw [hAB.isZero hdx]
  split
  · exact .ok hAB.infinity
  · exact hAB.div hw (hAB.abs hdx)

theorem rectangleScale_follows (hdx : R dx dx') (hdy : R dy dy') (hw : R halfW halfW')
    (hh : R halfH halfH') :
    Follows R (rectangleScale A dx dy halfW halfH) (rectangleScale B dx' dy' halfW' halfH') := by
  refine (edgeScale_follows hAB hdx hw).bind fun tx tx' htx =>
    (edgeScale_follows hAB hdy hh).bind fun ty ty' hty => .ok ?_
  rw [hAB.lt hty htx]
  split
  · exact hty
  · exact htx

theorem along_follows {p : Point M} {q : Point N} (h : p.Related R q) (hdx : R dx dx')
    (hdy : R dy dy') (hscale : R scale scale') :
    Follows (Point.Related R) (along A p dx dy scale) (along B q dx' dy' scale') :=
  (hAB.mul hdx hscale).bind fun _ _ hex => (hAB.add h.x hex).bind fun _ _ hx =>
    (hAB.mul hdy hscale).bind fun _ _ hey => (hAB.add h.y hey).bind fun _ _ hy => .ok ⟨hx, hy⟩

theorem push_follows {p : Point M} {q : Point N} (h : p.Related R q) (hdx : R dx dx')
    (hdy : R dy dy') (hpadding : R padding padding') :
    Follows (Point.Related R) (push A p dx dy padding) (push B q dx' dy' padding') := by
  unfold push
  rw [hAB.isZero hpadding]
  split
  · exact .ok h
  · refine (hAB.hypot hdx hdy).bind fun _ _ hlength => ?_
    refine (hAB.div hdx hlength).bind fun _ _ hux => (hAB.mul hux hpadding).bind fun _ _ hox => ?_
    refine (hAB.add h.x hox).bind fun _ _ hx => ?_
    refine (hAB.div hdy hlength).bind fun _ _ huy => (hAB.mul huy hpadding).bind fun _ _ hoy => ?_
    exact (hAB.add h.y hoy).bind fun _ _ hy => .ok ⟨hx, hy⟩

end Simulation

open Simulation in
/-- A border point that is found in one arithmetic is related to the one of another one. -/
theorem borderPoint_follows (hAB : A.Simulates B R) {f : Figure M} {g : Figure N}
    (h : f.Related R g) {p : Point M} {q : Point N} (hpq : p.Related R q) {padding : M}
    {padding' : N} (hpadding : R padding padding') :
    Follows (Point.Related R) (borderPoint A f p padding) (borderPoint B g q padding') := by
  refine (bounds_follows hAB h).bind fun b b' hb => (center_follows hAB hb).bind fun c c' hc => ?_
  refine (hAB.sub hpq.x hc.x).bind fun dx dx' hdx => (hAB.sub hpq.y hc.y).bind fun dy dy' hdy => ?_
  rw [hAB.isZero hdx, hAB.isZero hdy]
  split
  · exact .ok hc
  · refine (half_follows hAB hb.w).bind fun w w' hw => ?_
    refine (half_follows hAB hb.h).bind fun u u' hu => ?_
    rw [h.kind, hAB.lt (hAB.natural 0) hw, hAB.lt (hAB.natural 0) hu]
    have hleave {scale : Except Fault M} {scale' : Except Fault N}
        (hscale : Follows R scale scale') :
        Follows (Point.Related R) (scale >>= fun t => along A c dx dy t >>= fun edge =>
          push A edge dx dy padding) (scale' >>= fun t => along B c' dx' dy' t >>= fun edge =>
            push B edge dx' dy' padding') :=
      hscale.bind fun t t' ht => (along_follows hAB hc hdx hdy ht).bind fun edge edge' hedge =>
        push_follows hAB hedge hdx hdy hpadding
    split
    · exact hleave (ellipseScale_follows hAB hdx hdy hw hu)
    · exact hleave (rectangleScale_follows hAB hdx hdy hw hu)

end Plane

end DiagramScript
