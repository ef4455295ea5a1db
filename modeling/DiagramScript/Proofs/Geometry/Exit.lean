import DiagramScript.Proofs.Geometry.Plane
import DiagramScript.Proofs.Number.Exact
import Mathlib.Algebra.Order.Monoid.WithTop
import Mathlib.Data.Rat.Sqrt

/-
  Where rays leave boxes.

  The gauge of a box tells how far a point lies from its middle, in halves of the box along the
  axis on which it lies further away: less than 1 inside, and 1 on the border (`Box.gauge`). In
  exact arithmetic the share of a ray at which it leaves a box is one by the gauge of the point
  that it heads for, whichever edge that is (`rectangleScale_rational`), so what is found is on
  the border of the bounds (`borderPoint_leaves`). Scalars round; where they do not
  (`Scalar.unrounded`), the border point of a shape is this very point.
-/

namespace DiagramScript

open Outcome (Follows bind_eq_ok)

/-! ## Exact arithmetic -/

namespace Arithmetic

/-- An operation on numbers, which infinity takes no part in. -/
def onFinite (op : ℚ → ℚ → Except Fault ℚ) (a b : WithTop ℚ) : Except Fault (WithTop ℚ) :=
  match a, b with
  | (v : ℚ), (w : ℚ) => (fun z : ℚ => (z : WithTop ℚ)) <$> op v w
  | _, _ => .error .unusableValue

/-- The arithmetic of rational numbers. The length of a vector is one where it is rational. -/
def rational : Arithmetic (WithTop ℚ) where
  natural n := (n : ℚ)
  infinity := ⊤
  add := onFinite fun v w => .ok (v + w)
  sub := onFinite fun v w => .ok (v - w)
  mul := onFinite fun v w => .ok (v * w)
  div := onFinite fun v w =>
    if w = 0 then ArithmeticProblem.zeroDivisor.fail else .ok (v / w)
  hypot := onFinite fun v w =>
    let square := v * v + w * w
    if Rat.sqrt square * Rat.sqrt square = square then .ok (Rat.sqrt square)
    else .error .unusableValue
  abs a := a.map (|·|)
  lt a b := decide (a < b)
  isZero a := decide (a = 0)

variable {v w : ℚ}

theorem add_rational : rational.add v w = .ok ((v + w : ℚ) : WithTop ℚ) := rfl

theorem sub_rational : rational.sub v w = .ok ((v - w : ℚ) : WithTop ℚ) := rfl

theorem mul_rational : rational.mul v w = .ok ((v * w : ℚ) : WithTop ℚ) := rfl

theorem div_rational (hw : w ≠ 0) : rational.div v w = .ok ((v / w : ℚ) : WithTop ℚ) := by
  show (fun z : ℚ => (z : WithTop ℚ)) <$> (if w = 0 then _ else _) = _
  rw [if_neg hw]
  rfl

theorem half_rational : rational.half v = .ok ((v / 2 : ℚ) : WithTop ℚ) :=
  div_rational two_ne_zero

theorem abs_rational : rational.abs v = ((|v| : ℚ) : WithTop ℚ) := rfl

theorem lt_rational : rational.lt v w = decide (v < w) :=
  decide_eq_decide.mpr WithTop.coe_lt_coe

theorem isZero_rational : rational.isZero v = decide (v = 0) :=
  decide_eq_decide.mpr WithTop.coe_eq_zero

theorem max_rational : rational.max v w = ((Max.max v w : ℚ) : WithTop ℚ) := by
  rw [Arithmetic.max, lt_rational]
  by_cases h : v < w
  · rw [if_pos (decide_eq_true h), max_eq_right h.le]
  · rw [if_neg (by simpa using h), max_eq_left (not_lt.mp h)]

theorem min_rational : rational.min v w = ((Min.min v w : ℚ) : WithTop ℚ) := by
  rw [Arithmetic.min, lt_rational]
  by_cases h : w < v
  · rw [if_pos (decide_eq_true h), min_eq_right h.le]
  · rw [if_neg (by simpa using h), min_eq_left (not_lt.mp h)]

end Arithmetic

namespace Plane

open Arithmetic (rational add_rational sub_rational half_rational mul_rational div_rational
  abs_rational lt_rational isZero_rational max_rational min_rational)

/-! ## Boxes -/

/-- A point among the numbers with infinity. -/
def Point.extended (p : Point ℚ) : Point (WithTop ℚ) := ⟨p.x, p.y⟩

def Box.extended (b : Box ℚ) : Box (WithTop ℚ) := ⟨b.x, b.y, b.w, b.h⟩

def Figure.extended (f : Figure ℚ) : Figure (WithTop ℚ) :=
  { f with
    x := f.x
    y := f.y
    w := f.w
    h := f.h
    start := f.start.map .extended
    finish := f.finish.map .extended }

/-- The middle of a box. -/
def Box.middle (b : Box ℚ) : Point ℚ := ⟨b.x + b.w / 2, b.y + b.h / 2⟩

/-- An end of a connector, which is its place where it is missing. -/
def Figure.endAt (f : Figure ℚ) : Option (Point ℚ) → Point ℚ
  | none => ⟨f.x, f.y⟩
  | some p => ⟨f.x + p.x, f.y + p.y⟩

/-- The box that a figure takes: a connector spans its ends, and a text is as high as its lines. -/
def Figure.box (f : Figure ℚ) : Box ℚ :=
  match f.kind with
  | .known .connector =>
    let a := f.endAt f.start
    let b := f.endAt f.finish
    ⟨min a.x b.x, min a.y b.y, max 1 |b.x - a.x|, max 1 |b.y - a.y|⟩
  | .known .text => ⟨f.x, f.y, max 40 f.w, f.textHeight⟩
  | .known _ => ⟨f.x, f.y, f.w, f.h⟩
  | .foreign _ => ⟨f.x, f.y, 0, 0⟩

theorem endPoint_rational (f : Figure ℚ) (offset : Option (Point ℚ)) :
    endPoint rational f.extended (offset.map .extended) = .ok (f.endAt offset).extended := by
  cases offset with
  | none => rfl
  | some p => rfl

theorem span_rational (a b : Point ℚ) : span rational a.extended b.extended =
    .ok (Box.extended ⟨min a.x b.x, min a.y b.y, max 1 |b.x - a.x|, max 1 |b.y - a.y|⟩) := by
  have hside (d : ℚ) : rational.max (rational.natural 1) (rational.abs d) =
      ((max 1 |d| : ℚ) : WithTop ℚ) := max_rational
  refine bind_eq_ok.mpr ⟨_, sub_rational, bind_eq_ok.mpr ⟨_, sub_rational, ?_⟩⟩
  simp only [Point.extended, min_rational, hside]
  rfl

theorem bounds_rational (f : Figure ℚ) : bounds rational f.extended = .ok f.box.extended := by
  unfold bounds Figure.box
  rw [show f.extended.kind = f.kind from rfl]
  cases f.kind with
  | foreign name => rfl
  | known kind =>
    cases kind with
    | connector =>
      refine bind_eq_ok.mpr ⟨_, endPoint_rational f f.start, ?_⟩
      exact bind_eq_ok.mpr ⟨_, endPoint_rational f f.finish, span_rational _ _⟩
    | text =>
      have hwidth : rational.max (rational.natural 40) f.extended.w =
        ((max 40 f.w : ℚ) : WithTop ℚ) := max_rational
      dsimp only
      rw [hwidth]
      rfl
    | _ => rfl

theorem center_rational (b : Box ℚ) : center rational b.extended = .ok b.middle.extended := by
  refine bind_eq_ok.mpr ⟨_, half_rational, bind_eq_ok.mpr ⟨_, add_rational, ?_⟩⟩
  exact bind_eq_ok.mpr ⟨_, half_rational, bind_eq_ok.mpr ⟨_, add_rational, rfl⟩⟩

/-- A point strictly between the edges of a box. -/
structure Box.Inside (b : Box ℚ) (p : Point ℚ) : Prop where
  left : b.x < p.x
  right : p.x < b.x + b.w
  top : b.y < p.y
  bottom : p.y < b.y + b.h

/-- How far a point lies from the middle of a box, in halves of the box. -/
def Box.gauge (b : Box ℚ) (p : Point ℚ) : ℚ :=
  max (|p.x - b.middle.x| / (b.w / 2)) (|p.y - b.middle.y| / (b.h / 2))

/-- The point at a share of the way from the middle of a box to a point. -/
def Box.toward (b : Box ℚ) (p : Point ℚ) (k : ℚ) : Point ℚ :=
  ⟨b.middle.x + k * (p.x - b.middle.x), b.middle.y + k * (p.y - b.middle.y)⟩

section
variable {b : Box ℚ} {p : Point ℚ}

theorem Box.inside_iff (hw : 0 < b.w) (hh : 0 < b.h) : b.Inside p ↔ b.gauge p < 1 := by
  have haxis {low length place : ℚ} (hpos : 0 < length) :
      |place - (low + length / 2)| / (length / 2) < 1 ↔ low < place ∧ place < low + length := by
    rw [div_lt_one (half_pos hpos), abs_lt]
    constructor
    · rintro ⟨h, h'⟩
      constructor <;> linarith
    · rintro ⟨h, h'⟩
      constructor <;> linarith
  rw [Box.gauge, max_lt_iff, Box.middle, haxis hw, haxis hh]
  exact ⟨fun h => ⟨⟨h.left, h.right⟩, h.top, h.bottom⟩, fun h => ⟨h.1.1, h.1.2, h.2.1, h.2.2⟩⟩

/-- Only the middle of a box has the gauge zero. -/
theorem Box.gauge_pos (hw : 0 < b.w) (hh : 0 < b.h) (h : p ≠ b.middle) : 0 < b.gauge p := by
  have haxis {d half : ℚ} (hhalf : 0 < half) (hd : d ≠ 0) : 0 < |d| / half :=
    div_pos (abs_pos.mpr hd) hhalf
  by_cases hx : p.x = b.middle.x
  · have hy : p.y ≠ b.middle.y := fun hy => h (Point.ext hx hy)
    exact lt_max_of_lt_right (haxis (half_pos hh) (sub_ne_zero.mpr hy))
  · exact lt_max_of_lt_left (haxis (half_pos hw) (sub_ne_zero.mpr hx))

/-- The gauge grows evenly along a ray. -/
theorem Box.gauge_toward {k : ℚ} (hk : 0 ≤ k) : b.gauge (b.toward p k) = k * b.gauge p := by
  have haxis (c d half : ℚ) : |c + k * d - c| / half = k * (|d| / half) := by
    rw [add_sub_cancel_left, abs_mul, abs_of_nonneg hk, mul_div_assoc]
  rw [Box.gauge, Box.gauge, mul_max_of_nonneg _ _ hk]
  exact congrArg₂ max (haxis _ _ _) (haxis _ _ _)

end

/-! ## Rays -/

section
variable {dx dy halfW halfH : ℚ}

theorem edgeScale_rational_zero : edgeScale rational ((0 : ℚ) : WithTop ℚ) halfW = .ok ⊤ := rfl

theorem edgeScale_rational (h : dx ≠ 0) :
    edgeScale rational dx halfW = .ok ((halfW / |dx| : ℚ) : WithTop ℚ) := by
  rw [edgeScale, isZero_rational, if_neg (by simpa using h), abs_rational]
  exact div_rational (abs_ne_zero.mpr h)

/-- A ray leaves a rectangle through the edge that it reaches first: the one of the axis along
which it heads further away, measured in halves of the rectangle. -/
theorem rectangleScale_rational (hw : 0 < halfW) (hh : 0 < halfH) (hne : dx ≠ 0 ∨ dy ≠ 0) :
    rectangleScale rational dx dy halfW halfH =
      .ok ((1 / max (|dx| / halfW) (|dy| / halfH) : ℚ) : WithTop ℚ) := by
  have hzero {half : ℚ} : |(0 : ℚ)| / half = 0 := by rw [abs_zero, zero_div]
  have hnonneg {d half : ℚ} (hhalf : 0 < half) : 0 ≤ |d| / half := by positivity
  unfold rectangleScale
  by_cases hx : dx = 0
  · -- The ray runs along an edge of its own, and leaves through the other one.
    have hy : dy ≠ 0 := hne.resolve_left (not_not.mpr hx)
    rw [hx, edgeScale_rational_zero, edgeScale_rational hy, hzero, max_eq_right (hnonneg hh),
      one_div_div]
    rfl
  · by_cases hy : dy = 0
    · rw [hy, edgeScale_rational_zero, edgeScale_rational hx, hzero, max_eq_left (hnonneg hw),
        one_div_div]
      rfl
    · have hdx : 0 < |dx| / halfW := div_pos (abs_pos.mpr hx) hw
      have hdy : 0 < |dy| / halfH := div_pos (abs_pos.mpr hy) hh
      have hswap : halfH / |dy| < halfW / |dx| ↔ |dx| / halfW < |dy| / halfH := by
        rw [← one_div_div, ← one_div_div |dx|, one_div_lt_one_div hdy hdx]
      -- The smaller share is the one of the greater quotient, and in a corner both are the same.
      rw [edgeScale_rational hx, edgeScale_rational hy]
      show Except.ok (if rational.lt _ _ then _ else _) = _
      rw [lt_rational]
      by_cases hlt : halfH / |dy| < halfW / |dx|
      · rw [if_pos (decide_eq_true hlt), max_eq_right (hswap.mp hlt).le, one_div_div]
      · rw [if_neg (by simpa using hlt), max_eq_left (not_lt.mp (mt hswap.mpr hlt)), one_div_div]

end

theorem along_rational (p : Point ℚ) (dx dy k : ℚ) : along rational p.extended dx dy k =
    .ok (Point.extended ⟨p.x + dx * k, p.y + dy * k⟩) := by
  refine bind_eq_ok.mpr ⟨_, mul_rational, bind_eq_ok.mpr ⟨_, add_rational, ?_⟩⟩
  exact bind_eq_ok.mpr ⟨_, mul_rational, bind_eq_ok.mpr ⟨_, add_rational, rfl⟩⟩

/-- In exact arithmetic a ray leaves a figure at a share of one by the gauge. -/
theorem borderPoint_rational {f : Figure ℚ} {t : Point ℚ} (hkind : f.kind ≠ .known .ellipse)
    (hw : 0 < f.box.w) (hh : 0 < f.box.h) (ht : t ≠ f.box.middle) :
    borderPoint rational f.extended t.extended (rational.natural 0) =
      .ok (f.box.toward t (1 / f.box.gauge t)).extended := by
  have hmoves : ¬(t.x - f.box.middle.x = 0 ∧ t.y - f.box.middle.y = 0) := fun h =>
    ht (Point.ext (sub_eq_zero.mp h.1) (sub_eq_zero.mp h.2))
  have hscale := rectangleScale_rational (half_pos hw) (half_pos hh) (not_and_or.mp hmoves)
  refine bind_eq_ok.mpr ⟨_, bounds_rational f, bind_eq_ok.mpr ⟨_, center_rational f.box, ?_⟩⟩
  refine bind_eq_ok.mpr ⟨_, sub_rational, bind_eq_ok.mpr ⟨_, sub_rational, ?_⟩⟩
  rw [isZero_rational, isZero_rational, if_neg (by simpa using hmoves)]
  refine bind_eq_ok.mpr ⟨_, half_rational, bind_eq_ok.mpr ⟨_, half_rational, ?_⟩⟩
  rw [if_neg fun h => hkind h.1]
  refine bind_eq_ok.mpr ⟨_, hscale, bind_eq_ok.mpr ⟨_, along_rational _ _ _ _, ?_⟩⟩
  rw [mul_comm (t.x - _), mul_comm (t.y - _)]
  -- Without padding the point is not pushed any further.
  rfl

end Plane

/-! ## Scalars that are not rounded -/

namespace Scalar

/-- The value of a place, from the finite ones up. -/
def Place.value? : Place → Option (WithTop ℚ)
  | .bottom => none
  | .finite u => some ((u * Binary64.tiny : ℚ))
  | .top => some ⊤

/-- The value of a scalar. A truth value has the one that it counts as. -/
def value? (a : Scalar) : Option (WithTop ℚ) := a.place?.bind Place.value?

/-- A scalar of a value. -/
def Has (a : Scalar) (v : WithTop ℚ) : Prop := a.value? = some v

section
variable {a b c : Scalar} {v w : WithTop ℚ} {q : ℚ}

theorem place?_plain (a : Scalar) : a.plain.place? = a.place? := by
  have hfinite {u u' : ℤ} (h : u = u') : some (Place.finite u) = some (.finite u') := by rw [h]
  cases a with
  | flag b =>
    cases b with
    | false => exact hfinite (Int.zero_mul _)
    | true => exact hfinite (Int.one_mul _)
  | _ => rfl

theorem At.has (h : a.plain.At q) : a.Has q := by
  obtain ⟨u, hu, rfl⟩ := place_at h
  rw [Has, value?, ← place?_plain, hu]
  rfl

theorem natural_has (n : ℕ) : (whole n).Has (n : ℚ) := by
  rw [← Int.cast_natCast (R := ℚ) n]
  exact At.has (whole_at n)

theorem infinity_has : (real (.infinite false)).Has ⊤ := rfl

theorem Has.unique (hv : a.Has v) (hw : a.Has w) : v = w := Option.some.inj (hv.symm.trans hw)

/-- A scalar of a value counts as a finite number or is infinite. -/
theorem Has.cases (h : a.Has v) : (∃ q : ℚ, a.plain.At q ∧ v = q) ∨
    (a = real (.infinite false) ∧ v = ⊤) := by
  have hat {q : ℚ} (hq : a.plain.At q) : (∃ q : ℚ, a.plain.At q ∧ v = q) :=
    ⟨q, hq, h.unique (At.has hq)⟩
  cases a with
  | whole n => exact .inl (hat (whole_at n))
  | flag b => exact .inl (hat (whole_at _))
  | real x =>
    cases x with
    | nan => cases h
    | infinite s =>
      cases s with
      | true => cases h
      | false => exact .inr ⟨rfl, h.unique infinity_has⟩
    | finite s r => exact .inl (hat ⟨_, rfl, rfl⟩)

theorem Place.lt_value {p r : Place} (hp : p.value? = some v) (hr : r.value? = some w) :
    p.lt r = decide (v < w) := by
  cases p with
  | bottom => cases hp
  | finite m =>
    cases hp
    cases r with
    | bottom => cases hr
    | finite n =>
      cases hr
      refine decide_eq_decide.mpr ?_
      rw [WithTop.coe_lt_coe, mul_lt_mul_iff_of_pos_right Binary64.tiny_pos, Int.cast_lt]
    | top =>
      cases hr
      exact (decide_eq_true (WithTop.coe_lt_top _)).symm
  | top =>
    cases hp
    rw [decide_eq_false not_top_lt]
    cases r with
    | bottom => cases hr
    | finite n => rfl
    | top => rfl

theorem Has.lt_eq (ha : a.Has v) (hb : b.Has w) : a.lt b = decide (v < w) := by
  obtain ⟨p, hp, hv⟩ := Option.bind_eq_some_iff.mp ha
  obtain ⟨r, hr, hw⟩ := Option.bind_eq_some_iff.mp hb
  rw [lt_eq_place, hp, hr]
  exact Place.lt_value hv hw

theorem Has.abs (h : a.Has v) : a.abs.Has (v.map (|·|)) := by
  have hplain : a.abs = a.plain.abs := by
    cases a with
    | flag b => cases b <;> rfl
    | _ => rfl
  rcases h.cases with ⟨q, hq, rfl⟩ | ⟨rfl, rfl⟩
  · have habs : a.abs.plain = a.abs := by cases a <;> rfl
    exact At.has (by rw [habs, hplain]; exact abs_at hq)
  · rfl

theorem Has.isZero_eq (h : a.Has v) : a.isZero = decide (v = 0) := by
  have hplain : a.isZero = a.plain.isZero := by
    cases a with
    | flag b => cases b <;> rfl
    | _ => rfl
  rcases h.cases with ⟨q, hq, rfl⟩ | ⟨rfl, rfl⟩
  · rw [hplain, Bool.eq_iff_iff, isZero_at hq, decide_eq_true_iff, WithTop.coe_eq_zero]
  · rfl

end

/-- An operation where it does not round: the values of operands and result are as a law tells. -/
def exactly (law : ℚ → ℚ → ℚ → Bool) (op : Scalar → Scalar → Except Fault Scalar)
    (a b : Scalar) : Except Fault Scalar := do
  let c ← op a b
  match a.value?, b.value?, c.value? with
  | some (v : ℚ), some (w : ℚ), some (z : ℚ) =>
    if law v w z then .ok c else .error .unusableValue
  | _, _, _ => .error .unusableValue

/-- The arithmetic of scalars as far as nothing is rounded. -/
def unrounded : Arithmetic Scalar where
  natural := arithmetic.natural
  infinity := arithmetic.infinity
  add := exactly (fun v w z => z = v + w) add
  sub := exactly (fun v w z => z = v - w) sub
  mul := exactly (fun v w z => z = v * w) mul
  div := exactly (fun v w z => w ≠ 0 ∧ z = v / w) div
  hypot := exactly (fun v w z => 0 ≤ z ∧ z * z = v * v + w * w) hypot
  abs := abs
  lt := lt
  isZero := isZero

section
variable {law : ℚ → ℚ → ℚ → Bool} {op : Scalar → Scalar → Except Fault Scalar} {a b c : Scalar}

theorem exactly_eq_ok (h : exactly law op a b = .ok c) : op a b = .ok c ∧
    ∃ v w z : ℚ, a.Has v ∧ b.Has w ∧ c.Has z ∧ law v w z = true := by
  obtain ⟨d, hd, h⟩ := bind_eq_ok.mp h
  split at h
  · rename_i v w z hv hw hz
    split at h
    · rename_i hlaw
      cases h
      exact ⟨hd, v, w, z, hv, hw, hz, hlaw⟩
    · cases h
  · cases h

/-- An operation that does not round has the result that there is. -/
theorem exactly_follows_op {a' b' : Scalar} (ha : a = a') (hb : b = b') :
    Follows Eq (exactly law op a b) (op a' b') := by
  subst ha hb
  exact fun c h => ⟨c, (exactly_eq_ok h).1, rfl⟩

/-- An operation that does not round has the result of an operation on the values that abides by
the law. -/
theorem exactly_follows {f : ℚ → ℚ → Except Fault ℚ}
    (hf : ∀ v w z, law v w z = true → f v w = .ok z) {v w : WithTop ℚ} (ha : a.Has v)
    (hb : b.Has w) : Follows Has (exactly law op a b) (Arithmetic.onFinite f v w) := by
  intro c h
  obtain ⟨-, v', w', z, hv, hw, hz, hlaw⟩ := exactly_eq_ok h
  obtain rfl := ha.unique hv
  obtain rfl := hb.unique hw
  refine ⟨z, ?_, hz⟩
  show (fun z : ℚ => (z : WithTop ℚ)) <$> f v' w' = _
  rw [hf v' w' z hlaw]
  rfl

end

/-- What is not rounded is what is computed. -/
theorem unrounded_simulates : unrounded.Simulates arithmetic Eq where
  natural _ := rfl
  infinity := rfl
  add := exactly_follows_op
  sub := exactly_follows_op
  mul := exactly_follows_op
  div := exactly_follows_op
  hypot := exactly_follows_op
  abs h := congrArg abs h
  lt h h' := congrArg₂ lt h h'
  isZero h := congrArg isZero h

/-- What is not rounded has the values of exact arithmetic. -/
theorem unrounded_rational : unrounded.Simulates .rational Has where
  natural := natural_has
  infinity := infinity_has
  add := exactly_follows fun v w z h => by rw [of_decide_eq_true h]
  sub := exactly_follows fun v w z h => by rw [of_decide_eq_true h]
  mul := exactly_follows fun v w z h => by rw [of_decide_eq_true h]
  div := exactly_follows fun v w z h => by
    obtain ⟨hw, hz⟩ := of_decide_eq_true h
    rw [if_neg hw, hz]
  hypot := exactly_follows fun v w z h => by
    obtain ⟨hz, hsquare⟩ := of_decide_eq_true h
    simp only [← hsquare, Rat.sqrt_eq, abs_of_nonneg hz, if_true]
  abs := Has.abs
  lt := Has.lt_eq
  isZero := Has.isZero_eq

end Scalar

/-! ## Exits -/

namespace Plane

open Arithmetic (rational)
open Scalar (Has unrounded)

theorem Point.Related.refl {N : Type} (p : Point N) : p.Related Eq p := ⟨rfl, rfl⟩

theorem Point.Related.eq {N : Type} {p q : Point N} (h : p.Related Eq q) : p = q :=
  Point.ext h.x h.y

theorem Figure.Related.refl {N : Type} (f : Figure N) : f.Related Eq f := by
  have hend (p : Option (Point N)) : Option.Rel (Point.Related Eq) p p := by
    cases p with
    | none => exact .none
    | some p => exact .some (.refl p)
  exact ⟨rfl, rfl, rfl, rfl, rfl, rfl, hend _, hend _⟩

/-- A border point that is found without rounding is the one of the shape, and has the values of
the one in exact arithmetic. -/
theorem borderPoint_unrounded {s : Shape} {toward : DiagramScript.Point} {padding : Scalar}
    {f : Figure (WithTop ℚ)} {t : Point (WithTop ℚ)} {v : WithTop ℚ} {q : Point Scalar}
    (hf : (Figure.ofShape s).Related Has f) (ht : (Point.ofScalars toward).Related Has t)
    (hpadding : padding.Has v)
    (h : borderPoint unrounded (.ofShape s) (.ofScalars toward) padding = .ok q) :
    Border.point s toward padding = .ok q.toScalars ∧
      ∃ p, borderPoint rational f t v = .ok p ∧ q.Related Has p := by
  obtain ⟨q', hq', heq⟩ := borderPoint_follows Scalar.unrounded_simulates (.refl _) (.refl _) rfl
    q h
  obtain rfl := heq.eq
  refine ⟨?_, borderPoint_follows Scalar.unrounded_rational hf ht hpadding q h⟩
  rw [borderPoint_figure, hq']
  rfl

/-- A ray from the middle of a figure leaves the bounds of the figure at a positive share of the
way to the point that it heads for, which is past that point exactly where the point is inside. So
does the ray of a shape of these measures as long as nothing is rounded. -/
theorem borderPoint_leaves {f : Figure ℚ} {t : Point ℚ} (hkind : f.kind ≠ .known .ellipse)
    (hw : 0 < f.box.w) (hh : 0 < f.box.h) (ht : t ≠ f.box.middle) :
    bounds rational f.extended = .ok f.box.extended ∧
    center rational f.box.extended = .ok f.box.middle.extended ∧
    ∃ k : ℚ, 0 < k ∧
      borderPoint rational f.extended t.extended (rational.natural 0) =
        .ok (f.box.toward t k).extended ∧
      f.box.gauge (f.box.toward t k) = 1 ∧
      (k ≤ 1 ↔ ¬ f.box.Inside t) ∧
      ∀ (s : Shape) (toward : DiagramScript.Point) (padding : Scalar) (q : Point Scalar),
        (Figure.ofShape s).Related Has f.extended →
        (Point.ofScalars toward).Related Has t.extended → padding.Has 0 →
        borderPoint unrounded (.ofShape s) (.ofScalars toward) padding = .ok q →
        Border.point s toward padding = .ok q.toScalars ∧
          q.Related Has (f.box.toward t k).extended := by
  have hgauge := Box.gauge_pos hw hh ht
  have hborder := borderPoint_rational hkind hw hh ht
  refine ⟨bounds_rational f, center_rational f.box, 1 / f.box.gauge t, one_div_pos.mpr hgauge,
    hborder, ?_, ?_, ?_⟩
  · rw [Box.gauge_toward (one_div_pos.mpr hgauge).le, one_div_mul_cancel hgauge.ne']
  · rw [Box.inside_iff hw hh, not_lt, div_le_one hgauge]
  · intro s toward padding q hf ht' hpadding hq
    obtain ⟨hpoint, p, hp, hrelated⟩ := borderPoint_unrounded hf ht' hpadding hq
    rw [show (0 : WithTop ℚ) = rational.natural 0 from rfl, hborder] at hp
    cases hp
    exact ⟨hpoint, hrelated⟩

/-- A connector that drops by 2 over a width of 64. -/
def Figure.ramp : Figure ℚ :=
  { kind := .known .connector, x := 0, y := 0, w := 0, h := 0, finish := some ⟨64, 2⟩ }

/-- A steep ray leaves the connector through its lower edge, and nothing is rounded. -/
theorem borderPoint_leaves_ramp : ∃ k : ℚ, 0 < k ∧ k ≤ 1 ∧
    Figure.ramp.box.gauge (Figure.ramp.box.toward ⟨40, 17⟩ k) = 1 ∧
    Border.point { id := "link", kind := .known .connector, finish := some ⟨64, 2⟩ } ⟨40, 17⟩ 0 =
      .ok ⟨.ofPlaces 325 1, .ofPlaces 20 1⟩ := by
  have hwhole (n : ℕ) : (Scalar.whole n).Has (n : ℚ) := Scalar.natural_has n
  obtain ⟨-, -, k, hk, -, hgauge, hinside, hshape⟩ :=
    borderPoint_leaves (f := Figure.ramp) (t := ⟨40, 17⟩) (by decide) (by decide +kernel)
      (by decide +kernel) (by decide +kernel)
  refine ⟨k, hk, hinside.mpr fun h => absurd h.bottom (by decide +kernel), hgauge, ?_⟩
  refine (hshape _ ⟨40, 17⟩ 0 ⟨.ofPlaces 325 1, .ofPlaces 20 1⟩ ?_ ⟨hwhole 40, hwhole 17⟩
    (hwhole 0) (by decide +kernel)).1
  exact ⟨rfl, hwhole 0, hwhole 0, hwhole 0, hwhole 0, rfl, .none, .some ⟨hwhole 64, hwhole 2⟩⟩

end Plane

end DiagramScript
