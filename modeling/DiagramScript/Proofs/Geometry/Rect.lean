import Mathlib.Data.Set.Insert
import Mathlib.Order.Bounds.Basic
import DiagramScript.Proofs.Number.Integer
import DiagramScript.Proofs.Number.Reach
import DiagramScript.Proofs.Page.Creation

/-
  Rectangles of integers.

  Rectangles are ordered by which lies inside which, and the supremum of two is the smallest
  rectangle around both; so the smallest rectangle around many is their least upper bound
  (`isLUB_foldl`). Where the fields of a shape are integers, its bounds have the edges of a rectangle
  and can be computed (`Shape.HasIntegers.bounds`). They have a negative side only where the shape
  has one (`Shape.IsIntegral.bounds`).
-/

namespace DiagramScript

/-- A rectangle by its edges. -/
@[ext]
structure Rect where
  left : ℤ
  top : ℤ
  right : ℤ
  bottom : ℤ
  deriving DecidableEq

namespace Rect
variable {r s : Rect} {d : ℤ}

/-- A rectangle lies inside another one. -/
instance : LE Rect :=
  ⟨fun r s => s.left ≤ r.left ∧ s.top ≤ r.top ∧ r.right ≤ s.right ∧ r.bottom ≤ s.bottom⟩

theorem le_iff : r ≤ s ↔
    s.left ≤ r.left ∧ s.top ≤ r.top ∧ r.right ≤ s.right ∧ r.bottom ≤ s.bottom := Iff.rfl

instance : DecidableLE Rect := fun _ _ => inferInstanceAs (Decidable (_ ∧ _ ∧ _ ∧ _))

/-- The smallest rectangle around two. -/
instance : Max Rect :=
  ⟨fun r s => ⟨min r.left s.left, min r.top s.top, max r.right s.right, max r.bottom s.bottom⟩⟩

@[simp] theorem sup_left (r s : Rect) : (r ⊔ s).left = min r.left s.left := rfl

@[simp] theorem sup_top (r s : Rect) : (r ⊔ s).top = min r.top s.top := rfl

@[simp] theorem sup_right (r s : Rect) : (r ⊔ s).right = max r.right s.right := rfl

@[simp] theorem sup_bottom (r s : Rect) : (r ⊔ s).bottom = max r.bottom s.bottom := rfl

instance : SemilatticeSup Rect where
  sup := Max.max
  le_refl r := ⟨le_rfl, le_rfl, le_rfl, le_rfl⟩
  le_trans r s t h h' := by
    rw [le_iff] at *
    omega
  le_antisymm r s h h' := by
    rw [le_iff] at *
    ext <;> omega
  le_sup_left r s := by
    rw [le_iff]
    simp only [sup_left, sup_top, sup_right, sup_bottom]
    omega
  le_sup_right r s := by
    rw [le_iff]
    simp only [sup_left, sup_top, sup_right, sup_bottom]
    omega
  sup_le r s t h h' := by
    rw [le_iff] at *
    simp only [sup_left, sup_top, sup_right, sup_bottom]
    omega

/-- A rectangle with every edge moved out by a distance. -/
def grown (d : ℤ) (r : Rect) : Rect := ⟨r.left - d, r.top - d, r.right + d, r.bottom + d⟩

theorem grown_sup (d : ℤ) (r s : Rect) : (r ⊔ s).grown d = r.grown d ⊔ s.grown d := by
  ext <;> simp only [grown, sup_left, sup_top, sup_right, sup_bottom] <;> omega

theorem grown_mono (h : r ≤ s) : r.grown d ≤ s.grown d := by
  rw [le_iff] at *
  simp only [grown]
  omega

theorem foldl_left (r : Rect) (rs : List Rect) :
    (rs.foldl (· ⊔ ·) r).left = (rs.map (·.left)).foldl min r.left := by
  rw [List.foldl_map]
  exact (List.foldl_hom Rect.left fun _ _ => rfl).symm

theorem foldl_top (r : Rect) (rs : List Rect) :
    (rs.foldl (· ⊔ ·) r).top = (rs.map (·.top)).foldl min r.top := by
  rw [List.foldl_map]
  exact (List.foldl_hom Rect.top fun _ _ => rfl).symm

theorem foldl_right (r : Rect) (rs : List Rect) :
    (rs.foldl (· ⊔ ·) r).right = (rs.map (·.right)).foldl max r.right := by
  rw [List.foldl_map]
  exact (List.foldl_hom Rect.right fun _ _ => rfl).symm

theorem foldl_bottom (r : Rect) (rs : List Rect) :
    (rs.foldl (· ⊔ ·) r).bottom = (rs.map (·.bottom)).foldl max r.bottom := by
  rw [List.foldl_map]
  exact (List.foldl_hom Rect.bottom fun _ _ => rfl).symm

/-- The smallest rectangle around some rectangles. -/
theorem isLUB_foldl (r : Rect) (rs : List Rect) :
    IsLUB (insert r {s | s ∈ rs}) (rs.foldl (· ⊔ ·) r) := by
  induction rs generalizing r with
  | nil => simp
  | cons s rs ih =>
    -- An upper bound of the first two and the rest is one of their supremum and the rest.
    have hbounds : upperBounds (insert r {t | t ∈ s :: rs}) =
        upperBounds (insert (r ⊔ s) {t | t ∈ rs}) := by
      ext u
      simp only [mem_upperBounds, Set.forall_mem_insert, Set.mem_ofPred_eq, List.forall_mem_cons,
        sup_le_iff, and_assoc]
    rw [IsLUB, hbounds]
    exact ih (r ⊔ s)

end Rect

/-! ## Bounds -/

/-- Bounds with the edges of a rectangle. -/
structure Bounds.IsRect (b : Bounds) (r : Rect) : Prop where
  x : b.x.At r.left
  y : b.y.At r.top
  w : b.w.At (r.right - r.left : ℤ)
  h : b.h.At (r.bottom - r.top : ℤ)

theorem Bounds.IsRect.unique {b : Bounds} {r r' : Rect} (h : b.IsRect r) (h' : b.IsRect r') :
    r = r' := by
  have hleft : r.left = r'.left := by exact_mod_cast h.x.unique h'.x
  have htop : r.top = r'.top := by exact_mod_cast h.y.unique h'.y
  have hwidth : r.right - r.left = r'.right - r'.left := by exact_mod_cast h.w.unique h'.w
  have hheight : r.bottom - r.top = r'.bottom - r'.top := by exact_mod_cast h.h.unique h'.h
  ext <;> omega

/-- Bounds with the edges of a rectangle, all of them integers that are computed with. The sides
are no longer than twice the bound of the edges; they may be of a negative length. -/
structure Bounds.HasEdges (i : Integers) (c : ℤ) (b : Bounds) (r : Rect) : Prop where
  x : b.x.IsInteger i c r.left
  y : b.y.IsInteger i c r.top
  w : b.w.IsInteger i (2 * c) (r.right - r.left)
  h : b.h.IsInteger i (2 * c) (r.bottom - r.top)
  right : i.Allows c r.right
  bottom : i.Allows c r.bottom

/-- Bounds with such edges and with no side of a negative length. -/
structure Bounds.Fills (i : Integers) (c : ℤ) (b : Bounds) (r : Rect) : Prop
    extends b.HasEdges i c r where
  wide : r.left ≤ r.right
  high : r.top ≤ r.bottom

namespace Bounds.HasEdges
variable {i : Integers} {c d m n x y : ℤ} {b : Bounds} {r : Rect}

theorem isRect (h : b.HasEdges i c r) : b.IsRect r := ⟨h.x.value, h.y.value, h.w.value, h.h.value⟩

/-- Bounds with integers as their fields. -/
theorem of_fields (hx : b.x.IsInteger i c x) (hy : b.y.IsInteger i c y)
    (hw : b.w.IsInteger i c m) (hh : b.h.IsInteger i c n) (hd : 2 * c ≤ d) :
    b.HasEdges i d ⟨x, y, x + m, y + n⟩ := by
  have hle {k : ℤ} (hk : i.Allows c k) : i.Allows d k ∧ i.Allows (2 * d) k := by
    constructor
    · intro hi
      linarith [hk hi, abs_nonneg k]
    · intro hi
      linarith [hk hi, abs_nonneg k]
  refine ⟨hx.allow (hle hx.allows).1, hy.allow (hle hy.allows).1, ?_, ?_, ?_, ?_⟩
  · rw [add_sub_cancel_left]
    exact hw.allow (hle hw.allows).2
  · rw [add_sub_cancel_left]
    exact hh.allow (hle hh.allows).2
  · exact (hx.allows.add hw.allows).mono (by linarith)
  · exact (hy.allows.add hh.allows).mono (by linarith)

theorem right_gives (h : b.HasEdges i c r) (hc : 3 * c < 2 ^ 50) :
    Gives (Scalar.IsInteger i c · r.right) b.right := by
  refine (h.x.add h.w (by linarith)).imp fun e he => ?_
  rw [add_sub_cancel] at he
  exact he.allow h.right

theorem bottom_gives (h : b.HasEdges i c r) (hc : 3 * c < 2 ^ 50) :
    Gives (Scalar.IsInteger i c · r.bottom) b.bottom := by
  refine (h.y.add h.h (by linarith)).imp fun e he => ?_
  rw [add_sub_cancel] at he
  exact he.allow h.bottom

/-- The middle of bounds that are not large can be computed. -/
theorem center_gives (h : b.HasEdges .bounded c r) (hc : c ≤ 2 ^ 50) :
    ∃ m, b.center = .ok m := by
  have hwithin {a : Scalar} {e n : ℤ} (ha : a.IsInteger .bounded e n) (he : e ≤ 2 ^ 51) :
      a.Within 1 := by
    refine ⟨n, ha.value, ?_⟩
    have hle : |(n : ℚ)| ≤ 2 ^ 51 := by exact_mod_cast (ha.allows rfl).trans he
    rw [Nat.cast_one, one_mul, reach]
    exact hle.trans (by norm_num)
  have hgives : Gives (fun _ => True) b.center := by
    refine ((hwithin h.w (by linarith)).half (by decide)).bind fun dx hdx => ?_
    refine ((hwithin h.x (by linarith)).add hdx (by decide) (by decide)).bind fun x _ => ?_
    refine ((hwithin h.h (by linarith)).half (by decide)).bind fun dy hdy => ?_
    refine ((hwithin h.y (by linarith)).add hdy (by decide) (by decide)).bind fun y _ => ?_
    exact .ok trivial
  obtain ⟨m, hm, -⟩ := hgives.exists_ok
  exact ⟨m, hm⟩

/-- The sides of the smallest rectangle around some bounds, in the order in which they are
computed. -/
theorem union {t : Rect} {ts : List Rect} {bs : List Bounds} (hb : b.HasEdges i c t)
    (hbs : List.Forall₂ (HasEdges i c) bs ts) (hc : 3 * c < 2 ^ 50) :
    let u := ts.foldl (· ⊔ ·) t
    (Scalar.minimum b.x (bs.map (·.x))).IsInteger i c u.left ∧
      (Scalar.minimum b.y (bs.map (·.y))).IsInteger i c u.top ∧
      (∃ first others, b.right = .ok first ∧ bs.mapM Bounds.right = .ok others ∧
        (Scalar.maximum first others).IsInteger i c u.right) ∧
      ∃ first others, b.bottom = .ok first ∧ bs.mapM Bounds.bottom = .ok others ∧
        (Scalar.maximum first others).IsInteger i c u.bottom := by
  intro u
  -- The two lesser sides are fields, the two greater ones are computed.
  have hleast {side : Bounds → Scalar} {edge : Rect → ℤ}
      (hside : ∀ b r, b.HasEdges i c r → (side b).IsInteger i c (edge r)) :
      (Scalar.minimum (side b) (bs.map side)).IsInteger i c ((ts.map edge).foldl min (edge t)) := by
    refine Scalar.IsInteger.foldl Scalar.IsInteger.min (hside b t hb) ?_
    rw [List.forall₂_map_left_iff, List.forall₂_map_right_iff]
    exact hbs.imp hside
  have hgreatest {side : Bounds → Except Fault Scalar} {edge : Rect → ℤ}
      (hside : ∀ b r, b.HasEdges i c r → Gives (Scalar.IsInteger i c · (edge r)) (side b)) :
      ∃ first others, side b = .ok first ∧ bs.mapM side = .ok others ∧
        (Scalar.maximum first others).IsInteger i c ((ts.map edge).foldl max (edge t)) := by
    obtain ⟨first, hfirst, hvalue⟩ := (hside b t hb).exists_ok
    have hrest : List.Forall₂ (fun b n => Gives (Scalar.IsInteger i c · n) (side b)) bs
        (ts.map edge) :=
      List.forall₂_map_right_iff.mpr (hbs.imp hside)
    obtain ⟨others, hothers, hvalues⟩ := (Settles.mapM_of_forall₂ hrest).exists_ok
    exact ⟨first, others, hfirst, hothers,
      Scalar.IsInteger.foldl Scalar.IsInteger.max hvalue hvalues⟩
  rw [Rect.foldl_left, Rect.foldl_top, Rect.foldl_right, Rect.foldl_bottom]
  exact ⟨hleast fun _ _ h => h.x, hleast fun _ _ h => h.y, hgreatest fun _ _ h => h.right_gives hc,
    hgreatest fun _ _ h => h.bottom_gives hc⟩

end Bounds.HasEdges

/-- Bounds with integers as their fields, and with no negative side. -/
theorem Bounds.Fills.of_fields {i : Integers} {c d m n x y : ℤ} {b : Bounds}
    (hx : b.x.IsInteger i c x) (hy : b.y.IsInteger i c y) (hw : b.w.IsInteger i c m)
    (hh : b.h.IsInteger i c n) (hm : 0 ≤ m) (hn : 0 ≤ n) (hd : 2 * c ≤ d) :
    b.Fills i d ⟨x, y, x + m, y + n⟩ :=
  ⟨.of_fields hx hy hw hh hd, le_add_of_nonneg_right hm, le_add_of_nonneg_right hn⟩

/-! ## Shapes -/

/-- The limit of coordinates and lengths in the bounded case. -/
def Integers.limit : ℤ := 2 ^ 32

/-- The limit of the edges of bounds in the bounded case, where each is a sum of a few coordinates
and lengths. -/
def Integers.boundsLimit : ℤ := 2 ^ 36

/-- A point with integers as its coordinates. -/
def Point.IsIntegral (i : Integers) (p : Point) : Prop :=
  (∃ n, p.x.IsInteger i Integers.limit n) ∧ ∃ n, p.y.IsInteger i Integers.limit n

/-- A shape with integers as its fields. -/
structure Shape.HasIntegers (i : Integers) (s : Shape) : Prop where
  place : Point.IsIntegral i ⟨s.x, s.y⟩
  width : ∃ n, s.w.IsInteger i Integers.limit n
  height : ∃ n, s.h.IsInteger i Integers.limit n
  start : ∀ p ∈ s.start, p.IsIntegral i
  finish : ∀ p ∈ s.finish, p.IsIntegral i
  lines : ∃ n, 0 ≤ n ∧ s.lines.IsInteger i Integers.limit n

/-- A shape with integers as its fields, and with no side of a negative length. -/
structure Shape.IsIntegral (i : Integers) (s : Shape) : Prop where
  place : Point.IsIntegral i ⟨s.x, s.y⟩
  width : ∃ n, 0 ≤ n ∧ s.w.IsInteger i Integers.limit n
  height : ∃ n, 0 ≤ n ∧ s.h.IsInteger i Integers.limit n
  start : ∀ p ∈ s.start, p.IsIntegral i
  finish : ∀ p ∈ s.finish, p.IsIntegral i
  lines : ∃ n, 0 ≤ n ∧ s.lines.IsInteger i Integers.limit n

theorem Shape.IsIntegral.hasIntegers {i : Integers} {s : Shape} (h : s.IsIntegral i) :
    s.HasIntegers i := by
  obtain ⟨w, -, hw⟩ := h.width
  obtain ⟨n, -, hn⟩ := h.height
  exact ⟨h.place, ⟨w, hw⟩, ⟨n, hn⟩, h.start, h.finish, h.lines⟩

/-- Whether a point has integers as its coordinates. -/
def Point.isIntegral (i : Integers) (p : Point) : Bool :=
  (p.x.integer? i Integers.limit).isSome && (p.y.integer? i Integers.limit).isSome

theorem Point.isIntegral_of_check {i : Integers} {p : Point} (h : p.isIntegral i = true) :
    p.IsIntegral i := by
  rw [isIntegral, Bool.and_eq_true] at h
  exact ⟨Scalar.isInteger_of_isSome h.1, Scalar.isInteger_of_isSome h.2⟩

namespace Shape
variable {i : Integers} {s : Shape} {r r' : Rect}

/-- Whether a shape has integers as its fields, and no side of a negative length. -/
def isIntegral (i : Integers) (s : Shape) : Bool :=
  Point.isIntegral i ⟨s.x, s.y⟩ && s.w.isLength i Integers.limit && s.h.isLength i Integers.limit &&
    s.start.all (·.isIntegral i) && s.finish.all (·.isIntegral i) &&
      s.lines.isLength i Integers.limit

theorem isIntegral_of_check (h : s.isIntegral i = true) : s.IsIntegral i := by
  simp only [isIntegral, Bool.and_eq_true] at h
  obtain ⟨⟨⟨⟨⟨hplace, hwidth⟩, hheight⟩, hstart⟩, hfinish⟩, hlines⟩ := h
  refine ⟨Point.isIntegral_of_check hplace, Scalar.isInteger_of_isLength hwidth,
    Scalar.isInteger_of_isLength hheight, fun p hp => ?_, fun p hp => ?_,
    Scalar.isInteger_of_isLength hlines⟩
  · rw [Option.mem_def.mp hp] at hstart
    exact Point.isIntegral_of_check hstart
  · rw [Option.mem_def.mp hp] at hfinish
    exact Point.isIntegral_of_check hfinish

/-- Whether a shape has integers as its fields. -/
def hasIntegers (i : Integers) (s : Shape) : Bool :=
  Point.isIntegral i ⟨s.x, s.y⟩ && (s.w.integer? i Integers.limit).isSome &&
    (s.h.integer? i Integers.limit).isSome && s.start.all (·.isIntegral i) &&
      s.finish.all (·.isIntegral i) && s.lines.isLength i Integers.limit

theorem hasIntegers_of_check (h : s.hasIntegers i = true) : s.HasIntegers i := by
  simp only [hasIntegers, Bool.and_eq_true] at h
  obtain ⟨⟨⟨⟨⟨hplace, hwidth⟩, hheight⟩, hstart⟩, hfinish⟩, hlines⟩ := h
  refine ⟨Point.isIntegral_of_check hplace, Scalar.isInteger_of_isSome hwidth,
    Scalar.isInteger_of_isSome hheight, fun p hp => ?_, fun p hp => ?_,
    Scalar.isInteger_of_isLength hlines⟩
  · rw [Option.mem_def.mp hp] at hstart
    exact Point.isIntegral_of_check hstart
  · rw [Option.mem_def.mp hp] at hfinish
    exact Point.isIntegral_of_check hfinish

/-- The rectangle of the bounds of a shape. -/
def Fills (s : Shape) (r : Rect) : Prop := ∃ b, s.bounds = .ok b ∧ b.IsRect r

theorem Fills.unique (h : s.Fills r) (h' : s.Fills r') : r = r' := by
  obtain ⟨b, hb, hr⟩ := h
  obtain ⟨b', hb', hr'⟩ := h'
  obtain rfl : b = b' := Except.ok.inj (hb.symm.trans hb')
  exact hr.unique hr'

theorem fills_of_hasBounds
    (h : s.hasBounds r.left r.top (r.right - r.left) (r.bottom - r.top) = true) : s.Fills r := by
  obtain ⟨b, hb, hx, hy, hw, hh⟩ := covers_of_hasBounds h
  exact ⟨b, hb, hx, hy, hw, hh⟩

theorem HasIntegers.absoluteOrPlace (h : s.HasIntegers i) {offset : Option Point}
    (hoffset : ∀ p ∈ offset, p.IsIntegral i) :
    Gives (fun p => ∃ m n, p.x.IsInteger i (2 * Integers.limit) m ∧
      p.y.IsInteger i (2 * Integers.limit) n) (s.absoluteOrPlace offset) := by
  obtain ⟨⟨m, hx⟩, ⟨n, hy⟩⟩ := h.place
  cases offset with
  | none => exact .ok ⟨m, n, hx.mono (by decide), hy.mono (by decide)⟩
  | some p =>
    obtain ⟨⟨k, hpx⟩, ⟨l, hpy⟩⟩ := hoffset p rfl
    refine (hx.add hpx (by decide)).bind fun x hx => ?_
    refine (hy.add hpy (by decide)).bind fun y hy => .ok ?_
    exact ⟨m + k, n + l, hx.mono (by decide), hy.mono (by decide)⟩

/-- The box between two points, both of which lie in it. -/
theorem span_fills {p q : Point} {px py qx qy : ℤ}
    (hpx : p.x.IsInteger i (2 * Integers.limit) px) (hpy : p.y.IsInteger i (2 * Integers.limit) py)
    (hqx : q.x.IsInteger i (2 * Integers.limit) qx)
    (hqy : q.y.IsInteger i (2 * Integers.limit) qy) :
    Gives (Bounds.Fills i Integers.boundsLimit ·
      ⟨min px qx, min py qy, min px qx + max 1 |qx - px|, min py qy + max 1 |qy - py|⟩)
      (span p q) := by
  have hone : (1 : Scalar).IsInteger i (8 * Integers.limit) 1 :=
    Scalar.isInteger_whole fun _ => by decide
  refine (hqx.sub hpx (by decide)).bind fun dx hdx => ?_
  refine (hqy.sub hpy (by decide)).bind fun dy hdy => .ok ?_
  have hx := (hpx.min hqx).mono (d := 8 * Integers.limit) (by decide)
  have hy := (hpy.min hqy).mono (d := 8 * Integers.limit) (by decide)
  have hw := hone.max (hdx.abs.mono (by decide))
  have hh := hone.max (hdy.abs.mono (by decide))
  have hpos (n : ℤ) : 0 ≤ max 1 |n| := le_max_of_le_left zero_le_one
  exact Bounds.Fills.of_fields (b := ⟨_, _, _, _⟩) hx hy hw hh (hpos _) (hpos _) (by decide)

/-- The bounds of a shape that is no connector start at its place. -/
theorem bounds_of_sides {c w h l : ℤ} (hkind : s.kind ≠ .known .connector)
    (hw : s.w.IsInteger i c w) (hh : s.h.IsInteger i c h) (hl : s.lines.IsInteger i c l)
    (hc : 40 ≤ c) : ∃ a b m n, s.bounds = .ok ⟨s.x, s.y, a, b⟩ ∧ a.IsInteger i c m ∧
      b.IsInteger i c n ∧ (0 ≤ w → 0 ≤ m) ∧ (0 ≤ h → 0 ≤ l → 0 ≤ n) := by
  unfold Shape.bounds
  split
  · rename_i hconnector
    exact absurd hconnector hkind
  · have hmin : minTextWidth.IsInteger i c 40 := Scalar.isInteger_whole fun _ => hc
    exact ⟨_, _, _, _, rfl, hmin.max hw, hl, fun hw0 => le_max_of_le_right hw0, fun _ hl0 => hl0⟩
  · exact ⟨_, _, _, _, rfl, hw, hh, fun hw0 => hw0, fun hh0 _ => hh0⟩
  · have hzero : (0 : Scalar).IsInteger i c 0 :=
      Scalar.isInteger_whole fun _ => le_trans (by decide) hc
    exact ⟨_, _, _, _, rfl, hzero, hzero, fun _ => le_rfl, fun _ _ => le_rfl⟩

/-- The bounds of a shape with integers as its fields. No side of theirs is of a negative length
where none of the shape is. -/
theorem HasIntegers.bounds (h : s.HasIntegers i) :
    Gives (fun b => ∃ r, b.HasEdges i Integers.boundsLimit r ∧
      (s.IsIntegral i → b.Fills i Integers.boundsLimit r)) s.bounds := by
  by_cases hkind : s.kind = .known .connector
  · simp only [Shape.bounds, hkind]
    refine (h.absoluteOrPlace h.start).bind fun p hp => ?_
    refine (h.absoluteOrPlace h.finish).bind fun q hq => ?_
    obtain ⟨px, py, hpx, hpy⟩ := hp
    obtain ⟨qx, qy, hqx, hqy⟩ := hq
    exact (span_fills hpx hpy hqx hqy).imp fun b hb => ⟨_, hb.toHasEdges, fun _ => hb⟩
  · obtain ⟨⟨x, hx⟩, ⟨y, hy⟩⟩ := h.place
    obtain ⟨w, hw⟩ := h.width
    obtain ⟨n, hn⟩ := h.height
    obtain ⟨l, hl0, hl⟩ := h.lines
    obtain ⟨a, b, m, k, hb, ham, hbk, hm0, hk0⟩ := bounds_of_sides hkind hw hn hl (by decide)
    rw [hb]
    refine .ok ⟨_, .of_fields hx hy ham hbk (by decide), fun hs => ?_⟩
    obtain ⟨w', hw0, hw'⟩ := hs.width
    obtain ⟨n', hn0, hn'⟩ := hs.height
    obtain rfl := hw.unique hw'
    obtain rfl := hn.unique hn'
    exact .of_fields hx hy ham hbk (hm0 hw0) (hk0 hn0 hl0) (by decide)

theorem IsIntegral.bounds (h : s.IsIntegral i) :
    Gives (fun b => ∃ r, b.Fills i Integers.boundsLimit r) s.bounds := by
  refine h.hasIntegers.bounds.imp fun b hb => ?_
  obtain ⟨r, -, hfills⟩ := hb
  exact ⟨r, hfills h⟩

theorem IsIntegral.fills (h : s.IsIntegral i) : ∃ r, s.Fills r := by
  obtain ⟨b, hb, r, hr⟩ := h.bounds.exists_ok
  exact ⟨r, b, hb, hr.isRect⟩

end Shape

end DiagramScript
