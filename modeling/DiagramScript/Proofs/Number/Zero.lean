import DiagramScript.Proofs.Number.Rank
import DiagramScript.Proofs.Scalar

/-
  Where arithmetic gives zero.

  Rounding makes no number zero that is a whole number of units. So a difference is zero exactly
  where both numbers are one for the arithmetic (`meets`), infinities apart, and a length exactly
  where both of its sides are zero (`hypot_isZero`).
-/

namespace DiagramScript

namespace Binary64
variable {x y : Binary64}

theorem isZero_ofRank (negative : Bool) (r : Nat) : (ofRank negative r).isZero = true ↔ r = 0 := by
  unfold ofRank
  split
  · exact beq_iff_eq
  · rename_i h
    have hzero : r ≠ 0 := by
      rintro rfl
      exact h (by decide)
    simp [isZero, hzero]

theorem isZero_ofUnits (negativeZero : Bool) (u : Int) :
    (ofUnits negativeZero u).isZero = true ↔ u = 0 := by
  unfold ofUnits
  split
  · rename_i h
    exact iff_of_true rfl h
  · rw [ofRatio, isZero_ofRank, rankOfRatio_one_eq_zero, Int.natAbs_eq_zero]

theorem signedUnits_not (negative : Bool) (r : Nat) :
    signedUnits (! negative) r = -signedUnits negative r := by
  cases negative <;> simp [signedUnits]

/-- A difference is zero exactly where both numbers are finite and of as many units. -/
theorem isZero_sub : (x.sub y).isZero = true ↔ ∃ u, x.units? = some u ∧ y.units? = some u := by
  cases x with
  | nan => simp [sub, add, isZero, units?]
  | infinite s =>
    cases y with
    | infinite t => cases s <;> cases t <;> simp [sub, add, neg, isZero, units?]
    | _ => simp [sub, add, neg, isZero, units?]
  | finite s r =>
    cases y with
    | finite t q =>
      rw [sub, neg, add, isZero_ofUnits, signedUnits_not]
      simp only [units?, Option.some.injEq, exists_eq_left']
      omega
    | _ => simp [sub, add, neg, isZero, units?]

theorem isZero_hypot : (x.hypot y).isZero = true ↔ x.isZero = true ∧ y.isZero = true := by
  cases x with
  | finite s r =>
    cases y with
    | finite t q =>
      rw [hypot, isZero_ofRank, rankOfSqrt_eq_zero]
      simp [isZero, unitsOfRank_eq_zero]
    | _ => simp [hypot, isZero]
  | _ => cases y <;> simp [hypot, isZero]

theorem ofInt?_eq_some {n : Int} (h : ofInt? n = some x) :
    x = ofUnits false (n * one) ∧ ∀ s, x ≠ .infinite s := by
  unfold ofInt? at h
  cases hx : ofUnits false (n * one) with
  | infinite s =>
    rw [hx] at h
    cases h
  | _ =>
    rw [hx] at h
    cases h
    exact ⟨rfl, fun s hs => by cases hs⟩

end Binary64

namespace Scalar
variable {a b d : Scalar} {x y : Binary64}

/-- Whether two scalars are one for the arithmetic: where either is a floating-point number, the
other one is first rounded to one. -/
def meets (a b : Scalar) : Bool :=
  match a, b with
  | whole m, whole n => m == n
  | a, b =>
    match a.toReal, b.toReal with
    | .ok x, .ok y => (real x).same (real y)
    | _, _ => false

/-- Whether two scalars are the same infinity. -/
def SameInfinity (a b : Scalar) : Prop :=
  ∃ s, a = real (.infinite s) ∧ b = real (.infinite s)

theorem place?_real_finite {u : Int} : (real x).place? = some (.finite u) ↔ x.units? = some u := by
  cases x with
  | nan => simp [place?, Binary64.units?]
  | infinite s => cases s <;> simp [place?, Binary64.units?]
  | finite s r => simp [place?, Binary64.units?]

theorem place?_real_bottom : (real x).place? = some .bottom ↔ x = .infinite true := by
  cases x with
  | infinite s => cases s <;> simp [place?]
  | _ => simp [place?]

theorem place?_real_top : (real x).place? = some .top ↔ x = .infinite false := by
  cases x with
  | infinite s => cases s <;> simp [place?]
  | _ => simp [place?]

theorem isZero_sub_real (h : ∀ s, ¬ (x = .infinite s ∧ y = .infinite s)) :
    (y.sub x).isZero = (real x).same (real y) := by
  rw [Bool.eq_iff_iff, Binary64.isZero_sub, same_iff]
  constructor
  · rintro ⟨u, hy, hx⟩
    exact ⟨.finite u, place?_real_finite.mpr hx, place?_real_finite.mpr hy⟩
  · rintro ⟨p, hx, hy⟩
    cases p with
    | finite u => exact ⟨u, place?_real_finite.mp hy, place?_real_finite.mp hx⟩
    | bottom => exact absurd ⟨place?_real_bottom.mp hx, place?_real_bottom.mp hy⟩ (h true)
    | top => exact absurd ⟨place?_real_top.mp hx, place?_real_top.mp hy⟩ (h false)

theorem toReal_whole {n : Int} (h : (whole n).toReal = .ok x) : Binary64.ofInt? n = some x := by
  unfold toReal at h
  cases hn : Binary64.ofInt? n with
  | none => simp [hn, ArithmeticProblem.fail] at h
  | some y => simpa [hn] using h

theorem isZero_toReal (h : a.toReal = .ok x) : x.isZero = a.isZero := by
  have hone := Binary64.one_pos
  cases a with
  | whole n =>
    obtain ⟨rfl, -⟩ := Binary64.ofInt?_eq_some (toReal_whole h)
    rw [Bool.eq_iff_iff, Binary64.isZero_ofUnits, Int.mul_eq_zero, isZero, beq_iff_eq]
    omega
  | real x =>
    cases h
    rfl
  | flag b =>
    cases h
    rw [Bool.eq_iff_iff, Binary64.isZero_ofUnits, isZero]
    cases b with
    | false => exact iff_of_true rfl rfl
    | true => exact iff_of_false (Int.natCast_ne_zero.mpr (Nat.ne_of_gt hone)) Bool.false_ne_true

/-- Only an infinity is taken for one. -/
theorem eq_infinite_of_toReal {s : Bool} (ha : a.isFlag = false)
    (h : a.toReal = .ok (.infinite s)) : a = real (.infinite s) := by
  cases a with
  | whole n => exact absurd rfl ((Binary64.ofInt?_eq_some (toReal_whole h)).2 s)
  | real x =>
    cases h
    rfl
  | flag b => cases ha

theorem plain_eq (h : a.isFlag = false) : a.plain = a := by
  cases a with
  | flag c => cases h
  | _ => rfl

/-- Either both scalars are whole numbers, or both are taken as floating-point numbers. -/
theorem sub_cases (h : b.sub a = .ok d) (ha : a.isFlag = false) (hb : b.isFlag = false) :
    (∃ m n, a = whole m ∧ b = whole n ∧ d = whole (n - m)) ∨
      ∃ x y, a.toReal = .ok x ∧ b.toReal = .ok y ∧ d = real (y.sub x) ∧
        a.meets b = (real x).same (real y) := by
  unfold sub arith at h
  rw [plain_eq ha, plain_eq hb] at h
  split at h
  · cases h
    exact .inl ⟨_, _, rfl, rfl, rfl⟩
  · rename_i hwhole
    obtain ⟨y, hy, h⟩ := Outcome.bind_eq_ok.mp h
    obtain ⟨x, hx, h⟩ := Outcome.bind_eq_ok.mp h
    cases h
    refine .inr ⟨x, y, hx, hy, rfl, ?_⟩
    unfold meets
    split
    · exact absurd rfl (hwhole _ _ rfl)
    · rw [hx, hy]

/-- A difference is zero exactly where both scalars are one for the arithmetic. -/
theorem sub_isZero (h : b.sub a = .ok d) (ha : a.isFlag = false) (hb : b.isFlag = false)
    (hab : ¬ a.SameInfinity b) : d.isZero = a.meets b := by
  rcases sub_cases h ha hb with ⟨m, n, rfl, rfl, rfl⟩ | ⟨x, y, hx, hy, rfl, hmeets⟩
  · rw [Bool.eq_iff_iff, isZero, meets, beq_iff_eq, beq_iff_eq]
    omega
  · rw [hmeets]
    refine isZero_sub_real ?_
    rintro s ⟨rfl, rfl⟩
    exact hab ⟨s, eq_infinite_of_toReal ha hx, eq_infinite_of_toReal hb hy⟩

theorem hypot_isZero (h : a.hypot b = .ok d) :
    d.isZero = (a.isZero && b.isZero) := by
  simp only [hypot, Outcome.bind_eq_ok] at h
  obtain ⟨x, hx, y, hy, h⟩ := h
  cases h
  rw [Bool.eq_iff_iff, Bool.and_eq_true, ← isZero_toReal hx, ← isZero_toReal hy]
  exact Binary64.isZero_hypot

end Scalar

end DiagramScript
