import DiagramScript.Proofs.Number.Near
import DiagramScript.Proofs.Statement.WellFormed

/-
  Sums and differences that do not round.

  A finite scalar has one value. An addition is exact where the value of the sum is the sum of
  the values (`AddsExactly`), and a subtraction likewise (`SubsExactly`). Whole numbers that are
  small together are added and subtracted exactly (`IsWhole.addsExactly`,
  `IsWhole.subsExactly`).
-/

namespace DiagramScript

namespace Scalar
variable {a b c : Scalar} {v w : ℚ}

theorem At.unique (hv : a.At v) (hw : a.At w) : v = w := by
  cases a with
  | whole n => exact (show v = n from hv).trans (show w = n from hw).symm
  | real x =>
    obtain ⟨u, hu, rfl⟩ := hv
    obtain ⟨u', hu', rfl⟩ := hw
    rw [hu, Option.some.injEq] at hu'
    rw [hu']
  | flag b => exact hv.elim

theorem IsFinite.exists_at (h : a.IsFinite) : ∃ v, a.At v := by
  cases a with
  | whole n => exact ⟨n, whole_at n⟩
  | real x =>
    cases x with
    | nan => cases h
    | infinite s => cases h
    | finite s r => exact ⟨_, _, rfl, rfl⟩
  | flag b => exact h.elim

theorem At.isFinite (h : a.At v) : a.IsFinite := by
  cases a with
  | whole n => trivial
  | real x =>
    obtain ⟨u, hu, -⟩ := h
    cases x with
    | finite s r => rfl
    | _ => cases hu
  | flag b => exact h.elim

theorem zero_at : (0 : Scalar).At 0 := by
  show (0 : ℚ) = ((0 : ℤ) : ℚ)
  rfl

theorem real_zero_at (sign : Bool) : (real (.zero sign)).At 0 := by
  refine ⟨0, ?_, by simp⟩
  cases sign with
  | true => rfl
  | false => rfl

theorem IsPositive.exists_at (h : a.IsPositive) : ∃ v, a.At v ∧ 0 < v := by
  obtain ⟨v, hv⟩ := h.finite.exists_at
  exact ⟨v, hv, (lt_at zero_at hv).mp h.above⟩

theorem same_at (ha : a.At v) (hb : b.At w) : a.same b = true ↔ v = w := by
  obtain ⟨m, hm, rfl⟩ := place_at ha
  obtain ⟨n, hn, rfl⟩ := place_at hb
  have htiny := Binary64.tiny_pos.ne'
  have hcancel : (m : ℚ) * Binary64.tiny = n * Binary64.tiny ↔ n = m := by
    rw [mul_left_inj' htiny, Int.cast_inj, eq_comm]
  rw [same_iff, hm, hn, hcancel]
  simp

theorem le_at (ha : a.At v) (hb : b.At w) : a.le b = true ↔ v ≤ w := by
  rw [le, Bool.or_eq_true, lt_at ha hb, same_at ha hb, le_iff_lt_or_eq]

theorem foldl_max_at {bs : List Scalar} (ha : a.At v) (hbs : ∀ b ∈ bs, ∃ w, b.At w) :
    ∃ m, (bs.foldl max a).At m ∧ v ≤ m ∧ ∀ b ∈ bs, ∀ w, b.At w → w ≤ m := by
  induction bs generalizing a v with
  | nil => exact ⟨v, ha, le_rfl, fun b hb => by cases hb⟩
  | cons b bs ih =>
    obtain ⟨w, hw⟩ := hbs b List.mem_cons_self
    obtain ⟨m, hm, hle, hall⟩ :=
      ih (max_at ha hw) fun c hc => hbs c (List.mem_cons_of_mem b hc)
    refine ⟨m, hm, (le_max_left v w).trans hle, ?_⟩
    intro c hc u hu
    cases List.mem_cons.mp hc with
    | inl hc =>
      rw [hc] at hu
      rw [hu.unique hw]
      exact (le_max_right v w).trans hle
    | inr hc => exact hall c hc u hu

/-! ## Sums -/

/-- An addition whose result has the sum of the values. -/
def AddsExactly (a b : Scalar) : Prop :=
  ∃ c v w, a.add b = .ok c ∧ a.At v ∧ b.At w ∧ c.At (v + w)

theorem AddsExactly.at (h : a.AddsExactly b) (hc : a.add b = .ok c) (ha : a.At v) (hb : b.At w) :
    c.At (v + w) := by
  obtain ⟨c', v', w', hc', hv', hw', hsum⟩ := h
  rw [hc, Except.ok.injEq] at hc'
  rw [hc', ha.unique hv', hb.unique hw']
  exact hsum

/-- A subtraction whose result has the difference of the values. -/
def SubsExactly (a b : Scalar) : Prop :=
  ∃ c v w, a.sub b = .ok c ∧ a.At v ∧ b.At w ∧ c.At (v - w)

/-- A number less another one, added to this one again, is the number where nothing rounds. -/
theorem SubsExactly.add_back {d e : Scalar} (h : a.SubsExactly b) (hd : a.sub b = .ok d)
    (hadd : b.AddsExactly d) (he : b.add d = .ok e) : e.same a = true := by
  obtain ⟨c, v, w, hc, hv, hw, hdiff⟩ := h
  rw [hd, Except.ok.injEq] at hc
  subst hc
  refine (same_at (hadd.at he hw hdiff) hv).mpr ?_
  ring

/-! ## Whole numbers -/

/-- A whole number that is off by less than one is not off at all. -/
theorem eq_of_near {n : ℤ} {z : ℚ} (hnear : |z - n| < 1) (hgrid : OnGrid 0 z) : z = n := by
  obtain ⟨k, rfl⟩ := hgrid
  rw [pow_zero, div_one] at hnear ⊢
  have hzero : |k - n| < 1 := by exact_mod_cast hnear
  have : k = n := by
    have := Int.abs_lt_one_iff.mp hzero
    omega
  rw [this]

/-- A whole number of at most the given size. -/
def IsWhole (m : ℤ) (a : Scalar) : Prop := ∃ n : ℤ, a.At n ∧ |n| ≤ m

variable {m n : ℤ}

theorem IsWhole.bounds (ha : a.IsWhole m) (hb : b.IsWhole n) (h : m + n < 2 ^ 50) :
    ∃ k l : ℤ, a.At k ∧ b.At l ∧ |k| + |l| ≤ m + n ∧ |(k : ℚ)| ≤ 2 ^ 50 ∧ |(l : ℚ)| ≤ 2 ^ 50 ∧
      (|(k : ℚ)| + |(l : ℚ)|) / 2 ^ 50 < 1 := by
  obtain ⟨k, hk, hkm⟩ := ha
  obtain ⟨l, hl, hln⟩ := hb
  have hk0 := abs_nonneg k
  have hl0 := abs_nonneg l
  have hsum : |(k : ℚ)| + |(l : ℚ)| < 2 ^ 50 := by
    exact_mod_cast (show |k| + |l| < 2 ^ 50 by omega)
  have hk0 := abs_nonneg (k : ℚ)
  have hl0 := abs_nonneg (l : ℚ)
  refine ⟨k, l, hk, hl, add_le_add hkm hln, by linarith, by linarith, ?_⟩
  rwa [div_lt_one (by positivity)]

/-- Small whole numbers are added exactly. -/
theorem IsWhole.addsExactly (ha : a.IsWhole m) (hb : b.IsWhole n) (h : m + n < 2 ^ 50) :
    a.AddsExactly b := by
  obtain ⟨k, l, hk, hl, -, hkle, hlle, hlt⟩ := ha.bounds hb h
  obtain ⟨c, hc, z, hz, hnear, hgrid⟩ := (add_at hk hl hkle hlle (by norm_num)).exists_ok
  have hwhole : z = (k + l : ℤ) := by
    refine eq_of_near ?_ (hgrid 0 (by norm_num) (OnGrid.intCast 0 k) (OnGrid.intCast 0 l))
    push_cast
    exact hnear.trans_lt hlt
  refine ⟨c, k, l, hc, hk, hl, ?_⟩
  rw [hwhole] at hz
  push_cast at hz
  exact hz

theorem IsWhole.subsExactly (ha : a.IsWhole m) (hb : b.IsWhole n) (h : m + n < 2 ^ 50) :
    a.SubsExactly b := by
  obtain ⟨k, l, hk, hl, -, hkle, hlle, hlt⟩ := ha.bounds hb h
  obtain ⟨c, hc, z, hz, hnear, hgrid⟩ := (sub_at hk hl hkle hlle (by norm_num)).exists_ok
  have hwhole : z = (k - l : ℤ) := by
    refine eq_of_near ?_ (hgrid 0 (by norm_num) (OnGrid.intCast 0 k) (OnGrid.intCast 0 l))
    push_cast
    exact hnear.trans_lt hlt
  refine ⟨c, k, l, hc, hk, hl, ?_⟩
  rw [hwhole] at hz
  push_cast at hz
  exact hz

theorem IsWhole.add (ha : a.IsWhole m) (hb : b.IsWhole n) (h : m + n < 2 ^ 50)
    (hc : a.add b = .ok c) : c.IsWhole (m + n) := by
  have hexact := ha.addsExactly hb h
  obtain ⟨k, l, hk, hl, hle, -⟩ := ha.bounds hb h
  refine ⟨k + l, ?_, (abs_add_le k l).trans hle⟩
  have hat := hexact.at hc hk hl
  push_cast
  exact hat

theorem IsWhole.sub (ha : a.IsWhole m) (hb : b.IsWhole n) (h : m + n < 2 ^ 50)
    (hc : a.sub b = .ok c) : c.IsWhole (m + n) := by
  obtain ⟨d, v, w, hd, hv, hw, hdiff⟩ := ha.subsExactly hb h
  obtain ⟨k, l, hk, hl, hle, -⟩ := ha.bounds hb h
  rw [hc, Except.ok.injEq] at hd
  refine ⟨k - l, ?_, (abs_sub k l).trans hle⟩
  rw [hd]
  push_cast
  rw [hk.unique hv, hl.unique hw]
  exact hdiff

/-- The whole number that a scalar is. -/
def whole? : Scalar → Option ℤ
  | whole n => some n
  | real x => if x.isWhole then x.floor? else none
  | flag _ => none

theorem at_of_whole? (h : a.whole? = some n) : a.At n := by
  cases a with
  | whole k =>
    cases h
    exact whole_at n
  | real x =>
    cases hwhole : x.isWhole with
    | false =>
      rw [whole?, hwhole] at h
      cases h
    | true =>
      rw [whole?, hwhole, if_pos rfl, Binary64.floor?] at h
      unfold Binary64.isWhole at hwhole
      cases hu : x.units? with
      | none =>
        rw [hu] at h
        cases h
      | some u =>
        rw [hu] at h hwhole
        -- A whole number has the units of 1 as a factor, so the quotient is exact.
        have hmod : u % (Binary64.one : ℤ) = 0 := eq_of_beq hwhole
        have hdiv : u / (Binary64.one : ℤ) = n := Option.some.inj h
        refine ⟨u, hu, ?_⟩
        rw [← Int.ediv_mul_cancel (Int.dvd_of_emod_eq_zero hmod), hdiv, intCast_units]
  | flag b => cases h

/-- Whether a scalar is a whole number of at most the given size. -/
def isWhole (m : ℤ) (a : Scalar) : Bool := a.whole?.any fun n => decide (n.natAbs ≤ m)

theorem isWhole_of_check (h : a.isWhole m = true) : a.IsWhole m := by
  unfold isWhole at h
  cases hn : a.whole? with
  | none =>
    rw [hn] at h
    cases h
  | some n =>
    rw [hn] at h
    have hle : (n.natAbs : ℤ) ≤ m := of_decide_eq_true h
    rw [Int.natCast_natAbs] at hle
    exact ⟨n, at_of_whole? hn, hle⟩

end Scalar

end DiagramScript
