import DiagramScript.Proofs.Number.Rank
import DiagramScript.Proofs.Scalar
import Mathlib.Algebra.Order.Field.Rat
import Mathlib.Algebra.Order.AbsoluteValue.Basic
import Mathlib.Tactic.FieldSimp
import Mathlib.Tactic.LinearCombination
import Mathlib.Tactic.Linarith
import Mathlib.Tactic.NormNum
import Mathlib.Tactic.Positivity
import Mathlib.Tactic.Push
import Mathlib.Tactic.Ring

/-
  Values of numbers, and what rounding does to them.
-/

namespace DiagramScript

/-- A fraction whose denominator is 2 to the `m`. -/
def OnGrid (m : ℕ) (v : ℚ) : Prop := ∃ k : ℤ, v = k / 2 ^ m

namespace Binary64

theorem one_eq {j k : ℕ} (h : j + k = 1074) : one = 2 ^ j * 2 ^ k := by
  have hpow (n : ℕ) (hn : j + k = n) : Nat.pow 2 n = 2 ^ j * 2 ^ k := by
    subst hn
    exact Nat.pow_add 2 j k
  revert h
  delta one
  generalize 1074 = n
  exact hpow n

/-- The value of a unit. -/
def tiny : ℚ := 1 / one

theorem tiny_pos : 0 < tiny := by
  have h : (0 : ℚ) < one := by exact_mod_cast one_pos
  unfold tiny
  positivity

theorem one_mul_tiny : (one : ℚ) * tiny = 1 := by
  have h : (one : ℚ) ≠ 0 := by exact_mod_cast one_pos.ne'
  unfold tiny
  field_simp

section Grid
variable {j m : ℕ}

theorem one_cast (h : j + m = 1074) : (one : ℚ) = 2 ^ j * 2 ^ m := by
  rw [one_eq h]
  push_cast
  rfl

theorem tiny_le (hm : m ≤ 1074) : tiny ≤ 1 / 2 ^ m := by
  obtain ⟨j, hj⟩ : ∃ j, j + m = 1074 := ⟨1074 - m, by omega⟩
  have hone : (1 : ℚ) ≤ 2 ^ j := one_le_pow₀ (by norm_num)
  rw [tiny, one_cast hj]
  gcongr
  exact le_mul_of_one_le_left (by positivity) hone

theorem units_eq (h : j + m = 1074) (k : ℤ) : (k * 2 ^ j : ℤ) * tiny = k / 2 ^ m := by
  have hj : (2 ^ j : ℚ) ≠ 0 := by positivity
  rw [tiny, one_cast h]
  push_cast
  field_simp

/-- The fractions of a grid are the multiples of some number of units. -/
theorem exists_units (h : j + m = 1074) {v : ℚ} (hv : OnGrid m v) :
    ∃ k : ℤ, v = (k * 2 ^ j : ℤ) * tiny := by
  obtain ⟨k, rfl⟩ := hv
  exact ⟨k, (units_eq h k).symm⟩

theorem onGrid_units (h : j + m = 1074) {u : ℤ} (hu : (2 ^ j : ℤ) ∣ u) :
    OnGrid m (u * tiny) := by
  obtain ⟨k, rfl⟩ := hu
  refine ⟨k, ?_⟩
  rw [mul_comm (2 ^ j), units_eq h]

end Grid

/-- A number that a value may be rounded to: it is off by half a unit at most or by a small share
of the value, and it is a fraction of every grid that has the value. -/
structure Rounds (v w : ℚ) : Prop where
  error : 2 * |w - v| ≤ tiny ∨ |w - v| ≤ |v| / 2 ^ 53
  grid : ∀ m ≤ 1074, OnGrid m v → OnGrid m w

namespace Rounds
variable {v w : ℚ}

theorem neg (h : Rounds v w) : Rounds (-v) (-w) := by
  have hneg {m : ℕ} {v : ℚ} : OnGrid m v → OnGrid m (-v) := by
    rintro ⟨k, rfl⟩
    exact ⟨-k, by push_cast; ring⟩
  refine ⟨?_, fun m hm hv => hneg (h.grid m hm (by simpa using hneg hv))⟩
  rw [abs_neg, show -w - -v = -(w - v) by ring, abs_neg]
  exact h.error

theorem near (h : Rounds v w) : |w - v| ≤ |v| / 2 ^ 53 + tiny := by
  have htiny := tiny_pos
  have habs := abs_nonneg (w - v)
  have hshare : 0 ≤ |v| / 2 ^ 53 := by positivity
  rcases h.error with h | h <;> linarith

/-- A value of whole units is off by a small share only. -/
theorem near_of_units {u : ℤ} (hv : v = u * tiny) (h : Rounds v w) : |w - v| ≤ |v| / 2 ^ 53 := by
  rcases h.error with herror | herror
  · -- Half a unit is less than the least distance of two such values.
    have hfine : 0 + 1074 = 1074 := rfl
    obtain ⟨n, hn⟩ := exists_units hfine
      (h.grid 1074 le_rfl (hv ▸ onGrid_units hfine (one_dvd u)))
    rw [pow_zero, mul_one] at hn
    have hdiff : w - v = ((n - u : ℤ) : ℚ) * tiny := by
      rw [hn, hv]
      push_cast
      ring
    have htiny := tiny_pos
    rw [hdiff, abs_mul, abs_of_pos htiny] at herror ⊢
    have hsmall : 2 * |((n - u : ℤ) : ℚ)| ≤ 1 := by
      refine le_of_mul_le_mul_right ?_ htiny
      linarith
    have hint : 2 * |n - u| ≤ 1 := by exact_mod_cast hsmall
    have hzero : n - u = 0 := by
      rw [← abs_nonpos_iff]
      omega
    rw [hzero]
    simp only [Int.cast_zero, abs_zero, zero_mul]
    positivity
  · exact herror

end Rounds

/-- A finite number of some value. -/
def At (x : Binary64) (v : ℚ) : Prop := ∃ u : ℤ, x.units? = some u ∧ v = u * tiny

/-- The value of a magnitude of some sign. -/
def signed (negative : Bool) (w : ℚ) : ℚ := if negative then -w else w

theorem ofRank_at (negative : Bool) {r : ℕ} (h : r < magnitudes) :
    (ofRank negative r).At (signed negative (unitsOfRank r * tiny)) := by
  refine ⟨signedUnits negative r, ?_, ?_⟩
  · rw [ofRank, dif_pos h]
    rfl
  · cases negative
    · simp [signed, signedUnits]
    · simp [signed, signedUnits]

section Ratio
variable {n d : ℕ} {v : ℚ} {e : ℕ}

/-- A quotient below some bound has a finite rank. -/
theorem rankOfRatio_finite (hd : 0 < d) (hv : v * d = n * tiny) (hle : v ≤ 2 ^ e) (he : e ≤ 900) :
    rankOfRatio n d < magnitudes := by
  obtain ⟨j, hj⟩ : ∃ j, j = 1074 := ⟨_, rfl⟩
  have hone : (one : ℚ) = 2 ^ j := by
    have h := one_eq (j := j) (k := 0) (by omega)
    rw [Nat.pow_zero, Nat.mul_one] at h
    rw [h]
    norm_num
  have hn : (n : ℚ) ≤ 2 ^ (e + j) * d := by
    have hunits : (n : ℚ) = v * d * one := by
      rw [hv, mul_assoc, mul_comm tiny, one_mul_tiny, mul_one]
    rw [hunits, hone, pow_add]
    have : (0 : ℚ) ≤ d * 2 ^ j := by positivity
    nlinarith
  have hnat : n ≤ 2 ^ (e + j) * d := by exact_mod_cast hn
  have hdiv : n / d ≤ 2 ^ (e + j) := by
    have := Nat.div_le_div_right (c := d) hnat
    rwa [Nat.mul_div_cancel _ hd] at this
  have hnext : 2 ^ (e + j) < 2 ^ (e + j + 1) := Nat.pow_lt_pow_right (by decide) (by omega)
  exact rankOfRatio_lt (Nat.lt_of_le_of_lt hdiv hnext) (by omega)

theorem rankOfRatio_error (hd : 0 < d) (hv : v * d = n * tiny) :
    2 * |unitsOfRank (rankOfRatio n d) * tiny - v| ≤ tiny ∨
      |unitsOfRank (rankOfRatio n d) * tiny - v| ≤ v / 2 ^ 53 := by
  obtain ⟨step, hlow, hhigh, hstep⟩ := units_rankOfRatio_error n hd
  generalize unitsOfRank (rankOfRatio n d) = u at *
  have hd' : (0 : ℚ) < d := by exact_mod_cast hd
  have htiny := tiny_pos
  have hlow' : 2 * (u * d : ℚ) ≤ 2 * n + step * d := by exact_mod_cast hlow
  have hhigh' : 2 * (n : ℚ) ≤ 2 * (u * d) + step * d := by exact_mod_cast hhigh
  -- Half a step, in units and then in values.
  have herror : 2 * |u * tiny - v| ≤ step * tiny := by
    have habs : |(u * tiny - v) * d| ≤ step * d / 2 * tiny := by
      rw [show (u * tiny - v) * d = (u * d - n) * tiny by rw [sub_mul, hv]; ring, abs_mul,
        abs_of_pos htiny]
      exact mul_le_mul_of_nonneg_right (abs_le.mpr ⟨by linarith, by linarith⟩) htiny.le
    rw [abs_mul, abs_of_pos hd'] at habs
    refine le_of_mul_le_mul_right ?_ hd'
    linarith
  rcases hstep with rfl | hstep
  · left
    simpa using herror
  · right
    have hstep' : (2 ^ 52 * step * d : ℚ) ≤ n := by
      rw [binade_eq] at hstep
      exact_mod_cast hstep
    -- A step above the smallest one is a small share of the quotient.
    have hshare : step * tiny ≤ v / 2 ^ 52 := by
      rw [le_div_iff₀ (by positivity)]
      refine le_of_mul_le_mul_right ?_ hd'
      rw [hv]
      calc step * tiny * 2 ^ 52 * d = 2 ^ 52 * step * d * tiny := by ring
        _ ≤ n * tiny := mul_le_mul_of_nonneg_right hstep' htiny.le
    have hsplit : v / 2 ^ 52 = 2 * (v / 2 ^ 53) := by ring
    linarith

theorem rankOfRatio_grid (hd : 0 < d) (hv : v * d = n * tiny) {m : ℕ} (hm : m ≤ 1074)
    (hgrid : OnGrid m v) : OnGrid m (unitsOfRank (rankOfRatio n d) * tiny) := by
  obtain ⟨j, hj⟩ : ∃ j, j + m = 1074 := ⟨1074 - m, by omega⟩
  obtain ⟨k, hk⟩ := exists_units hj hgrid
  have hn : (n : ℤ) = k * 2 ^ j * d := by
    have hunits : (n : ℚ) * tiny = (k * 2 ^ j * d : ℤ) * tiny := by
      rw [← hv, hk]
      push_cast
      ring
    exact_mod_cast mul_right_cancel₀ tiny_pos.ne' hunits
  -- The quotient is not negative, and neither is the number of steps in it.
  obtain ⟨i, rfl⟩ : ∃ i : ℕ, k = i := by
    refine ⟨k.toNat, (Int.toNat_of_nonneg ?_).symm⟩
    have hpos : (0 : ℤ) < 2 ^ j * d := by positivity
    refine nonneg_of_mul_nonneg_left (b := 2 ^ j * (d : ℤ)) ?_ hpos
    rw [← mul_assoc, ← hn]
    positivity
  have hnat : n = i * 2 ^ j * d := by exact_mod_cast hn
  have hdvd := dvd_units_rankOfRatio (k := i) (j := j) hd
  rw [← hnat] at hdvd
  have hunits := onGrid_units hj (u := unitsOfRank (rankOfRatio n d)) (by exact_mod_cast hdvd)
  exact_mod_cast hunits

/-- Below some bound the number nearest to a quotient is finite. -/
theorem ofRatio_at (negative : Bool) (hd : 0 < d) (hv : v * d = n * tiny) (hle : v ≤ 2 ^ e)
    (he : e ≤ 900) :
    ∃ w, (ofRatio negative n d).At w ∧ Rounds (signed negative v) w := by
  refine ⟨_, ofRank_at negative (rankOfRatio_finite hd hv hle he), ?_⟩
  have hnonneg : 0 ≤ v := by
    refine nonneg_of_mul_nonneg_left (b := (d : ℚ)) ?_ (by exact_mod_cast hd)
    rw [hv]
    exact mul_nonneg (by positivity) tiny_pos.le
  have hrounds : Rounds v (unitsOfRank (rankOfRatio n d) * tiny) := by
    refine ⟨?_, fun m hm => rankOfRatio_grid hd hv hm⟩
    rw [abs_of_nonneg hnonneg]
    exact rankOfRatio_error hd hv
  cases negative
  · exact hrounds
  · exact hrounds.neg

end Ratio

/-! ## Operations -/

theorem At.exists_rank {x : Binary64} {v : ℚ} (h : x.At v) :
    ∃ s r, x = .finite s r ∧ v = signed s (unitsOfRank r * tiny) := by
  obtain ⟨u, hu, rfl⟩ := h
  cases x with
  | nan => cases hu
  | infinite s => cases hu
  | finite s r =>
    refine ⟨s, r, rfl, ?_⟩
    rw [units?, Option.some.injEq] at hu
    rw [← hu]
    cases s <;> simp [signed, signedUnits]

theorem abs_signed (s : Bool) (w : ℚ) : |signed s w| = |w| := by
  cases s
  · rfl
  · exact abs_neg w

theorem signed_mul (a b : Bool) (v w : ℚ) :
    signed (a != b) (v * w) = signed a v * signed b w := by
  cases a <;> cases b <;> simp [signed]

theorem signed_div (a b : Bool) (v w : ℚ) :
    signed (a != b) (v / w) = signed a v / signed b w := by
  cases a <;> cases b <;> simp [signed, neg_div, div_neg]

section Operations
variable {x y : Binary64} {v w : ℚ} {e : ℕ}

/-- A number of at least `1 / 2 ^ m` has all its binary digits within 52 further places. -/
theorem At.onGrid (hx : x.At v) {m : ℕ} (hm : m + 52 ≤ 1074) (hv : 1 / 2 ^ m ≤ |v|) :
    OnGrid (m + 52) v := by
  obtain ⟨s, r, rfl, rfl⟩ := hx.exists_rank
  obtain ⟨k, hk⟩ : ∃ k, k + (m + 52) = 1074 := ⟨1074 - (m + 52), by omega⟩
  have hnonneg : 0 ≤ (unitsOfRank r : ℚ) * tiny := mul_nonneg (by positivity) tiny_pos.le
  -- The units of so great a magnitude are a multiple of `2 ^ k`.
  have hunits : 2 ^ (52 + k) ≤ unitsOfRank r := by
    have hpos : (0 : ℚ) < 2 ^ m := by positivity
    have hone : (one : ℚ) = 2 ^ (52 + k) * 2 ^ m := by
      rw [one_cast hk, ← pow_add, ← pow_add, Nat.add_comm 52 k, Nat.add_assoc, Nat.add_comm m]
    have hscale : 1 / 2 ^ m * (one : ℚ) ≤ unitsOfRank r := by
      rw [abs_signed, abs_of_nonneg hnonneg] at hv
      have := mul_le_mul_of_nonneg_right hv (Nat.cast_nonneg one)
      rwa [mul_assoc, mul_comm tiny, one_mul_tiny, mul_one] at this
    rw [hone, mul_comm, mul_one_div, mul_div_cancel_right₀ _ hpos.ne'] at hscale
    exact_mod_cast hscale
  have hdvd : (2 ^ k : ℤ) ∣ unitsOfRank r := by exact_mod_cast dvd_unitsOfRank hunits
  have hgrid : OnGrid (m + 52) (signedUnits s r * tiny) := by
    refine onGrid_units hk ?_
    cases s
    · exact hdvd
    · exact dvd_neg.mpr hdvd
  have hsigned : (signedUnits s r : ℚ) * tiny = signed s (unitsOfRank r * tiny) := by
    cases s <;> simp [signed, signedUnits]
  rwa [← hsigned]

theorem ofUnits_at (negativeZero : Bool) (u : ℤ) (hle : |u * tiny| ≤ 2 ^ e) (he : e ≤ 900) :
    ∃ z, (ofUnits negativeZero u).At z ∧ Rounds (u * tiny) z := by
  unfold ofUnits
  split
  · rename_i hzero
    refine ⟨0, ⟨0, ?_, by simp⟩, ?_⟩
    · cases negativeZero <;> rfl
    · rw [hzero, Int.cast_zero, zero_mul]
      exact ⟨.inr (by simp), fun m _ h => h⟩
  · have hsigned : signed (decide (u < 0)) (u.natAbs * tiny) = u * tiny := by
      have habs : (u.natAbs : ℚ) = |(u : ℚ)| := by
        rw [Nat.cast_natAbs, Int.cast_abs]
      rw [habs]
      by_cases hu : u < 0
      · have hcast : (u : ℚ) < 0 := by exact_mod_cast hu
        simp [signed, hu, abs_of_neg hcast]
      · have hcast : (0 : ℚ) ≤ u := by exact_mod_cast Int.not_lt.mp hu
        simp [signed, hu, abs_of_nonneg hcast]
    rw [← hsigned, abs_signed] at hle
    have := ofRatio_at (decide (u < 0)) (n := u.natAbs) (d := 1) (by decide) (by simp)
      ((le_abs_self _).trans hle) he
    rwa [hsigned] at this

theorem add_at (hx : x.At v) (hy : y.At w) (hle : |v + w| ≤ 2 ^ e) (he : e ≤ 900) :
    ∃ z, (x.add y).At z ∧ |z - (v + w)| ≤ |v + w| / 2 ^ 53 ∧
      ∀ m ≤ 1074, OnGrid m v → OnGrid m w → OnGrid m z := by
  obtain ⟨a, ha, rfl⟩ := hx
  obtain ⟨b, hb, rfl⟩ := hy
  cases x with
  | nan => cases ha
  | infinite s => cases ha
  | finite s r =>
    cases y with
    | nan => cases hb
    | infinite s' => cases hb
    | finite s' r' =>
      rw [units?, Option.some.injEq] at ha hb
      subst ha
      subst hb
      have hsum : (signedUnits s r : ℚ) * tiny + signedUnits s' r' * tiny =
          (signedUnits s r + signedUnits s' r' : ℤ) * tiny := by
        push_cast
        ring
      rw [hsum] at hle ⊢
      obtain ⟨z, hz, hround⟩ := ofUnits_at (s && s') _ hle he
      refine ⟨z, hz, hround.near_of_units rfl, fun m hm hv hw => hround.grid m hm ?_⟩
      rw [← hsum]
      obtain ⟨k, hk⟩ := hv
      obtain ⟨l, hl⟩ := hw
      exact ⟨k + l, by rw [hk, hl]; push_cast; ring⟩

theorem neg_at (hx : x.At v) : x.neg.At (-v) := by
  obtain ⟨s, r, rfl, rfl⟩ := hx.exists_rank
  refine ⟨signedUnits (!s) r, rfl, ?_⟩
  cases s <;> simp [signed, signedUnits]

theorem abs_at (hx : x.At v) : x.abs.At |v| := by
  obtain ⟨s, r, rfl, rfl⟩ := hx.exists_rank
  refine ⟨signedUnits false r, rfl, ?_⟩
  rw [abs_signed, abs_of_nonneg (mul_nonneg (by positivity) tiny_pos.le)]
  simp [signedUnits]

theorem mul_at (hx : x.At v) (hy : y.At w) (hle : |v * w| ≤ 2 ^ e) (he : e ≤ 900) :
    ∃ z, (x.mul y).At z ∧ Rounds (v * w) z := by
  obtain ⟨s, r, rfl, rfl⟩ := hx.exists_rank
  obtain ⟨s', r', rfl, rfl⟩ := hy.exists_rank
  rw [← signed_mul, abs_signed] at hle
  rw [← signed_mul]
  refine ofRatio_at (s != s') one_pos ?_ ((le_abs_self _).trans hle) he
  have hone := one_mul_tiny
  push_cast
  linear_combination (unitsOfRank r * unitsOfRank r' * tiny : ℚ) * hone

theorem isZero_iff (hx : x.At v) : x.isZero = true ↔ v = 0 := by
  obtain ⟨s, r, rfl, rfl⟩ := hx.exists_rank
  have htiny := tiny_pos.ne'
  rw [isZero, beq_iff_eq, ← unitsOfRank_eq_zero]
  cases s <;> simp [signed, htiny]

theorem div_at (hx : x.At v) (hy : y.At w) (hw : w ≠ 0) (hle : |v / w| ≤ 2 ^ e) (he : e ≤ 900) :
    ∃ z, (x.div y).At z ∧ Rounds (v / w) z := by
  have hzero : y.isZero = false := by
    rw [Bool.eq_false_iff, Ne, isZero_iff hy]
    exact hw
  obtain ⟨s, r, rfl, rfl⟩ := hx.exists_rank
  obtain ⟨s', r', rfl, rfl⟩ := hy.exists_rank
  rw [isZero, beq_eq_false_iff_ne] at hzero
  rw [← signed_div, abs_signed] at hle
  rw [← signed_div, div, if_neg hzero]
  have hpos : unitsOfRank r' ≠ 0 := by
    rintro h
    rw [h] at hw
    cases s' <;> simp [signed] at hw
  have hcast : (unitsOfRank r' : ℚ) ≠ 0 := by exact_mod_cast hpos
  refine ofRatio_at (s != s') (Nat.pos_of_ne_zero hpos) ?_ ((le_abs_self _).trans hle) he
  have hone := one_mul_tiny
  have htiny := tiny_pos.ne'
  push_cast
  field_simp
  linear_combination -(unitsOfRank r : ℚ) * hone

/-- The length of a vector is no less than either coordinate and at most about twice their sum. -/
theorem hypot_at (hx : x.At v) (hy : y.At w) (hle : |v| + |w| + tiny ≤ 2 ^ e) (he : e ≤ 900) :
    ∃ z, (x.hypot y).At z ∧ |v| ≤ z ∧ |w| ≤ z ∧ z ≤ 2 * (|v| + |w| + tiny) := by
  obtain ⟨s, r, rfl, rfl⟩ := hx.exists_rank
  obtain ⟨s', r', rfl, rfl⟩ := hy.exists_rank
  have htiny := tiny_pos
  have hunits (r : ℕ) : |(unitsOfRank r : ℚ) * tiny| = unitsOfRank r * tiny :=
    abs_of_nonneg (mul_nonneg (by positivity) htiny.le)
  simp only [abs_signed, hunits] at hle ⊢
  set a := unitsOfRank r
  set b := unitsOfRank r'
  -- The root is taken of the squares of the units, and lies between each coordinate and their
  -- sum.
  have hsquare : a * a + b * b < (a + b + 1) * (a + b + 1) := by nlinarith
  obtain ⟨j, hj⟩ : ∃ j, j + 0 = 1074 := ⟨_, rfl⟩
  have hbound : a + b + 1 ≤ 2 ^ (e + j) := by
    have hone := one_cast hj
    rw [pow_zero, mul_one] at hone
    have hcast : ((a + b + 1 : ℕ) : ℚ) * tiny ≤ 2 ^ e := by
      push_cast
      linarith
    have hscale : ((a + b + 1 : ℕ) : ℚ) ≤ 2 ^ e * one := by
      have := mul_le_mul_of_nonneg_right hcast (Nat.cast_nonneg one)
      rwa [mul_assoc, mul_comm tiny, one_mul_tiny, mul_one] at this
    rw [hone, ← pow_add] at hscale
    exact_mod_cast hscale
  have hfinite := rankOfSqrt_lt hsquare hbound (by omega)
  refine ⟨_, ofRank_at false hfinite, ?_, ?_, ?_⟩
  · have := units_le_rankOfSqrt (r := r) (Nat.le_add_right (a * a) (b * b))
    exact mul_le_mul_of_nonneg_right (by exact_mod_cast this) htiny.le
  · have := units_le_rankOfSqrt (r := r') (Nat.le_add_left (b * b) (a * a))
    exact mul_le_mul_of_nonneg_right (by exact_mod_cast this) htiny.le
  · have h := rankOfSqrt_le hsquare
    have hcast : (unitsOfRank (rankOfSqrt (a * a + b * b)) : ℚ) ≤ 2 * (a + b + 1) := by
      exact_mod_cast h
    have := mul_le_mul_of_nonneg_right hcast htiny.le
    show (unitsOfRank (rankOfSqrt (a * a + b * b)) : ℚ) * tiny ≤ _
    linarith

end Operations

end Binary64
end DiagramScript
