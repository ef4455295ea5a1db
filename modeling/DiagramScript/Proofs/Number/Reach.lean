import DiagramScript.Proofs.Number.Exact

/-
  Coordinates that stay in reach.

  Coordinates and lengths are measured in reaches. As long as they are less than `far` reaches,
  an operation on them does not fail and is off by less than one reach (`add_near`, `sub_near`,
  `half_near`), so a count of reaches bounds what a computation gives (`Scalar.Within`): each
  operation adds the counts of its operands and one more for the error.
-/

namespace DiagramScript

/-- A length past any that a drawing needs, and far below the greatest finite number. -/
def reach : ℚ := 2 ^ 80

/-- How many reaches a coordinate may lie from the origin. -/
def far : ℕ := 2 ^ 32

theorem reach_pos : 0 < reach := by
  unfold reach
  positivity

theorem one_le_reach : 1 ≤ reach := by
  unfold reach
  norm_num

theorem far_mul_reach : (far : ℚ) * reach = 2 ^ 112 := by
  unfold far reach
  norm_num

namespace Scalar
variable {a b : Scalar} {v w : ℚ} {k l : ℕ}

/-! ## Errors -/

theorem add_near (ha : a.At v) (hb : b.At w) (hv : |v| ≤ far * reach) (hw : |w| ≤ far * reach) :
    Gives (fun c => ∃ z, c.At z ∧ |z - (v + w)| ≤ reach ∧
      ∀ m ≤ 1074, OnGrid m v → OnGrid m w → OnGrid m z) (a.add b) := by
  rw [far_mul_reach] at hv hw
  refine (add_at ha hb hv hw (by norm_num)).imp ?_
  rintro c ⟨z, hz, herror, hgrid⟩
  refine ⟨z, hz, herror.trans ?_, hgrid⟩
  unfold reach
  linarith

theorem sub_near (ha : a.At v) (hb : b.At w) (hv : |v| ≤ far * reach) (hw : |w| ≤ far * reach) :
    Gives (fun c => ∃ z, c.At z ∧ |z - (v - w)| ≤ reach ∧
      ∀ m ≤ 1074, OnGrid m v → OnGrid m w → OnGrid m z) (a.sub b) := by
  rw [far_mul_reach] at hv hw
  refine (sub_at ha hb hv hw (by norm_num)).imp ?_
  rintro c ⟨z, hz, herror, hgrid⟩
  refine ⟨z, hz, herror.trans ?_, hgrid⟩
  unfold reach
  linarith

/-- A difference that is added again leads back, up to two errors. -/
theorem sub_add_near (ha : a.At v) (hb : b.At w) (hv : |v| ≤ k * reach) (hw : |w| ≤ k * reach)
    (hk : 2 * k + 1 ≤ far) :
    Gives (fun d => (∃ u, d.At u ∧ |u| ≤ (2 * k + 1 : ℕ) * reach) ∧
      Gives (fun c => ∃ z, c.At z ∧ |z - v| ≤ 2 * reach) (b.add d)) (a.sub b) := by
  have hcast : ((2 * k + 1 : ℕ) : ℚ) ≤ far := by exact_mod_cast hk
  have hfar : ((2 * k + 1 : ℕ) : ℚ) * reach ≤ far * reach :=
    mul_le_mul_of_nonneg_right hcast reach_pos.le
  push_cast at hfar ⊢
  have hv0 := abs_nonneg v
  have hw0 := abs_nonneg w
  have hreach := reach_pos
  refine (sub_near ha hb (by linarith) (by linarith)).imp ?_
  rintro d ⟨u, hu, herror, -⟩
  have hdiff := abs_sub v w
  have hu' := abs_sub_abs_le_abs_sub u (v - w)
  refine ⟨⟨u, hu, by linarith⟩, (add_near hb hu (by linarith) (by linarith)).imp ?_⟩
  rintro c ⟨z, hz, hback, -⟩
  refine ⟨z, hz, ?_⟩
  calc |z - v| = |(z - (w + u)) + (u - (v - w))| := by congr 1; ring
    _ ≤ |z - (w + u)| + |u - (v - w)| := abs_add_le _ _
    _ ≤ 2 * reach := by linarith

/-- A half has one binary place more, and hardly another value. -/
theorem half_near (ha : a.At v) (hv : |v| ≤ far * reach) :
    Gives (fun c => ∃ z, c.At z ∧ |z - v / 2| ≤ |v| / 2 ^ 50 + Binary64.tiny ∧
      ∀ m < 1074, OnGrid m v → OnGrid (m + 1) z) a.half := by
  rw [far_mul_reach] at hv
  have hv0 := abs_nonneg v
  have hhalf : |v / 2| = |v| / 2 := by rw [abs_div, abs_two]
  have htwo : (whole 2).At 2 := by norm_num [At]
  refine (div_at ha htwo hv (by norm_num) (by norm_num) (by norm_num)
    (by rw [hhalf]; linarith)).imp ?_
  rintro c ⟨z, hz, herror, hgrid⟩
  refine ⟨z, hz, ?_, hgrid rfl⟩
  rw [hhalf] at herror
  linarith

theorem tiny_le_reach : Binary64.tiny ≤ reach := by
  refine (Binary64.tiny_le (m := 0) (by norm_num)).trans ?_
  rw [pow_zero, div_one]
  exact one_le_reach

/-! ## Counts of reaches -/

/-- A finite number of at most so many reaches. -/
def Within (k : ℕ) (a : Scalar) : Prop := ∃ v, a.At v ∧ |v| ≤ k * reach

theorem le_far (h : k ≤ far) (hv : |v| ≤ k * reach) : |v| ≤ far * reach := by
  have hk : (k : ℚ) ≤ far := by exact_mod_cast h
  exact hv.trans (mul_le_mul_of_nonneg_right hk reach_pos.le)

theorem le_two_pow (h : k ≤ far) (hv : |v| ≤ k * reach) : |v| ≤ 2 ^ 112 :=
  far_mul_reach ▸ le_far h hv

namespace Within

theorem mono (ha : a.Within k) (h : k ≤ l) : a.Within l := by
  obtain ⟨v, hv, hle⟩ := ha
  have hk : (k : ℚ) ≤ l := by exact_mod_cast h
  exact ⟨v, hv, hle.trans (mul_le_mul_of_nonneg_right hk reach_pos.le)⟩

theorem whole {n : ℤ} (h : |(n : ℚ)| ≤ k * reach) : (Scalar.whole n).Within k :=
  ⟨n, whole_at n, h⟩

theorem of_nat {n : ℕ} (h : n ≤ 2 ^ 80) : (Scalar.whole n).Within 1 := by
  have hcast : (n : ℚ) ≤ 2 ^ 80 := by exact_mod_cast h
  refine whole ?_
  rw [Nat.cast_one, one_mul, Int.cast_natCast, abs_of_nonneg (Nat.cast_nonneg n)]
  unfold reach
  exact hcast

theorem add (ha : a.Within k) (hb : b.Within l) (hk : k ≤ far) (hl : l ≤ far) :
    Gives (Within (k + l + 1)) (a.add b) := by
  obtain ⟨v, hav, hv⟩ := ha
  obtain ⟨w, hbw, hw⟩ := hb
  refine (add_near hav hbw (le_far hk hv) (le_far hl hw)).imp ?_
  rintro c ⟨z, hz, herror, -⟩
  refine ⟨z, hz, ?_⟩
  have hsum := abs_add_le v w
  have hz := abs_sub_abs_le_abs_sub z (v + w)
  push_cast
  linarith

theorem sub (ha : a.Within k) (hb : b.Within l) (hk : k ≤ far) (hl : l ≤ far) :
    Gives (Within (k + l + 1)) (a.sub b) := by
  obtain ⟨v, hav, hv⟩ := ha
  obtain ⟨w, hbw, hw⟩ := hb
  refine (sub_near hav hbw (le_far hk hv) (le_far hl hw)).imp ?_
  rintro c ⟨z, hz, herror, -⟩
  refine ⟨z, hz, ?_⟩
  have hdiff := abs_sub v w
  have hz := abs_sub_abs_le_abs_sub z (v - w)
  push_cast
  linarith

theorem half (ha : a.Within k) (hk : k ≤ far) : Gives (Within (k + 1)) a.half := by
  obtain ⟨v, hav, hv⟩ := ha
  refine (half_near hav (le_far hk hv)).imp ?_
  rintro c ⟨z, hz, herror, -⟩
  refine ⟨z, hz, ?_⟩
  have hv0 := abs_nonneg v
  have hhalf : |v / 2| = |v| / 2 := by rw [abs_div, abs_two]
  have hz := abs_sub_abs_le_abs_sub z (v / 2)
  have htiny := tiny_le_reach
  push_cast
  linarith

theorem abs (h : a.Within k) : a.abs.Within k := by
  obtain ⟨v, hv, hle⟩ := h
  exact ⟨|v|, abs_at hv, by rwa [abs_abs]⟩

theorem neg (h : a.Within k) : a.neg.Within k := by
  obtain ⟨v, hv, hle⟩ := h
  exact ⟨-v, neg_at hv, by rwa [abs_neg]⟩

/-- A product with a factor of at most two. -/
theorem mul (ha : a.Within k) (hk : 2 * k ≤ far) (hb : b.IsFinite) (hle : b.abs.le 2 = true) :
    Gives (Within (2 * k + 2)) (a.mul b) := by
  obtain ⟨v, hv, hvle⟩ := ha
  obtain ⟨w, hw⟩ := hb.exists_at
  have htwo : |w| ≤ 2 := (le_at (abs_at hw) (whole_at 2)).mp hle
  have hv0 := abs_nonneg v
  have hproduct : |v * w| ≤ 2 * k * reach :=
    calc |v * w| = |v| * |w| := abs_mul v w
      _ ≤ |v| * 2 := mul_le_mul_of_nonneg_left htwo hv0
      _ ≤ 2 * k * reach := by linarith
  have hfar : |v * w| ≤ 2 ^ 112 := by
    refine le_two_pow hk ?_
    rw [Nat.cast_mul, Nat.cast_ofNat]
    exact hproduct
  refine (mul_at hv hw (le_two_pow (by omega) hvle) (htwo.trans (by norm_num)) (by norm_num)
    hfar).imp ?_
  rintro c ⟨z, hz, herror⟩
  refine ⟨z, hz, ?_⟩
  have hz' := abs_sub_abs_le_abs_sub z (v * w)
  have htiny := tiny_le_reach
  have hround : |v * w| / 2 ^ 50 ≤ reach := by
    unfold reach
    linarith
  push_cast
  linarith

theorem ceil (ha : a.Within k) : Gives (fun n => (Scalar.whole n).Within (k + 1)) a.ceil := by
  obtain ⟨v, hav, hv⟩ := ha
  refine (ceil_at hav).imp ?_
  rintro n ⟨hlow, hhigh⟩
  refine whole ?_
  have hone := one_le_reach
  obtain ⟨hneg, hpos⟩ := abs_le.mp hv
  push_cast
  exact abs_le.mpr ⟨by linarith, by linarith⟩

theorem isFinite (ha : a.Within k) (hk : k ≤ far) : a.isFinite = .ok true := by
  obtain ⟨v, hav, hv⟩ := ha
  exact isFinite_at hav (le_two_pow hk hv) (by norm_num)

theorem isWritable (ha : a.Within k) (hk : k ≤ far) : a.isWritable = true := by
  obtain ⟨v, hav, hv⟩ := ha
  exact isWritable_at hav (le_two_pow hk hv) (by norm_num)

end Within

/-! ## Counts of binary places -/

/-- A number that is not too small has few binary places. -/
theorem At.onGrid (ha : a.At v) (h : 1 / 2 ^ 80 ≤ |v|) : OnGrid 132 v := by
  cases a with
  | whole n =>
    obtain rfl : v = n := ha
    exact .intCast 132 n
  | real x => exact Binary64.At.onGrid ha (by norm_num) h
  | flag b => exact ha.elim

/-- A coordinate of at most `m` binary places and at most `k` reaches. -/
def Regular (m k : ℕ) (a : Scalar) : Prop := ∃ v, a.At v ∧ OnGrid m v ∧ |v| ≤ k * reach

namespace Regular
variable {m n : ℕ}

theorem within (h : a.Regular m k) : a.Within k := by
  obtain ⟨v, hv, -, hle⟩ := h
  exact ⟨v, hv, hle⟩

theorem mono (h : a.Regular m k) (hm : m ≤ n) (hk : k ≤ l) : a.Regular n l := by
  obtain ⟨v, hv, hgrid, hle⟩ := h
  have hcast : (k : ℚ) ≤ l := by exact_mod_cast hk
  exact ⟨v, hv, hgrid.mono hm, hle.trans (mul_le_mul_of_nonneg_right hcast reach_pos.le)⟩

theorem of_whole {i : ℤ} (h : (Scalar.whole i).Within k) : (Scalar.whole i).Regular m k := by
  obtain ⟨v, hv, hle⟩ := h
  obtain rfl : v = i := hv
  exact ⟨i, whole_at i, .intCast m i, hle⟩

theorem add (ha : a.Regular m k) (hb : b.Regular m l) (hm : m ≤ 1074) (hk : k ≤ far)
    (hl : l ≤ far) : Gives (Regular m (k + l + 1)) (a.add b) := by
  obtain ⟨v, hav, hvgrid, hv⟩ := ha
  obtain ⟨w, hbw, hwgrid, hw⟩ := hb
  refine (add_near hav hbw (le_far hk hv) (le_far hl hw)).imp ?_
  rintro c ⟨z, hz, herror, hgrid⟩
  refine ⟨z, hz, hgrid m hm hvgrid hwgrid, ?_⟩
  have hsum := abs_add_le v w
  have hz := abs_sub_abs_le_abs_sub z (v + w)
  push_cast
  linarith

end Regular

/-! ## Numbers that are neither tiny nor huge -/

/-- A number that is zero or neither tiny nor huge. -/
def Moderate (a : Scalar) : Prop := ∃ v, a.At v ∧ |v| ≤ 2 ^ 80 ∧ (v = 0 ∨ 1 / 2 ^ 80 ≤ |v|)

theorem Moderate.regular (h : a.Moderate) : a.Regular 132 1 := by
  obtain ⟨v, hv, hle, hsmall⟩ := h
  refine ⟨v, hv, ?_, by rwa [Nat.cast_one, one_mul]⟩
  rcases hsmall with rfl | hsmall
  · exact ⟨0, by simp⟩
  · exact hv.onGrid hsmall

/-- Whether a scalar is a number that is zero or neither tiny nor huge, read off its place. -/
def isModerate (a : Scalar) : Bool :=
  !a.isFlag && match a.place? with
  | some (.finite u) =>
    u.natAbs ≤ Binary64.one * 2 ^ 80 && (u == 0 || Binary64.one ≤ u.natAbs * 2 ^ 80)
  | _ => false

theorem at_of_place {u : ℤ} (hflag : a.isFlag = false) (h : a.place? = some (.finite u)) :
    a.At (u * Binary64.tiny) := by
  cases a with
  | whole n =>
    cases h
    exact intCast_units n
  | real x =>
    cases x with
    | nan => cases h
    | infinite s => cases s <;> cases h
    | finite s r =>
      cases h
      exact ⟨_, rfl, rfl⟩
  | flag b => cases hflag

/-- The bounds of a moderate number, counted in units of the smallest one. -/
theorem moderate_units (u : ℤ) :
    (|(u : ℚ) * Binary64.tiny| ≤ 2 ^ 80 ↔ u.natAbs ≤ Binary64.one * 2 ^ 80) ∧
      (1 / 2 ^ 80 ≤ |(u : ℚ) * Binary64.tiny| ↔ Binary64.one ≤ u.natAbs * 2 ^ 80) := by
  have hone : (0 : ℚ) < Binary64.one := by exact_mod_cast Binary64.one_pos
  have htwo : (0 : ℚ) < 2 ^ 80 := by positivity
  have hunits : |(u : ℚ) * Binary64.tiny| = u.natAbs / Binary64.one := by
    rw [abs_mul, abs_of_pos Binary64.tiny_pos, eq_div_iff hone.ne', mul_assoc,
      mul_comm Binary64.tiny, Binary64.one_mul_tiny, mul_one, Nat.cast_natAbs, Int.cast_abs]
  constructor
  · rw [hunits, div_le_iff₀ hone, ← Nat.cast_le (α := ℚ), Nat.cast_mul, Nat.cast_pow,
      Nat.cast_ofNat, mul_comm]
  · rw [hunits, div_le_div_iff₀ htwo hone, one_mul, ← Nat.cast_le (α := ℚ), Nat.cast_mul,
      Nat.cast_pow, Nat.cast_ofNat]

theorem moderate_iff : a.isModerate = true ↔ a.Moderate := by
  unfold isModerate
  constructor
  · intro h
    obtain ⟨hflag, h⟩ := Bool.and_eq_true_iff.mp h
    rw [Bool.not_eq_true'] at hflag
    split at h
    · rename_i u hu
      rw [Bool.and_eq_true, decide_eq_true_iff, Bool.or_eq_true, beq_iff_eq,
        decide_eq_true_iff] at h
      -- The check compares units, and the statement values.
      obtain ⟨hhuge, htiny⟩ := moderate_units u
      refine ⟨u * Binary64.tiny, at_of_place hflag hu, hhuge.mpr h.1, h.2.imp ?_ htiny.mpr⟩
      rintro rfl
      rw [Int.cast_zero, zero_mul]
    · cases h
  · rintro ⟨v, hv, hle, hsmall⟩
    have hflag : a.isFlag = false := by
      cases a with
      | flag b => exact hv.elim
      | _ => rfl
    obtain ⟨u, hu, rfl⟩ := place_at hv
    obtain ⟨hhuge, htiny⟩ := moderate_units u
    have hzero : (u : ℚ) * Binary64.tiny = 0 → u = 0 := by
      intro h
      exact_mod_cast (mul_eq_zero.mp h).resolve_right Binary64.tiny_pos.ne'
    rw [hflag, hu]
    simp only [Bool.not_false, Bool.true_and, Bool.and_eq_true, decide_eq_true_iff,
      Bool.or_eq_true, beq_iff_eq]
    exact ⟨hhuge.mp hle, hsmall.imp hzero htiny.mp⟩

instance (a : Scalar) : Decidable a.Moderate := decidable_of_iff _ moderate_iff

/-- The length of a side of a box: above zero and neither tiny nor huge. -/
def IsSide (a : Scalar) : Prop := ∃ w, a.At w ∧ 1 / 2 ^ 80 ≤ w ∧ w ≤ reach

theorem Moderate.isSide (h : a.Moderate) (hpos : a.IsPositive) : a.IsSide := by
  obtain ⟨v, hv, hle, hsmall⟩ := h
  obtain ⟨w, hw, hpos⟩ := hpos.exists_at
  obtain rfl := hv.unique hw
  rw [abs_of_pos hpos] at hle hsmall
  exact ⟨v, hv, hsmall.resolve_left hpos.ne', hle⟩

theorem isSide_whole {n : ℕ} (hpos : 0 < n) (hle : n ≤ 2 ^ 80) : (whole n).IsSide := by
  have hone : (1 : ℚ) ≤ n := by exact_mod_cast hpos
  have hcast : (n : ℚ) ≤ 2 ^ 80 := by exact_mod_cast hle
  refine ⟨n, whole_at n, le_trans (by norm_num) hone, ?_⟩
  unfold reach
  exact hcast

theorem IsSide.moderate (h : a.IsSide) : a.Moderate := by
  obtain ⟨w, hw, hlow, hhigh⟩ := h
  have hpos : 0 ≤ w := le_trans (by positivity) hlow
  refine ⟨w, hw, ?_, .inr ?_⟩
  · rwa [abs_of_nonneg hpos]
  · rwa [abs_of_nonneg hpos]

end Scalar

end DiagramScript
