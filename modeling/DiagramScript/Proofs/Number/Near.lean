import DiagramScript.Proofs.Number.Value
import DiagramScript.Proofs.Settles
import Mathlib.Data.Rat.Floor

/-
  Arithmetic on scalars of known values.

  A scalar with a value is a finite number (`Scalar.At`). As long as the values stay far below
  the greatest finite number, arithmetic does not fail, gives a finite number again and is off by
  a small share of its operands (`add_at`, `mul_at`, `div_at`).
-/

namespace DiagramScript

theorem OnGrid.add {m : ℕ} {v w : ℚ} (hv : OnGrid m v) (hw : OnGrid m w) : OnGrid m (v + w) := by
  obtain ⟨k, rfl⟩ := hv
  obtain ⟨l, rfl⟩ := hw
  exact ⟨k + l, by push_cast; ring⟩

theorem OnGrid.neg {m : ℕ} {v : ℚ} (hv : OnGrid m v) : OnGrid m (-v) := by
  obtain ⟨k, rfl⟩ := hv
  exact ⟨-k, by push_cast; ring⟩

theorem OnGrid.mono {m n : ℕ} (h : m ≤ n) {v : ℚ} (hv : OnGrid m v) : OnGrid n v := by
  obtain ⟨k, rfl⟩ := hv
  refine ⟨k * 2 ^ (n - m), ?_⟩
  have hsplit : (2 : ℚ) ^ n = 2 ^ (n - m) * 2 ^ m := by rw [← pow_add, Nat.sub_add_cancel h]
  have hpos : (2 : ℚ) ^ (n - m) ≠ 0 := by positivity
  rw [hsplit]
  push_cast
  field_simp

theorem OnGrid.half {m : ℕ} {v : ℚ} (hv : OnGrid m v) : OnGrid (m + 1) (v / 2) := by
  obtain ⟨k, rfl⟩ := hv
  exact ⟨k, by rw [pow_succ]; field_simp⟩

theorem OnGrid.intCast (m : ℕ) (n : ℤ) : OnGrid m n :=
  OnGrid.mono (Nat.zero_le m) ⟨n, by simp⟩

theorem OnGrid.le_abs {m : ℕ} {v : ℚ} (hv : OnGrid m v) (h : v ≠ 0) : 1 / 2 ^ m ≤ |v| := by
  obtain ⟨k, rfl⟩ := hv
  have hk : k ≠ 0 := by
    rintro rfl
    exact h (by simp)
  have hone : (1 : ℚ) ≤ |(k : ℚ)| := by exact_mod_cast Int.one_le_abs hk
  rw [abs_div, abs_of_pos (by positivity : (0 : ℚ) < 2 ^ m)]
  gcongr

namespace Scalar

/-- A finite number of some value. A truth value is no number. -/
def At : Scalar → ℚ → Prop
  | whole n, v => v = n
  | real x, v => x.At v
  | flag _, _ => False

variable {a b : Scalar} {v w : ℚ} {e : ℕ}

theorem whole_at (n : ℤ) : (whole n).At n := rfl

theorem intCast_units (n : ℤ) : ((n * Binary64.one : ℤ) : ℚ) * Binary64.tiny = n := by
  have hone := Binary64.one_mul_tiny
  push_cast
  linear_combination (n : ℚ) * hone

/-- A number that is not too great is near a floating-point number. -/
theorem toReal_at (ha : a.At v) (hle : |v| ≤ 2 ^ e) (he : e ≤ 900) :
    ∃ x z, a.toReal = .ok x ∧ x.At z ∧ |z - v| ≤ |v| / 2 ^ 53 ∧
      ∀ m ≤ 1074, OnGrid m v → OnGrid m z := by
  cases a with
  | whole n =>
    obtain rfl : v = n := ha
    rw [← intCast_units n] at hle ⊢
    obtain ⟨z, hz, hround⟩ := Binary64.ofUnits_at false _ hle he
    obtain ⟨s, r, hx, -⟩ := hz.exists_rank
    refine ⟨_, z, ?_, hz, hround.near_of_units rfl, hround.grid⟩
    rw [toReal, Binary64.ofInt?, hx]
    rfl
  | real x => exact ⟨x, v, rfl, ha, by simp; positivity, fun m _ h => h⟩
  | flag b => exact ha.elim

theorem arith_cases (exact : ℤ → ℤ → ℤ) (rounded : Binary64 → Binary64 → Binary64) (ha : a.At v)
    (hb : b.At w) :
    (∃ m n, a = whole m ∧ b = whole n) ∨
      arith exact rounded a b =
        a.toReal >>= fun x => b.toReal >>= fun y => .ok (real (rounded x y)) := by
  cases a with
  | whole m =>
    cases b with
    | whole n => exact .inl ⟨m, n, rfl, rfl⟩
    | real y => exact .inr rfl
    | flag b => exact hb.elim
  | real x =>
    cases b with
    | whole n => exact .inr rfl
    | real y => exact .inr rfl
    | flag b => exact hb.elim
  | flag b => exact ha.elim

/-- What holds of the exact result on whole numbers and of the rounded one on floating-point
numbers near the operands holds of the result. -/
theorem arith_at {exact : ℤ → ℤ → ℤ} {rounded : Binary64 → Binary64 → Binary64} {P : ℚ → Prop}
    (ha : a.At v) (hb : b.At w) (hv : |v| ≤ 2 ^ e) (hw : |w| ≤ 2 ^ e) (he : e ≤ 900)
    (hexact : ∀ m n : ℤ, v = m → w = n → P (exact m n))
    (hrounded : ∀ x y v' w', x.At v' → y.At w' → |v' - v| ≤ |v| / 2 ^ 53 →
      |w' - w| ≤ |w| / 2 ^ 53 → (∀ m ≤ 1074, OnGrid m v → OnGrid m v') →
      (∀ m ≤ 1074, OnGrid m w → OnGrid m w') → ∃ z, (rounded x y).At z ∧ P z) :
    Gives (fun c => ∃ z, c.At z ∧ P z) (arith exact rounded a b) := by
  rcases arith_cases exact rounded ha hb with ⟨m, n, rfl, rfl⟩ | h
  · exact .ok ⟨_, whole_at _, hexact m n ha hb⟩
  · obtain ⟨x, v', hx, hxv, hnear, hgrid⟩ := toReal_at ha hv he
    obtain ⟨y, w', hy, hyw, hnear', hgrid'⟩ := toReal_at hb hw he
    rw [h, hx, hy]
    exact .ok (hrounded x y v' w' hxv hyw hnear hnear' hgrid hgrid')

theorem abs_le_of_near {v' : ℚ} (h : |v' - v| ≤ |v| / 2 ^ 53) : |v'| ≤ |v| + |v| / 2 ^ 53 := by
  have := abs_sub_abs_le_abs_sub v' v
  linarith

/-- A sum is off by a small share of its terms. -/
theorem add_at (ha : a.At v) (hb : b.At w) (hv : |v| ≤ 2 ^ e) (hw : |w| ≤ 2 ^ e) (he : e ≤ 800) :
    Gives (fun c => ∃ z, c.At z ∧ |z - (v + w)| ≤ (|v| + |w|) / 2 ^ 50 ∧
      ∀ m ≤ 1074, OnGrid m v → OnGrid m w → OnGrid m z) (a.add b) := by
  refine arith_at ha hb hv hw (by omega) ?_ ?_
  · rintro m n rfl rfl
    push_cast
    refine ⟨?_, fun _ _ h h' => h.add h'⟩
    rw [sub_self, abs_zero]
    positivity
  · intro x y v' w' hx hy hnear hnear' hgrid hgrid'
    have hv0 := abs_nonneg v
    have hw0 := abs_nonneg w
    have hv' := abs_le_of_near hnear
    have hw' := abs_le_of_near hnear'
    have hsum := abs_add_le v' w'
    have hpow : (2 : ℚ) ^ (e + 2) = 4 * 2 ^ e := by ring
    obtain ⟨z, hz, herror, hz'⟩ := Binary64.add_at hx hy (e := e + 2) (by rw [hpow]; linarith)
      (by omega)
    refine ⟨z, hz, ?_, fun m hm h h' => hz' m hm (hgrid m hm h) (hgrid' m hm h')⟩
    -- Three roundings: of the sum and of either term.
    have hsplit : z - (v + w) = (z - (v' + w')) + (v' - v) + (w' - w) := by ring
    have htriangle := abs_add_three (z - (v' + w')) (v' - v) (w' - w)
    rw [hsplit]
    linarith

theorem neg_at (hb : b.At w) : b.neg.At (-w) := by
  cases b with
  | whole n =>
    obtain rfl : w = n := hb
    show (-(n : ℚ)) = ((-n : ℤ) : ℚ)
    push_cast
    rfl
  | real y => exact Binary64.neg_at hb
  | flag b => exact hb.elim

theorem sub_at (ha : a.At v) (hb : b.At w) (hv : |v| ≤ 2 ^ e) (hw : |w| ≤ 2 ^ e) (he : e ≤ 800) :
    Gives (fun c => ∃ z, c.At z ∧ |z - (v - w)| ≤ (|v| + |w|) / 2 ^ 50 ∧
      ∀ m ≤ 1074, OnGrid m v → OnGrid m w → OnGrid m z) (a.sub b) := by
  refine arith_at ha hb hv hw (by omega) ?_ ?_
  · rintro m n rfl rfl
    push_cast
    refine ⟨?_, fun _ _ h h' => by simpa [sub_eq_add_neg] using h.add h'.neg⟩
    rw [sub_self, abs_zero]
    positivity
  · intro x y v' w' hx hy hnear hnear' hgrid hgrid'
    have hv0 := abs_nonneg v
    have hw0 := abs_nonneg w
    have hv' := abs_le_of_near hnear
    have hw' := abs_le_of_near hnear'
    have hsum := abs_sub v' w'
    have hpow : (2 : ℚ) ^ (e + 2) = 4 * 2 ^ e := by ring
    obtain ⟨z, hz, herror, hz'⟩ := Binary64.add_at hx (Binary64.neg_at hy) (e := e + 2)
      (by rw [hpow, ← sub_eq_add_neg]; linarith) (by omega)
    refine ⟨z, hz, ?_, fun m hm h h' => hz' m hm (hgrid m hm h) (hgrid' m hm h').neg⟩
    rw [← sub_eq_add_neg] at herror
    have hsplit : z - (v - w) = (z - (v' - w')) + (v' - v) + (w - w') := by ring
    have htriangle := abs_add_three (z - (v' - w')) (v' - v) (w - w')
    rw [abs_sub_comm w w'] at htriangle
    rw [hsplit]
    linarith

theorem mul_near {v' w' : ℚ} (hv : |v' - v| ≤ |v| / 2 ^ 53) (hw : |w' - w| ≤ |w| / 2 ^ 53) :
    |v' * w' - v * w| ≤ |v * w| * (3 / 2 ^ 53) := by
  have hw' := abs_le_of_near hw
  have hv0 := abs_nonneg v
  have hw0 := abs_nonneg w
  calc |v' * w' - v * w| = |(v' - v) * w' + v * (w' - w)| := by congr 1; ring
    _ ≤ |v' - v| * |w'| + |v| * |w' - w| := by
      rw [← abs_mul, ← abs_mul]
      exact abs_add_le _ _
    _ ≤ |v| / 2 ^ 53 * (|w| + |w| / 2 ^ 53) + |v| * (|w| / 2 ^ 53) := by gcongr
    _ = |v| * |w| * (2 / 2 ^ 53 + 1 / 2 ^ 106) := by ring
    _ ≤ |v| * |w| * (3 / 2 ^ 53) := by
      gcongr
      norm_num
    _ = |v * w| * (3 / 2 ^ 53) := by rw [abs_mul]

theorem le_abs_of_near {v' : ℚ} (h : |v' - v| ≤ |v| / 2 ^ 53) : |v| / 2 ≤ |v'| := by
  have := abs_sub_abs_le_abs_sub v v'
  have hv0 := abs_nonneg v
  rw [abs_sub_comm] at this
  linarith

/-- Operands near two numbers have a quotient near their quotient. -/
theorem div_near {v' w' : ℚ} (hv : |v' - v| ≤ |v| / 2 ^ 53) (hw : |w' - w| ≤ |w| / 2 ^ 53)
    (h : w ≠ 0) : |v' / w' - v / w| ≤ |v / w| * (4 / 2 ^ 53) := by
  have hwpos : 0 < |w| := abs_pos.mpr h
  have hw' := le_abs_of_near hw
  have hw'pos : 0 < |w'| := by linarith
  have hv0 := abs_nonneg v
  have hne : w' ≠ 0 := abs_pos.mp hw'pos
  have hcross : |v' * w - v * w'| ≤ |v| * |w| * (2 / 2 ^ 53) := by
    calc |v' * w - v * w'| = |(v' - v) * w + v * (w - w')| := by congr 1; ring
      _ ≤ |v' - v| * |w| + |v| * |w' - w| := by
        rw [abs_sub_comm w' w, ← abs_mul, ← abs_mul]
        exact abs_add_le _ _
      _ ≤ |v| / 2 ^ 53 * |w| + |v| * (|w| / 2 ^ 53) := by gcongr
      _ = |v| * |w| * (2 / 2 ^ 53) := by ring
  calc |v' / w' - v / w| = |v' * w - v * w'| / (|w| * |w'|) := by
        rw [div_sub_div _ _ hne h, abs_div, abs_mul, mul_comm |w'|, mul_comm w' v]
    _ ≤ |v| * |w| * (2 / 2 ^ 53) / (|w| * (|w| / 2)) := by gcongr
    _ = |v / w| * (4 / 2 ^ 53) := by
      rw [abs_div]
      field_simp
      norm_num

/-- A product is off by a small share of itself, and by less than two units. -/
theorem mul_at (ha : a.At v) (hb : b.At w) (hv : |v| ≤ 2 ^ e) (hw : |w| ≤ 2 ^ e) (he : e ≤ 800)
    (hvw : |v * w| ≤ 2 ^ e) :
    Gives (fun c => ∃ z, c.At z ∧ |z - v * w| ≤ |v * w| / 2 ^ 50 + Binary64.tiny)
      (a.mul b) := by
  have htiny := Binary64.tiny_pos
  refine arith_at ha hb hv hw (by omega) ?_ ?_
  · rintro m n rfl rfl
    push_cast
    rw [sub_self, abs_zero]
    positivity
  · intro x y v' w' hx hy hnear hnear' hgrid hgrid'
    have hprod := mul_near hnear hnear'
    have hnonneg := abs_nonneg (v * w)
    have hsize : |v' * w'| ≤ |v * w| + |v * w| * (3 / 2 ^ 53) := by
      have := abs_sub_abs_le_abs_sub (v' * w') (v * w)
      linarith
    have hpow : (2 : ℚ) ^ (e + 1) = 2 * 2 ^ e := by ring
    obtain ⟨z, hz, hround⟩ := Binary64.mul_at hx hy (e := e + 1) (by rw [hpow]; linarith)
      (by omega)
    refine ⟨z, hz, ?_⟩
    linarith [hround.near, abs_sub_le z (v' * w') (v * w)]

theorem eq_two_of_near {w' : ℚ} (hnear : |w' - 2| ≤ |2| / 2 ^ 53) (hgrid : OnGrid 0 w') :
    w' = 2 := by
  obtain ⟨k, rfl⟩ := hgrid
  rw [pow_zero, div_one] at hnear ⊢
  have hclose : |((k - 2 : ℤ) : ℚ)| < 1 := by
    push_cast
    refine lt_of_le_of_lt hnear ?_
    rw [abs_two]
    norm_num
  have hint : |k - 2| < 1 := by exact_mod_cast hclose
  have hzero := Int.abs_lt_one_iff.mp hint
  exact_mod_cast (by omega : k = 2)

theorem signed_natAbs (k : ℤ) : Binary64.signed (decide (k < 0)) k.natAbs = k := by
  rw [Nat.cast_natAbs]
  by_cases hk : k < 0
  · rw [decide_eq_true hk, abs_of_neg hk]
    push_cast
    exact neg_neg _
  · rw [decide_eq_false hk, abs_of_nonneg (Int.not_lt.mp hk)]
    rfl

theorem ofQuotient_at {m n : ℤ} (hn : n ≠ 0) (hle : |(m : ℚ) / n| ≤ 2 ^ e) (he : e ≤ 900) :
    ∃ x z, Binary64.ofQuotient? m n = some x ∧ x.At z ∧ Binary64.Rounds ((m : ℚ) / n) z := by
  have hquotient : Binary64.signed (decide (m < 0) != decide (n < 0))
      ((m.natAbs : ℚ) / n.natAbs) = m / n := by
    rw [Binary64.signed_div, signed_natAbs, signed_natAbs]
  have hcast : (n.natAbs : ℚ) ≠ 0 := by exact_mod_cast Int.natAbs_ne_zero.mpr hn
  have hunits : (m.natAbs : ℚ) / n.natAbs * n.natAbs =
      (m.natAbs * Binary64.one : ℕ) * Binary64.tiny := by
    rw [div_mul_cancel₀ _ hcast, Nat.cast_mul, mul_assoc, Binary64.one_mul_tiny, mul_one]
  rw [← hquotient, Binary64.abs_signed] at hle
  obtain ⟨z, hz, hround⟩ := Binary64.ofRatio_at (decide (m < 0) != decide (n < 0))
    (Int.natAbs_pos.mpr hn) hunits ((le_abs_self _).trans hle) he
  rw [hquotient] at hround
  obtain ⟨s, r, hx, -⟩ := hz.exists_rank
  rw [hx] at hz
  refine ⟨.finite s r, z, ?_, hz, hround⟩
  rw [Binary64.ofQuotient?, hx]
  rfl

/-- A quotient is off by a small share of itself, and by less than two units. Half of a fraction
has one place more. -/
def NearQuotient (v w : ℚ) (c : Scalar) : Prop :=
  ∃ z, c.At z ∧ |z - v / w| ≤ |v / w| / 2 ^ 50 + Binary64.tiny ∧
    (w = 2 → ∀ m < 1074, OnGrid m v → OnGrid (m + 1) z)

theorem rounded_div_at (ha : a.At v) (hb : b.At w) (hv : |v| ≤ 2 ^ e) (hw : |w| ≤ 2 ^ e)
    (he : e ≤ 800) (h : w ≠ 0) (hvw : |v / w| ≤ 2 ^ e) :
    Gives (NearQuotient v w) (do
      let x ← a.toReal
      let y ← b.toReal
      if y.isZero then ArithmeticProblem.zeroDivisor.fail else .ok (real (x.div y))) := by
  obtain ⟨x, v', hx, hxv, hnear, hgrid⟩ := toReal_at ha hv (by omega)
  obtain ⟨y, w', hy, hyw, hnear', hgrid'⟩ := toReal_at hb hw (by omega)
  have htiny := Binary64.tiny_pos
  have hnonneg := abs_nonneg (v / w)
  have hquot := div_near hnear hnear' h
  have hw' : w' ≠ 0 := by
    have hpos := abs_pos.mpr h
    exact abs_pos.mp (by linarith [le_abs_of_near hnear'])
  have hsize : |v' / w'| ≤ |v / w| + |v / w| * (4 / 2 ^ 53) := by
    have := abs_sub_abs_le_abs_sub (v' / w') (v / w)
    linarith
  have hpow : (2 : ℚ) ^ (e + 1) = 2 * 2 ^ e := by ring
  obtain ⟨z, hz, hround⟩ := Binary64.div_at hxv hyw hw' (e := e + 1)
    (by rw [hpow]; linarith) (by omega)
  have hzero : y.isZero = false := by
    rw [Bool.eq_false_iff, Ne, Binary64.isZero_iff hyw]
    exact hw'
  rw [hx, hy]
  show Gives _ (if y.isZero then _ else _)
  rw [hzero]
  refine .ok ⟨z, hz, ?_, ?_⟩
  · linarith [hround.near, abs_sub_le z (v' / w') (v / w)]
  · -- A divisor of 2 is a number of its own, so only the dividend is rounded.
    rintro rfl m hm hgridm
    have htwo := eq_two_of_near hnear' (hgrid' 0 (by omega) ⟨2, by norm_num⟩)
    rw [htwo] at hround
    exact hround.grid (m + 1) hm (hgrid m hm.le hgridm).half

theorem div_at (ha : a.At v) (hb : b.At w) (hv : |v| ≤ 2 ^ e) (hw : |w| ≤ 2 ^ e) (he : e ≤ 800)
    (h : w ≠ 0) (hvw : |v / w| ≤ 2 ^ e) : Gives (NearQuotient v w) (a.div b) := by
  have hrounded := rounded_div_at ha hb hv hw he h hvw
  cases a with
  | whole m =>
    cases b with
    | whole n =>
      obtain rfl : v = m := ha
      obtain rfl : w = n := hb
      have hn : n ≠ 0 := by exact_mod_cast h
      -- Two whole numbers are divided exactly and rounded once.
      obtain ⟨x, z, hx, hz, hround⟩ := ofQuotient_at hn hvw (by omega)
      have hdiv : div (whole m) (whole n) = .ok (real x) := by
        show (if n = 0 then _ else _) = _
        rw [if_neg hn, hx]
      rw [hdiv]
      refine .ok ⟨z, hz, ?_, ?_⟩
      · linarith [hround.near, Binary64.tiny_pos, abs_nonneg ((m : ℚ) / n)]
      · intro htwo k hk hgridk
        rw [htwo] at hround
        exact hround.grid (k + 1) hk hgridk.half
    | real y => exact hrounded
    | flag b => exact hb.elim
  | real x =>
    cases b with
    | whole n => exact hrounded
    | real y => exact hrounded
    | flag b => exact hb.elim
  | flag b => exact ha.elim

/-- The length of a vector is hardly less than either coordinate. -/
theorem hypot_at (ha : a.At v) (hb : b.At w) (hv : |v| ≤ 2 ^ e) (hw : |w| ≤ 2 ^ e) (he : e ≤ 800) :
    Gives (fun c => ∃ z, c.At z ∧ |v| - |v| / 2 ^ 53 ≤ z ∧ |w| - |w| / 2 ^ 53 ≤ z ∧
      z ≤ 4 * (|v| + |w| + Binary64.tiny)) (a.hypot b) := by
  obtain ⟨x, v', hx, hxv, hnear, -⟩ := toReal_at ha hv (by omega)
  obtain ⟨y, w', hy, hyw, hnear', -⟩ := toReal_at hb hw (by omega)
  have hv' := abs_le_of_near hnear
  have hw' := abs_le_of_near hnear'
  have hlow := abs_sub_abs_le_abs_sub v v'
  have hlow' := abs_sub_abs_le_abs_sub w w'
  rw [abs_sub_comm] at hlow hlow'
  have hv0 := abs_nonneg v
  have hw0 := abs_nonneg w
  have htiny := Binary64.tiny_pos
  have htiny_le : Binary64.tiny ≤ 2 ^ e := by
    refine (Binary64.tiny_le (m := 0) (by omega)).trans ?_
    rw [pow_zero, div_one]
    exact one_le_pow₀ (by norm_num)
  have hpow : (2 : ℚ) ^ (e + 3) = 8 * 2 ^ e := by ring
  obtain ⟨z, hz, hvz, hwz, hzle⟩ := Binary64.hypot_at hxv hyw (e := e + 3)
    (by rw [hpow]; linarith) (by omega)
  rw [hypot, hx, hy]
  exact .ok ⟨z, hz, by linarith, by linarith, by linarith⟩

/-! ## Order -/

theorem place_at (ha : a.At v) : ∃ u : ℤ, a.place? = some (.finite u) ∧ v = u * Binary64.tiny := by
  cases a with
  | whole n =>
    obtain rfl : v = n := ha
    exact ⟨n * Binary64.one, rfl, (intCast_units n).symm⟩
  | real x =>
    obtain ⟨u, hu, rfl⟩ := ha
    cases x with
    | nan => cases hu
    | infinite s => cases hu
    | finite s r =>
      rw [Binary64.units?, Option.some.injEq] at hu
      exact ⟨u, by rw [← hu]; rfl, rfl⟩
  | flag b => exact ha.elim

theorem lt_eq_place (a b : Scalar) : a.lt b = match a.place?, b.place? with
    | some p, some q => p.lt q
    | _, _ => false := by
  cases a with
  | whole m =>
    cases b with
    | whole n =>
      have hone : (0 : ℤ) < Binary64.one := by exact_mod_cast Binary64.one_pos
      show decide (m < n) = decide (m * (Binary64.one : ℤ) < n * (Binary64.one : ℤ))
      rw [decide_eq_decide]
      exact (Int.mul_lt_mul_right hone).symm
    | _ => rfl
  | _ => rfl

theorem lt_at (ha : a.At v) (hb : b.At w) : a.lt b = true ↔ v < w := by
  obtain ⟨m, hm, rfl⟩ := place_at ha
  obtain ⟨n, hn, rfl⟩ := place_at hb
  rw [lt_eq_place, hm, hn]
  show decide (m < n) = true ↔ _
  rw [decide_eq_true_iff, mul_lt_mul_iff_of_pos_right Binary64.tiny_pos, Int.cast_lt]

theorem lt_infinite (ha : a.At v) : a.lt (real (.infinite false)) = true := by
  obtain ⟨m, hm, rfl⟩ := place_at ha
  rw [lt_eq_place, hm]
  rfl

theorem infinite_lt (ha : a.At v) : lt (real (.infinite false)) a = false := by
  obtain ⟨m, hm, rfl⟩ := place_at ha
  rw [lt_eq_place, hm]
  rfl

theorem max_at (ha : a.At v) (hb : b.At w) : (a.max b).At (Max.max v w) := by
  unfold max
  split
  · rename_i h
    rwa [max_eq_right ((lt_at ha hb).mp h).le]
  · rename_i h
    rwa [max_eq_left (not_lt.mp fun hlt => h ((lt_at ha hb).mpr hlt))]

theorem min_at (ha : a.At v) (hb : b.At w) : (a.min b).At (Min.min v w) := by
  unfold min
  split
  · rename_i h
    rwa [min_eq_right ((lt_at hb ha).mp h).le]
  · rename_i h
    rwa [min_eq_left (not_lt.mp fun hlt => h ((lt_at hb ha).mpr hlt))]

theorem abs_at (ha : a.At v) : a.abs.At |v| := by
  cases a with
  | whole n =>
    obtain rfl : v = n := ha
    show |(n : ℚ)| = ((n.natAbs : ℤ) : ℚ)
    rw [Int.natCast_natAbs, Int.cast_abs]
  | real x => exact Binary64.abs_at ha
  | flag b => exact ha.elim

theorem isZero_at (ha : a.At v) : a.isZero = true ↔ v = 0 := by
  cases a with
  | whole n =>
    obtain rfl : v = n := ha
    show (n == 0) = true ↔ _
    rw [beq_iff_eq, Int.cast_eq_zero]
  | real x => exact Binary64.isZero_iff ha
  | flag b => exact ha.elim

/-! ## Whole numbers -/

theorem isFinite_at (ha : a.At v) (hv : |v| ≤ 2 ^ e) (he : e ≤ 900) : a.isFinite = .ok true := by
  obtain ⟨x, z, hx, hz, -⟩ := toReal_at ha hv he
  obtain ⟨s, r, rfl, -⟩ := hz.exists_rank
  rw [isFinite, hx]
  rfl

/-- A finite number has a least whole number above it. -/
theorem ceil_at (ha : a.At v) : Gives (fun n : ℤ => v ≤ n ∧ n < v + 1) a.ceil := by
  cases a with
  | whole n =>
    obtain rfl : v = n := ha
    exact .ok ⟨le_rfl, by linarith⟩
  | real x =>
    obtain ⟨u, hu, rfl⟩ := ha
    have hvalue : (u : ℚ) * Binary64.tiny = u / Binary64.one := by
      rw [Binary64.tiny, mul_one_div]
    have hread : x.ceil? = some ⌈(u : ℚ) / Binary64.one⌉ := by
      rw [Binary64.ceil?, hu, Rat.ceil_intCast_div_natCast]
      rfl
    have hceil : ceil (real x) = .ok ⌈(u : ℚ) / Binary64.one⌉ := by
      rw [ceil, wholeOf, hread]
    rw [hceil, hvalue]
    exact .ok ⟨Int.le_ceil _, Int.ceil_lt_add_one _⟩
  | flag b => exact ha.elim

theorem isWritable_at (ha : a.At v) (hv : |v| ≤ 2 ^ e) (he : e ≤ 900) : a.isWritable = true := by
  cases a with
  | whole n =>
    obtain rfl : v = n := ha
    have hnat : n.natAbs ≤ 2 ^ e := by
      have : ((n.natAbs : ℕ) : ℚ) ≤ ((2 ^ e : ℕ) : ℚ) := by
        rw [Nat.cast_natAbs, Int.cast_abs]
        push_cast
        exact hv
      exact_mod_cast this
    have hlimit : 900 < digitLimit := by decide
    unfold isWritable
    dsimp only
    generalize digitLimit = d at *
    have hpow : 2 ^ e < 10 ^ d :=
      lt_of_le_of_lt (Nat.pow_le_pow_left (by decide : 2 ≤ 10) e)
        (Nat.pow_lt_pow_right (by decide) (by omega))
    exact decide_eq_true (lt_of_le_of_lt hnat hpow)
  | real x => rfl
  | flag b => rfl

end Scalar

end DiagramScript
