import DiagramScript.Proofs.Number.Literal

/-
  Rounding to the nearest number.

  A number is nearest to a value if no finite number is nearer, the even one of two that are as
  near, and infinite from half a step past the greatest finite number on (`Nearest`). Quotients
  are rounded so (`ofRatio_nearest`), and therefore decimals (`ofDecimal_nearest`) and literals
  (`Literal.nearest`), also where the length of the digits settles them.
-/

namespace DiagramScript

/-- The distance between `m` and `n / d`, in parts of which `d` make 1. -/
def distance (n d m : Nat) : Nat := ((m * d : Nat) - n : Int).natAbs

/-- No whole number is nearer than the rounded one, and of two that are as near the rounded one
is even. -/
theorem roundHalfEven_nearest (n : Nat) {d : Nat} (hd : 0 < d) (k : Nat) :
    distance n d (roundHalfEven n d) < distance n d k ∨
      (distance n d (roundHalfEven n d) = distance n d k ∧
        (k = roundHalfEven n d ∨ roundHalfEven n d % 2 = 0)) := by
  have hdiv := Nat.div_add_mod' n d
  have hmod := Nat.mod_lt n hd
  have hsucc (m : Nat) : (m + 1) * d = m * d + d := Nat.succ_mul m d
  have hnext := hsucc (n / d)
  unfold distance roundHalfEven
  dsimp only
  obtain hk | rfl | rfl | hk : k < n / d ∨ k = n / d ∨ k = n / d + 1 ∨ n / d + 1 < k := by omega
  · have hle := Nat.mul_le_mul_right d (show k + 1 ≤ n / d from hk)
    rw [hsucc] at hle
    split <;> omega
  · split <;> omega
  · split <;> omega
  · have hle := Nat.mul_le_mul_right d (show n / d + 1 + 1 ≤ k from hk)
    rw [hsucc] at hle
    split <;> omega

theorem lt_roundHalfEven_iff {n d c : Nat} (hd : 0 < d) (hodd : c % 2 = 1) :
    c < roundHalfEven n d ↔ (2 * c + 1) * d ≤ 2 * n := by
  have hdiv := Nat.div_add_mod' n d
  have hmod := Nat.mod_lt n hd
  have hmiddle : (2 * c + 1) * d = 2 * (c * d) + d := by ring
  rw [hmiddle]
  unfold roundHalfEven
  dsimp only
  obtain hc | rfl | hc : c < n / d ∨ c = n / d ∨ n / d < c := by omega
  · have hle := Nat.mul_le_mul_right d (show c + 1 ≤ n / d from hc)
    rw [Nat.succ_mul] at hle
    split <;> omega
  · split <;> omega
  · have hle := Nat.mul_le_mul_right d (show n / d + 1 ≤ c from hc)
    rw [Nat.succ_mul] at hle
    split <;> omega

namespace Binary64

/-! ## Ranks -/

theorem distance_shift (n d m q : Nat) : distance n d (m * 2 ^ q) = distance n (d * 2 ^ q) m := by
  unfold distance
  rw [Nat.mul_assoc, Nat.mul_comm (2 ^ q) d]

theorem rankOfRatio_eq (n d : Nat) :
    rankOfRatio n d =
      shiftOf (n / d) * binade + roundHalfEven n (d * 2 ^ shiftOf (n / d)) := rfl

/-- No magnitude is nearer to a quotient than the rounded one, and of two that are as near the
rounded one has an even rank. -/
theorem rankOfRatio_nearest (n : Nat) {d : Nat} (hd : 0 < d) (s : Nat) :
    distance n d (unitsOfRank (rankOfRatio n d)) < distance n d (unitsOfRank s) ∨
      (distance n d (unitsOfRank (rankOfRatio n d)) = distance n d (unitsOfRank s) ∧
        (unitsOfRank s = unitsOfRank (rankOfRatio n d) ∨ rankOfRatio n d % 2 = 0)) := by
  obtain ⟨-, hle⟩ := shiftOf_bounds (n / d)
  rw [units_rankOfRatio_eq, rankOfRatio_eq]
  generalize shiftOf (n / d) = q at *
  have hstep : 0 < d * 2 ^ q := Nat.mul_pos hd (Nat.two_pow_pos q)
  rw [distance_shift]
  by_cases hfine : q ≠ 0 ∧ unitsOfRank s < 2 ^ (52 + q)
  · -- A finer magnitude is farther away than the first one of this step.
    left
    have hfirst := roundHalfEven_nearest n hstep binade
    have hbelow : 2 ^ (52 + q) * d ≤ n :=
      Nat.le_trans (Nat.mul_le_mul_right d (hle.resolve_left hfine.1)) (Nat.div_mul_le_self n d)
    have hfar := Nat.mul_lt_mul_of_pos_right hfine.2 hd
    rw [← distance_shift n d binade, binade_eq, ← Nat.pow_add] at hfirst
    unfold distance at hfirst ⊢
    omega
  · -- Every other magnitude is a whole number of steps.
    obtain ⟨k, hk⟩ : 2 ^ q ∣ unitsOfRank s := by
      by_cases hq : q = 0
      · simp [hq]
      · exact dvd_unitsOfRank (by omega)
    rw [Nat.mul_comm] at hk
    rw [hk, distance_shift]
    have heven : (q * binade + roundHalfEven n (d * 2 ^ q)) % 2 =
        roundHalfEven n (d * 2 ^ q) % 2 := by
      have hbinade : binade = 2 * 2 ^ 51 := by decide
      rw [hbinade, ← Nat.mul_assoc, Nat.mul_comm q, Nat.mul_assoc, Nat.mul_add_mod]
    rw [heven]
    refine (roundHalfEven_nearest n hstep k).imp id ?_
    intro ⟨hsame, htie⟩
    exact ⟨hsame, htie.imp (fun h => by rw [h]) id⟩

theorem rankOfRatio_unitsOfRank (r : Nat) : rankOfRatio (unitsOfRank r) 1 = r := by
  have hmono : StrictMono unitsOfRank := strictMono_nat_of_lt_succ unitsOfRank_lt_succ
  have hnear := rankOfRatio_nearest (unitsOfRank r) Nat.one_pos r
  apply hmono.injective
  unfold distance at hnear
  omega

/-- A quotient is rounded past a binade from half a step before its end on. -/
theorem le_rankOfRatio_iff {n d : Nat} (hd : 0 < d) (e : Nat) :
    (e + 2) * binade ≤ rankOfRatio n d ↔ (4 * binade - 1) * (d * 2 ^ e) ≤ 2 * n := by
  obtain ⟨hlt, hle⟩ := shiftOf_bounds (n / d)
  have hsig := rankOfRatio_significand n d
  have hb : 0 < binade := by decide
  have hlow : n < 2 ^ (53 + shiftOf (n / d)) * d := (Nat.div_lt_iff_lt_mul hd).mp hlt
  rw [rankOfRatio_eq]
  generalize shiftOf (n / d) = q at *
  have hpow (i : Nat) : 2 ^ (52 + i) * d = binade * (d * 2 ^ i) := by
    rw [Nat.pow_add, ← binade_eq, Nat.mul_assoc, Nat.mul_comm (2 ^ i)]
  have hsub : (4 * binade - 1) * (d * 2 ^ e) + d * 2 ^ e = 4 * (binade * (d * 2 ^ e)) := by
    rw [Nat.sub_mul]
    have : 1 * (d * 2 ^ e) ≤ 4 * binade * (d * 2 ^ e) := Nat.mul_le_mul_right _ (by omega)
    rw [Nat.mul_assoc] at this ⊢
    omega
  have hstep : 0 < d * 2 ^ e := Nat.mul_pos hd (Nat.two_pow_pos e)
  obtain hq | rfl | hq : q < e ∨ q = e ∨ e < q := by omega
  · -- The quotient lies in a lower binade, and the bound is out of its reach.
    have hrank : (q + 1) * binade ≤ e * binade := Nat.mul_le_mul_right _ hq
    have hm := hsig.le
    have hnext : 2 ^ (53 + q) * d ≤ 2 ^ (52 + e) * d :=
      Nat.mul_le_mul_right d (Nat.pow_le_pow_right (by decide) (by omega))
    have hone : 1 * (d * 2 ^ e) ≤ binade * (d * 2 ^ e) := Nat.mul_le_mul_right _ hb
    rw [hpow] at hnext
    rw [Nat.add_mul] at hrank ⊢
    omega
  · -- In the binade itself it is the rounding that decides.
    have hodd : (2 * binade - 1) % 2 = 1 := by decide
    have hround := lt_roundHalfEven_iff (n := n) hstep hodd
    have hmiddle : 2 * (2 * binade - 1) + 1 = 4 * binade - 1 := by omega
    rw [hmiddle] at hround
    rw [← hround, Nat.add_mul]
    omega
  · -- The quotient lies past the binade, and past the bound.
    have hrank : (e + 1) * binade ≤ q * binade := Nat.mul_le_mul_right _ hq
    have hm := hsig.full.resolve_left (by omega)
    have hunits : 2 ^ (52 + (e + 1)) * d ≤ n :=
      Nat.le_trans (Nat.mul_le_mul_right d (Nat.le_trans
        (Nat.pow_le_pow_right (by decide) (by omega)) (hle.resolve_left (by omega))))
        (Nat.div_mul_le_self n d)
    rw [hpow, Nat.pow_succ, ← Nat.mul_assoc d] at hunits
    rw [Nat.add_mul] at hrank ⊢
    rw [← Nat.mul_assoc binade] at hunits
    omega

/-! ## Values -/

/-- Half a step past the greatest finite number. -/
def limit : ℚ := 2 ^ 1024 - 2 ^ 970

/-- The number that a value is rounded to. -/
inductive Nearest (v : ℚ) : Binary64 → Prop
  | finite {s : Bool} {r : Fin magnitudes} {w : ℚ} (small : |v| < limit)
      (value : (Binary64.finite s r).At w) (near : ∀ y u, At y u → |w - v| ≤ |u - v|)
      (even : ∀ y u, At y u → |u - v| = |w - v| → u = w ∨ r.val % 2 = 0) :
      Nearest v (.finite s r)
  | infinite (great : limit ≤ |v|) : Nearest v (.infinite (decide (v < 0)))

namespace Nearest
variable {v w : ℚ} {x z : Binary64}

theorem exists_at (h : Nearest v z) (hv : |v| < limit) :
    ∃ w, z.At w ∧ ∀ y u, At y u → |w - v| ≤ |u - v| := by
  cases h with
  | finite small value near even => exact ⟨_, value, near⟩
  | infinite great => exact absurd hv (not_lt.mpr great)

theorem at_of_at (h : Nearest v z) (hv : |v| < limit) (hx : x.At v) : z.At v := by
  obtain ⟨w, hz, hnear⟩ := h.exists_at hv
  have hzero := hnear x v hx
  rw [sub_self, abs_zero, abs_nonpos_iff, sub_eq_zero] at hzero
  rwa [hzero] at hz

theorem isFinite_iff (h : Nearest v z) : z.isFinite = true ↔ |v| < limit := by
  cases h with
  | finite small value near even => simpa [isFinite] using small
  | infinite great => simpa [isFinite] using great

end Nearest

theorem limit_eq : limit = (2 ^ 54 - 1) * 2 ^ 970 := by
  have htop : (2 : ℚ) ^ 1024 = 2 ^ 54 * 2 ^ 970 := pow_add 2 54 970
  rw [limit, htop]
  generalize (2 : ℚ) ^ 970 = a
  ring

theorem le_limit : 2 ^ 54 - 1 ≤ limit := by
  rw [limit_eq]
  exact le_mul_of_one_le_right (by norm_num) (one_le_pow₀ (by norm_num))

theorem one_le_limit : 1 ≤ limit := le_trans (by norm_num) le_limit

theorem limit_units : 2 * (limit * one) = (4 * binade - 1 : ℕ) * 2 ^ 2045 := by
  have hone := one_cast (j := 1074) (m := 0) rfl
  have hstep : (2 : ℚ) ^ 2045 = 2 ^ 970 * 2 * 2 ^ 1074 := by
    rw [← pow_succ, ← pow_add]
  have hbinade : ((4 * binade - 1 : ℕ) : ℚ) = 2 ^ 54 - 1 := by
    rw [binade_eq]
    norm_num
  rw [pow_zero, mul_one] at hone
  rw [limit_eq, hone, hstep, hbinade]
  generalize (2 : ℚ) ^ 970 = a
  generalize (2 : ℚ) ^ 1074 = b
  ring

theorem signed_sub (s : Bool) (v w : ℚ) : signed s v - signed s w = signed s (v - w) := by
  cases s with
  | false => rfl
  | true => simp only [signed, if_true]; ring

theorem eq_of_tie {u v w : ℚ} (habs : |u| = |w|) (htie : |u - v| = |w - v|)
    (hzero : |w - v| ≤ |v|) : u = w := by
  obtain h | h := abs_eq_abs.mp habs
  · exact h
  · rw [h] at htie
    obtain hsame | hopposite := abs_eq_abs.mp htie
    · linarith
    · have hv : v = 0 := by linarith
      rw [hv, sub_zero, abs_zero] at hzero
      rw [h, abs_nonpos_iff.mp hzero, neg_zero]

theorem zero_at (s : Bool) : (zero s).At 0 := by
  refine ⟨0, ?_, by simp⟩
  cases s with
  | false => rfl
  | true => rfl

theorem infinite_nearest (s : Bool) {v : ℚ} (h : limit ≤ v) :
    Nearest (signed s v) (.infinite s) := by
  have hpos : 0 < v := zero_lt_one.trans_le (one_le_limit.trans h)
  have hgreat : limit ≤ |signed s v| := by rwa [abs_signed, abs_of_pos hpos]
  have hsign : decide (signed s v < 0) = s := by
    cases s with
    | false => simp [signed, hpos.le]
    | true => simp [signed, hpos]
  have hnearest := Nearest.infinite hgreat
  rwa [hsign] at hnearest

/-- Finite numbers are whole numbers of units, so that values of less than half a unit are rounded
to zero. -/
theorem zero_nearest (s : Bool) {v : ℚ} (h : 2 * |v| < tiny) : Nearest v (zero s) := by
  have hsmall : |v| < limit := by
    have htiny : tiny ≤ 1 / 2 ^ 0 := tiny_le (by norm_num)
    have hlimit := one_le_limit
    have := abs_nonneg v
    rw [pow_zero, div_one] at htiny
    linarith
  refine .finite hsmall (zero_at s) ?_ fun _ _ _ _ => .inr rfl
  intro y u hy
  obtain ⟨k, -, hu⟩ := hy
  rw [zero_sub, abs_neg]
  by_cases hk : k = 0
  · simp [hu, hk]
  · have hone : (1 : ℚ) ≤ |(k : ℚ)| := by exact_mod_cast Int.one_le_abs hk
    have htiny := tiny_pos
    have hfar : tiny ≤ |u| := by
      rw [hu, abs_mul, abs_of_pos htiny]
      exact le_mul_of_one_le_left htiny.le hone
    have := abs_sub_abs_le_abs_sub u v
    linarith

theorem units_nonneg (j : ℕ) : (0 : ℚ) ≤ j * tiny := mul_nonneg (Nat.cast_nonneg j) tiny_pos.le

theorem abs_signed_units (s : Bool) (j : ℕ) : |signed s (j * tiny)| = j * tiny := by
  rw [abs_signed, abs_of_nonneg (units_nonneg j)]

theorem At.exists_magnitude {y : Binary64} {u v : ℚ} (h : y.At u) (hv : 0 ≤ v) (s : Bool) :
    ∃ j, |u| = unitsOfRank j * tiny ∧ |unitsOfRank j * tiny - v| ≤ |u - signed s v| := by
  obtain ⟨s', j, -, rfl⟩ := h.exists_rank
  refine ⟨j, abs_signed_units s' _, ?_⟩
  have htriangle := abs_abs_sub_abs_le (signed s' (unitsOfRank j * tiny)) (signed s v)
  rwa [abs_signed_units, abs_signed, abs_of_nonneg hv] at htriangle

section Ratio
variable {n d : ℕ} {v : ℚ} (hd : 0 < d) (hv : v * d = n * tiny)
include hd hv

theorem distance_value (m : ℕ) : |m * tiny - v| * d = distance n d m * tiny := by
  have hd' : (0 : ℚ) < d := by exact_mod_cast hd
  have hcast : ((distance n d m : ℕ) : ℚ) = |(m * d : ℚ) - n| := by
    unfold distance
    rw [Nat.cast_natAbs]
    push_cast
    rfl
  calc |m * tiny - v| * d = |(m * tiny - v) * d| := by rw [abs_mul, abs_of_pos hd']
    _ = |(m * d - n) * tiny| := by rw [sub_mul, hv]; congr 1; ring
    _ = distance n d m * tiny := by rw [abs_mul, abs_of_pos tiny_pos, hcast]

theorem distance_le_iff (i j : ℕ) :
    |i * tiny - v| ≤ |j * tiny - v| ↔ distance n d i ≤ distance n d j := by
  have hd' : (0 : ℚ) < d := by exact_mod_cast hd
  rw [← mul_le_mul_iff_left₀ hd', distance_value hd hv, distance_value hd hv,
    mul_le_mul_iff_left₀ tiny_pos, Nat.cast_le]

/-- A quotient is rounded to infinity from the limit on. -/
theorem limit_le_iff : limit ≤ v ↔ magnitudes ≤ rankOfRatio n d := by
  have hd' : (0 : ℚ) < d := by exact_mod_cast hd
  have hone : (0 : ℚ) < one := by exact_mod_cast one_pos
  have hlow : ((4 * binade - 1) * (d * 2 ^ 2045) : ℕ) = limit * (2 * one * d) := by
    rw [Nat.cast_mul, Nat.cast_mul, Nat.cast_pow, Nat.cast_ofNat, mul_comm (d : ℚ), ← mul_assoc,
      ← limit_units]
    ring
  have hhigh : (2 * n : ℕ) = v * (2 * one * d) := by
    rw [mul_comm (2 * one : ℚ), ← mul_assoc, hv]
    push_cast
    linear_combination -(2 * n : ℚ) * one_mul_tiny
  have hrank : magnitudes ≤ rankOfRatio n d ↔ (4 * binade - 1) * (d * 2 ^ 2045) ≤ 2 * n :=
    le_rankOfRatio_iff hd 2045
  rw [hrank, ← @Nat.cast_le ℚ, hlow, hhigh]
  exact (mul_le_mul_iff_left₀ (mul_pos (mul_pos two_pos hone) hd')).symm

/-- Quotients are rounded to nearest. -/
theorem ofRatio_nearest (s : Bool) : Nearest (signed s v) (ofRatio s n d) := by
  have hd' : (0 : ℚ) < d := by exact_mod_cast hd
  have hnonneg : 0 ≤ v := by
    refine nonneg_of_mul_nonneg_left (b := (d : ℚ)) ?_ hd'
    rw [hv]
    exact units_nonneg n
  unfold ofRatio ofRank
  by_cases hfinite : rankOfRatio n d < magnitudes
  · rw [dif_pos hfinite]
    have hsmall : |signed s v| < limit := by
      rw [abs_signed, abs_of_nonneg hnonneg, ← not_le, limit_le_iff hd hv]
      omega
    have hvalue := ofRank_at s hfinite
    rw [ofRank, dif_pos hfinite] at hvalue
    have hown : |signed s (unitsOfRank (rankOfRatio n d) * tiny) - signed s v| =
        |unitsOfRank (rankOfRatio n d) * tiny - v| := by rw [signed_sub, abs_signed]
    have hnear : ∀ y u, At y u →
        |signed s (unitsOfRank (rankOfRatio n d) * tiny) - signed s v| ≤ |u - signed s v| := by
      intro y u hy
      obtain ⟨j, -, hj⟩ := hy.exists_magnitude hnonneg s
      have hrank := rankOfRatio_nearest n hd j
      rw [hown]
      exact ((distance_le_iff hd hv _ _).mpr (by omega)).trans hj
    -- In a tie the other magnitude is the same one, or the rounded one has an even rank.
    refine .finite hsmall hvalue hnear ?_
    intro y u hy htie
    obtain ⟨j, habs, hj⟩ := hy.exists_magnitude hnonneg s
    have hrank := rankOfRatio_nearest n hd j
    rw [htie, hown, distance_le_iff hd hv] at hj
    obtain hunits | heven :
      unitsOfRank j = unitsOfRank (rankOfRatio n d) ∨ rankOfRatio n d % 2 = 0 := by omega
    · left
      have hzero := hnear _ 0 (zero_at false)
      rw [zero_sub, abs_neg] at hzero
      apply eq_of_tie ?_ htie hzero
      rw [habs, hunits, abs_signed_units]
    · exact .inr heven
  · rw [dif_neg hfinite]
    exact infinite_nearest s ((limit_le_iff hd hv).mpr (by omega))

end Ratio

theorem At.abs_lt_limit {x : Binary64} {v : ℚ} (h : x.At v) : |v| < limit := by
  obtain ⟨s, r, rfl, rfl⟩ := h.exists_rank
  have hunits : (unitsOfRank r : ℚ) * tiny * (1 : ℕ) = unitsOfRank r * tiny := by
    rw [Nat.cast_one, mul_one]
  rw [abs_signed_units, ← not_le, limit_le_iff Nat.one_pos hunits, rankOfRatio_unitsOfRank]
  omega

theorem ofInt?_nearest {k : ℤ} {x : Binary64} (h : ofInt? k = some x) : Nearest k x := by
  have hone : (0 : ℤ) < one := by exact_mod_cast one_pos
  have hunits : Nearest k (ofUnits false (k * one)) := by
    unfold ofUnits
    split
    · rename_i hzero
      have hk : k = 0 := (Int.mul_eq_zero.mp hzero).resolve_right hone.ne'
      apply zero_nearest
      simpa [hk] using tiny_pos
    · have hsign : decide (k * one < 0) = decide (k < 0) :=
        decide_eq_decide.mpr
          ⟨fun h => neg_of_mul_neg_left h hone.le, fun h => mul_neg_of_neg_of_pos h hone⟩
      have habs : (k.natAbs : ℚ) * (1 : ℕ) = ((k * one).natAbs : ℕ) * tiny := by
        rw [Int.natAbs_mul, Int.natAbs_natCast, Nat.cast_mul, mul_assoc, one_mul_tiny, Nat.cast_one]
      have hratio := ofRatio_nearest Nat.one_pos habs (decide (k < 0))
      rwa [Scalar.signed_natAbs, ← hsign] at hratio
  unfold ofInt? bounded? at h
  split at h
  · cases h
  · rwa [Option.some.inj h] at hunits

/-! ## Decimals -/

theorem pow_ten_le_of_log2 {digits : ℕ} (h : digits ≠ 0) :
    10 ^ ((digits.log2 + 1) / 4) ≤ 10 * digits := by
  have hlow := Nat.log2_self_le h
  obtain hk | ⟨j, hj⟩ : (digits.log2 + 1) / 4 = 0 ∨ ∃ j, (digits.log2 + 1) / 4 = j + 1 := by
    cases (digits.log2 + 1) / 4 with
    | zero => exact .inl rfl
    | succ j => exact .inr ⟨j, rfl⟩
  · rw [hk]
    omega
  · have hpow : 10 ^ j ≤ 2 ^ digits.log2 := by
      calc 10 ^ j ≤ (2 ^ 4) ^ j := Nat.pow_le_pow_left (by decide) j
        _ = 2 ^ (4 * j) := (Nat.pow_mul 2 4 j).symm
        _ ≤ 2 ^ digits.log2 := Nat.pow_le_pow_right (by decide) (by omega)
    rw [hj, Nat.pow_succ]
    omega

theorem limit_le_pow_ten : limit ≤ 10 ^ 331 := by
  have hpow : 2 ^ 1024 ≤ 10 ^ 331 := by decide +kernel
  have hcast : (2 : ℚ) ^ 1024 ≤ 10 ^ 331 := by exact_mod_cast hpow
  have hpos : (0 : ℚ) ≤ 2 ^ 970 := pow_nonneg (by norm_num) _
  exact (sub_le_self _ hpos).trans hcast

theorem two_mul_one_lt_pow_ten : 2 * one < 10 ^ 331 := by
  decide +kernel

section Lengths
variable {digits : ℕ} {e : ℤ}

/-- A decimal of many digits in front of the point lies past the limit. -/
theorem limit_le_decimal (hdigits : digits ≠ 0) (h : 331 < e + ((digits.log2 : ℤ) + 1) / 4) :
    limit ≤ digits * 10 ^ e := by
  have hbound : (10 : ℚ) ^ ((digits.log2 + 1) / 4) ≤ 10 * digits := by
    exact_mod_cast pow_ten_le_of_log2 hdigits
  have hten : (0 : ℚ) < 10 := by norm_num
  refine limit_le_pow_ten.trans (le_of_mul_le_mul_left ?_ hten)
  calc (10 : ℚ) * 10 ^ 331 = 10 ^ (332 : ℤ) :=
        (pow_succ' (10 : ℚ) 331).symm.trans (zpow_natCast 10 332).symm
    _ ≤ 10 ^ ((((digits.log2 + 1) / 4 : ℕ) : ℤ) + e) := by
      apply zpow_le_zpow_right₀ (by norm_num)
      push_cast
      omega
    _ = 10 ^ ((digits.log2 + 1) / 4) * 10 ^ e := by
      rw [zpow_add₀ hten.ne', zpow_natCast]
    _ ≤ 10 * digits * 10 ^ e := mul_le_mul_of_nonneg_right hbound (zpow_pos hten e).le
    _ = 10 * (digits * 10 ^ e) := mul_assoc _ _ _

theorem decimal_lt_tiny (h : e + ((digits.log2 : ℤ) + 1) < -330) :
    2 * ((digits : ℚ) * 10 ^ e) < tiny := by
  have hten : (0 : ℚ) < 10 := by norm_num
  have hbound : (digits : ℚ) ≤ 10 ^ (digits.log2 + 1) := by
    have hlt := Nat.lt_log2_self (n := digits)
    have hle : 2 ^ (digits.log2 + 1) ≤ 10 ^ (digits.log2 + 1) :=
      Nat.pow_le_pow_left (by decide) _
    exact_mod_cast hlt.le.trans hle
  have hvalue : (digits : ℚ) * 10 ^ e ≤ 10 ^ (-331 : ℤ) := by
    calc (digits : ℚ) * 10 ^ e ≤ 10 ^ (digits.log2 + 1) * 10 ^ e :=
          mul_le_mul_of_nonneg_right hbound (zpow_pos hten e).le
      _ = 10 ^ (((digits.log2 + 1 : ℕ) : ℤ) + e) := by
        rw [zpow_add₀ hten.ne', zpow_natCast]
      _ ≤ 10 ^ (-331 : ℤ) := by
        apply zpow_le_zpow_right₀ (by norm_num)
        push_cast
        omega
  have hunit : 2 * (10 : ℚ) ^ (-331 : ℤ) < tiny := by
    have hone : (0 : ℚ) < one := by exact_mod_cast one_pos
    have hcast : (2 : ℚ) * one < 10 ^ 331 := by exact_mod_cast two_mul_one_lt_pow_ten
    rw [tiny, zpow_neg, lt_div_iff₀ hone, mul_right_comm, ← div_eq_mul_inv,
      div_lt_one (zpow_pos hten _)]
    exact hcast
  linarith

end Lengths

/-- Decimals are rounded to nearest. -/
theorem ofDecimal_nearest (s : Bool) (digits : ℕ) (e : ℤ) :
    Nearest (signed s (digits * 10 ^ e)) (ofDecimal s digits e) := by
  have hten : (0 : ℚ) < 10 ^ e := zpow_pos (by norm_num) e
  unfold ofDecimal
  dsimp only
  split
  · rename_i hzero
    apply zero_nearest s
    rw [abs_signed, hzero]
    simpa using tiny_pos
  rename_i hdigits
  split
  · rename_i hlong
    -- So many digits in front of the point are past the greatest number.
    exact infinite_nearest s (limit_le_decimal hdigits hlong)
  split
  · rename_i hshort
    -- So many places behind the point leave less than half of the least number.
    apply zero_nearest s
    rw [abs_signed, abs_of_nonneg (mul_nonneg (Nat.cast_nonneg _) hten.le)]
    exact decimal_lt_tiny hshort
  split
  · rename_i hnonneg
    -- Otherwise the decimal is a quotient, of its digits by one or by a power of ten.
    apply ofRatio_nearest Nat.one_pos
    have hpow : (10 : ℚ) ^ e = (Nat.pow 10 e.toNat : ℕ) := by
      rw [Nat.pow_eq, Nat.cast_pow, ← zpow_natCast, Int.toNat_of_nonneg hnonneg, Nat.cast_ofNat]
    rw [Nat.cast_mul, Nat.cast_mul, hpow, mul_assoc _ (one : ℚ), one_mul_tiny]
    simp
  · rename_i hnegative
    apply ofRatio_nearest (Nat.pow_pos (by decide) : 0 < Nat.pow 10 (-e).toNat)
    have hpow : (10 : ℚ) ^ e * 10 ^ (-e).toNat = 1 := by
      rw [← zpow_natCast, Int.toNat_of_nonneg (by omega), ← zpow_add₀ (by norm_num)]
      simp
    rw [Nat.cast_pow, Nat.cast_ofNat, mul_assoc, hpow, Nat.cast_mul, mul_assoc, one_mul_tiny]

theorem ofDecimal_sign (s : Bool) (digits : ℕ) (e : ℤ) :
    ofDecimal s digits e = .infinite s ∨ ∃ r, ofDecimal s digits e = .finite s r := by
  have hratio (n d : ℕ) : ofRatio s n d = .infinite s ∨ ∃ r, ofRatio s n d = .finite s r := by
    unfold ofRatio ofRank
    split
    · exact .inr ⟨_, rfl⟩
    · exact .inl rfl
  unfold ofDecimal
  dsimp only
  split
  · exact .inr ⟨_, rfl⟩
  split
  · exact .inl rfl
  split
  · exact .inr ⟨_, rfl⟩
  split
  · exact hratio _ _
  · exact hratio _ _

end Binary64

namespace Literal

theorem nearest (l : Literal) : Binary64.Nearest l.value l.number := by
  have h := Binary64.ofDecimal_nearest l.negative l.numerator (-l.places.length)
  rw [zpow_neg, zpow_natCast, ← div_eq_mul_inv] at h
  exact h

theorem exists_unsigned {l : Literal} (hsign : l.negative = false) {w : ℚ} (h : l.number.At w) :
    ∃ r, l.number = .finite false r ∧ 0 ≤ w := by
  obtain ⟨s, r, hr, rfl⟩ := h.exists_rank
  have hs : s = false := by
    obtain hinf | ⟨r', hr'⟩ := Binary64.ofDecimal_sign l.negative l.numerator (-l.places.length)
    · rw [← number, hr] at hinf
      cases hinf
    · rw [← number, hr, hsign] at hr'
      exact (Binary64.finite.inj hr').1
  subst hs
  exact ⟨r, hr, Binary64.units_nonneg _⟩

end Literal

end DiagramScript
