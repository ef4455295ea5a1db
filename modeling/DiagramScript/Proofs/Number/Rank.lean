import DiagramScript.Number.Binary64
import Mathlib.Algebra.Ring.Nat

/-
  Ranks and the magnitudes that they number.

  Rounding a quotient picks a significand and a number of doublings (`rankOfRatio_eq`), and the
  magnitude of the rank is the significand so often doubled (`unitsOfRank_shift`). From these
  two follow the laws of one rounding: it errs by half a step at most (`units_rankOfRatio`), it
  keeps every power of two that divides a whole quotient (`dvd_units_rankOfRatio`), and a
  magnitude past some power of two is a whole number of steps (`dvd_unitsOfRank`).
-/

namespace DiagramScript

/-- The nearest whole number is off by half at most. -/
theorem roundHalfEven_error (n : Nat) {d : Nat} (hd : 0 < d) :
    2 * (roundHalfEven n d * d) ≤ 2 * n + d ∧ 2 * n ≤ 2 * (roundHalfEven n d * d) + d := by
  have hdiv := Nat.div_add_mod' n d
  have hmod := Nat.mod_lt n hd
  unfold roundHalfEven
  dsimp only
  have hsucc : (n / d + 1) * d = n / d * d + d := Nat.succ_mul _ _
  split
  · omega
  · omega

theorem roundHalfEven_between (n d : Nat) :
    n / d ≤ roundHalfEven n d ∧ roundHalfEven n d ≤ n / d + 1 := by
  unfold roundHalfEven
  dsimp only
  split <;> omega

theorem roundHalfEven_mono {m n : Nat} (h : m ≤ n) (d : Nat) :
    roundHalfEven m d ≤ roundHalfEven n d := by
  obtain ⟨-, hm⟩ := roundHalfEven_between m d
  obtain ⟨hn, -⟩ := roundHalfEven_between n d
  rcases Nat.lt_or_eq_of_le (Nat.div_le_div_right (c := d) h) with hlt | heq
  · omega
  · -- With one quotient the greater number has the greater remainder.
    have hmod : m % d ≤ n % d := by
      have hm := Nat.div_add_mod m d
      have hn := Nat.div_add_mod n d
      rw [heq] at hm
      omega
    unfold roundHalfEven
    dsimp only
    rw [heq]
    split <;> split <;> omega

namespace Binary64

theorem binade_eq : binade = 2 ^ 52 := rfl

/-- A significand of a magnitude: it has 53 binary digits, or fewer where it is not doubled. -/
structure Significand (m q : Nat) : Prop where
  le : m ≤ 2 * binade
  full : q = 0 ∨ binade ≤ m

theorem rank_cut {b m q : Nat} (hle : b ≤ m) (hlt : m < 2 * b) :
    (q * b + m) / b = q + 1 ∧ (q * b + m) % b = m - b := by
  have hr : q * b + m = (m - b) + (q + 1) * b := by
    rw [Nat.add_mul]
    omega
  have hsmall : m - b < b := by omega
  rw [hr, Nat.add_mul_mod_self_right, Nat.mod_eq_of_lt hsmall,
    Nat.add_mul_div_right _ _ (by omega), Nat.div_eq_of_lt hsmall, Nat.zero_add]
  exact ⟨rfl, rfl⟩

/-- The magnitude of a significand doubled `q` times. -/
theorem unitsOfRank_shift {m q : Nat} (h : Significand m q) :
    unitsOfRank (q * binade + m) = m * 2 ^ q := by
  have hb : 0 < binade := by decide
  obtain ⟨hle, hfull⟩ := h
  unfold unitsOfRank
  generalize binade = b at *
  by_cases htop : m = 2 * b
  · -- The significand past the last one of its length is the first one of the next length.
    have hr : q * b + m = (q + 2) * b := by rw [htop, Nat.add_mul]
    have htwo : 2 * b ≤ q * b + m := by omega
    rw [if_neg (by omega), hr, Nat.mul_mod_left, Nat.mul_div_cancel _ hb, htop]
    show (b + 0) * 2 ^ (q + 1) = 2 * b * 2 ^ q
    rw [Nat.pow_succ, Nat.add_zero, Nat.mul_comm 2 b, Nat.mul_assoc, Nat.mul_comm 2]
  · by_cases hq : q = 0
    · subst hq
      rw [Nat.zero_mul, Nat.zero_add, if_pos (by omega), Nat.pow_zero, Nat.mul_one]
    · have hm : b ≤ m := hfull.resolve_left hq
      have hbinade : 1 * b ≤ q * b := Nat.mul_le_mul_right _ (by omega)
      obtain ⟨hdiv, hmod⟩ := rank_cut (q := q) hm (by omega)
      rw [if_neg (by omega), hdiv, hmod]
      show (b + (m - b)) * 2 ^ q = m * 2 ^ q
      congr 1
      omega

/-- Every rank is that of a significand below the greatest one. -/
theorem exists_significand_lt (r : Nat) :
    ∃ m q, Significand m q ∧ m < 2 * binade ∧ r = q * binade + m := by
  have hb : 0 < binade := by decide
  by_cases hr : r < 2 * binade
  · exact ⟨r, 0, ⟨by omega, .inl rfl⟩, hr, by omega⟩
  · have hdiv := Nat.div_add_mod' r binade
    have hmod := Nat.mod_lt r hb
    have htwo : 2 ≤ r / binade := (Nat.le_div_iff_mul_le hb).mpr (by omega)
    obtain ⟨q, hq⟩ : ∃ q, r / binade = q + 1 := ⟨r / binade - 1, by omega⟩
    rw [hq, Nat.add_mul] at hdiv
    exact ⟨binade + r % binade, q, ⟨by omega, .inr (by omega)⟩, by omega, by omega⟩

theorem exists_significand (r : Nat) : ∃ m q, Significand m q ∧ r = q * binade + m := by
  obtain ⟨m, q, hm, -, hr⟩ := exists_significand_lt r
  exact ⟨m, q, hm, hr⟩

theorem Significand.rank_eq_zero {m q : Nat} (h : Significand m q) :
    q * binade + m = 0 ↔ m = 0 := by
  have hb : 0 < binade := by decide
  refine ⟨fun hrank => by omega, fun hm => ?_⟩
  have hq : q = 0 := h.full.resolve_right (by omega)
  rw [hm, hq, Nat.zero_mul]

theorem unitsOfRank_eq_zero {r : Nat} : unitsOfRank r = 0 ↔ r = 0 := by
  obtain ⟨m, q, hm, rfl⟩ := exists_significand r
  have hpow := Nat.two_pow_pos q
  rw [unitsOfRank_shift hm, hm.rank_eq_zero, Nat.mul_eq_zero]
  omega

theorem unitsOfRank_lt_succ (r : Nat) : unitsOfRank r < unitsOfRank (r + 1) := by
  obtain ⟨m, q, hm, hlt, rfl⟩ := exists_significand_lt r
  have hnext : Significand (m + 1) q := ⟨hlt, hm.full.imp id fun h => Nat.le_succ_of_le h⟩
  rw [unitsOfRank_shift hm, Nat.add_assoc, unitsOfRank_shift hnext]
  exact Nat.mul_lt_mul_of_pos_right (Nat.lt_succ_self m) (Nat.two_pow_pos q)

theorem shiftOf_bounds (u : Nat) :
    u < 2 ^ (53 + shiftOf u) ∧ (shiftOf u = 0 ∨ 2 ^ (52 + shiftOf u) ≤ u) := by
  unfold shiftOf
  have hlt := Nat.lt_log2_self (n := u)
  constructor
  · exact Nat.lt_of_lt_of_le hlt (Nat.pow_le_pow_right (by decide) (by omega))
  · by_cases hq : Nat.log2 u - 52 = 0
    · exact .inl hq
    · have hu : u ≠ 0 := by
        rintro rfl
        exact hq (by decide)
      refine .inr (Nat.le_trans (Nat.le_of_eq ?_) (Nat.log2_self_le hu))
      congr 1
      omega

theorem significand_div {u q : Nat} (hlt : u < 2 ^ (53 + q)) (hle : q = 0 ∨ 2 ^ (52 + q) ≤ u) :
    u / 2 ^ q < 2 * binade ∧ (q = 0 ∨ binade ≤ u / 2 ^ q) := by
  have hpos : 0 < 2 ^ q := Nat.two_pow_pos q
  constructor
  · refine (Nat.div_lt_iff_lt_mul hpos).mpr (Nat.lt_of_lt_of_eq hlt ?_)
    rw [Nat.pow_add, binade_eq, Nat.pow_succ, Nat.mul_comm (2 ^ 52)]
  · refine hle.imp id fun h => (Nat.le_div_iff_mul_le hpos).mpr (Nat.le_trans (Nat.le_of_eq ?_) h)
    rw [Nat.pow_add, binade_eq]

theorem rank_lt_magnitudes {m u : Nat} (h : Significand m (shiftOf u)) {e : Nat} (hu : u < 2 ^ e)
    (he : e ≤ 2000) : shiftOf u * binade + m < magnitudes := by
  have hb : 0 < binade := by decide
  have hshift : shiftOf u ≤ 2000 := by
    unfold shiftOf
    by_cases hzero : u = 0
    · subst hzero
      decide
    · have := (Nat.log2_lt hzero).mpr hu
      omega
  have hq : shiftOf u * binade ≤ 2000 * binade := Nat.mul_le_mul_right _ hshift
  have hm := h.le
  unfold magnitudes
  generalize binade = b at *
  omega

/-! ## Quotients -/

theorem rankOfRatio_significand (n d : Nat) :
    Significand (roundHalfEven n (d * 2 ^ shiftOf (n / d))) (shiftOf (n / d)) := by
  obtain ⟨hlt, hle⟩ := shiftOf_bounds (n / d)
  obtain ⟨hlow, hhigh⟩ := significand_div hlt hle
  obtain ⟨hfloor, hceil⟩ := roundHalfEven_between n (d * 2 ^ shiftOf (n / d))
  rw [← Nat.div_div_eq_div_mul] at hfloor hceil
  exact ⟨by omega, hhigh.imp id fun h => by omega⟩

theorem units_rankOfRatio_eq (n d : Nat) :
    unitsOfRank (rankOfRatio n d) =
      roundHalfEven n (d * 2 ^ shiftOf (n / d)) * 2 ^ shiftOf (n / d) :=
  unitsOfRank_shift (rankOfRatio_significand n d)

theorem rankOfRatio_one_eq_zero {n : Nat} : rankOfRatio n 1 = 0 ↔ n = 0 := by
  refine ⟨fun h => ?_, fun h => by rw [h]; decide⟩
  have hsig := rankOfRatio_significand n 1
  have hm := hsig.rank_eq_zero.mp h
  rw [hm] at hsig
  have hb : 0 < binade := by decide
  have hq : shiftOf (n / 1) = 0 := hsig.full.resolve_right (by omega)
  rw [hq, Nat.pow_zero, Nat.mul_one, roundHalfEven_one] at hm
  exact hm

theorem shiftOf_mono {u v : Nat} (h : u ≤ v) : shiftOf u ≤ shiftOf v := by
  unfold shiftOf
  by_cases hu : u = 0
  · rw [hu]
    exact Nat.zero_le _
  · have hlog : Nat.log2 u ≤ Nat.log2 v :=
      (Nat.le_log2 (by omega)).mpr (Nat.le_trans (Nat.log2_self_le hu) h)
    omega

theorem rankOfRatio_one_mono {m n : Nat} (h : m ≤ n) : rankOfRatio m 1 ≤ rankOfRatio n 1 := by
  have hm := rankOfRatio_significand m 1
  have hn := rankOfRatio_significand n 1
  have hrank (k : Nat) :
      rankOfRatio k 1 = shiftOf k * binade + roundHalfEven k (2 ^ shiftOf k) := by
    rw [rankOfRatio, Nat.div_one, Nat.one_mul]
    rfl
  rw [hrank, hrank]
  rw [Nat.div_one, Nat.one_mul] at hm hn
  rcases Nat.lt_or_eq_of_le (shiftOf_mono h) with hlt | heq
  · -- A further binade starts where the one before it ends.
    have hnext : (shiftOf m + 1) * binade ≤ shiftOf n * binade := Nat.mul_le_mul_right _ hlt
    have hfull := hn.full.resolve_left (by omega)
    have hle := hm.le
    rw [Nat.add_mul, Nat.one_mul] at hnext
    omega
  · rw [heq]
    exact Nat.add_le_add_left (roundHalfEven_mono h _) _

theorem rankOfRatio_lt {n d e : Nat} (h : n / d < 2 ^ e) (he : e ≤ 2000) :
    rankOfRatio n d < magnitudes :=
  rank_lt_magnitudes (rankOfRatio_significand n d) h he

/-- A rounded quotient is off by half a step at most, and a step of more than one unit is small
against the quotient. -/
theorem units_rankOfRatio_error (n : Nat) {d : Nat} (hd : 0 < d) :
    ∃ step, 2 * (unitsOfRank (rankOfRatio n d) * d) ≤ 2 * n + step * d ∧
      2 * n ≤ 2 * (unitsOfRank (rankOfRatio n d) * d) + step * d ∧
      (step = 1 ∨ binade * step * d ≤ n) := by
  obtain ⟨-, hle⟩ := shiftOf_bounds (n / d)
  rw [units_rankOfRatio_eq]
  generalize shiftOf (n / d) = q at *
  have hstep : d * 2 ^ q = 2 ^ q * d := Nat.mul_comm _ _
  have hround := roundHalfEven_error n (d := d * 2 ^ q) (Nat.mul_pos hd (Nat.two_pow_pos q))
  have hshift (m : Nat) : m * 2 ^ q * d = m * (d * 2 ^ q) := by rw [hstep, Nat.mul_assoc]
  refine ⟨2 ^ q, ?_, ?_, ?_⟩
  · rw [hshift, ← hstep]
    exact hround.1
  · rw [hshift, ← hstep]
    exact hround.2
  · refine hle.imp (fun hq => by rw [hq, Nat.pow_zero]) fun h => ?_
    rw [binade_eq, ← Nat.pow_add]
    exact Nat.le_trans (Nat.mul_le_mul_right d h) (Nat.div_mul_le_self n d)

theorem dvd_units_rankOfRatio {k j d : Nat} (hd : 0 < d) :
    2 ^ j ∣ unitsOfRank (rankOfRatio (k * 2 ^ j * d) d) := by
  rw [units_rankOfRatio_eq]
  generalize shiftOf (k * 2 ^ j * d / d) = q
  by_cases hq : j ≤ q
  · exact Nat.dvd_mul_left_of_dvd (Nat.pow_dvd_pow 2 hq) _
  · -- The step divides the quotient, which is therefore not rounded at all.
    obtain ⟨i, rfl⟩ : ∃ i, j = q + i := ⟨j - q, by omega⟩
    have hexact : k * 2 ^ (q + i) * d = k * 2 ^ i * (d * 2 ^ q) := by
      rw [Nat.pow_add, Nat.mul_comm (2 ^ q), ← Nat.mul_assoc, Nat.mul_assoc _ (2 ^ q),
        Nat.mul_comm d]
    rw [hexact, roundHalfEven_mul _ _ (Nat.mul_pos hd (Nat.two_pow_pos q)), Nat.mul_assoc,
      ← Nat.pow_add, Nat.add_comm i q]
    exact Nat.dvd_mul_left _ _

/-! ## Steps -/

/-- A magnitude of at least 53 binary digits behind some places is a whole number of steps of
that many places. -/
theorem dvd_unitsOfRank {r k : Nat} (h : 2 ^ (52 + k) ≤ unitsOfRank r) : 2 ^ k ∣ unitsOfRank r := by
  obtain ⟨m, q, hm, rfl⟩ := exists_significand r
  rw [unitsOfRank_shift hm] at h ⊢
  by_cases hq : k ≤ q
  · exact Nat.dvd_mul_left_of_dvd (Nat.pow_dvd_pow 2 hq) _
  · -- Only the first magnitude past the significands of this step is left.
    have hle : m * 2 ^ q ≤ 2 ^ (53 + q) := by
      rw [Nat.pow_add]
      exact Nat.mul_le_mul_right _ hm.le
    have hpow : 2 ^ (53 + q) ≤ 2 ^ (52 + k) := Nat.pow_le_pow_right (by decide) (by omega)
    have heq : m * 2 ^ q = 2 ^ (52 + k) := by omega
    rw [heq]
    exact Nat.pow_dvd_pow 2 (by omega)

/-! ## Square roots -/

theorem units_le_shifted {r u : Nat} (h : unitsOfRank r ≤ u) :
    unitsOfRank r ≤ u / 2 ^ shiftOf u * 2 ^ shiftOf u := by
  obtain ⟨hlt, hle⟩ := shiftOf_bounds u
  have hfull := (significand_div hlt hle).2
  generalize shiftOf u = q at *
  rcases hfull with rfl | hfull
  · simpa using h
  · by_cases hr : 2 ^ (52 + q) ≤ unitsOfRank r
    · obtain ⟨k, hk⟩ := dvd_unitsOfRank hr
      rw [hk] at h ⊢
      rw [Nat.mul_comm]
      refine Nat.mul_le_mul_right _ ((Nat.le_div_iff_mul_le (Nat.two_pow_pos q)).mpr ?_)
      rwa [Nat.mul_comm]
    · have hpow : binade * 2 ^ q ≤ u / 2 ^ q * 2 ^ q := Nat.mul_le_mul_right _ hfull
      rw [binade_eq, ← Nat.pow_add] at hpow
      omega

/-- The rank of a square root is that of the whole part after its shift, or the next one. -/
theorem rankOfSqrt_eq (s : Nat) :
    ∃ m, (m = floorSqrt s / 2 ^ shiftOf (floorSqrt s) ∨
        m = floorSqrt s / 2 ^ shiftOf (floorSqrt s) + 1) ∧
      Significand m (shiftOf (floorSqrt s)) ∧
      rankOfSqrt s = shiftOf (floorSqrt s) * binade + m := by
  obtain ⟨hlt, hle⟩ := shiftOf_bounds (floorSqrt s)
  obtain ⟨hlow, hhigh⟩ := significand_div hlt hle
  unfold rankOfSqrt
  dsimp only
  split
  · exact ⟨_, .inl rfl, ⟨by omega, hhigh⟩, rfl⟩
  · exact ⟨_, .inr rfl, ⟨by omega, hhigh.imp id fun h => by omega⟩, Nat.add_assoc _ _ _⟩

theorem rankOfSqrt_eq_zero {s : Nat} : rankOfSqrt s = 0 ↔ s = 0 := by
  refine ⟨fun h => ?_, fun h => by rw [h]; decide +kernel⟩
  obtain ⟨m, hm, hsig, hrank⟩ := rankOfSqrt_eq s
  have hzero := hsig.rank_eq_zero.mp (hrank ▸ h)
  have hb : 0 < binade := by decide
  have hq : shiftOf (floorSqrt s) = 0 := by
    have hfull := hsig.full
    omega
  rw [hq, Nat.pow_zero, Nat.div_one] at hm
  have hroot : floorSqrt s = 0 := by omega
  have hsquare := (floorSqrt_bounds s).2
  rw [hroot] at hsquare
  omega

theorem units_le_rankOfSqrt {r s : Nat} (h : unitsOfRank r * unitsOfRank r ≤ s) :
    unitsOfRank r ≤ unitsOfRank (rankOfSqrt s) := by
  have hroot : unitsOfRank r ≤ floorSqrt s := by
    refine Nat.le_of_not_lt fun hlt => ?_
    have hsquare := (floorSqrt_bounds s).2
    have hle : floorSqrt s + 1 ≤ unitsOfRank r := by omega
    have := Nat.mul_le_mul hle hle
    omega
  have hshifted := units_le_shifted hroot
  obtain ⟨m, hm, hsig, hrank⟩ := rankOfSqrt_eq s
  rw [hrank, unitsOfRank_shift hsig]
  refine Nat.le_trans hshifted (Nat.mul_le_mul_right _ ?_)
  omega

/-- The rounded root of a number below a square is less than twice the root of that square. -/
theorem rankOfSqrt_le {s a : Nat} (h : s < a * a) :
    unitsOfRank (rankOfSqrt s) ≤ 2 * a := by
  have hroot : floorSqrt s < a := by
    refine Nat.lt_of_not_le fun hle => ?_
    have hsquare := (floorSqrt_bounds s).1
    have := Nat.mul_le_mul hle hle
    omega
  obtain ⟨m, hm, hsig, hrank⟩ := rankOfSqrt_eq s
  rw [hrank, unitsOfRank_shift hsig]
  obtain ⟨-, hle⟩ := shiftOf_bounds (floorSqrt s)
  generalize shiftOf (floorSqrt s) = q at *
  have hpart := Nat.div_mul_le_self (floorSqrt s) (2 ^ q)
  -- One step more than the root is at most twice as much.
  have hstep : 2 ^ q ≤ a := by
    rcases hle with rfl | hle
    · omega
    · have : 2 ^ q ≤ 2 ^ (52 + q) := Nat.pow_le_pow_right (by decide) (by omega)
      omega
  have hnext : (floorSqrt s / 2 ^ q + 1) * 2 ^ q = floorSqrt s / 2 ^ q * 2 ^ q + 2 ^ q :=
    Nat.succ_mul _ _
  rcases hm with rfl | rfl <;> omega

theorem rankOfSqrt_lt {s a e : Nat} (h : s < a * a) (ha : a ≤ 2 ^ e) (he : e ≤ 2000) :
    rankOfSqrt s < magnitudes := by
  have hroot : floorSqrt s < 2 ^ e := by
    refine Nat.lt_of_not_le fun hle => ?_
    have hsquare := (floorSqrt_bounds s).1
    have hale : a ≤ floorSqrt s := by omega
    have := Nat.mul_le_mul hale hale
    omega
  obtain ⟨m, -, hsig, hrank⟩ := rankOfSqrt_eq s
  rw [hrank]
  exact rank_lt_magnitudes hsig hroot he

end Binary64

end DiagramScript
