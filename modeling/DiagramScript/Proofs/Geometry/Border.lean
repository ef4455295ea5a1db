import DiagramScript.Geometry.Border
import DiagramScript.Proofs.Geometry.Middle

/-
  Rays that leave a box.

  The share of a ray at which it leaves an ellipse or a rectangle brings it hardly further than
  half of the box along each axis (`ellipseScale_near`, `rectangleScale_near`), so where the ray
  leaves the box is hardly further from the origin than the corners of the box are
  (`point_within`).
-/

namespace DiagramScript

namespace Border

/-- One axis of a ray: its way from the middle of a box and half of the box. -/
structure Ray (d half : Scalar) (v h : ℚ) : Prop where
  d_at : d.At v
  half_at : half.At h
  grid : OnGrid 133 v
  v_le : |v| ≤ 2 ^ 112
  h_le : h ≤ 2 ^ 112
  le_h : 1 / 2 ^ 134 ≤ h

variable {dx dy halfW halfH : Scalar} {v w h g : ℚ} {k : ℕ}

theorem Ray.h_pos (hx : Ray dx halfW v h) : 0 < h := lt_of_lt_of_le (by positivity) hx.le_h

theorem Ray.le_v (hx : Ray dx halfW v h) (hv : v ≠ 0) : 1 / 2 ^ 133 ≤ |v| := hx.grid.le_abs hv

/-- A share of a ray that brings it hardly further than half of a box along both axes. -/
def Leaves (v h w g : ℚ) (scale : Scalar) : Prop :=
  ∃ t, scale.At t ∧ 0 < t ∧ t ≤ 2 ^ 250 ∧ |v| * t ≤ h + h / 2 ^ 40 ∧ |w| * t ≤ g + g / 2 ^ 40

/-- A quotient that is not too small is off by a small share only. -/
theorem div_share {a b : Scalar} (ha : a.At v) (hb : b.At w) (hv : |v| ≤ 2 ^ 252)
    (hw : |w| ≤ 2 ^ 252) (hne : w ≠ 0) (hlow : 1 / 2 ^ 254 ≤ |v / w|) (hhigh : |v / w| ≤ 2 ^ 252) :
    Gives (fun c => ∃ z, c.At z ∧ |z - v / w| ≤ |v / w| / 2 ^ 49) (a.div b) := by
  refine (Scalar.div_at ha hb hv hw (by norm_num) hne hhigh).imp ?_
  rintro c ⟨z, hz, herror, -⟩
  refine ⟨z, hz, herror.trans ?_⟩
  have htiny := Binary64.tiny_le (m := 254 + 50) (by norm_num)
  rw [pow_add, ← div_div] at htiny
  have hshare : 1 / 2 ^ 254 / 2 ^ 50 ≤ |v / w| / 2 ^ 50 :=
    div_le_div_of_nonneg_right hlow (by positivity)
  have hsplit : |v / w| / 2 ^ 49 = |v / w| / 2 ^ 50 + |v / w| / 2 ^ 50 := by ring
  linarith

/-- The share at which a ray reaches an edge. -/
theorem edgeScale_near (hx : Ray dx halfW v h) (hv : v ≠ 0) :
    Gives (fun scale => ∃ t, scale.At t ∧ 0 < t ∧ t ≤ 2 ^ 250 ∧ |v| * t ≤ h + h / 2 ^ 40)
      (edgeScale dx halfW) := by
  have hzero : dx.isZero = false := by
    rw [Bool.eq_false_iff, Ne, Scalar.isZero_at hx.d_at]
    exact hv
  have hvpos : 0 < |v| := abs_pos.mpr hv
  have hpos := hx.h_pos
  have hle := hx.le_v hv
  have hquot : 0 < h / |v| := div_pos hpos hvpos
  have habs : |h / (|v|)| = h / |v| := abs_of_pos hquot
  -- Both sides of the quotient are neither tiny nor huge, so it is off by a small share only.
  have hlow : 1 / 2 ^ 254 ≤ |h / (|v|)| := by
    rw [habs, le_div_iff₀ hvpos]
    have := hx.le_h
    have := hx.v_le
    linarith
  have hhigh : h / |v| ≤ 2 ^ 246 := by
    rw [div_le_iff₀ hvpos]
    have := hx.h_le
    linarith
  rw [edgeScale, hzero]
  refine (div_share hx.half_at (Scalar.abs_at hx.d_at) ?_ ?_ hvpos.ne' hlow
    (by rw [habs]; linarith)).imp ?_
  · rw [abs_of_pos hpos]
    linarith [hx.h_le]
  · rw [abs_abs]
    linarith [hx.v_le]
  · rintro scale ⟨t, ht, herror⟩
    rw [habs] at herror
    obtain ⟨hneg, hle'⟩ := abs_le.mp herror
    refine ⟨t, ht, by linarith, by linarith, ?_⟩
    have hmul : |v| * t ≤ |v| * (h / |v| + h / |v| / 2 ^ 40) :=
      mul_le_mul_of_nonneg_left (by linarith) hvpos.le
    have hcancel : |v| * (h / |v| + h / |v| / 2 ^ 40) = h + h / 2 ^ 40 := by
      field_simp
    linarith

theorem rectangleScale_near (hx : Ray dx halfW v h) (hy : Ray dy halfH w g)
    (hne : v ≠ 0 ∨ w ≠ 0) :
    Gives (Leaves v h w g) (rectangleScale dx dy halfW halfH) := by
  -- Along an axis without a distance no edge is met, which counts as infinitely far.
  have hedge {d half : Scalar} {v h : ℚ} (hx : Ray d half v h) (hv : v = 0) :
      edgeScale d half = .ok (.real (.infinite false)) := by
    have hzero : d.isZero = true := (Scalar.isZero_at hx.d_at).mpr hv
    rw [edgeScale, hzero]
    rfl
  have hnone {h t : ℚ} (hh : 0 < h) : |(0 : ℚ)| * t ≤ h + h / 2 ^ 40 := by
    rw [abs_zero, zero_mul]
    positivity
  have hg := hy.h_pos
  have hh := hx.h_pos
  by_cases hv : v = 0
  · -- The ray runs along an edge of its own, and leaves through the other one.
    have hw : w ≠ 0 := hne.resolve_left (not_not.mpr hv)
    rw [rectangleScale, hedge hx hv]
    refine (edgeScale_near hy hw).bind ?_
    rintro s ⟨t, ht, htpos, htle, htw⟩
    rw [if_pos (Scalar.lt_infinite ht), hv]
    exact .ok ⟨t, ht, htpos, htle, hnone hh, htw⟩
  · refine (edgeScale_near hx hv).bind ?_
    rintro s ⟨t, ht, htpos, htle, htv⟩
    by_cases hw : w = 0
    · rw [hedge hy hw]
      show Gives _ (.ok (if Scalar.lt _ s then _ else s))
      rw [Scalar.infinite_lt ht, hw]
      exact .ok ⟨t, ht, htpos, htle, htv, hnone hg⟩
    · refine (edgeScale_near hy hw).bind ?_
      rintro s' ⟨t', ht', htpos', htle', htw'⟩
      -- The lesser share is no further than half of the box along the other axis, too.
      by_cases hlt : s'.lt s = true
      · rw [if_pos hlt]
        have hle := ((Scalar.lt_at ht' ht).mp hlt).le
        exact .ok ⟨t', ht', htpos', htle',
          (mul_le_mul_of_nonneg_left hle (abs_nonneg v)).trans htv, htw'⟩
      · rw [if_neg hlt]
        have hle := not_lt.mp fun h => hlt ((Scalar.lt_at ht' ht).mpr h)
        exact .ok ⟨t, ht, htpos, htle, htv,
          (mul_le_mul_of_nonneg_left hle (abs_nonneg w)).trans htw'⟩

theorem Ray.share (hx : Ray dx halfW v h) :
    Gives (fun c => ∃ u, c.At u ∧ |u| ≤ 2 ^ 248 ∧ |v| / h - |v| / h / 2 ^ 48 ≤ |u|)
      (dx.div halfW) := by
  have hpos := hx.h_pos
  have hv0 := abs_nonneg v
  have habs : |v / h| = |v| / h := by rw [abs_div, abs_of_pos hpos]
  have hhigh : |v| / h ≤ 2 ^ 246 := by
    rw [div_le_iff₀ hpos]
    linarith [hx.v_le, hx.le_h]
  have hle : |h| ≤ 2 ^ 250 := by
    rw [abs_of_pos hpos]
    linarith [hx.h_le]
  refine (Scalar.div_at hx.d_at hx.half_at (by linarith [hx.v_le]) hle (by norm_num) hpos.ne'
    (by rw [habs]; linarith)).imp ?_
  rintro c ⟨u, hu, herror, -⟩
  rw [habs] at herror
  have hnonneg : 0 ≤ |v| / h := by positivity
  have hupper := abs_sub_abs_le_abs_sub u (v / h)
  have hlower := abs_sub_abs_le_abs_sub (v / h) u
  rw [abs_sub_comm (v / h), habs] at hlower
  rw [habs] at hupper
  have htiny := Binary64.tiny_le (m := 254 + 50) (by norm_num)
  rw [pow_add, ← div_div] at htiny
  refine ⟨u, hu, by linarith, ?_⟩
  by_cases hv : v = 0
  · rw [hv, abs_zero, zero_div]
    simp
  · -- The share is so far from zero that the error of a tiny quotient is a part of it.
    have hlow : 1 / 2 ^ 245 ≤ |v| / h := by
      rw [le_div_iff₀ hpos]
      linarith [hx.le_v hv, hx.h_le]
    linarith

theorem Ray.le_length (hx : Ray dx halfW v h) (hv : v ≠ 0) {z : ℚ}
    (hz : |v| / h - |v| / h / 2 ^ 47 ≤ z) : 1 / 2 ^ 246 ≤ z := by
  have hlow : 1 / 2 ^ 245 ≤ |v| / h := by
    rw [le_div_iff₀ hx.h_pos]
    linarith [hx.le_v hv, hx.h_le]
  linarith

theorem inverse_near {length : Scalar} {z : ℚ} (hz : length.At z) (hlow : 1 / 2 ^ 246 ≤ z)
    (hhigh : z ≤ 2 ^ 252) :
    Gives (fun scale => ∃ t, scale.At t ∧ 0 < t ∧ t ≤ 2 ^ 250 ∧ t ≤ 1 / z + 1 / z / 2 ^ 49)
      (Scalar.div 1 length) := by
  have hz0 : 0 < z := lt_of_lt_of_le (by positivity) hlow
  have hone : (1 : Scalar).At 1 := by norm_num [Scalar.At, OfNat.ofNat]
  have hinv0 : 0 < 1 / z := by positivity
  have hinverse : |1 / z| = 1 / z := abs_of_pos hinv0
  have hinv : 1 / z ≤ 2 ^ 246 := by
    rw [div_le_iff₀ hz0]
    linarith
  -- Neither tiny nor huge, so only a share of it is lost.
  have hshare : 1 / 2 ^ 252 ≤ 1 / z := one_div_le_one_div_of_le hz0 hhigh
  refine (div_share hone hz (by norm_num) (by rwa [abs_of_pos hz0]) hz0.ne'
    (by rw [hinverse]; linarith) (by rw [hinverse]; linarith)).imp ?_
  intro scale hscale
  obtain ⟨t, ht, herror⟩ := hscale
  rw [hinverse] at herror
  obtain ⟨hneg, hpos⟩ := abs_le.mp herror
  exact ⟨t, ht, by linarith, by linarith, by linarith⟩

theorem way_le {z t : ℚ} (hh : 0 < h) (hz : 0 < z) (hlow : |v| / h - |v| / h / 2 ^ 47 ≤ z)
    (hpos : 0 < t) (hle : t ≤ 1 / z + 1 / z / 2 ^ 49) : |v| * t ≤ h + h / 2 ^ 40 := by
  have hv0 := abs_nonneg v
  have hshare : |v| / h ≤ z + z / 2 ^ 46 := by
    have : 0 ≤ |v| / h := by positivity
    linarith
  rw [div_le_iff₀ hh] at hshare
  -- The length cancels, and the two errors together are less than the slack.
  calc |v| * t ≤ (z + z / 2 ^ 46) * h * (1 / z + 1 / z / 2 ^ 49) :=
        mul_le_mul hshare hle hpos.le (by positivity)
    _ = h * ((1 + 1 / 2 ^ 46) * (1 + 1 / 2 ^ 49)) := by
      field_simp
    _ ≤ h * (1 + 1 / 2 ^ 40) := mul_le_mul_of_nonneg_left (by norm_num) hh.le
    _ = h + h / 2 ^ 40 := by ring

/-- The share at which a ray leaves an ellipse. -/
theorem ellipseScale_near (hx : Ray dx halfW v h) (hy : Ray dy halfH w g)
    (hne : v ≠ 0 ∨ w ≠ 0) :
    Gives (Leaves v h w g) (ellipseScale dx dy halfW halfH) := by
  unfold ellipseScale
  refine hx.share.bind ?_
  rintro c ⟨u, hu, hule, hlow⟩
  refine hy.share.bind ?_
  rintro c' ⟨u', hu', hule', hlow'⟩
  refine (Scalar.hypot_at hu hu' (e := 248) hule hule' (by norm_num)).bind ?_
  rintro length ⟨z, hz, hzu, hzu', hzle⟩
  -- Each axis bounds the length from below, so one of them keeps it away from zero.
  have hlength {v h u : ℚ} (hlow : |v| / h - |v| / h / 2 ^ 48 ≤ |u|)
      (hzu : |u| - |u| / 2 ^ 53 ≤ z) : |v| / h - |v| / h / 2 ^ 47 ≤ z := by
    linarith [abs_nonneg u]
  have hzv := hlength hlow hzu
  have hzw := hlength hlow' hzu'
  have hzlow : 1 / 2 ^ 246 ≤ z :=
    hne.elim (fun hv => hx.le_length hv hzv) fun hw => hy.le_length hw hzw
  have hz0 : 0 < z := lt_of_lt_of_le (by positivity) hzlow
  have hzhigh : z ≤ 2 ^ 252 := by
    have htiny := Binary64.tiny_le (m := 0) (by norm_num)
    norm_num at htiny
    linarith
  refine (inverse_near hz hzlow hzhigh).imp ?_
  rintro scale ⟨t, ht, htpos, htle, htz⟩
  exact ⟨t, ht, htpos, htle, way_le hx.h_pos hz0 hzv htpos htz, way_le hy.h_pos hz0 hzw htpos htz⟩

/-! ## The point -/

theorem way_near (hx : Ray dx halfW v h) {scale : Scalar} {t : ℚ} (ht : scale.At t) (hpos : 0 < t)
    (hle : t ≤ 2 ^ 250) (hv : |v| * t ≤ h + h / 2 ^ 40) :
    Gives (fun c => ∃ q, c.At q ∧ |q| ≤ h + reach) (dx.mul scale) := by
  have hh := hx.h_pos
  have hhle := hx.h_le
  have habs : |v * t| = |v| * t := by rw [abs_mul, abs_of_pos hpos]
  refine (Scalar.mul_at hx.d_at ht (e := 250) (by linarith [hx.v_le]) (by rwa [abs_of_pos hpos])
    (by norm_num) (by rw [habs]; linarith)).imp ?_
  rintro c ⟨q, hq, herror⟩
  refine ⟨q, hq, ?_⟩
  have htiny := Binary64.tiny_le (m := 0) (by norm_num)
  rw [pow_zero, div_one] at htiny
  have hq := abs_sub_abs_le_abs_sub q (v * t)
  rw [habs] at herror hq
  unfold reach
  linarith

theorem edge_within {c e : Scalar} {z q : ℚ} (hc : c.At z) (hroom : |z| + h ≤ k * reach)
    (hh : 0 < h) (he : e.At q) (hq : |q| ≤ h + reach) (hk : k + 1 ≤ far) :
    Gives (Scalar.Within (k + 2)) (c.add e) := by
  have hz0 := abs_nonneg z
  have hk' : |q| ≤ (k + 1 : ℕ) * reach := by
    push_cast
    linarith
  refine (Scalar.add_near hc he (Scalar.le_far (by omega) (by linarith : |z| ≤ k * reach))
    (Scalar.le_far hk hk')).imp ?_
  rintro c ⟨m, hm, herror, -⟩
  have hsum := abs_add_le z q
  have hm' := abs_sub_abs_le_abs_sub m (z + q)
  refine ⟨m, hm, ?_⟩
  push_cast
  linarith

theorem along_within (hx : Ray dx halfW v h) (hy : Ray dy halfH w g) {p : Point} {a b : ℚ}
    (hpx : p.x.At a) (hpy : p.y.At b) (ha : |a| + h ≤ k * reach) (hb : |b| + g ≤ k * reach)
    (hk : k + 1 ≤ far) {scale : Scalar} (hscale : Leaves v h w g scale) :
    Gives (Point.Within (k + 2)) (along p dx dy scale) := by
  obtain ⟨t, ht, htpos, htle, hv, hw⟩ := hscale
  refine (way_near hx ht htpos htle hv).bind ?_
  rintro ex ⟨q, hq, hqle⟩
  refine (edge_within hpx ha hx.h_pos hq hqle hk).bind fun x hx' => ?_
  refine (way_near hy ht htpos htle hw).bind ?_
  rintro ey ⟨q', hq', hqle'⟩
  exact (edge_within hpy hb hy.h_pos hq' hqle' hk).bind fun y hy' => .ok ⟨hx', hy'⟩

theorem Ray.direction (hx : Ray dx halfW v h) {length : Scalar} {z : ℚ} (hz : length.At z)
    (hz0 : 0 < z) (hzv : |v| - |v| / 2 ^ 53 ≤ z) (hzle : z ≤ 2 ^ 200) :
    Gives (fun u => ∃ m, u.At m ∧ |m| ≤ 4) (dx.div length) := by
  have hquot : |v / z| ≤ 2 := by
    rw [abs_div, abs_of_pos hz0, div_le_iff₀ hz0]
    linarith [abs_nonneg v]
  refine (Scalar.div_at hx.d_at hz (e := 200) (by linarith [hx.v_le]) (by rwa [abs_of_pos hz0])
    (by norm_num) hz0.ne' (by linarith)).imp ?_
  rintro u ⟨m, hm, herror, -⟩
  have htiny := Binary64.tiny_le (m := 0) (by norm_num)
  have hm' := abs_sub_abs_le_abs_sub m (v / z)
  exact ⟨m, hm, by linarith⟩

theorem step_within {u padding : Scalar} {m : ℚ} (hu : u.At m) (hm : |m| ≤ 4)
    (hpadding : padding.Within 1) : Gives (Scalar.Within 5) (u.mul padding) := by
  obtain ⟨n, hn, hnle⟩ := hpadding
  rw [Nat.cast_one, one_mul] at hnle
  have hprod : |m * n| ≤ 4 * reach := by
    rw [abs_mul]
    exact mul_le_mul hm hnle (abs_nonneg n) (by norm_num)
  have hreach : reach ≤ 2 ^ 80 := le_rfl
  refine (Scalar.mul_at hu hn (e := 100) (by linarith) (by linarith) (by norm_num)
    (by linarith)).imp ?_
  rintro c ⟨q, hq, herror⟩
  have htiny := Binary64.tiny_le (m := 0) (by norm_num)
  have hq' := abs_sub_abs_le_abs_sub q (m * n)
  refine ⟨q, hq, ?_⟩
  push_cast
  unfold reach at *
  linarith

/-- A padding moves a point by little more than its length. -/
theorem push_within (hx : Ray dx halfW v h) (hy : Ray dy halfH w g) (hne : v ≠ 0 ∨ w ≠ 0)
    {p : Point} (hp : p.Within k) (hk : k ≤ far) {padding : Scalar} (hpadding : padding.Within 1) :
    Gives (Point.Within (k + 6)) (push p dx dy padding) := by
  have hfive : 5 ≤ far := by decide
  unfold push
  refine .ite (fun _ => .ok ⟨hp.x.mono (by omega), hp.y.mono (by omega)⟩) fun _ => ?_
  refine (Scalar.hypot_at hx.d_at hy.d_at hx.v_le hy.v_le (by norm_num)).bind ?_
  rintro length ⟨z, hz, hzv, hzw, hzle⟩
  -- The ray is not nothing along one of the axes.
  have hzlow : 1 / 2 ^ 134 ≤ z := by
    rcases hne with hv | hw
    · linarith [hx.le_v hv]
    · linarith [hy.le_v hw]
  have hz0 : 0 < z := lt_of_lt_of_le (by positivity) hzlow
  have hzhigh : z ≤ 2 ^ 200 := by
    have htiny := Binary64.tiny_le (m := 0) (by norm_num)
    linarith [hx.v_le, hy.v_le]
  refine (hx.direction hz hz0 hzv hzhigh).bind ?_
  rintro ux ⟨m, hm, hmle⟩
  refine (step_within hm hmle hpadding).bind fun ox hox => ?_
  refine (hp.x.add hox hk hfive).bind fun x hx' => ?_
  refine (hy.direction hz hz0 hzw hzhigh).bind ?_
  rintro uy ⟨n, hn, hnle⟩
  refine (step_within hn hnle hpadding).bind fun oy hoy => ?_
  exact (hp.y.add hoy hk hfive).bind fun y hy' => .ok ⟨hx', hy'⟩

theorem way_to {a c : Scalar} {z : ℚ} {l : ℕ} (ha : a.Regular 133 l) (hc : c.At z)
    (hgrid : OnGrid 133 z) (hz : |z| ≤ k * reach) (hk : k + l + 1 ≤ far) :
    Gives (fun d => ∃ u, d.At u ∧ OnGrid 133 u ∧ |u| ≤ 2 ^ 112) (a.sub c) := by
  obtain ⟨u, hu, hugrid, hule⟩ := ha
  have hule' : |u| ≤ far * reach := Scalar.le_far (by omega) hule
  refine (Scalar.sub_near hu hc hule' (Scalar.le_far (by omega) hz)).imp ?_
  rintro d ⟨m, hm, herror, hmgrid⟩
  refine ⟨m, hm, hmgrid 133 (by norm_num) hugrid hgrid, ?_⟩
  refine Scalar.le_two_pow hk ?_
  have hdiff := abs_sub u z
  have hm' := abs_sub_abs_le_abs_sub m (u - z)
  push_cast
  linarith

theorem ray_of_solid {d half : Scalar} {u v w h : ℚ} {start length : Scalar}
    (hbox : Scalar.Solid k start length v w) (hd : d.At u) (hgrid : OnGrid 133 u)
    (hle : |u| ≤ 2 ^ 112) (hh : half.At h) (herror : |h - w / 2| ≤ reach) (hlow : w / 4 ≤ h)
    (hk : k + 1 ≤ far) : Ray d half u h := by
  have hthick := hbox.thick
  have hlength := (le_abs_self w).trans hbox.length_le
  have hpos := (abs_le.mp herror).2
  have hh0 : |h| ≤ 2 ^ 112 := by
    refine Scalar.le_two_pow (k := k + 1) (by omega) ?_
    rw [abs_of_nonneg (by linarith)]
    push_cast
    linarith
  exact ⟨hd, hh, hgrid, hle, (le_abs_self h).trans hh0, by linarith⟩

theorem room_of_half {z w h : ℚ} (hz : |z| + w / 2 ≤ (k + 2 : ℕ) * reach)
    (herror : |h - w / 2| ≤ reach) : |z| + h ≤ (k + 3 : ℕ) * reach := by
  have hpos := (abs_le.mp herror).2
  push_cast at *
  linarith

/-- Where a ray from the middle of a shape leaves the shape is hardly further from the origin than
the corners of its box. -/
theorem point_within {s : Shape} {toward : Point} {padding : Scalar} {l : ℕ}
    (hs : Gives (Bounds.Solid k) s.bounds) (htoward : toward.Regular 133 l)
    (hk : 2 * k + l + 5 ≤ far)
    (hpadding : padding.Within 1) : Gives (Point.Within (k + 11)) (point s toward padding) := by
  unfold point
  refine hs.bind ?_
  rintro b ⟨⟨v, w, hbx⟩, ⟨v', w', hby⟩⟩
  refine (Bounds.center_near hbx hby (by omega)).bind ?_
  rintro center ⟨⟨z, hz, hzgrid, hzroom⟩, ⟨z', hz', hzgrid', hzroom'⟩⟩
  have hw : 0 ≤ w := le_trans (by positivity) hbx.thick
  have hw' : 0 ≤ w' := le_trans (by positivity) hby.thick
  have hzle : |z| ≤ (k + 2 : ℕ) * reach := by linarith
  have hzle' : |z'| ≤ (k + 2 : ℕ) * reach := by linarith
  refine (way_to htoward.x hz hzgrid hzle (by omega)).bind ?_
  rintro dx ⟨u, hu, hugrid, hule⟩
  refine (way_to htoward.y hz' hzgrid' hzle' (by omega)).bind ?_
  rintro dy ⟨u', hu', hugrid', hule'⟩
  by_cases hmiddle : (dx.isZero && dy.isZero) = true
  · rw [if_pos hmiddle]
    exact .ok ⟨Scalar.Within.mono ⟨z, hz, hzle⟩ (by omega),
      Scalar.Within.mono ⟨z', hz', hzle'⟩ (by omega)⟩
  · rw [if_neg hmiddle]
    have hne : u ≠ 0 ∨ u' ≠ 0 := by
      rw [Bool.and_eq_true, Scalar.isZero_at hu, Scalar.isZero_at hu'] at hmiddle
      exact not_and_or.mp hmiddle
    refine (Scalar.half_length hbx (by omega)).bind ?_
    rintro halfW ⟨h, hh, herror, hlow, -⟩
    refine (Scalar.half_length hby (by omega)).bind ?_
    rintro halfH ⟨g, hg, herror', hlow', -⟩
    have hx := ray_of_solid hbx hu hugrid hule hh herror hlow (by omega)
    have hy := ray_of_solid hby hu' hugrid' hule' hg herror' hlow' (by omega)
    -- Either outline is left at some share of the ray, which is then pushed by the padding.
    have hleave {scale : Scalar} (hscale : Leaves u h u' g scale) :
        Gives (Point.Within (k + 11)) (along center dx dy scale >>= fun edge =>
          push edge dx dy padding) :=
      (along_within hx hy hz hz' (room_of_half hzroom herror) (room_of_half hzroom' herror')
        (by omega) hscale).bind fun edge hedge => push_within hx hy hne hedge (by omega) hpadding
    split
    · exact (ellipseScale_near hx hy hne).bind fun scale => hleave
    · exact (rectangleScale_near hx hy hne).bind fun scale => hleave

end Border

end DiagramScript
