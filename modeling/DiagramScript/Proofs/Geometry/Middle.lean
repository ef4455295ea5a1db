import DiagramScript.Geometry.Bounds
import DiagramScript.Proofs.Number.Reach

/-
  Middles of boxes.

  A ray from the middle of a box to another point can only be computed where the two do not lie
  closer together than numbers can tell. So coordinates are kept on a grid: those of a source
  have at most 132 binary places, and the middle of a box has at most one more, either since its
  edges are such coordinates or since it is as wide as a connector at least (`Scalar.Solid`,
  `middle_near`).
-/

namespace DiagramScript

namespace Scalar
variable {a b start length : Scalar} {v w : ℚ} {k : ℕ}

/-- The end of a stretch that is not short has few binary places, wherever the stretch starts. -/
theorem add_stretch (ha : a.At v) (hb : b.At w) (hv : |v| ≤ far * reach) (hw : |w| ≤ far * reach)
    (hlong : 1 / 4 ≤ w) :
    Gives (fun c => ∃ z, c.At z ∧ |z - (v + w)| ≤ reach ∧ OnGrid 132 z) (a.add b) := by
  rw [far_mul_reach] at hv hw
  refine (add_at ha hb hv hw (by norm_num)).imp ?_
  rintro c ⟨z, hz, herror, hgrid⟩
  refine ⟨z, hz, herror.trans (by unfold reach; linarith), ?_⟩
  by_cases hfar : 1 / 2 ^ 80 ≤ |z|
  · exact hz.onGrid hfar
  · -- Where the end is close to zero, the start is not, and neither rounds at all.
    have hw' : |w| = w := abs_of_nonneg (by linarith)
    have hsum := abs_sub_abs_le_abs_sub (v + w) z
    rw [abs_sub_comm] at hsum
    have hstart : w - |v| ≤ |v + w| := by
      have := abs_sub_abs_le_abs_sub w (-v)
      rwa [hw', abs_neg, sub_neg_eq_add, add_comm w] at this
    have hv' : 1 / 2 ^ 80 ≤ |v| := by
      rw [hw'] at herror
      linarith
    exact hgrid 132 (by norm_num) (ha.onGrid hv') (hb.onGrid (by rw [hw']; linarith))

/-- An extent along an axis that starts at `v` and is `w` long, between two coordinates within
some reaches. -/
structure Spans (k : ℕ) (start length : Scalar) (v w : ℚ) : Prop where
  start_at : start.At v
  length_at : length.At w
  low : |v| ≤ k * reach
  high : |v + w| ≤ k * reach

/-- An extent with a middle of few binary places. -/
structure Solid (k : ℕ) (start length : Scalar) (v w : ℚ) : Prop extends
    Spans k start length v w where
  thick : 1 / 2 ^ 132 ≤ w
  fine : 1 ≤ w ∨ (OnGrid 132 v ∧ OnGrid 132 w)

theorem Spans.length_le (h : Spans k start length v w) : |w| ≤ 2 * k * reach := by
  have hdiff := abs_sub (v + w) v
  rw [add_sub_cancel_left] at hdiff
  linarith [h.low, h.high]

theorem Spans.mono {l : ℕ} (h : Spans k start length v w) (hk : k ≤ l) :
    Spans l start length v w := by
  have hcast : (k : ℚ) ≤ l := by exact_mod_cast hk
  have hreach : (k : ℚ) * reach ≤ l * reach := mul_le_mul_of_nonneg_right hcast reach_pos.le
  exact { h with low := h.low.trans hreach, high := h.high.trans hreach }

theorem Solid.mono {l : ℕ} (h : Solid k start length v w) (hk : k ≤ l) :
    Solid l start length v w :=
  { h.toSpans.mono hk with thick := h.thick, fine := h.fine }

theorem Spans.length_within (h : Spans k start length v w) : length.Within (2 * k) := by
  refine ⟨w, h.length_at, ?_⟩
  push_cast
  exact h.length_le

/-- The far end of an extent. -/
theorem Spans.end_near (h : Spans k start length v w) (hk : 2 * k ≤ far) :
    Gives (fun c => ∃ z, c.At z ∧ |z - (v + w)| ≤ reach ∧ |z| ≤ (k + 1 : ℕ) * reach)
      (start.add length) := by
  obtain ⟨w', hw', hle⟩ := h.length_within
  obtain rfl := h.length_at.unique hw'
  refine (add_near h.start_at h.length_at (le_far (by omega) h.low) (le_far hk hle)).imp ?_
  rintro c ⟨z, hz, herror, -⟩
  refine ⟨z, hz, herror, ?_⟩
  have hz' := abs_sub_abs_le_abs_sub z (v + w)
  have hhigh := h.high
  push_cast
  linarith

/-- A side of a box from a coordinate on makes an extent with a middle. -/
theorem Regular.solid (hstart : start.Regular 132 k) (hlength : length.IsSide) :
    ∃ v w, Solid (k + 1) start length v w := by
  obtain ⟨v, hv, hvgrid, hvle⟩ := hstart
  obtain ⟨w, hw, hlow, hhigh⟩ := hlength
  have hpos : 0 ≤ w := le_trans (by positivity) hlow
  have hreach := reach_pos
  have hsum := abs_add_le v w
  rw [abs_of_nonneg hpos] at hsum
  have hwgrid : OnGrid 132 w := hw.onGrid (by rwa [abs_of_nonneg hpos])
  refine ⟨v, w, ⟨⟨hv, hw, ?_, ?_⟩, le_trans (by norm_num) hlow, .inr ⟨hvgrid, hwgrid⟩⟩⟩
  · push_cast
    linarith
  · push_cast
    linarith

/-- Half of the length of an extent. -/
theorem half_length (h : Solid k start length v w) (hk : 2 * k ≤ far) :
    Gives (fun c => ∃ z, c.At z ∧ |z - w / 2| ≤ reach ∧ w / 4 ≤ z ∧
      (OnGrid 132 w → OnGrid 133 z)) length.half := by
  have hlength := h.length_le
  have hw : |w| ≤ far * reach := by
    have hk' : (2 * k : ℚ) ≤ far := by exact_mod_cast hk
    exact hlength.trans (mul_le_mul_of_nonneg_right hk' reach_pos.le)
  refine (half_near h.length_at hw).imp ?_
  rintro c ⟨z, hz, herror, hgrid⟩
  have hthick := h.thick
  have hpos : |w| = w := abs_of_nonneg (le_trans (by positivity) hthick)
  have htiny := Binary64.tiny_le (m := 132 + 50) (by norm_num)
  rw [pow_add, ← div_div] at htiny
  rw [far_mul_reach, hpos] at hw
  rw [hpos] at herror
  refine ⟨z, hz, herror.trans ?_, ?_, fun hw => hgrid 132 (by norm_num) hw⟩
  · have hone := one_le_reach
    unfold reach at *
    linarith
  · have := (abs_le.mp herror).1
    linarith

/-- The middle of an extent has few binary places, and lies between the two ends. -/
theorem middle_near (h : Solid k start length v w) (hk : 2 * k + 1 ≤ far) :
    Gives (fun c => ∃ z, c.At z ∧ OnGrid 133 z ∧ |z| + w / 2 ≤ (k + 2 : ℕ) * reach)
      (length.half >>= fun d => start.add d) := by
  refine (half_length h (by omega)).bind ?_
  rintro d ⟨z, hz, hhalf, hlow, hgrid⟩
  have hthick := h.thick
  have hwpos : 0 ≤ w := le_trans (by positivity) hthick
  have hlength := h.length_le
  rw [abs_of_nonneg hwpos] at hlength
  have hreach := reach_pos
  have hfar : (2 * k + 1 : ℚ) * reach ≤ far * reach := by
    have hk' : (2 * k + 1 : ℚ) ≤ far := by exact_mod_cast hk
    exact mul_le_mul_of_nonneg_right hk' hreach.le
  have hv : |v| ≤ far * reach := le_far (by omega) h.low
  obtain ⟨hneg, hpos⟩ := abs_le.mp hhalf
  have hz' : |z| ≤ far * reach := abs_le.mpr ⟨by linarith, by linarith⟩
  -- The middle lies as far from the origin as one of the ends, less half of the length.
  have hends : |v + w / 2| + w / 2 ≤ k * reach := by
    obtain ⟨hlow', -⟩ := abs_le.mp h.low
    obtain ⟨-, hhigh'⟩ := abs_le.mp h.high
    rcases abs_cases (v + w / 2) with ⟨heq, -⟩ | ⟨heq, -⟩ <;> rw [heq] <;> linarith
  have hresult {c : Scalar} {m : ℚ} (hm : c.At m) (herror : |m - (v + z)| ≤ reach)
      (hm' : OnGrid 133 m) :
      ∃ z, c.At z ∧ OnGrid 133 z ∧ |z| + w / 2 ≤ (k + 2 : ℕ) * reach := by
    refine ⟨m, hm, hm', ?_⟩
    have htriangle := abs_add_three (m - (v + z)) (z - w / 2) (v + w / 2)
    rw [show m - (v + z) + (z - w / 2) + (v + w / 2) = m by ring] at htriangle
    push_cast
    linarith
  rcases h.fine with hlong | ⟨hvgrid, hwgrid⟩
  · refine (add_stretch h.start_at hz hv hz' (by linarith)).imp ?_
    rintro c ⟨m, hm, herror, hm'⟩
    exact hresult hm herror (hm'.mono (by norm_num))
  · refine (add_near h.start_at hz hv hz').imp ?_
    rintro c ⟨m, hm, herror, hm'⟩
    exact hresult hm herror (hm' 133 (by norm_num) (hvgrid.mono (by norm_num)) (hgrid hwgrid))

end Scalar

/-! ## Points and boxes -/

/-- A point with both coordinates within some reaches. -/
structure Point.Within (k : ℕ) (p : Point) : Prop where
  x : p.x.Within k
  y : p.y.Within k

theorem Point.Within.mono {k l : ℕ} {p : Point} (h : p.Within k) (hk : k ≤ l) : p.Within l :=
  ⟨h.x.mono hk, h.y.mono hk⟩

/-- A point with both coordinates of at most so many binary places and reaches. -/
structure Point.Regular (m k : ℕ) (p : Point) : Prop where
  x : p.x.Regular m k
  y : p.y.Regular m k

theorem Point.Regular.mono {m n k l : ℕ} {p : Point} (h : p.Regular m k) (hm : m ≤ n)
    (hk : k ≤ l) : p.Regular n l :=
  ⟨h.x.mono hm hk, h.y.mono hm hk⟩

theorem Point.Regular.within {m k : ℕ} {p : Point} (h : p.Regular m k) : p.Within k :=
  ⟨h.x.within, h.y.within⟩

namespace Bounds

/-- A box between coordinates within some reaches. -/
structure Inside (k : ℕ) (b : Bounds) : Prop where
  x : ∃ v w, Scalar.Spans k b.x b.w v w
  y : ∃ v w, Scalar.Spans k b.y b.h v w

/-- A box with a middle of few binary places. -/
structure Solid (k : ℕ) (b : Bounds) : Prop where
  x : ∃ v w, Scalar.Solid k b.x b.w v w
  y : ∃ v w, Scalar.Solid k b.y b.h v w

variable {k : ℕ} {b : Bounds}

theorem Inside.mono {l : ℕ} (h : b.Inside k) (hk : k ≤ l) : b.Inside l := by
  obtain ⟨⟨v, w, hx⟩, ⟨v', w', hy⟩⟩ := h
  exact ⟨⟨v, w, hx.mono hk⟩, ⟨v', w', hy.mono hk⟩⟩

theorem Inside.corner (h : b.Inside k) : Point.Within k ⟨b.x, b.y⟩ := by
  obtain ⟨⟨v, w, hx⟩, ⟨v', w', hy⟩⟩ := h
  exact ⟨⟨v, hx.start_at, hx.low⟩, ⟨v', hy.start_at, hy.low⟩⟩

theorem Inside.right (h : b.Inside k) (hk : 2 * k ≤ far) :
    Gives (Scalar.Within (k + 1)) b.right := by
  obtain ⟨v, w, hx⟩ := h.x
  refine (hx.end_near hk).imp ?_
  rintro c ⟨z, hz, -, hle⟩
  exact ⟨z, hz, hle⟩

theorem Inside.bottom (h : b.Inside k) (hk : 2 * k ≤ far) :
    Gives (Scalar.Within (k + 1)) b.bottom := by
  obtain ⟨v, w, hy⟩ := h.y
  refine (hy.end_near hk).imp ?_
  rintro c ⟨z, hz, -, hle⟩
  exact ⟨z, hz, hle⟩

theorem Solid.mono {l : ℕ} (h : b.Solid k) (hk : k ≤ l) : b.Solid l := by
  obtain ⟨⟨v, w, hx⟩, ⟨v', w', hy⟩⟩ := h
  exact ⟨⟨v, w, hx.mono hk⟩, ⟨v', w', hy.mono hk⟩⟩

theorem Solid.inside (h : b.Solid k) : b.Inside k := by
  obtain ⟨⟨v, w, hx⟩, ⟨v', w', hy⟩⟩ := h
  exact ⟨⟨v, w, hx.toSpans⟩, ⟨v', w', hy.toSpans⟩⟩

theorem center_near {v w v' w' : ℚ} (hx : Scalar.Solid k b.x b.w v w)
    (hy : Scalar.Solid k b.y b.h v' w') (hk : 2 * k + 1 ≤ far) :
    Gives (fun c : Point =>
      (∃ z, c.x.At z ∧ OnGrid 133 z ∧ |z| + w / 2 ≤ (k + 2 : ℕ) * reach) ∧
        ∃ z, c.y.At z ∧ OnGrid 133 z ∧ |z| + w' / 2 ≤ (k + 2 : ℕ) * reach) b.center := by
  have hmiddle : b.center = (b.w.half >>= fun d => b.x.add d) >>= fun x =>
      (b.h.half >>= fun d => b.y.add d) >>= fun y => .ok ⟨x, y⟩ := by
    simp only [center, bind_assoc]
  rw [hmiddle]
  refine (Scalar.middle_near hx hk).bind fun x hx => ?_
  exact (Scalar.middle_near hy hk).bind fun y hy => .ok ⟨hx, hy⟩

/-- The middle of a box. -/
theorem Solid.center (h : b.Solid k) (hk : 2 * k + 1 ≤ far) :
    Gives (Point.Regular 133 (k + 2)) b.center := by
  obtain ⟨⟨v, w, hx⟩, ⟨v', w', hy⟩⟩ := h
  have hregular {a : Scalar} {start length : Scalar} {v w : ℚ}
      (h : Scalar.Solid k start length v w)
      (ha : ∃ z, a.At z ∧ OnGrid 133 z ∧ |z| + w / 2 ≤ (k + 2 : ℕ) * reach) :
      a.Regular 133 (k + 2) := by
    obtain ⟨z, hz, hgrid, hroom⟩ := ha
    have hw : 0 ≤ w := le_trans (by positivity) h.thick
    exact ⟨z, hz, hgrid, by linarith⟩
  exact (center_near hx hy hk).imp fun c hc => ⟨hregular hx hc.1, hregular hy hc.2⟩

end Bounds

end DiagramScript
