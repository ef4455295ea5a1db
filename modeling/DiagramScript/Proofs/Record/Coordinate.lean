import DiagramScript.Page.Batch
import DiagramScript.Proofs.Statement.Measure
import DiagramScript.Record

/-
  Coordinates as ends of connectors.

  A record gives a coordinate as two numbers, which are written into one text and read again.
  Whatever finite numbers they are, each is written as a literal (`exists_coordinateText`) and
  the text as a position, so it is never taken for an id or a label; the numbers that are read are
  those that were given, up to rounding and to half a millionth that is lost in writing
  (`endpoint_coordinate`).
-/

namespace DiagramScript

/-! ## Places -/

namespace Decimal

theorem value_zeros (n : Nat) (ds : List Nat) : value (List.replicate n 0 ++ ds) = value ds := by
  induction n with
  | zero => rfl
  | succ n ih =>
    rw [List.replicate_succ, List.cons_append, ← ih]
    rfl

theorem exists_places {ds : List Char} (hds : ∀ c ∈ ds, Text.isDigit c = true) (n : Nat) :
    ∃ whole places, withPoint ds n = whole ++ '.' :: places ∧ whole ≠ [] ∧
      (∀ c ∈ whole, Text.isDigit c = true) ∧ (∀ c ∈ places, Text.isDigit c = true) ∧
      places.length = n ∧
      value ((whole ++ places).filterMap Text.digit?) = value (ds.filterMap Text.digit?) := by
  unfold withPoint
  split
  · rename_i hshort
    -- Too few digits: zeros fill them up, and one more stands in front of the point.
    have hzero : ∀ c ∈ ['0'], Text.isDigit c = true := List.forall_mem_singleton.mpr rfl
    refine ⟨['0'], zeros (n - ds.length) ++ ds, rfl, List.cons_ne_nil _ _, hzero, ?_, ?_, ?_⟩
    · refine List.forall_mem_append.mpr ⟨fun c hc => ?_, hds⟩
      rw [List.eq_of_mem_replicate hc]
      decide
    · simp [zeros]
      omega
    · have hzeros : (zeros (n - ds.length)).filterMap Text.digit? =
          List.replicate (n - ds.length) 0 := List.filterMap_replicate_of_some (by decide)
      rw [List.filterMap_append, List.filterMap_append, hzeros]
      exact value_zeros (n - ds.length + 1) _
  · rename_i hlong
    -- Enough digits: the point only goes between them.
    refine ⟨ds.take (ds.length - n), ds.drop (ds.length - n), rfl, ?_, ?_, ?_, ?_, ?_⟩
    · rw [← List.length_pos_iff, List.length_take]
      omega
    · exact fun c hc => hds c (List.mem_of_mem_take hc)
    · exact fun c hc => hds c (List.mem_of_mem_drop hc)
    · rw [List.length_drop]
      omega
    · rw [List.take_append_drop]

end Decimal

namespace Record

theorem trimPlaces_append_zero (cs : List Char) : trimPlaces (cs ++ ['0']) = trimPlaces cs := by
  unfold trimPlaces
  rw [List.reverse_append]
  rfl

theorem trimPlaces_append_digit (cs : List Char) {d : Char} (hd : Text.isDigit d = true)
    (hzero : d ≠ '0') : trimPlaces (cs ++ [d]) = cs ++ [d] := by
  have hpoint : d ≠ '.' := Text.ne_of_isDigit hd (by decide)
  simp [trimPlaces, hzero, hpoint]

theorem trimPlaces_append_point (cs : List Char) {d : Char} (hd : Text.isDigit d = true) :
    trimPlaces (cs ++ [d] ++ ['.']) = cs ++ [d] := by
  have hpoint : d ≠ '.' := Text.ne_of_isDigit hd (by decide)
  simp [trimPlaces, hpoint]

/-- Trimmed places are those of a literal of the same value. -/
theorem exists_trimmed (negative : Bool) {whole places : List Char} (hne : whole ≠ [])
    (hwhole : ∀ c ∈ whole, Text.isDigit c = true) (hplaces : ∀ c ∈ places, Text.isDigit c = true) :
    ∃ l : Literal,
      trimPlaces ((if negative then ['-'] else []) ++ (whole ++ '.' :: places)) = l.text ∧
      l.value = Binary64.signed negative
        (Decimal.value ((whole ++ places).filterMap Text.digit?) / 10 ^ places.length) := by
  have htext (l : Literal) : l.text = (if l.negative then ['-'] else []) ++ l.body := by
    unfold Literal.text
    cases l.negative with
    | false => rfl
    | true => rfl
  generalize hsign : (if negative then ['-'] else []) = sign
  -- The induction is on the places from the last one on, since it is there that zeros are cut off.
  induction places using List.reverseRecOn with
  | nil =>
    refine ⟨⟨negative, whole, [], hne, by simpa using hwhole⟩, ?_, rfl⟩
    obtain ⟨front, d, rfl⟩ := (List.eq_nil_or_concat' whole).resolve_left hne
    have hd := hwhole d (by simp)
    have hassoc : sign ++ (front ++ [d] ++ ['.']) = sign ++ front ++ [d] ++ ['.'] := by simp
    -- No place is left, and the point goes with the places.
    rw [hassoc, trimPlaces_append_point _ hd, htext]
    simp [Literal.body, hsign]
  | append_singleton places d ih =>
    obtain ⟨hplaces', hd⟩ := List.forall_mem_append.mp hplaces
    have hd := hd d List.mem_cons_self
    have hassoc : sign ++ (whole ++ '.' :: (places ++ [d])) =
        sign ++ (whole ++ '.' :: places) ++ [d] := by simp
    rw [hassoc]
    by_cases hzero : d = '0'
    · -- A zero at the end is cut off, and leaves the value as it is.
      obtain ⟨l, hl, hvalue⟩ := ih hplaces'
      subst hzero
      refine ⟨l, by rw [trimPlaces_append_zero, hl], ?_⟩
      have hdigit : (whole ++ (places ++ ['0'])).filterMap Text.digit? =
          (whole ++ places).filterMap Text.digit? ++ [0] := by
        rw [← List.append_assoc, List.filterMap_append]
        rfl
      rw [hvalue, hdigit, Decimal.value_append, List.length_append, List.length_singleton, pow_succ]
      congr 1
      push_cast
      field_simp
      simp
    · -- Any other digit at the end is where the cutting stops.
      refine ⟨⟨negative, whole, places ++ [d], hne, List.forall_mem_append.mpr ⟨hwhole, hplaces⟩⟩,
        ?_, rfl⟩
      rw [trimPlaces_append_digit _ hd hzero, htext]
      simp [Literal.body, hsign]

theorem exists_fixedSix {x : Binary64} {v : ℚ} (hx : x.At v) :
    ∃ l : Literal, trimPlaces x.fixedSix = l.text ∧ |l.value - v| ≤ 1 / (2 * 10 ^ 6) := by
  obtain ⟨s, r, rfl, rfl⟩ := hx.exists_rank
  have hround := roundHalfEven_error (Binary64.unitsOfRank r * 1000000) Binary64.one_pos
  unfold Binary64.fixedSix
  dsimp only
  generalize hscaled : roundHalfEven (Binary64.unitsOfRank r * 1000000) Binary64.one = scaled at *
  obtain ⟨whole, places, htext, hne, hwhole, hplaces, hlength, hvalue⟩ :=
    Decimal.exists_places (Decimal.isDigit_digits scaled) 6
  obtain ⟨l, hl, hlvalue⟩ := exists_trimmed s hne hwhole hplaces
  rw [hvalue, Decimal.value_digit?_digits, hlength] at hlvalue
  refine ⟨l, by rw [htext, hl], ?_⟩
  rw [hlvalue, Binary64.signed_sub, Binary64.abs_signed]
  -- The rounded number of millionths is off by half of one at most.
  have hlow : (2 : ℚ) * (scaled * Binary64.one) ≤
      2 * (Binary64.unitsOfRank r * 1000000) + Binary64.one := by exact_mod_cast hround.1
  have hhigh : (2 : ℚ) * (Binary64.unitsOfRank r * 1000000) ≤
      2 * (scaled * Binary64.one) + Binary64.one := by exact_mod_cast hround.2
  have hone := Binary64.one_mul_tiny
  have htiny := Binary64.tiny_pos
  have hlow' : (2 : ℚ) * scaled ≤ 2 * (Binary64.unitsOfRank r * Binary64.tiny) * 1000000 + 1 := by
    have := mul_le_mul_of_nonneg_right hlow htiny.le
    linear_combination this + (1 - 2 * (scaled : ℚ)) * hone
  have hhigh' : 2 * (Binary64.unitsOfRank r * Binary64.tiny) * 1000000 ≤ (2 : ℚ) * scaled + 1 := by
    have := mul_le_mul_of_nonneg_right hhigh htiny.le
    linear_combination this + (2 * (scaled : ℚ) + 1) * hone
  rw [abs_le]
  constructor
  · linarith
  · linarith

end Record

/-! ## Numbers -/

namespace Binary64

theorem At.abs_lt_of_fraction {x : Binary64} {v : ℚ} (hx : x.At v) (h : x.isWhole = false) :
    |v| < 2 ^ 52 := by
  obtain ⟨s, r, rfl, rfl⟩ := hx.exists_rank
  rw [abs_signed_units]
  apply lt_of_not_ge
  -- A magnitude of `2 ^ 52` or more is a multiple of the units of 1, so it has no fraction.
  intro hgreat
  obtain ⟨j, hj⟩ : ∃ j, j + 0 = 1074 := ⟨_, rfl⟩
  have hone := one_eq hj
  rw [Nat.pow_zero, Nat.mul_one] at hone
  have hunits : 2 ^ (52 + j) ≤ unitsOfRank r := by
    have hscale := mul_le_mul_of_nonneg_right hgreat (Nat.cast_nonneg (α := ℚ) one)
    rw [mul_assoc, mul_comm tiny, one_mul_tiny, mul_one, hone] at hscale
    rw [Nat.pow_add]
    exact_mod_cast hscale
  have hdvd : (one : ℤ) ∣ unitsOfRank r := by
    rw [hone]
    exact_mod_cast dvd_unitsOfRank hunits
  have hmod : signedUnits s r % (one : ℤ) = 0 := by
    apply Int.emod_eq_zero_of_dvd
    cases s with
    | false => exact hdvd
    | true => exact (dvd_neg (α := ℤ)).mpr hdvd
  have hwhole : (Binary64.finite s r).isWhole = true := beq_iff_eq.mpr hmod
  rw [hwhole] at h
  cases h

theorem At.truncate_eq {x : Binary64} {v : ℚ} (hx : x.At v) (h : x.isWhole = true) :
    v = (x.truncate?.getD 0 : ℤ) := by
  obtain ⟨u, hu, rfl⟩ := hx
  have hone : (one : ℤ) ≠ 0 := by exact_mod_cast one_pos.ne'
  simp only [isWhole, hu, beq_iff_eq] at h
  obtain ⟨m, rfl⟩ := Int.dvd_of_emod_eq_zero h
  have htruncate : x.truncate? = some m := by
    rw [truncate?, hu, Option.map_some, Int.mul_tdiv_cancel_left m hone]
  rw [htruncate, Option.getD_some, mul_comm (one : ℤ)]
  exact Scalar.intCast_units m

end Binary64

/-- What a number may be read back as, having been written as a coordinate: the nearest number of
an integer, the same value of a whole number, and a value near that of a fraction. -/
inductive Scalar.ReadsBack : Scalar → Binary64 → Prop
  | integer {k : ℤ} {z : Binary64} (nearest : Binary64.Nearest k z) : ReadsBack (.whole k) z
  | whole {x z : Binary64} {v : ℚ} (hwhole : x.isWhole = true) (hx : x.At v) (hz : z.At v) :
      ReadsBack (.real x) z
  | fraction {x z : Binary64} {v w : ℚ} (hfraction : x.isWhole = false) (hx : x.At v) (hz : z.At w)
      (near : |w - v| ≤ 1 / 10 ^ 6) : ReadsBack (.real x) z

namespace Record

section Coordinate
variable {n : Scalar} {x : Binary64} {v : ℚ}

theorem exists_integerText {k : ℤ} (h : (Scalar.whole k).isNumber = true) :
    ∃ l : Literal, coordinateText (.whole k) = l.text ∧ |l.value| < Binary64.limit ∧
      Scalar.ReadsBack (.whole k) l.number := by
  have hnearest := (Literal.ofInt k).nearest
  -- The integer is finite as a number, so it is below the limit.
  have hsmall : |(k : ℚ)| < Binary64.limit := by
    have hfinite := (Scalar.isNumber_iff.mp h).1
    cases hx : Binary64.ofInt? k with
    | none =>
      simp [Scalar.isFinite, Scalar.toReal, hx, ArithmeticProblem.fail, bind, Except.bind]
        at hfinite
    | some x =>
      apply (Binary64.ofInt?_nearest hx).isFinite_iff.mp
      simpa [Scalar.isFinite, Scalar.toReal, hx, bind, Except.bind] using hfinite
  refine ⟨.ofInt k, (Literal.text_ofInt k).symm, ?_, .integer ?_⟩
  · rwa [Literal.value_ofInt]
  · rwa [Literal.value_ofInt] at hnearest

theorem exists_wholeText (hx : x.At v) (hwhole : x.isWhole = true) :
    ∃ l : Literal, coordinateText (.real x) = l.text ∧ |l.value| < Binary64.limit ∧
      Scalar.ReadsBack (.real x) l.number := by
  have htext : coordinateText (.real x) = Decimal.integer (x.truncate?.getD 0) := if_pos hwhole
  have hvalue := hx.truncate_eq hwhole
  generalize x.truncate?.getD 0 = k at *
  have hnearest := (Literal.ofInt k).nearest
  have hsmall := hx.abs_lt_limit
  rw [Literal.value_ofInt, ← hvalue] at hnearest
  refine ⟨.ofInt k, by rw [htext, Literal.text_ofInt], ?_, .whole hwhole hx ?_⟩
  · rwa [Literal.value_ofInt, ← hvalue]
  · exact hnearest.at_of_at hsmall hx

theorem exists_fractionText (hx : x.At v) (hfraction : x.isWhole = false) :
    ∃ l : Literal, coordinateText (.real x) = l.text ∧ |l.value| < Binary64.limit ∧
      Scalar.ReadsBack (.real x) l.number := by
  have htext : coordinateText (.real x) = trimPlaces x.fixedSix := if_neg (by simp [hfraction])
  obtain ⟨l, hl, hhalf⟩ := exists_fixedSix hx
  have hsmall : |l.value| < Binary64.limit := by
    have hbound := hx.abs_lt_of_fraction hfraction
    have hlimit := Binary64.le_limit
    have hdiff := abs_sub_abs_le_abs_sub l.value v
    norm_num at *
    linarith
  obtain ⟨w, hw, hnearest⟩ := l.nearest.exists_at hsmall
  refine ⟨l, htext.trans hl, hsmall, .fraction hfraction hx hw ?_⟩
  -- The number that is read is as near to the literal as the one that was written.
  have hclose := hnearest x v hx
  rw [abs_sub_comm v] at hclose
  calc |w - v| ≤ |w - l.value| + |l.value - v| := abs_sub_le w l.value v
    _ ≤ 1 / (2 * 10 ^ 6) + 1 / (2 * 10 ^ 6) := add_le_add (hclose.trans hhalf) hhalf
    _ = 1 / 10 ^ 6 := by norm_num

/-- Every finite number is written as a literal, which is read as a finite number near it. -/
theorem exists_coordinateText (h : n.isNumber = true) :
    ∃ l : Literal, coordinateText n = l.text ∧ |l.value| < Binary64.limit ∧
      n.ReadsBack l.number := by
  obtain ⟨hfinite, hflag⟩ := Scalar.isNumber_iff.mp h
  cases n with
  | whole k => exact exists_integerText h
  | real x =>
    obtain ⟨v, hx⟩ := Scalar.IsFinite.exists_at (a := .real x) (Except.ok.inj hfinite)
    cases hwhole : x.isWhole with
    | true => exact exists_wholeText hx hwhole
    | false => exact exists_fractionText hx hwhole
  | flag b => cases hflag

end Coordinate

/-- Two finite numbers that are given as an end of a connector are taken for a coordinate, never
for an id or a label, and read back. -/
theorem endpoint_coordinate (x y : Scalar) (hx : x.isNumber = true) (hy : y.isNumber = true)
    (v : Value) (hv : v = .list [.number x, .number y] ∨ ∃ entries, v = .object entries ∧
      field entries "x" = .number x ∧ field entries "y" = .number y) (path : String) :
    ∃ text a b, endpoint v path = .ok text ∧ Measure.isPosition text.toList = true ∧
      x.ReadsBack a ∧ y.ReadsBack b ∧
      ∀ line, Measure.position text line = .ok ⟨.real a, .real b⟩ ∧
        ∀ p : Page, p.anchor text line = .ok ⟨⟨.real a, .real b⟩, none⟩ := by
  obtain ⟨l, hl, hlsmall, hlback⟩ := exists_coordinateText hx
  obtain ⟨m, hm, hmsmall, hmback⟩ := exists_coordinateText hy
  have hnumber {n : Scalar} (hn : n.isNumber = true) (path : String) :
      number (.number n) path = .ok n := by
    obtain ⟨hfinite, hflag⟩ := Scalar.isNumber_iff.mp hn
    simp [number, hfinite, hflag, bind, Except.bind]
  -- Both forms of a coordinate are written as one text.
  have hpair : pairText (.number x) (.number y) path =
      .ok (String.ofList (l.text ++ ',' :: m.text)) := by
    simp [pairText, hnumber hx, hnumber hy, hl, hm, bind, Except.bind]
  have hendpoint : endpoint v path = .ok (String.ofList (l.text ++ ',' :: m.text)) := by
    obtain rfl | ⟨entries, rfl, hfx, hfy⟩ := hv
    · exact hpair
    · rw [← hpair, ← hfx, ← hfy]
      rfl
  -- The text of two literals is a position, and no number in it is too great to be read.
  have hwrites : Measure.WritesPosition l m (String.ofList (l.text ++ ',' :: m.text)).toList := by
    rw [String.toList_ofList]
    exact Measure.writesPosition_text l m
  have hform := (Measure.isPosition_iff _).mpr ⟨l, m, hwrites⟩
  refine ⟨_, l.number, m.number, hendpoint, hform, hlback, hmback, fun line => ?_⟩
  have hposition : Measure.position (String.ofList (l.text ++ ',' :: m.text)) line =
      .ok ⟨.real l.number, .real m.number⟩ := by
    have hread := Measure.readsPosition line hwrites
    generalize Measure.position _ line = result at hread ⊢
    cases hread with
    | point => rfl
    | first hx => exact absurd hlsmall (not_lt.mpr hx)
    | second hx hy => exact absurd hmsmall (not_lt.mpr hy)
  refine ⟨hposition, fun p => ?_⟩
  rw [Page.anchor, if_pos hform, hposition]
  rfl

/-- An integer and a fraction, which are written as `-3,0.1`. -/
theorem endpoint_coordinate_mixed :
    (∃ text a b,
      endpoint (.list [.number (.whole (-3)), .number (.ofPlaces 1 1)]) "from" = .ok text ∧
      Measure.isPosition text.toList = true ∧ Scalar.ReadsBack (.whole (-3)) a ∧
      Scalar.ReadsBack (.ofPlaces 1 1) b ∧
      ∀ line, Measure.position text line = .ok ⟨.real a, .real b⟩ ∧
        ∀ p : Page, p.anchor text line = .ok ⟨⟨.real a, .real b⟩, none⟩) ∧
    endpoint (.list [.number (.whole (-3)), .number (.ofPlaces 1 1)]) "from" = .ok "-3,0.1" :=
  ⟨endpoint_coordinate (.whole (-3)) (.ofPlaces 1 1) (by decide +kernel) (by decide +kernel) _
    (.inl rfl) "from", by decide +kernel⟩

end Record

end DiagramScript
