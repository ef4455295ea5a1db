import Mathlib.Order.Monotone.Basic
import DiagramScript.Proofs.Number.Integer
import DiagramScript.Proofs.Number.Zero

/-
  Numbers up to the sign of a zero.

  Arithmetic tells the two zeros apart, but no comparison does, and the sign of a zero only ever
  shows in the sign of another zero. So computations with numbers that agree up to that sign
  (`Agrees`) succeed together, with results that agree. Of two floating-point numbers the smaller
  one does not depend on their order in this sense, unless exactly one of them is no number
  (`min_comm_agrees`).
-/

namespace DiagramScript

/-! ## Floating-point numbers -/

namespace Binary64
variable {x x' y y' z : Binary64}

/-- One number, or two zeros. -/
def Agrees (x y : Binary64) : Prop := x = y ∨ (x.isZero = true ∧ y.isZero = true)

theorem Agrees.refl (x : Binary64) : x.Agrees x := .inl rfl

theorem Agrees.symm (h : x.Agrees y) : y.Agrees x := h.imp Eq.symm And.symm

theorem Agrees.trans (h : x.Agrees y) (h' : y.Agrees z) : x.Agrees z := by
  rcases h with rfl | ⟨hx, hy⟩
  · exact h'
  · rcases h' with rfl | ⟨-, hz⟩
    · exact .inr ⟨hx, hy⟩
    · exact .inr ⟨hx, hz⟩

theorem isZero_iff_zero : x.isZero = true ↔ ∃ s, x = zero s := by
  cases x with
  | finite s r =>
    simp only [isZero, zero, finite.injEq, beq_iff_eq]
    constructor
    · intro h
      exact ⟨s, rfl, Fin.ext h⟩
    · intro h
      obtain ⟨_, -, h⟩ := h
      exact congrArg Fin.val h
  | _ => simp [isZero, zero]

theorem signedUnits_zero (s : Bool) : signedUnits s 0 = 0 := by
  cases s <;> decide

/-- Only an exact zero takes the sign that is asked for. -/
theorem ofUnits_agrees (s t : Bool) (u : Int) : (ofUnits s u).Agrees (ofUnits t u) := by
  unfold ofUnits
  split
  · exact .inr ⟨rfl, rfl⟩
  · exact .refl _

theorem add_comm (x y : Binary64) : x.add y = y.add x := by
  cases x with
  | nan => cases y <;> rfl
  | infinite s =>
    cases y with
    | infinite t => cases s <;> cases t <;> rfl
    | _ => rfl
  | finite s r =>
    cases y with
    | finite t q => rw [add, add, Bool.and_comm, Int.add_comm]
    | _ => rfl

theorem Agrees.add_right (h : x.Agrees x') (y : Binary64) : (x.add y).Agrees (x'.add y) := by
  rcases h with rfl | ⟨hx, hx'⟩
  · exact .refl _
  · obtain ⟨s, rfl⟩ := isZero_iff_zero.mp hx
    obtain ⟨t, rfl⟩ := isZero_iff_zero.mp hx'
    cases y with
    | finite b q =>
      show (ofUnits (s && b) (signedUnits s 0 + _)).Agrees (ofUnits (t && b) (signedUnits t 0 + _))
      rw [signedUnits_zero, signedUnits_zero]
      exact ofUnits_agrees _ _ _
    | _ => exact .refl _

theorem Agrees.add (hx : x.Agrees x') (hy : y.Agrees y') : (x.add y).Agrees (x'.add y') := by
  refine (hx.add_right y).trans ?_
  rw [add_comm x', add_comm x']
  exact hy.add_right x'

theorem Agrees.neg (h : x.Agrees y) : x.neg.Agrees y.neg := by
  rcases h with rfl | ⟨hx, hy⟩
  · exact .refl _
  · obtain ⟨s, rfl⟩ := isZero_iff_zero.mp hx
    obtain ⟨t, rfl⟩ := isZero_iff_zero.mp hy
    exact .inr ⟨rfl, rfl⟩

theorem Agrees.sub (hx : x.Agrees x') (hy : y.Agrees y') : (x.sub y).Agrees (x'.sub y') :=
  hx.add hy.neg

theorem Agrees.abs_eq (h : x.Agrees y) : x.abs = y.abs := by
  rcases h with rfl | ⟨hx, hy⟩
  · rfl
  · obtain ⟨s, rfl⟩ := isZero_iff_zero.mp hx
    obtain ⟨t, rfl⟩ := isZero_iff_zero.mp hy
    rfl

theorem abs_ofRank (s : Bool) (r : Nat) : (ofRank s r).abs = ofRank false r := by
  unfold ofRank
  split <;> rfl

/-- A distance is the same in both directions. -/
theorem abs_sub_comm (x y : Binary64) : (x.sub y).abs = (y.sub x).abs := by
  cases x with
  | nan => cases y <;> rfl
  | infinite s =>
    cases y with
    | infinite t => cases s <;> cases t <;> rfl
    | _ => rfl
  | finite s r =>
    cases y with
    | finite t q =>
      have habs (z : Bool) (u : Int) :
          (ofUnits z u).abs = if u = 0 then zero false else ofRatio false u.natAbs 1 := by
        unfold ofUnits
        split
        · rfl
        · exact abs_ofRank _ _
      have hneg : signedUnits t q - signedUnits s r = -(signedUnits s r - signedUnits t q) := by
        omega
      simp only [sub, neg, add, signedUnits_not, habs, ← Int.sub_eq_add_neg]
      simp only [hneg, Int.natAbs_neg, Int.neg_eq_zero]
    | _ => rfl

/-- A number that is put relative to another one and back is lost only where the other one is
infinite. -/
theorem isNaN_add_sub (hx : x.isNaN = false) (hy : y.isNaN = false) :
    (x.add (y.sub x)).isNaN = true ↔ ∃ s, x = .infinite s := by
  have hfinite (z : Bool) (u : Int) : (ofUnits z u).isNaN = false := by
    unfold ofUnits ofRatio ofRank
    split
    · rfl
    · split <;> rfl
  cases x with
  | nan => cases hx
  | infinite s =>
    refine iff_of_true ?_ ⟨s, rfl⟩
    cases y with
    | nan => cases hy
    | infinite t => cases s <;> cases t <;> rfl
    | finite t q => cases s <;> rfl
  | finite s r =>
    refine iff_of_false ?_ (by simp)
    cases y with
    | nan => cases hy
    | infinite t => simp [sub, neg, add, isNaN]
    | finite t q =>
      -- The difference is finite or infinite, and neither loses the sum.
      have hdiff : ((finite t q).sub (finite s r)).isNaN = false := hfinite _ _
      cases hd : (finite t q).sub (finite s r) with
      | nan => rw [hd] at hdiff; cases hdiff
      | infinite b => simp [add, isNaN]
      | finite b n => rw [add, hfinite]; simp

end Binary64

/-! ## Scalars -/

theorem Binary64.unitsOfRank_strictMono : StrictMono Binary64.unitsOfRank :=
  strictMono_nat_of_lt_succ Binary64.unitsOfRank_lt_succ

namespace Scalar
variable {a a' b b' : Scalar} {bs bs' : List Scalar} {x y : Binary64}

/-- One scalar, or two floating-point zeros. -/
def Agrees (a b : Scalar) : Prop := a = b ∨ ∃ x y, a = real x ∧ b = real y ∧ x.Agrees y

theorem Agrees.refl (a : Scalar) : a.Agrees a := .inl rfl

theorem Agrees.real (h : x.Agrees y) : (real x).Agrees (.real y) := .inr ⟨x, y, rfl, rfl, h⟩

theorem Agrees.symm (h : a.Agrees b) : b.Agrees a := by
  rcases h with rfl | ⟨x, y, rfl, rfl, h⟩
  · exact .refl _
  · exact .real h.symm

theorem agrees_real : (Scalar.real x).Agrees (.real y) ↔ x.Agrees y := by
  refine ⟨fun h => ?_, .real⟩
  rcases h with h | ⟨x', y', hx, hy, h⟩
  · exact .inl (Scalar.real.inj h)
  · rwa [Scalar.real.inj hx, Scalar.real.inj hy]

theorem Agrees.trans {c : Scalar} (h : a.Agrees b) (h' : b.Agrees c) : a.Agrees c := by
  rcases h with rfl | ⟨x, y, rfl, rfl, h⟩
  · exact h'
  · rcases h' with rfl | ⟨y', z, hy, rfl, h'⟩
    · exact .real h
    · rw [← Scalar.real.inj hy] at h'
      exact .real (h.trans h')

/-! ### Comparisons -/

theorem Place.lt_total {p q : Place} (h : p ≠ q) : q.lt p = ! p.lt q := by
  cases p with
  | finite m =>
    cases q with
    | finite n =>
      have hne : m ≠ n := fun heq => h (congrArg Place.finite heq)
      simp only [Place.lt, ← decide_not, decide_eq_decide]
      omega
    | _ => rfl
  | bottom => cases q <;> first | exact absurd rfl h | rfl
  | top => cases q <;> first | exact absurd rfl h | rfl

theorem Agrees.place_eq (h : a.Agrees b) : a.place? = b.place? := by
  rcases h with rfl | ⟨x, y, rfl, rfl, rfl | ⟨hx, hy⟩⟩
  · rfl
  · rfl
  · obtain ⟨s, rfl⟩ := Binary64.isZero_iff_zero.mp hx
    obtain ⟨t, rfl⟩ := Binary64.isZero_iff_zero.mp hy
    show some (Place.finite (Binary64.signedUnits s 0)) = some (.finite (Binary64.signedUnits t 0))
    rw [Binary64.signedUnits_zero, Binary64.signedUnits_zero]

theorem isSome_place?_real (x : Binary64) : (Scalar.real x).place?.isSome = ! x.isNaN := by
  cases x <;> rfl

/-- Floating-point numbers at one place agree. -/
theorem agrees_of_place (h : (real x).place? = (real y).place?) : (real x).Agrees (real y) := by
  -- Different kinds of numbers have different places.
  cases x with
  | nan =>
    cases y with
    | nan => exact .refl _
    | infinite t => cases t <;> cases h
    | finite t q => cases h
  | infinite s =>
    cases y with
    | nan => cases s <;> cases h
    | infinite t => cases s <;> cases t <;> first | exact .refl _ | cases h
    | finite t q => cases s <;> cases h
  | finite s r =>
    cases y with
    | nan => cases h
    | infinite t => cases t <;> cases h
    | finite t q =>
      have hunits : Binary64.signedUnits s r = Binary64.signedUnits t q := by
        simpa [place?] using h
      have hinj : Binary64.unitsOfRank r = Binary64.unitsOfRank q → r.val = q.val :=
        fun h => Binary64.unitsOfRank_strictMono.injective h
      refine .real ?_
      by_cases hr : r.val = 0 ∧ q.val = 0
      · exact .inr ⟨beq_iff_eq.mpr hr.1, beq_iff_eq.mpr hr.2⟩
      · -- Of two numbers that are not zero the signs are told by the units.
        have hnot : ¬ (Binary64.unitsOfRank r = 0 ∧ Binary64.unitsOfRank q = 0) := fun h =>
          hr ⟨Binary64.unitsOfRank_eq_zero.mp h.1, Binary64.unitsOfRank_eq_zero.mp h.2⟩
        have hranks : s = t ∧ r.val = q.val := by
          cases s <;> cases t <;> simp [Binary64.signedUnits] at hunits ⊢ <;> omega
        exact .inl (by rw [hranks.1, Fin.ext hranks.2])

theorem Agrees.lt_eq (ha : a.Agrees a') (hb : b.Agrees b') : a.lt b = a'.lt b' := by
  rw [lt_eq_place, lt_eq_place, ha.place_eq, hb.place_eq]

theorem Agrees.same_eq (ha : a.Agrees a') (hb : b.Agrees b') : a.same b = a'.same b' := by
  rw [Scalar.same_eq, Scalar.same_eq, ha.place_eq, hb.place_eq]

theorem Agrees.le_eq (ha : a.Agrees a') (hb : b.Agrees b') : a.le b = a'.le b' := by
  rw [le, le, ha.lt_eq hb, ha.same_eq hb]

theorem Agrees.min (ha : a.Agrees a') (hb : b.Agrees b') : (a.min b).Agrees (a'.min b') := by
  unfold Scalar.min
  rw [hb.lt_eq ha]
  split
  · exact hb
  · exact ha

theorem Agrees.max (ha : a.Agrees a') (hb : b.Agrees b') : (a.max b).Agrees (a'.max b') := by
  unfold Scalar.max
  rw [ha.lt_eq hb]
  split
  · exact hb
  · exact ha

theorem Agrees.minimum (ha : a.Agrees a') (h : List.Forall₂ Agrees bs bs') :
    (a.minimum bs).Agrees (a'.minimum bs') := by
  induction h generalizing a a' with
  | nil => exact ha
  | cons hb _ ih => exact ih (ha.min hb)

theorem Agrees.maximum (ha : a.Agrees a') (h : List.Forall₂ Agrees bs bs') :
    (a.maximum bs).Agrees (a'.maximum bs') := by
  induction h generalizing a a' with
  | nil => exact ha
  | cons hb _ ih => exact ih (ha.max hb)

/-- The smaller of two numbers does not depend on their order. -/
theorem min_comm_agrees (h : (real x).place?.isSome = (real y).place?.isSome) :
    ((real x).min (real y)).Agrees ((real y).min (real x)) := by
  by_cases hxy : (real x).place? = (real y).place?
  · -- Neither lies below the other one.
    have hagrees := agrees_of_place hxy
    exact hagrees.min hagrees.symm
  · have hlt : (real y).lt (real x) = ! (real x).lt (real y) := by
      rw [lt_eq_place, lt_eq_place]
      generalize (real x).place? = k, (real y).place? = l at h hxy
      cases k with
      | none => exact absurd (Option.not_isSome_iff_eq_none.mp (by rw [← h]; decide)).symm hxy
      | some p =>
        obtain ⟨q, rfl⟩ := Option.isSome_iff_exists.mp h.symm
        exact Place.lt_total fun heq => hxy (congrArg some heq)
    unfold Scalar.min
    rw [hlt]
    cases (real x).lt (real y) <;> exact .refl _

/-! ### Arithmetic -/

/-- A difference is a number only where its first term is one. -/
theorem isSome_place?_of_sub {n : Scalar} (ha : a.IsReal) (h : a.sub b = .ok n)
    (hn : n.place?.isSome = true) : a.place?.isSome = true := by
  obtain ⟨x, rfl⟩ := ha
  cases x with
  | nan =>
    have hnan {c : Scalar} (h : arith (· - ·) Binary64.sub (Scalar.real .nan) c = .ok n) :
        n = .real .nan := by
      unfold arith at h
      split at h
      · rename_i hx hy
        cases hx
      · simp only [toReal, Outcome.bind_eq_ok] at h
        obtain ⟨x, hx, y, -, h⟩ := h
        cases hx
        cases h
        rfl
    rw [hnan h] at hn
    cases hn
  | infinite s => rfl
  | finite s r => rfl

theorem Agrees.plain (h : a.Agrees b) : a.plain.Agrees b.plain := by
  rcases h with rfl | ⟨x, y, rfl, rfl, h⟩
  · exact .refl _
  · exact .real h

theorem Agrees.toReal_follows (h : a.Agrees b) :
    Outcome.Follows Binary64.Agrees a.toReal b.toReal := by
  rcases h with rfl | ⟨x, y, rfl, rfl, h⟩
  · exact fun x hx => ⟨x, hx, .refl x⟩
  · exact .ok h

/-- An operation on agreeing numbers gives agreeing numbers where its rounded form does. -/
theorem Agrees.arith_follows {exact : Int → Int → Int} {rounded : Binary64 → Binary64 → Binary64}
    (h : ∀ {x x' y y'}, x.Agrees x' → y.Agrees y' → (rounded x y).Agrees (rounded x' y'))
    (ha : a.Agrees a') (hb : b.Agrees b') :
    Outcome.Follows Agrees (arith exact rounded a b) (arith exact rounded a' b') := by
  have hreal {c c' d d' : Scalar} (hc : c.Agrees c') (hd : d.Agrees d') :
      Outcome.Follows Agrees
        (c.toReal >>= fun x => d.toReal >>= fun y => .ok (Scalar.real (rounded x y)))
        (c'.toReal >>= fun x => d'.toReal >>= fun y => .ok (Scalar.real (rounded x y))) :=
    hc.toReal_follows.bind fun _ _ hx => hd.toReal_follows.bind fun _ _ hy => .ok (.real (h hx hy))
  have ha := ha.plain
  have hb := hb.plain
  unfold arith
  generalize a.plain = c, a'.plain = c', b.plain = d, b'.plain = d' at ha hb
  rcases ha with rfl | ⟨x, x', rfl, rfl, hx⟩
  · rcases hb with rfl | ⟨y, y', rfl, rfl, hy⟩
    · exact fun e he => ⟨e, he, .refl e⟩
    · cases c <;> exact hreal (.refl _) (.real hy)
  · exact hreal (.real hx) hb

theorem Agrees.add_follows (ha : a.Agrees a') (hb : b.Agrees b') :
    Outcome.Follows Agrees (a.add b) (a'.add b') :=
  Agrees.arith_follows Binary64.Agrees.add ha hb

theorem Agrees.sub_follows (ha : a.Agrees a') (hb : b.Agrees b') :
    Outcome.Follows Agrees (a.sub b) (a'.sub b') :=
  Agrees.arith_follows Binary64.Agrees.sub ha hb

theorem Agrees.half_follows (h : a.Agrees a') : Outcome.Follows Agrees a.half a'.half := by
  rcases h with rfl | ⟨x, x', rfl, rfl, rfl | ⟨hx, hx'⟩⟩
  · exact fun e he => ⟨e, he, .refl e⟩
  · exact fun e he => ⟨e, he, .refl e⟩
  · obtain ⟨s, rfl⟩ := Binary64.isZero_iff_zero.mp hx
    obtain ⟨t, rfl⟩ := Binary64.isZero_iff_zero.mp hx'
    have hzero (s : Bool) : (Scalar.real (.zero s)).half = .ok (.real (.zero s)) := by
      cases s <;> decide +kernel
    rw [hzero, hzero]
    exact .ok (.real (.inr ⟨rfl, rfl⟩))

end Scalar

end DiagramScript
