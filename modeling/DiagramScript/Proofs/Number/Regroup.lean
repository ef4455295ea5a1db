import DiagramScript.Proofs.Number.Agree

/-
  Sums in another grouping.

  A sum of integers that does not round has the same value in every grouping, and it is a whole
  number where all terms are. What is left is the sign of a zero: a sum is the negative zero only
  where both of its terms are (`add_eq_negative_zero`). So with a positive term the sum is the same
  scalar in both groupings (`IsInteger.add_add`).
-/

namespace DiagramScript

namespace Binary64
variable {x y : Binary64}

theorem add_eq_negative_zero (h : x.add y = zero true) : x = zero true ∧ y = zero true := by
  cases x with
  | nan => cases h
  | infinite s =>
    cases y with
    | infinite t => cases s <;> cases t <;> cases h
    | _ => cases h
  | finite s r =>
    cases y with
    | nan => cases h
    | infinite t => cases h
    | finite t q =>
      -- Only two negative signs give the zero below zero, and then neither has any units.
      have hsum : signedUnits s r + signedUnits t q = 0 := by
        rw [← isZero_ofUnits (s && t)]
        exact congrArg isZero h
      rw [add, ofUnits, if_pos hsum] at h
      obtain ⟨rfl, rfl⟩ := Bool.and_eq_true_iff.mp (finite.inj h).1
      have hr : r.val = 0 := by
        rw [← unitsOfRank_eq_zero]
        simp only [signedUnits, if_true] at hsum
        omega
      have hq : q.val = 0 := by
        rw [← unitsOfRank_eq_zero]
        simp only [signedUnits, if_true] at hsum
        omega
      exact ⟨congrArg _ (Fin.ext hr), congrArg _ (Fin.ext hq)⟩

end Binary64

namespace Scalar
variable {a b s t : Scalar} {v : ℚ}

/-- Whether a scalar is a whole number that is kept as one. -/
def isExact : Scalar → Bool
  | whole _ => true
  | _ => false

/-- The zero below zero. -/
def negativeZero : Scalar := real (.zero true)

theorem At.isFlag_eq (h : a.At v) : a.isFlag = false := by
  cases a with
  | flag b => exact h.elim
  | _ => rfl

theorem toReal_eq_negative_zero (ha : a.isFlag = false) (h : a.toReal = .ok (.zero true)) :
    a = negativeZero := by
  cases a with
  | whole n =>
    have hn : Binary64.zero true = .ofUnits false (n * Binary64.one) :=
      (Binary64.ofInt?_eq_some (toReal_whole h)).1
    have hzero := (Binary64.isZero_ofUnits false (n * Binary64.one)).mp (hn ▸ rfl)
    rw [Binary64.ofUnits, if_pos hzero] at hn
    cases hn
  | real x =>
    cases h
    rfl
  | flag b => cases ha

theorem add_kind (h : a.add b = .ok s) (ha : a.isFlag = false) (hb : b.isFlag = false) :
    s.isExact = (a.isExact && b.isExact) ∧
      (s = negativeZero → a = negativeZero ∧ b = negativeZero) := by
  unfold add arith at h
  rw [plain_eq ha, plain_eq hb] at h
  split at h
  · cases h
    exact ⟨rfl, nofun⟩
  · rename_i hwhole
    obtain ⟨x, hx, h⟩ := Outcome.bind_eq_ok.mp h
    obtain ⟨y, hy, h⟩ := Outcome.bind_eq_ok.mp h
    cases h
    constructor
    · cases a with
      | whole m =>
        cases b with
        | whole n => exact absurd rfl (hwhole m n rfl)
        | _ => rfl
      | _ => rfl
    · intro hzero
      obtain ⟨rfl, rfl⟩ := Binary64.add_eq_negative_zero (real.inj hzero)
      exact ⟨toReal_eq_negative_zero ha hx, toReal_eq_negative_zero hb hy⟩

/-- A value and a kind leave one scalar, the negative zero apart. -/
theorem eq_of_at (hs : s.At v) (ht : t.At v) (hkind : s.isExact = t.isExact)
    (hs' : s ≠ negativeZero) (ht' : t ≠ negativeZero) : s = t := by
  obtain ⟨p, hp, hq⟩ := same_iff.mp ((same_at hs ht).mpr rfl)
  cases s with
  | whole m =>
    cases t with
    | whole n =>
      have hmn : (m : ℚ) = n := (show v = m from hs).symm.trans ht
      exact congrArg whole (Int.cast_inj.mp hmn)
    | _ => cases hkind
  | real x =>
    cases t with
    | real y =>
      -- Two numbers of one value are the same or are both zeros.
      rcases agrees_real.mp (agrees_of_place (hp.trans hq.symm)) with rfl | ⟨hx, hy⟩
      · rfl
      · obtain ⟨b, rfl⟩ := Binary64.isZero_iff_zero.mp hx
        obtain ⟨c, rfl⟩ := Binary64.isZero_iff_zero.mp hy
        cases b with
        | true => exact absurd rfl hs'
        | false =>
          cases c with
          | true => exact absurd rfl ht'
          | false => rfl
    | whole n => cases hkind
    | flag b => exact ht.elim
  | flag b => exact hs.elim

variable {i : Integers} {c d e m n k : ℤ} {g : Scalar}

/-- With a positive term a sum of three does not depend on its grouping. -/
theorem IsInteger.add_add (ha : a.IsInteger i c m) (hb : b.IsInteger i d n) (hg : g.IsInteger i e k)
    (hpos : 0 < n) (hroom : i = .bounded → c + d + e < 2 ^ 50) :
    ∃ s t u, a.add b = .ok t ∧ t.add g = .ok s ∧ b.add g = .ok u ∧ a.add u = .ok s := by
  have hnonneg (hi : i = .bounded) : 0 ≤ c ∧ 0 ≤ e :=
    ⟨(abs_nonneg m).trans (ha.allows hi), (abs_nonneg k).trans (hg.allows hi)⟩
  obtain ⟨t, ht, htInt⟩ := (ha.add_of_room hb fun hi => by
    have := hroom hi; have := hnonneg hi; omega).exists_ok
  obtain ⟨s, hs, hsInt⟩ := (htInt.add_of_room hg hroom).exists_ok
  obtain ⟨u, hu, huInt⟩ := (hb.add_of_room hg fun hi => by
    have := hroom hi; have := hnonneg hi; omega).exists_ok
  obtain ⟨s', hs', hs'Int⟩ := (ha.add_of_room huInt fun hi => by
    have := hroom hi; omega).exists_ok
  -- The positive term keeps either sum from being the negative zero.
  have hbZero : b ≠ negativeZero := by
    rintro rfl
    have : (n : ℚ) = 0 := hb.value.unique (real_zero_at true)
    have : n = 0 := by exact_mod_cast this
    omega
  have htKind := add_kind ht ha.value.isFlag_eq hb.value.isFlag_eq
  have hsKind := add_kind hs htInt.value.isFlag_eq hg.value.isFlag_eq
  have huKind := add_kind hu hb.value.isFlag_eq hg.value.isFlag_eq
  have hs'Kind := add_kind hs' ha.value.isFlag_eq huInt.value.isFlag_eq
  obtain rfl : s = s' := by
    have hvalue : s'.At (m + n + k : ℤ) := by
      rw [Int.add_assoc]
      exact hs'Int.value
    refine eq_of_at hsInt.value hvalue ?_ ?_ ?_
    · rw [hsKind.1, htKind.1, hs'Kind.1, huKind.1, Bool.and_assoc]
    · exact fun h => hbZero (htKind.2 (hsKind.2 h).1).2
    · exact fun h => hbZero (huKind.2 (hs'Kind.2 h).2).1
  exact ⟨s, t, u, ht, hs, hu, hs'⟩

end Scalar

end DiagramScript
