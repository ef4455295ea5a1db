import DiagramScript.Proofs.Outcome
import DiagramScript.Number.Arithmetic

/-
  Laws of scalars.

  Two scalars are the same number exactly where they have the same place on the number line,
  so being the same number can be turned round and chained; a scalar without place is the
  same as none, itself included. Records only hold finite numbers (`isNumber`).
-/

namespace DiagramScript

theorem Binary64.one_pos : 0 < one := by
  have hpow (n : Nat) : 0 < Nat.pow 2 n := Nat.two_pow_pos n
  delta one
  apply hpow

namespace Scalar

theorem same_eq (a b : Scalar) : a.same b = match a.place?, b.place? with
    | some p, some q => p == q
    | _, _ => false := by
  cases a with
  | whole m =>
    cases b with
    | whole n =>
      -- Whole numbers are compared as such, their places in units of the smallest float.
      have hone : (Binary64.one : Int) ≠ 0 := by
        have := Binary64.one_pos
        omega
      have hcancel : m * Binary64.one = n * Binary64.one ↔ m = n :=
        Int.mul_eq_mul_right_iff hone
      show (m == n) = (Place.finite (m * Binary64.one) == Place.finite (n * Binary64.one))
      rw [Bool.eq_iff_iff, beq_iff_eq, beq_iff_eq, Place.finite.injEq, hcancel]
    | _ => rfl
  | _ => rfl

theorem same_iff {a b : Scalar} : a.same b ↔ ∃ p, a.place? = some p ∧ b.place? = some p := by
  rw [same_eq]
  cases a.place? with
  | none => simp
  | some p =>
    cases b.place? with
    | none => simp
    | some q =>
      constructor
      · intro h
        exact ⟨p, rfl, by rw [eq_of_beq h]⟩
      · rintro ⟨_, h, h'⟩
        cases h
        cases h'
        exact beq_self_eq_true _

theorem same_symm {a b : Scalar} (h : a.same b) : b.same a := by
  obtain ⟨p, ha, hb⟩ := same_iff.mp h
  exact same_iff.mpr ⟨p, hb, ha⟩

theorem same_trans {a b c : Scalar} (h : a.same b) (h' : b.same c) : a.same c := by
  obtain ⟨p, ha, hb⟩ := same_iff.mp h
  obtain ⟨q, hb', hc⟩ := same_iff.mp h'
  rw [hb, Option.some.injEq] at hb'
  exact same_iff.mpr ⟨p, ha, hb' ▸ hc⟩

/-! ## Finite numbers -/

/-- Whether a scalar is a finite number: no truth value, no whole number past the range of
floating-point numbers. -/
def isNumber (n : Scalar) : Bool :=
  match n.isFinite with
  | .ok finite => finite && !n.isFlag
  | .error _ => false

theorem isNumber_iff {n : Scalar} : n.isNumber ↔ n.isFinite = .ok true ∧ n.isFlag = false := by
  unfold isNumber
  cases n.isFinite with
  | error e => simp
  | ok finite => simp

theorem isNumber_zero : isNumber 0 := by decide +kernel

/-! ## Truth values -/

/-- Arithmetic never gives a truth value. -/
theorem isFlag_arith {exact : Int → Int → Int} {rounded : Binary64 → Binary64 → Binary64}
    {a b n : Scalar} (h : arith exact rounded a b = .ok n) : n.isFlag = false := by
  unfold arith at h
  split at h
  · cases h
    rfl
  · simp only [Outcome.bind_eq_ok] at h
    obtain ⟨x, -, y, -, h⟩ := h
    cases h
    rfl

theorem isFlag_add {a b n : Scalar} (h : a.add b = .ok n) : n.isFlag = false := isFlag_arith h

theorem isFlag_sub {a b n : Scalar} (h : a.sub b = .ok n) : n.isFlag = false := isFlag_arith h

/-! ## Floating-point results -/

/-- A floating-point number, which may be infinite or no number. -/
def IsReal (a : Scalar) : Prop := ∃ x, a = real x

theorem IsReal.isFlag_eq {a : Scalar} (h : a.IsReal) : a.isFlag = false := by
  obtain ⟨x, rfl⟩ := h
  rfl

/-- Arithmetic gives a floating-point number where one operand is one. -/
theorem isReal_arith {exact : Int → Int → Int} {rounded : Binary64 → Binary64 → Binary64}
    {a b n : Scalar} (h : a.IsReal ∨ b.IsReal) (hn : arith exact rounded a b = .ok n) :
    n.IsReal := by
  unfold arith at hn
  split at hn
  · rename_i ha hb
    rcases h with ⟨x, rfl⟩ | ⟨x, rfl⟩
    · cases ha
    · cases hb
  · simp only [Outcome.bind_eq_ok] at hn
    obtain ⟨x, -, y, -, hn⟩ := hn
    cases hn
    exact ⟨_, rfl⟩

/-- A division always does. -/
theorem isReal_div {a b n : Scalar} (h : a.div b = .ok n) : n.IsReal := by
  unfold div at h
  split at h
  · split at h
    · cases h
    · split at h
      · cases h
        exact ⟨_, rfl⟩
      · cases h
  · simp only [Outcome.bind_eq_ok] at h
    obtain ⟨x, -, y, -, h⟩ := h
    split at h
    · cases h
    · cases h
      exact ⟨_, rfl⟩

/-! ## Greatest and least -/

section Choice
variable {P : Scalar → Prop} {a b : Scalar} {rest : List Scalar}

/-- The greater of two scalars is one of them. -/
theorem max_of (ha : P a) (hb : P b) : P (a.max b) := by
  unfold max
  split
  · exact hb
  · exact ha

/-- The smaller of two scalars is one of them. -/
theorem min_of (ha : P a) (hb : P b) : P (a.min b) := by
  unfold min
  split
  · exact hb
  · exact ha

theorem maximum_of (ha : P a) (hrest : ∀ b ∈ rest, P b) : P (a.maximum rest) := by
  induction rest generalizing a with
  | nil => exact ha
  | cons b rest ih =>
    obtain ⟨hb, hrest⟩ := List.forall_mem_cons.mp hrest
    exact ih (max_of ha hb) hrest

theorem minimum_of (ha : P a) (hrest : ∀ b ∈ rest, P b) : P (a.minimum rest) := by
  induction rest generalizing a with
  | nil => exact ha
  | cons b rest ih =>
    obtain ⟨hb, hrest⟩ := List.forall_mem_cons.mp hrest
    exact ih (min_of ha hb) hrest

end Choice

theorem isFlag_max {a b : Scalar} (ha : a.isFlag = false) (hb : b.isFlag = false) :
    (a.max b).isFlag = false :=
  max_of (P := fun s => s.isFlag = false) ha hb

theorem isFlag_min {a b : Scalar} (ha : a.isFlag = false) (hb : b.isFlag = false) :
    (a.min b).isFlag = false :=
  min_of (P := fun s => s.isFlag = false) ha hb

end Scalar

end DiagramScript
