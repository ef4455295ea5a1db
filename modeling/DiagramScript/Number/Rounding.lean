/-
  Rounding of exact quotients and square roots.

  `roundHalfEven n d` is the whole number nearest to `n / d`, and `floorSqrt n` the
  whole part of the square root of `n`. Every rounding of the library goes through
  one of the two, so each rounding is one exact comparison of whole numbers.
-/

namespace DiagramScript

/-- The whole number nearest to `n / d`; a half goes to the even neighbour. -/
def roundHalfEven (n d : Nat) : Nat :=
  let q := n / d
  let twice := 2 * (n % d)
  if twice < d ∨ (twice = d ∧ q % 2 = 0) then q else q + 1

/-- A whole number is its own nearest whole number. -/
theorem roundHalfEven_mul (n d : Nat) (h : 0 < d) : roundHalfEven (n * d) d = n := by
  have hq : n * d / d = n := Nat.mul_div_cancel n h
  have hr : n * d % d = 0 := Nat.mul_mod_left n d
  simp only [roundHalfEven, hq, hr]
  rw [if_pos (Or.inl (by omega))]

@[simp] theorem roundHalfEven_one (n : Nat) : roundHalfEven n 1 = n := by
  simpa using roundHalfEven_mul n 1 (by decide)

/-- The whole part of the square root of `n`, one binary digit of the root at a time:
the root of `n` is twice the root of `n / 4`, or one more. -/
def floorSqrt (n : Nat) : Nat :=
  if h : n = 0 then 0
  else
    let r := 2 * floorSqrt (n / 4)
    if (r + 1) * (r + 1) ≤ n then r + 1 else r
termination_by n
decreasing_by omega

theorem floorSqrt_bounds (n : Nat) :
    floorSqrt n * floorSqrt n ≤ n ∧ n < (floorSqrt n + 1) * (floorSqrt n + 1) := by
  induction n using Nat.strongRecOn with
  | ind n ih =>
    unfold floorSqrt
    by_cases h : n = 0
    · simp [h]
    · obtain ⟨hl, hu⟩ := ih (n / 4) (by omega)
      simp only [h, dite_false]
      generalize floorSqrt (n / 4) = s at hl hu
      have hl4 : (2 * s) * (2 * s) ≤ n := by
        have : (2 * s) * (2 * s) = 4 * (s * s) := by
          rw [Nat.mul_mul_mul_comm]
        omega
      have hu4 : n < (2 * s + 2) * (2 * s + 2) := by
        have : (2 * s + 2) * (2 * s + 2) = 4 * ((s + 1) * (s + 1)) := by
          rw [show 2 * s + 2 = 2 * (s + 1) by omega, Nat.mul_mul_mul_comm]
        omega
      by_cases hc : (2 * s + 1) * (2 * s + 1) ≤ n
      · rw [if_pos hc]; exact ⟨hc, by simpa using hu4⟩
      · rw [if_neg hc]; exact ⟨hl4, by omega⟩

end DiagramScript
