/-
  Whole numbers written in a base up to sixteen.

  Digits past nine are small letters.
-/

namespace DiagramScript.Radix

/-- The digit of a value below sixteen. -/
def digitChar (d : Nat) : Char := Char.ofNat (if d < 10 then 0x30 + d else 0x61 + (d - 10))

/-- The values of the digits of a number, the most significant one first. A base below two
has a single digit for every number. -/
def values (base n : Nat) : List Nat :=
  if base < 2 ∨ n < base then [n] else values base (n / base) ++ [n % base]
termination_by n
decreasing_by
  have hb : 2 ≤ base := by omega
  exact Nat.div_lt_self (by omega) hb

/-- The digits of a number. -/
def digits (base n : Nat) : List Char := (values base n).map digitChar

end DiagramScript.Radix
