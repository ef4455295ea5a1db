import DiagramScript.Number.Digits
import DiagramScript.Number.Rounding

/-
  Whole numbers written with places behind a point.

  `fixed` writes the number and zeros behind the point, `scientific` one digit in front of
  the point and a power of ten, and `general` the first of the two where the number has no
  more digits than asked for. Digits that are left out are rounded to the nearest, a half to
  the even neighbour.
-/

namespace DiagramScript.Places

def zeros (n : Nat) : List Char := List.replicate n '0'

/-- Digits behind a point. Without digits the point is written only where it is asked for. -/
def behindPoint (ds : List Char) (point : Bool) : List Char :=
  if ds.isEmpty && !point then [] else '.' :: ds

/-- The number and as many places as asked for. -/
def fixed (n places : Nat) (point : Bool) : List Char :=
  Decimal.digits n ++ behindPoint (zeros places) point

/-- The first digits of a number, as many as asked for, and the power of ten of the first
one. -/
def significant (n count : Nat) : List Char × Nat :=
  let ds := Decimal.digits n
  let power := ds.length - 1
  if ds.length ≤ count then (ds ++ zeros (count - ds.length), power)
  else
    let ms := Decimal.digits (roundHalfEven n (Nat.pow 10 (ds.length - count)))
    -- rounding up may give one digit more, the last of which is a zero
    if ms.length ≤ count then (ms, power) else (ms.take count, power + 1)

/-- A power of ten of at least two digits. -/
def exponent (power : Nat) : List Char :=
  'e' :: '+' :: ((if power < 10 then ['0'] else []) ++ Decimal.digits power)

/-- Digits with a point behind the first one, and a power of ten. -/
def withExponent (ds : List Char) (power : Nat) (point : Bool) : List Char :=
  ds.take 1 ++ behindPoint (ds.drop 1) point ++ exponent power

/-- One digit, as many places as asked for, and the power of ten. -/
def scientific (n places : Nat) (point : Bool) : List Char :=
  let (ds, power) := significant n (places + 1)
  withExponent ds power point

def trimZeros (ds : List Char) : List Char := (ds.reverse.dropWhile (· == '0')).reverse

/-- As many digits as asked for, but at least one. Zeros at the end of the places and a bare
point are written only where they are asked for. -/
def general (n count : Nat) (full : Bool) : List Char :=
  let count := max count 1
  let length := (Decimal.digits n).length
  let (ds, power) := significant n (if full then count else min count length)
  let shown (ds : List Char) := if full then ds else trimZeros ds
  if power < count then
    ds.take (power + 1) ++ behindPoint (shown (ds.drop (power + 1))) full
  else withExponent (ds.take 1 ++ shown (ds.drop 1)) power full

end DiagramScript.Places
