import DiagramScript.Number.Binary64
import DiagramScript.Number.Digits

/-
  Decimal text of floating-point numbers.

  `shortest r` is the shortest decimal that reads back as the number of rank `r`: for one
  digit, two digits and so on it looks at the two neighbours of the number on that
  decimal grid, and takes the first grid with a neighbour inside the interval of reals
  that round to the number. Of two such neighbours the nearer one wins, and the even one
  where they are equally near. Seventeen digits always suffice.

  `write` lays the digits out: positional between 10 ^ -4 and 10 ^ 16, scientific
  outside. `fixedSix` writes six places after the point.
-/

namespace DiagramScript.Decimal

/-- A positive decimal `digits * 10 ^ exponent`. -/
structure Parts where
  digits : Nat
  exponent : Int
  deriving DecidableEq, Repr

/-- `10 ^ k` as a quotient of whole numbers. -/
def powTen (k : Int) : Nat × Nat :=
  if 0 ≤ k then (Nat.pow 10 k.toNat, 1) else (1, Nat.pow 10 (-k).toNat)

/-- Whether `10 ^ k` is at most `u` units. -/
def powTenLe (k : Int) (u : Nat) : Bool :=
  let (n, d) := powTen k
  n * Binary64.one ≤ u * d

/-- The greatest `k` from `k` up to `k + fuel` with `10 ^ k` at most `u` units. -/
def raiseExponent (u : Nat) : Nat → Int → Int
  | 0, k => k
  | fuel + 1, k => if powTenLe (k + 1) u then raiseExponent u fuel (k + 1) else k

/-- The exponent of the first decimal place of `u` units. A binary exponent times the
logarithm of 2 falls short of it by less than 3. -/
def leadingExponent (u : Nat) : Int :=
  let guess : Int := ((Nat.log2 u : Int) - 1074) * 30103 / 100000
  raiseExponent u 3 (guess - 1)

/-- Whether `m * 10 ^ k` rounds to the number of rank `r`: it lies between the middles of
that number and its neighbours, the middles included where `r` is even. -/
def roundsTo (r m : Nat) (k : Int) : Bool :=
  let (n, d) := powTen k
  let twice := 2 * (m * n * Binary64.one)
  let low := (Binary64.unitsOfRank (r - 1) + Binary64.unitsOfRank r) * d
  let high := (Binary64.unitsOfRank r + Binary64.unitsOfRank (r + 1)) * d
  if r % 2 = 0 then low ≤ twice && twice ≤ high else low < twice && twice < high

/-- The neighbour of the number of rank `r` on the grid of multiples of `10 ^ k` that
rounds to it, if there is one. -/
def neighbour? (r : Nat) (k : Int) : Option Parts :=
  let u := Binary64.unitsOfRank r
  let (n, d) := powTen k
  let step := n * Binary64.one
  let lower := u * d / step
  let below := u * d % step
  match roundsTo r lower k, roundsTo r (lower + 1) k with
  | true, true =>
    if 2 * below < step ∨ (2 * below = step ∧ lower % 2 = 0) then some ⟨lower, k⟩
    else some ⟨lower + 1, k⟩
  | true, false => some ⟨lower, k⟩
  | false, true => some ⟨lower + 1, k⟩
  | false, false => none

/-- Moves zeros at the end of the digits into the exponent. -/
def trimZeros (p : Parts) : Parts :=
  if h : p.digits = 0 then p
  else if p.digits % 10 = 0 then trimZeros ⟨p.digits / 10, p.exponent + 1⟩
  else p
termination_by p.digits
decreasing_by exact Nat.div_lt_self (Nat.pos_of_ne_zero h) (by decide)

/-- The shortest decimal that reads back as the number of a positive rank. -/
def shortest (r : Nat) : Parts :=
  let first := leadingExponent (Binary64.unitsOfRank r)
  match (List.range 17).findSome? fun places => neighbour? r (first - (places : Nat)) with
  | some p => trimZeros p
  | none => ⟨0, 0⟩

def zeros (n : Nat) : List Char := List.replicate n '0'

/-- Digits with a point before the `places` last ones. -/
def withPoint (ds : List Char) (places : Nat) : List Char :=
  if ds.length ≤ places then
    '0' :: '.' :: (zeros (places - ds.length) ++ ds)
  else ds.take (ds.length - places) ++ '.' :: ds.drop (ds.length - places)

/-- How decimals are laid out: from which exponent of the first place to which one they
are positional, and the least number of digits of a written exponent. -/
structure Layout where
  lowest : Int
  highest : Int
  exponentDigits : Nat

/-- Numbers are positional from `0.0001` to below `1e+16`, and an exponent has a sign and
at least two digits. -/
def standard : Layout := ⟨-4, 15, 2⟩

/-- A decimal in a layout. A positional decimal has at least one place after the point. -/
def Parts.write (l : Layout) (p : Parts) : List Char :=
  let ds := Decimal.digits p.digits
  let top : Int := p.exponent + ds.length - 1
  if l.lowest ≤ top ∧ top ≤ l.highest then
    if 0 ≤ p.exponent then ds ++ zeros p.exponent.toNat ++ ['.', '0']
    else withPoint ds (-p.exponent).toNat
  else
    let e := Decimal.digits top.natAbs
    let mantissa := match ds with
      | [d] => [d]
      | d :: rest => d :: '.' :: rest
      | [] => []
    mantissa ++ 'e' :: (if top < 0 then '-' else '+') ::
      (zeros (l.exponentDigits - e.length) ++ e)

end DiagramScript.Decimal

namespace DiagramScript.Binary64

/-- The shortest text that reads back as the number. -/
def write : Binary64 → List Char
  | .nan => ['n', 'a', 'n']
  | .infinite s => (if s then ['-'] else []) ++ ['i', 'n', 'f']
  | .finite s r =>
    let body :=
      if r.val = 0 then ['0', '.', '0']
      else (Decimal.shortest r.val).write Decimal.standard
    (if s then ['-'] else []) ++ body

/-- A finite number with six places after the point, the exact value rounded once and a
half to the even last place. -/
def fixedSix (x : Binary64) : List Char :=
  match x with
  | .finite s r =>
    let scaled := roundHalfEven (unitsOfRank r.val * 1000000) one
    (if s then ['-'] else []) ++ Decimal.withPoint (Decimal.digits scaled) 6
  | x => x.write

end DiagramScript.Binary64
