import DiagramScript.Number.Rounding

/-
  Binary floating-point numbers of 64 bits.

  Every finite number is a whole number of units, a unit being 2 ^ -1074. The finite
  magnitudes are numbered from 0 upwards in order of size: the number of a magnitude is
  its rank, and a finite number is a sign and a rank. So each number has one form, equal
  forms are equal numbers (the two zeros apart), and the rank is even exactly where the
  significand is.

  An operation computes its exact result as a quotient of whole numbers of units and
  rounds it once (`ofRatio`): to the nearest rank, a half to the even rank, and to
  infinity past the last rank.
-/

namespace DiagramScript

/-- How many magnitudes of one step there are between two powers of 2. -/
def Binary64.binade : Nat := Nat.pow 2 52

/-- How many finite magnitudes there are. -/
def Binary64.magnitudes : Nat := 2047 * binade

/-- A floating-point number: not a number, an infinity, or a sign and the rank of a
finite magnitude. -/
inductive Binary64 where
  | nan
  | infinite (negative : Bool)
  | finite (negative : Bool) (rank : Fin Binary64.magnitudes)
  deriving DecidableEq, Repr

namespace Binary64

/-- How many units make 1. -/
def one : Nat := Nat.pow 2 1074

/-- The magnitude of a rank, in units. Ranks of the first two binades are units; every
further binade doubles the step. -/
def unitsOfRank (r : Nat) : Nat :=
  if r < 2 * binade then r else (binade + r % binade) * Nat.pow 2 (r / binade - 1)

/-- How far the significand of a magnitude of `u` whole units is shifted. -/
def shiftOf (u : Nat) : Nat := Nat.log2 u - 52

/-- The rank nearest to `n / d` units; it may lie past the last finite one. -/
def rankOfRatio (n d : Nat) : Nat :=
  let q := shiftOf (n / d)
  q * binade + roundHalfEven n (d * Nat.pow 2 q)

/-- The rank nearest to the square root of `s`, in units. The root is compared with the
middle of two neighbouring ranks by comparing squares. -/
def rankOfSqrt (s : Nat) : Nat :=
  let root := floorSqrt s
  let q := shiftOf root
  let m := root / Nat.pow 2 q
  let middle := (2 * m + 1) * Nat.pow 2 q
  if 4 * s < middle * middle ∨ (4 * s = middle * middle ∧ m % 2 = 0) then
    q * binade + m
  else q * binade + m + 1

/-- The number of a sign and a rank, infinite past the last finite rank. -/
def ofRank (negative : Bool) (r : Nat) : Binary64 :=
  if h : r < magnitudes then .finite negative ⟨r, h⟩ else .infinite negative

/-- The number nearest to `n / d` units, of the given sign. -/
def ofRatio (negative : Bool) (n d : Nat) : Binary64 :=
  ofRank negative (rankOfRatio n d)

/-- The zero of a sign. -/
def zero (negative : Bool) : Binary64 := .finite negative ⟨0, by decide⟩

/-- The number nearest to a whole number of units; an exact zero takes the given sign. -/
def ofUnits (negativeZero : Bool) (u : Int) : Binary64 :=
  if u = 0 then zero negativeZero else ofRatio (u < 0) u.natAbs 1

/-- The signed magnitude of a finite number, in units. -/
def signedUnits (negative : Bool) (r : Nat) : Int :=
  if negative then -(unitsOfRank r : Int) else unitsOfRank r

/-- The number of units of a finite number. -/
def units? : Binary64 → Option Int
  | .finite s r => some (signedUnits s r)
  | _ => none

def isNaN : Binary64 → Bool
  | .nan => true
  | _ => false

def isFinite : Binary64 → Bool
  | .finite _ _ => true
  | _ => false

def isZero : Binary64 → Bool
  | .finite _ r => r.val == 0
  | _ => false

/-! ## Arithmetic -/

def neg : Binary64 → Binary64
  | .nan => .nan
  | .infinite s => .infinite (!s)
  | .finite s r => .finite (!s) r

def abs : Binary64 → Binary64
  | .nan => .nan
  | .infinite _ => .infinite false
  | .finite _ r => .finite false r

/-- Sum. An exact zero is negative only where both terms are. -/
def add : Binary64 → Binary64 → Binary64
  | .nan, _ => .nan
  | _, .nan => .nan
  | .infinite a, .infinite b => if a = b then .infinite a else .nan
  | .infinite a, .finite _ _ => .infinite a
  | .finite _ _, .infinite b => .infinite b
  | .finite a r, .finite b s => ofUnits (a && b) (signedUnits a r + signedUnits b s)

def sub (x y : Binary64) : Binary64 := add x (neg y)

/-- Product. Zero times infinity is not a number. -/
def mul : Binary64 → Binary64 → Binary64
  | .nan, _ => .nan
  | _, .nan => .nan
  | .infinite a, .infinite b => .infinite (a != b)
  | .infinite a, .finite b s => if s.val = 0 then .nan else .infinite (a != b)
  | .finite a r, .infinite b => if r.val = 0 then .nan else .infinite (a != b)
  | .finite a r, .finite b s => ofRatio (a != b) (unitsOfRank r * unitsOfRank s) one

/-- Quotient. A zero divisor gives an infinity, or no number for a zero dividend. -/
def div : Binary64 → Binary64 → Binary64
  | .nan, _ => .nan
  | _, .nan => .nan
  | .infinite _, .infinite _ => .nan
  | .infinite a, .finite b _ => .infinite (a != b)
  | .finite a _, .infinite b => zero (a != b)
  | .finite a r, .finite b s =>
    if s.val = 0 then (if r.val = 0 then .nan else .infinite (a != b))
    else ofRatio (a != b) (unitsOfRank r * one) (unitsOfRank s)

/-- Square root of the sum of two squares, rounded once to the nearest number. The function
that this stands for is documented to be right within one unit in the last place only, so
where it errs it gives a neighbour of this value. -/
def hypot : Binary64 → Binary64 → Binary64
  | .infinite _, _ => .infinite false
  | _, .infinite _ => .infinite false
  | .nan, _ => .nan
  | _, .nan => .nan
  | .finite _ r, .finite _ s =>
    let x := unitsOfRank r
    let y := unitsOfRank s
    ofRank false (rankOfSqrt (x * x + y * y))

/-- Remainder of the division by 1, between 0 and 1: the exact remainder of the magnitude
takes the sign of the number, and a negative one is raised by 1. -/
def modOne : Binary64 → Binary64
  | .finite s r =>
    let rest := unitsOfRank r % one
    if rest = 0 then zero false
    else
      let signed := ofRatio s rest 1
      if s then add signed (ofUnits false one) else signed
  | _ => .nan

/-! ## Whole numbers -/

/-- A number unless it is infinite. -/
def bounded? : Binary64 → Option Binary64
  | .infinite _ => none
  | x => some x

/-- The number nearest to a whole number, unless that is past the last finite number. -/
def ofInt? (n : Int) : Option Binary64 := (ofUnits false (n * one)).bounded?

/-- The quotient of two whole numbers rounded once, unless that is past the last finite
number; the divisor is not zero. -/
def ofQuotient? (n d : Int) : Option Binary64 :=
  (ofRatio ((n < 0) != (d < 0)) (n.natAbs * one) d.natAbs).bounded?

/-- Whether a number is finite and whole. -/
def isWhole (x : Binary64) : Bool :=
  match x.units? with
  | some u => u % (one : Int) == 0
  | none => false

/-- The greatest whole number that is no greater than a finite number. -/
def floor? (x : Binary64) : Option Int := x.units?.map (· / (one : Int))

/-- The least whole number that is no less than a finite number. -/
def ceil? (x : Binary64) : Option Int := x.units?.map fun u => -(-u / (one : Int))

/-- A finite number without the part behind its point. -/
def truncate? (x : Binary64) : Option Int := x.units?.map (Int.tdiv · one)

/-- The whole number nearest to a finite number; a half goes to the even neighbour. -/
def round? (x : Binary64) : Option Int :=
  x.units?.map fun u =>
    let m : Int := roundHalfEven u.natAbs one
    if u < 0 then -m else m

/-! ## Decimal numerals -/

/-- The number nearest to `digits * 10 ^ exponent`. A numeral whose first place is more
than 330 places left of the point is past every finite number, and one that starts more
than 330 places right of it rounds to zero; both are settled from the length of the
digits. -/
def ofDecimal (negative : Bool) (digits : Nat) (exponent : Int) : Binary64 :=
  if digits = 0 then zero negative
  else
    -- `digits` lies between `10 ^ (bits / 4 - 1)` and `10 ^ bits`
    let bits : Int := (Nat.log2 digits : Int) + 1
    if exponent + bits / 4 > 331 then .infinite negative
    else if exponent + bits < -330 then zero negative
    else if 0 ≤ exponent then ofRatio negative (digits * Nat.pow 10 exponent.toNat * one) 1
    else ofRatio negative (digits * one) (Nat.pow 10 (-exponent).toNat)

end Binary64

end DiagramScript
