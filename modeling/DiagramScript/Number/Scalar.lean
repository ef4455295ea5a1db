import DiagramScript.Number.Shortest

/-
  Coordinates and lengths.

  A scalar is a whole number of any size or a floating-point number, and keeps which of the
  two it is: sums of whole numbers stay exact, and a whole number is written without a
  point. Comparisons are exact, also between the two kinds. A truth value that stands where
  a number is asked for counts as 1 or 0 (`plain`), and is written as itself as long as
  nothing was computed with it.
-/

namespace DiagramScript

inductive Scalar where
  | whole (n : Int)
  | real (x : Binary64)
  | flag (b : Bool)
  deriving DecidableEq, Repr

namespace Scalar

/-- The number that a scalar counts as. -/
def plain : Scalar → Scalar
  | flag b => whole (if b then 1 else 0)
  | s => s

/-- Whether a scalar is a truth value, which is no number of its own. -/
def isFlag : Scalar → Bool
  | flag _ => true
  | _ => false

instance : Inhabited Scalar := ⟨.whole 0⟩

instance (n : Nat) : OfNat Scalar n := ⟨.whole n⟩

/-- The floating-point number nearest to `digits / 10 ^ places`. -/
def ofPlaces (digits places : Nat) : Scalar := real (.ofDecimal false digits (-(places : Int)))

/-- A place on the extended number line, finite ones counted in units of `2 ^ -1074`. -/
inductive Place where
  | bottom
  | finite (units : Int)
  | top
  deriving DecidableEq, Repr

def Place.lt : Place → Place → Bool
  | .bottom, .bottom => false
  | .bottom, _ => true
  | .finite a, .finite b => a < b
  | .finite _, .top => true
  | _, _ => false

/-- The place of a scalar; the number that is none has no place. -/
def place? : Scalar → Option Place
  | whole n => some (.finite (n * Binary64.one))
  | real .nan => none
  | real (.infinite s) => some (if s then .bottom else .top)
  | real (.finite s r) => some (.finite (Binary64.signedUnits s r))
  | flag b => some (if b then .finite Binary64.one else .finite 0)

/-- Whether one scalar lies below another. -/
def lt (a b : Scalar) : Bool :=
  match a, b with
  | whole m, whole n => m < n
  | a, b =>
    match a.place?, b.place? with
    | some p, some q => p.lt q
    | _, _ => false

/-- Whether two scalars are the same number. -/
def same (a b : Scalar) : Bool :=
  match a, b with
  | whole m, whole n => m == n
  | a, b =>
    match a.place?, b.place? with
    | some p, some q => p == q
    | _, _ => false

/-- Whether one scalar lies below another or is the same number. -/
def le (a b : Scalar) : Bool := a.lt b || a.same b

/-- The greater of two scalars, the first one unless the second lies above it. -/
def max (a b : Scalar) : Scalar := if a.lt b then b else a

/-- The smaller of two scalars, the first one unless the second lies below it. -/
def min (a b : Scalar) : Scalar := if b.lt a then b else a

/-- The greatest of some scalars, the first of those. -/
def maximum (a : Scalar) (rest : List Scalar) : Scalar := rest.foldl max a

/-- The smallest of some scalars, the first of those. -/
def minimum (a : Scalar) (rest : List Scalar) : Scalar := rest.foldl min a

def isZero : Scalar → Bool
  | whole n => n == 0
  | real x => x.isZero
  | flag b => !b

def neg : Scalar → Scalar
  | whole n => whole (-n)
  | real x => real x.neg
  | flag b => whole (if b then -1 else 0)

def abs : Scalar → Scalar
  | whole n => whole n.natAbs
  | real x => real x.abs
  | flag b => whole (if b then 1 else 0)

/-- The number as text: a whole number as its digits, another one as the shortest decimal
that reads back. -/
def write : Scalar → String
  | whole n => String.ofList (Decimal.integer n)
  | real x => String.ofList x.write
  | flag b => if b then "True" else "False"

/-- A floating-point number that is whole turned into that whole number; other scalars as
they are. -/
def simplify : Scalar → Scalar
  | real x => if x.isWhole then (x.floor?.map whole).getD (real x) else real x
  | s => s

@[simp] theorem lt_whole (m n : Int) : lt (whole m) (whole n) = decide (m < n) := rfl

@[simp] theorem same_whole (m n : Int) : same (whole m) (whole n) = (m == n) := rfl

theorem max_whole (m n : Int) : max (whole m) (whole n) = whole (if m < n then n else m) := by
  by_cases h : m < n <;> simp [max, h]

theorem min_whole (m n : Int) : min (whole m) (whole n) = whole (if n < m then n else m) := by
  by_cases h : n < m <;> simp [min, h]

end Scalar

end DiagramScript
