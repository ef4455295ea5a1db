import DiagramScript.Fault

/-
  Arithmetic on scalars.

  Two whole numbers give an exact whole number, except in a division, which always gives a
  floating-point number. As soon as one operand is a floating-point number the other one is
  rounded to one; a whole number past the range of those has no result.
-/

namespace DiagramScript

/-- A fault of arithmetic as a failed computation. -/
def ArithmeticProblem.fail {α : Type} (p : ArithmeticProblem) : Except Fault α :=
  .error (.arithmetic p)

namespace Scalar

/-- Whether a scalar can be written: a whole number past the limit of digits cannot. -/
def isWritable : Scalar → Bool
  | whole n => n.natAbs < Nat.pow 10 digitLimit
  | _ => true

/-- The scalar as a floating-point number. -/
def toReal : Scalar → Except Fault Binary64
  | whole n =>
    match Binary64.ofInt? n with
    | some x => .ok x
    | none => ArithmeticProblem.wholeTooLarge.fail
  | real x => .ok x
  | flag b => .ok (Binary64.ofUnits false (if b then Binary64.one else 0))

/-- An operation on two scalars by its exact form on whole numbers and its rounded form on
floating-point numbers. -/
def arith (exact : Int → Int → Int) (rounded : Binary64 → Binary64 → Binary64)
    (a b : Scalar) : Except Fault Scalar :=
  match a.plain, b.plain with
  | whole m, whole n => .ok (whole (exact m n))
  | a, b => do
    let x ← a.toReal
    let y ← b.toReal
    .ok (real (rounded x y))

def add (a b : Scalar) : Except Fault Scalar := arith (· + ·) Binary64.add a b

def sub (a b : Scalar) : Except Fault Scalar := arith (· - ·) Binary64.sub a b

def mul (a b : Scalar) : Except Fault Scalar := arith (· * ·) Binary64.mul a b

/-- Quotient; a zero divisor has no result. -/
def div (a b : Scalar) : Except Fault Scalar :=
  match a.plain, b.plain with
  | whole m, whole n =>
    if n = 0 then ArithmeticProblem.zeroDivisor.fail
    else
      match Binary64.ofQuotient? m n with
      | some x => .ok (real x)
      | none => ArithmeticProblem.quotientTooLarge.fail
  | a, b => do
    let x ← a.toReal
    let y ← b.toReal
    if y.isZero then ArithmeticProblem.zeroDivisor.fail else .ok (real (x.div y))

/-- Half of a scalar. -/
def half (a : Scalar) : Except Fault Scalar := a.div (whole 2)

/-- A whole number read off a floating-point number, which has to be finite. -/
def wholeOf (read : Binary64 → Option Int) (a : Scalar) : Except Fault Int :=
  match a with
  | whole n => .ok n
  | flag b => .ok (if b then 1 else 0)
  | real x =>
    match read x with
    | some n => .ok n
    | none =>
      if x.isNaN then ArithmeticProblem.nanToWhole.fail
      else ArithmeticProblem.infiniteToWhole.fail

/-- The least whole number that is no less. -/
def ceil (a : Scalar) : Except Fault Int := wholeOf Binary64.ceil? a

/-- The nearest whole number, a half going to the even neighbour. -/
def round (a : Scalar) : Except Fault Int := wholeOf Binary64.round? a

/-- The length of the vector with two coordinates. -/
def hypot (a b : Scalar) : Except Fault Scalar := do
  let x ← a.toReal
  let y ← b.toReal
  .ok (real (x.hypot y))

/-- Whether a scalar is neither infinite nor no number. A whole number past the range of
floating-point numbers has no answer. -/
def isFinite (a : Scalar) : Except Fault Bool := do
  let x ← a.toReal
  .ok x.isFinite

@[simp] theorem add_whole (m n : Int) : add (whole m) (whole n) = .ok (whole (m + n)) := rfl

@[simp] theorem sub_whole (m n : Int) : sub (whole m) (whole n) = .ok (whole (m - n)) := rfl

@[simp] theorem mul_whole (m n : Int) : mul (whole m) (whole n) = .ok (whole (m * n)) := rfl

end Scalar

end DiagramScript
