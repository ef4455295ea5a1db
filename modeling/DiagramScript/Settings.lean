import DiagramScript.Json.Value
import DiagramScript.Number.Arithmetic

/-
  Settings of drawings.

  A setting may be given as any value. A truth value counts as 1 or 0 where a number is
  asked for; everything out of range is refused by name.
-/

namespace DiagramScript.Settings

def defaultPadding : Value := .number 24

def defaultBackground : Value := .text "#ffffff"

def defaultArrowPadding : Value := .number 8

def defaultScale : Value := .number 2

def refuse {α : Type} (p : SettingProblem) : Except Fault α := .error (.setting p)

/-- The number of a value. -/
def number? : Value → Option Scalar
  | .number n => some n
  | .bool b => some (.flag b)
  | _ => none

/-- A finite number that is not negative. -/
def measure (name : String) (v : Value) : Except Fault Scalar :=
  match number? v with
  | none => refuse (.measure name)
  | some n => do
    let finite ← n.isFinite
    if !finite || n.lt 0 then refuse (.measure name) else .ok n

def padding (v : Value) : Except Fault Scalar := measure "padding" v

/-- The gap of connectors where it is not asked for by name: what is no number at all
cannot even be refused. -/
def arrowPadding (v : Value) : Except Fault Scalar :=
  if (number? v).isNone then .error .unusableValue else measure "arrow_padding" v

/-- A finite positive number. -/
def scale (v : Value) : Except Fault Scalar :=
  match number? v with
  | none => refuse .scale
  | some n => do
    let finite ← n.isFinite
    if !finite || n.le 0 then refuse .scale else .ok n

/-- The scale of an image, which is no truth value. -/
def imageScale (v : Value) : Except Fault Scalar :=
  match v with
  | .bool _ => refuse .scale
  | v => scale v

/-- A background that is written as it is given, and left out for null. -/
def backgroundText : Value → String
  | .null => ""
  | v => v.display

/-- A background that is read as a colour, which only a text can be. -/
def backgroundColor : Value → Except Fault String
  | .text s => .ok s
  | _ => .error .unusableValue

/-- A text that is not empty. -/
def background (v : Value) : Except Fault String :=
  match v.filledText? with
  | some s => .ok s
  | none => refuse .background

end DiagramScript.Settings
