import DiagramScript.Number.Scalar
import DiagramScript.Text.Quoted

/-
  Values of the JSON data format.

  A number keeps whether it was written as a whole number. An object keeps its entries in
  order, one for each key.
-/

namespace DiagramScript

inductive Value where
  | null
  | bool (b : Bool)
  | number (n : Scalar)
  | text (s : String)
  | list (items : List Value)
  | object (entries : List (String × Value))
  deriving Repr

namespace Value

instance : Inhabited Value := ⟨null⟩

/-- The entries of an object with the value of a key set. -/
def setEntry (key : String) (v : Value) : List (String × Value) → List (String × Value)
  | [] => [(key, v)]
  | (k, w) :: rest => if k = key then (k, v) :: rest else (k, w) :: setEntry key v rest

/-- Whether a value can be looked up in a table: lists and objects cannot. -/
def isScalar : Value → Bool
  | list _ | object _ => false
  | _ => true

/-- Whether a value counts as missing where any value is admitted: null, false, zero, and
whatever is empty. -/
def isBlankValue : Value → Bool
  | null => true
  | bool b => !b
  | number n => n.isZero
  | text s => s.isEmpty
  | list items => items.isEmpty
  | object entries => entries.isEmpty

/-- A text that is not empty. -/
def filledText? : Value → Option String
  | text s => if s.isEmpty then none else some s
  | _ => none

/-- The value of a scalar. -/
def ofScalar : Scalar → Value
  | .flag b => bool b
  | n => number n

mutual

/-- The written form of a value inside another one. -/
def write : Value → String
  | null => "None"
  | bool b => if b then "True" else "False"
  | number n => n.write
  | text s => Text.quoted s
  | list items => "[" ++ writeItems items ++ "]"
  | object entries => "\x7b" ++ writeEntries entries ++ "\x7d"

def writeItems : List Value → String
  | [] => ""
  | [v] => v.write
  | v :: rest => v.write ++ ", " ++ writeItems rest

def writeEntries : List (String × Value) → String
  | [] => ""
  | [(key, v)] => Text.quoted key ++ ": " ++ v.write
  | (key, v) :: rest => Text.quoted key ++ ": " ++ v.write ++ ", " ++ writeEntries rest

end

/-- A value as it is shown in messages: a text as it is, any other value in its written
form. -/
def display : Value → String
  | text s => s
  | v => v.write

end Value

end DiagramScript
