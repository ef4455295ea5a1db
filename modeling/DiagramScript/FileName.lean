import DiagramScript.Text.Letter
import DiagramScript.Text.Lines

/-
  Names of files.

  A name is a path of parts between slashes. Empty parts and parts of one point say nothing
  and are left out (`tidy`); `resolved` also takes a part back where two points follow it. A
  file is stored under bytes: a character has those of its encoding, and half of a pair either
  stands for a single byte or for none.
-/

namespace DiagramScript.FileName

def here : List Char := ['.']

def up : List Char := ['.', '.']

/-! ## Parts -/

/-- The parts of a path that are not empty. -/
def parts (path : List Char) : List (List Char) :=
  (Text.splitOn '/' path).filter (! ·.isEmpty)

/-- The parts of a path that say something. -/
def tidyParts (path : List Char) : List (List Char) := (parts path).filter (· != here)

/-- The slashes that a path starts with: none, one, or exactly two. More count as one. -/
def root (path : List Char) : List Char :=
  match path with
  | '/' :: '/' :: '/' :: _ => ['/']
  | '/' :: '/' :: _ => ['/', '/']
  | '/' :: _ => ['/']
  | _ => []

/-- Whether a path starts at the root of all directories. -/
def isAbsolute (path : List Char) : Bool := !(root path).isEmpty

/-- Whether a path ends with a slash. -/
def endsInSlash (path : List Char) : Bool := path.getLast? == some '/'

/-- The path of some parts, behind the start of the path that they come from. -/
def join (path : List Char) (ps : List (List Char)) : String :=
  if ps.isEmpty && !isAbsolute path then String.ofList here
  else String.ofList (root path ++ Text.joinOn '/' ps)

/-- A name without the parts that say nothing. -/
def tidy (name : String) : String := join name.toList (tidyParts name.toList)

/-- The parts of a path, last first, with one more. Two points take a part back, and stay
where there is none. -/
def step (reversed : List (List Char)) (part : List Char) : List (List Char) :=
  match reversed with
  | last :: rest => if part = up ∧ last ≠ up then rest else part :: reversed
  | [] => [part]

/-- The parts of a path after every part that is taken back is gone. Above the root is the
root again. -/
def resolvedParts (path : List Char) : List (List Char) :=
  let ps := ((tidyParts path).foldl step []).reverse
  if isAbsolute path then ps.dropWhile (· == up) else ps

/-- A tidy name in which no part is taken back. -/
def resolved (name : String) : String := join name.toList (resolvedParts name.toList)

/-! ## Bytes -/

/-- Whether a letter can be stored: a character, or a half that stands for a byte. -/
def hasBytes : Text.Letter → Bool
  | .char _ => true
  | .half n => 0xDC80 ≤ (Text.Letter.half n).code && (Text.Letter.half n).code ≤ 0xDCFF

/-- The bytes of a letter that can be stored. -/
def letterBytes : Text.Letter → List UInt8
  | .char c => String.utf8EncodeChar c
  | .half n => [UInt8.ofNat (Text.Letter.half n).code]

/-- The bytes that a part or a path is stored under. -/
def bytes (cs : List Char) : List UInt8 := (Text.letters cs).flatMap letterBytes

/-- The first half that cannot be stored, its place, and the place of the last half of the
run that it starts. -/
def unstorable? (cs : List Char) : Option (Nat × Nat × Nat) :=
  let ls := Text.letters cs
  let run := (ls.dropWhile hasBytes).takeWhile Text.Letter.isHalf
  let first := (ls.takeWhile hasBytes).length
  run.head?.map fun l => (l.code, first, first + run.length - 1)

end DiagramScript.FileName
