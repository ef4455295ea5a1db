import DiagramScript.Text.Letter
import DiagramScript.Text.Lines

/-
  A reader of markup.

  The reader knows nothing of the trees that are written. It cuts a text at the signs around
  tags and a tag at its blanks and quotes, resolves the references in texts and values, and
  refuses what does not fit together. It changes nothing else, not even the breaks of lines. Half
  of a surrogate pair is spelled with characters that are no signs, so a cut takes none apart.
-/

namespace DiagramScript

open Text (Letter)

/-- Attributes as a reader finds them. -/
abbrev Readings := List (String × List Letter)

/-- Markup as a reader finds it: texts and elements, these with all that stands in them. -/
inductive Markup where
  | text (letters : List Letter)
  | element (name : String) (attributes : Readings) (content : List Markup)
  deriving Repr

namespace Markup

/-! ## Texts and values -/

/-- The characters that references may name. -/
def entities : List (List Char × Char) :=
  [(['a', 'm', 'p'], '&'), (['l', 't'], '<'), (['g', 't'], '>'), (['q', 'u', 'o', 't'], '"')]

/-- The letter of a reference, by its name or by its code. -/
def reference? : List Char → Option Letter
  | '#' :: digits =>
    let code := Nat.ofDigitChars 10 digits 0
    if !digits.isEmpty && digits.all Char.isDigit && code < 0x110000 then some (.ofCode code)
    else none
  | name => (entities.lookup name).map .char

/-- Letters with all references resolved; `inside` is what has been read of a reference. -/
def resolve? (inside : Option (List Char)) : List Letter → Option (List Letter)
  | [] => if inside.isNone then some [] else none
  | l :: ls =>
    match inside, l with
    | none, l => if l = .char '&' then resolve? (some []) ls else (l :: ·) <$> resolve? none ls
    | some name, .char c =>
      if c = ';' then do
        let l ← reference? name
        (l :: ·) <$> resolve? none ls
      else resolve? (some (name ++ [c])) ls
    | some _, .half _ => none

/-- The letters of a text or a value as it is written. -/
def unescape (cs : List Char) : Option (List Letter) := resolve? none (Text.letters cs)

/-- What stands between two tags. -/
def text? (cs : List Char) : Option (List Markup) :=
  if cs.isEmpty then some [] else (fun ls => [.text ls]) <$> unescape cs

/-! ## Tags -/

/-- A tag: the start or the end of an element, or a whole element in which nothing stands. -/
inductive Tag where
  | start (name : String) (attributes : Readings)
  | empty (name : String) (attributes : Readings)
  | finish (name : String)

/-- The name in front of the value of an attribute. -/
def key? : List Char → Option String
  | ' ' :: cs => if cs.getLast? = some '=' then some (String.ofList cs.dropLast) else none
  | _ => none

/-- Attributes that were cut at their quotes. -/
def attributes? : List (List Char) → Option Readings
  | [] => none
  | [rest] => if rest.all (· == ' ') then some [] else none
  | key :: value :: pieces => do
    let name ← key? key
    let letters ← unescape value
    let others ← attributes? pieces
    some ((name, letters) :: others)

/-- A name and the attributes behind it. -/
def named? (cs : List Char) : Option (String × Readings) := do
  let attributes ← attributes? (Text.splitOn '"' (cs.dropWhile (· != ' ')))
  some (String.ofList (cs.takeWhile (· != ' ')), attributes)

/-- A tag without the signs around it. -/
def tag? (cs : List Char) : Option Tag :=
  match cs with
  | '/' :: name => some (.finish (String.ofList name))
  | cs =>
    if cs.getLast? = some '/' then (fun e => .empty e.1 e.2) <$> named? cs.dropLast
    else (fun e => .start e.1 e.2) <$> named? cs

/-! ## Texts with tags -/

/-- An element that has been started. -/
structure Opened where
  name : String
  attributes : Readings
  /-- What stands in front of it in the element around it. -/
  before : List Markup

/-- How far a reader has come. -/
structure Reader where
  /-- What has been read of the innermost element that is open. -/
  content : List Markup := []
  /-- The elements that are open, the innermost one first. -/
  opened : List Opened := []
  /-- Whether a tag has been started. -/
  inTag : Bool := false
  /-- The characters since the last sign. -/
  piece : List Char := []

namespace Reader

def startTag (r : Reader) : Option Reader := do
  let text ← text? r.piece
  some { r with content := r.content ++ text, inTag := true, piece := [] }

def endTag (r : Reader) : Option Reader := do
  match ← tag? r.piece with
  | .start name attributes => some { opened := ⟨name, attributes, r.content⟩ :: r.opened }
  | .empty name attributes =>
    some { content := r.content ++ [.element name attributes []], opened := r.opened }
  | .finish name =>
    match r.opened with
    | e :: outer =>
      if e.name = name then
        some { content := e.before ++ [.element e.name e.attributes r.content], opened := outer }
      else none
    | [] => none

/-- Reads a character. One that would end a tag stands for itself outside of tags. -/
def step (r : Reader) (c : Char) : Option Reader :=
  if c = '<' then if r.inTag then none else r.startTag
  else if c = '>' ∧ r.inTag then r.endTag
  else some { r with piece := r.piece ++ [c] }

/-- What has been read when the text is over. -/
def result (r : Reader) : Option (List Markup) :=
  if r.inTag || !r.opened.isEmpty then none
  else (r.content ++ ·) <$> text? r.piece

end Reader

/-- Reads a text. -/
def read (text : String) : Option (List Markup) := do
  let r ← text.toList.foldlM Reader.step {}
  r.result

mutual

/-- The names of the elements, in the order of their tags. -/
def names : Markup → List String
  | text _ => []
  | element name _ content => name :: allNames content

def allNames : List Markup → List String
  | [] => []
  | m :: rest => names m ++ allNames rest

end

theorem allNames_eq (ms : List Markup) : allNames ms = ms.flatMap names := by
  induction ms with
  | nil => rfl
  | cons m ms ih => rw [allNames, ih, List.flatMap_cons]

end Markup

end DiagramScript
