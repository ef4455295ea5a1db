import DiagramScript.Number.Arithmetic
import DiagramScript.Text.Letter

/-
  Trees of markup elements and their text.

  An element has attributes in the order of their names, none of them empty, then text and
  child elements. `write` is the only place where a tree becomes text, and it escapes every
  text and every attribute value. Half of a surrogate pair, which has no encoding, is written
  as a reference to its number. A tree is written only if all numbers in it can be written
  (`isWritable`).
-/

namespace DiagramScript.Svg

/-- The value of an attribute: a text, or a number that is written with the tree. -/
inductive Attribute where
  | text (s : String)
  | number (v : Scalar)
  deriving DecidableEq, Repr

namespace Attribute

instance : Coe String Attribute := ⟨text⟩

def isEmpty : Attribute → Bool
  | text s => s.isEmpty
  | number _ => false

/-- Whether a value can be written. -/
def isWritable : Attribute → Bool
  | text _ => true
  | number v => v.isWritable

/-- A value as it stands in a tree; a whole number has no point. -/
def write : Attribute → String
  | text s => s
  | number v => v.simplify.write

end Attribute

inductive Element where
  | node (name : String) (attributes : List (String × Attribute)) (text : String)
      (children : List Element)
  deriving Repr

namespace Element

/-- Puts an attribute in front of the first one with a greater name. -/
def insertAttribute (a : String × Attribute) :
    List (String × Attribute) → List (String × Attribute)
  | [] => [a]
  | b :: rest => if b.1 < a.1 then b :: insertAttribute a rest else a :: b :: rest

/-- Attributes in the order of their names, without the empty ones. -/
def arrange (attributes : List (String × Attribute)) : List (String × Attribute) :=
  (attributes.filter (! ·.2.isEmpty)).foldr insertAttribute []

/-- An element with child elements. -/
def group (name : String) (attributes : List (String × Attribute))
    (children : List Element) : Element :=
  .node name (arrange attributes) "" children

/-- An element with text. -/
def leaf (name : String) (attributes : List (String × Attribute)) (text : String) :
    Element :=
  .node name (arrange attributes) text []

/-- The escape of a character of text. -/
def escapeTextChar (c : Char) : List Char :=
  if c = '&' then ['&', 'a', 'm', 'p', ';']
  else if c = '<' then ['&', 'l', 't', ';']
  else if c = '>' then ['&', 'g', 't', ';']
  else (Text.Letter.char c).chars

/-- The escape of a character of an attribute value. -/
def escapeValueChar (c : Char) : List Char :=
  if c = '"' then ['&', 'q', 'u', 'o', 't', ';']
  else if c = '\r' then ['&', '#', '1', '3', ';']
  else if c = '\n' then ['&', '#', '1', '0', ';']
  else if c = '\t' then ['&', '#', '0', '9', ';']
  else escapeTextChar c

/-- Letters, each character by its escape and half of a pair by its number. -/
def escapeLetters (escape : Char → List Char) (s : String) : List Char :=
  (Text.letters s.toList).flatMap fun
    | .char c => escape c
    | .half n => '&' :: '#' :: ((toString (Text.Letter.half n).code).toList ++ [';'])

def escapeText : String → List Char := escapeLetters escapeTextChar

def escapeValue : String → List Char := escapeLetters escapeValueChar

def writeAttribute (a : String × Attribute) : List Char :=
  ' ' :: (a.1.toList ++ '=' :: '"' :: (escapeValue a.2.write ++ ['"']))

mutual

/-- The text of an element. One without text and children is a single tag. -/
def write : Element → List Char
  | .node name attributes text children =>
    let start := '<' :: (name.toList ++ attributes.flatMap writeAttribute)
    if text.isEmpty && children.isEmpty then start ++ [' ', '/', '>']
    else
      start ++ '>' :: (escapeText text ++ writeAll children ++
        '<' :: '/' :: (name.toList ++ ['>']))

/-- The text of elements one behind the other. -/
def writeAll : List Element → List Char
  | [] => []
  | e :: rest => write e ++ writeAll rest

end

mutual

/-- Whether all numbers of an element can be written. -/
def isWritable : Element → Bool
  | .node _ attributes _ children =>
    attributes.all (·.2.isWritable) && areWritable children

/-- Whether all numbers of some elements can be written. -/
def areWritable : List Element → Bool
  | [] => true
  | e :: rest => isWritable e && areWritable rest

end

end Element

end DiagramScript.Svg
