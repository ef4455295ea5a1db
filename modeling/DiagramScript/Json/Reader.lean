import DiagramScript.Json.Value
import DiagramScript.Number.Numeral
import DiagramScript.Number.Arithmetic

/-
  Reading of JSON texts.

  The reader follows the data format, and also takes the words `NaN`, `Infinity` and
  `-Infinity`. Control characters inside a string are refused, and of two entries with one
  key the later one counts. A whole number past the limit of digits is a fault of its own,
  and so are lists and objects nested deeper than the reader has room for: how much room the
  stack leaves depends on who calls the reader. Every value and every character of a string
  uses up a character of the text, so twice its length bounds the number of steps.
  A half of a pair may be escaped alone; the texts that are read are in letters.
-/

namespace DiagramScript.Json

/-- A text that is not JSON. -/
def malformed {α : Type} : Except Fault α := .error (.parse .notJson none)

def isSpace (c : Char) : Bool := c == ' ' || c == '\t' || c == '\n' || c == '\r'

def skipSpace (cs : List Char) : List Char := cs.dropWhile isSpace

/-! ## Strings -/

/-- The value of a digit of base sixteen. -/
def hexDigit? (c : Char) : Option Nat :=
  if '0' ≤ c ∧ c ≤ '9' then some (c.toNat - '0'.toNat)
  else if 'a' ≤ c ∧ c ≤ 'f' then some (c.toNat - 'a'.toNat + 10)
  else if 'A' ≤ c ∧ c ≤ 'F' then some (c.toNat - 'A'.toNat + 10)
  else none

/-- The number that four digits of base sixteen write, and what follows them. -/
def hexFour? : List Char → Option (Nat × List Char)
  | a :: b :: c :: d :: rest => do
    let a ← hexDigit? a
    let b ← hexDigit? b
    let c ← hexDigit? c
    let d ← hexDigit? d
    some (((a * 16 + b) * 16 + c) * 16 + d, rest)
  | _ => none

/-- The character of a high half and the low half behind it. -/
def ofPair (high low : Nat) : Char :=
  Char.ofNat (0x10000 + (high - 0xD800) * 0x400 + (low - 0xDC00))

/-- The letter of a numeric escape and what follows it. Two escapes that write the two
halves of a pair are one character. -/
def numericEscape? (cs : List Char) : Option (Text.Letter × List Char) :=
  match hexFour? cs with
  | none => none
  | some (high, rest) =>
    let alone := some (Text.Letter.ofCode high, rest)
    if 0xD800 ≤ high ∧ high < 0xDC00 then
      match rest with
      | '\\' :: 'u' :: more =>
        match hexFour? more with
        | some (low, rest) =>
          if 0xDC00 ≤ low ∧ low < 0xE000 then
            some (.char (ofPair high low), rest)
          else alone
        | none => alone
      | _ => alone
    else alone

/-- The character that a letter behind a backslash stands for. -/
def plainEscape? (c : Char) : Option Char :=
  match c with
  | '"' => some '"'
  | '\\' => some '\\'
  | '/' => some '/'
  | 'b' => some '\x08'
  | 'f' => some '\x0C'
  | 'n' => some '\n'
  | 'r' => some '\r'
  | 't' => some '\t'
  | _ => none

/-- The characters of a string up to its closing quote, and what follows it; at most `fuel`
steps are taken. -/
def stringBody : Nat → List Char → Except Fault (List Char × List Char)
  | 0, _ => malformed
  | _ + 1, [] => malformed
  | _ + 1, '"' :: rest => .ok ([], rest)
  | fuel + 1, '\\' :: 'u' :: rest =>
    match numericEscape? rest with
    | none => malformed
    | some (l, rest) => do
      let (cs, rest) ← stringBody fuel rest
      .ok (l.chars ++ cs, rest)
  | fuel + 1, '\\' :: e :: rest =>
    match plainEscape? e with
    | none => malformed
    | some c => do
      let (cs, rest) ← stringBody fuel rest
      .ok (c :: cs, rest)
  | fuel + 1, c :: rest =>
    if c.toNat < 0x20 || c == '\\' then malformed
    else do
      let (cs, rest) ← stringBody fuel rest
      .ok (c :: cs, rest)

/-! ## Numbers -/

/-- The part of a number behind a point, with the point; empty where no digit follows. -/
def fractionPart (cs : List Char) : List Char :=
  match cs with
  | '.' :: rest =>
    let ds := rest.takeWhile Text.isBasicDigit
    if ds.isEmpty then [] else '.' :: ds
  | _ => []

/-- The exponent of a number, with its letter; empty where no digit follows. -/
def exponentPart (cs : List Char) : List Char :=
  match cs with
  | e :: rest =>
    if e = 'e' ∨ e = 'E' then
      let sign := match rest with
        | '+' :: _ => ['+']
        | '-' :: _ => ['-']
        | _ => []
      let ds := (rest.drop sign.length).takeWhile Text.isBasicDigit
      if ds.isEmpty then [] else e :: (sign ++ ds)
    else []
  | [] => []

/-- A whole number, unless it has too many digits. -/
def wholeNumber (negative : Bool) (ds : List Char) : Except Fault Value :=
  if digitLimit < ds.length then (ArithmeticProblem.tooManyDigits ds.length).fail
  else
    let n : Int := Decimal.value (ds.filterMap Decimal.basicDigit?)
    .ok (.number (.whole (if negative then -n else n)))

/-- A number behind its sign, and what follows it. -/
def number (negative : Bool) (cs : List Char) : Except Fault (Value × List Char) :=
  let run := match cs with
    | '0' :: _ => ['0']
    | _ => cs.takeWhile Text.isBasicDigit
  if run.isEmpty then malformed
  else
    let rest := cs.drop run.length
    let part := fractionPart rest
    let rest := rest.drop part.length
    let power := exponentPart rest
    let rest := rest.drop power.length
    if part.isEmpty && power.isEmpty then do
      let n ← wholeNumber negative run
      .ok (n, rest)
    else
      let text := (if negative then ['-'] else []) ++ run ++ part ++ power
      .ok (.number (.real ((Binary64.read? text).getD .nan)), rest)

/-! ## Values -/

/-- The words that stand for values. -/
def words : List (List Char × Value) := [
  (['n', 'u', 'l', 'l'], .null),
  (['t', 'r', 'u', 'e'], .bool true),
  (['f', 'a', 'l', 's', 'e'], .bool false),
  (['N', 'a', 'N'], .number (.real .nan)),
  (['I', 'n', 'f', 'i', 'n', 'i', 't', 'y'], .number (.real (.infinite false))),
  (['-', 'I', 'n', 'f', 'i', 'n', 'i', 't', 'y'], .number (.real (.infinite true)))]

/-- A word at the start of a text, and what follows it. -/
def word? (cs : List Char) : Option (Value × List Char) :=
  words.findSome? fun (w, v) => if w.isPrefixOf cs then some (v, cs.drop w.length) else none

/-- The room for nested values that a list or an object leaves, which has to be there. -/
def nested (room : Nat) : Except Fault Nat :=
  match room with
  | room + 1 => .ok room
  | 0 => .error .tooDeep

mutual

/-- A value at the start of a text, and what follows it; lists and objects may be nested as
deep as there is room. -/
def value : Nat → Nat → List Char → Except Fault (Value × List Char)
  | 0, _, _ => malformed
  | fuel + 1, room, cs =>
    match cs with
    | '"' :: rest => do
      let (s, rest) ← stringBody (fuel + 1) rest
      .ok (.text (String.ofList s), rest)
    | '[' :: rest => do
      let room ← nested room
      match skipSpace rest with
      | ']' :: rest => .ok (.list [], rest)
      | rest => do
        let (items, rest) ← elements fuel room rest
        .ok (.list items, rest)
    | '\x7b' :: rest => do
      let room ← nested room
      match skipSpace rest with
      | '\x7d' :: rest => .ok (.object [], rest)
      | rest => do
        let (entries, rest) ← members fuel room [] rest
        .ok (.object entries, rest)
    | cs =>
      match word? cs, cs with
      | some found, _ => .ok found
      | none, '-' :: rest => number true rest
      | none, rest => number false rest

/-- The items of a list up to its closing bracket, and what follows it. -/
def elements : Nat → Nat → List Char → Except Fault (List Value × List Char)
  | 0, _, _ => malformed
  | fuel + 1, room, cs => do
    let (v, rest) ← value fuel room cs
    match skipSpace rest with
    | ']' :: rest => .ok ([v], rest)
    | ',' :: rest => do
      let (vs, rest) ← elements fuel room (skipSpace rest)
      .ok (v :: vs, rest)
    | _ => malformed

/-- The entries of an object up to its closing brace, behind those read before, and what
follows it. -/
def members : Nat → Nat → List (String × Value) → List Char →
    Except Fault (List (String × Value) × List Char)
  | 0, _, _, _ => malformed
  | fuel + 1, room, before, cs =>
    match cs with
    | '"' :: rest => do
      let (key, rest) ← stringBody (fuel + 1) rest
      match skipSpace rest with
      | ':' :: rest => do
        let (v, rest) ← value fuel room (skipSpace rest)
        let entries := Value.setEntry (String.ofList key) v before
        match skipSpace rest with
        | '\x7d' :: rest => .ok (entries, rest)
        | ',' :: rest => members fuel room entries (skipSpace rest)
        | _ => malformed
      | _ => malformed
    | _ => malformed

end

/-- Reads a text that holds one value, in which lists and objects are nested as deep as there is
room on the stack of the caller. By default there is as much room as the text has characters. -/
def read (text : String) (room : Nat := text.length) : Except Fault Value := do
  let cs := text.toList
  let (v, rest) ← value (2 * cs.length + 2) room (skipSpace cs)
  if (skipSpace rest).isEmpty then .ok v else malformed

end DiagramScript.Json
