import DiagramScript.Block

/-
  Diagram sources: the instructions that a text holds.

  Lines are read in order. Outside a block a line is blank, a statement or the header of a
  block; inside a block it is blank, a nested statement or the closing line, at which the
  block is expanded in place.
-/

namespace DiagramScript.Source

/-- Reads lines, the first of which has the given number, with the block that is open. -/
def readLines : Option Block → Int → List String → Except Fault (List Instruction)
  | none, _, [] => .ok []
  | some b, _, [] => .error b.unterminated
  | none, n, line :: rest =>
    let text := statementText line
    if text.isEmpty then readLines none (n + 1) rest
    else if (Block.mode? text).isSome then do
      let b ← Block.header text (some n)
      readLines (some b) (n + 1) rest
    else do
      let i ← Statement.ofText text (some n) true
      let is ← readLines none (n + 1) rest
      .ok (i :: is)
  | some b, n, line :: rest => do
    match ← b.bodyLine line (some n) with
    | .blank => readLines (some b) (n + 1) rest
    | .nested i => readLines (some (b.push i)) (n + 1) rest
    | .close =>
      let placed ← b.expand
      let is ← readLines none (n + 1) rest
      .ok (placed.map .shape ++ is)

/-- The instructions of a source, in the order of their lines. -/
def instructions (text : String) : Except Fault (List Instruction) :=
  readLines none 1 (Text.sourceLines text)

end DiagramScript.Source
