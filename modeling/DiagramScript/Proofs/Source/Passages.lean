import DiagramScript.Proofs.Source.Lines
import DiagramScript.Proofs.Statement.OneLine

/-
  The lines of a source and the instructions that come from them.

  The lines of a source fall into passages: statements outside blocks, and blocks with their
  headers and the lines inside (`passages`). An accepted source gives the instructions of its
  passages one after the other (`instructions_passages`): a statement outside a block is read
  by itself; a statement inside a block is read without a position and then moved to the
  corner that the layout gives its box. So each statement line gives one instruction, in the
  order of the lines, and no other line gives any.
-/

namespace DiagramScript

namespace Source

/-- A line of a source: its number, counted from 1, and what is left of it without its comment
and the blanks around the rest. -/
structure Line where
  number : Nat
  text : List Char
  deriving DecidableEq, Repr

namespace Line

def ofNumbered (line : String × Nat) : Line := ⟨line.2, statementText line.1⟩

/-- The number of the line as its instruction carries it. -/
def place (l : Line) : LineNumber := some l.number

/-- Whether a line holds a statement: it is not blank, no header, and closes no block. -/
def isStatement (l : Line) : Bool :=
  !l.text.isEmpty && !(Block.mode? l.text).isSome && !decide (l.text = [']'])

theorem isStatement_iff {l : Line} : l.isStatement = true ↔
    l.text ≠ [] ∧ (Block.mode? l.text).isSome = false ∧ l.text ≠ [']'] := by
  simp [isStatement, and_assoc]

end Line

/-- The lines of a source. -/
def lines (text : String) : List Line := ((Text.sourceLines text).zipIdx 1).map .ofNumbered

/-- A statement outside every block, or a block with its header and the lines inside that are
not blank. -/
inductive Passage where
  | statement (l : Line)
  | block (header : Line) (body : List Line)

/-- The lines of a passage that hold statements. -/
def Passage.statements : Passage → List Line
  | .statement l => [l]
  | .block _ body => body

/-- Groups lines into passages. A block that is open comes with its header and the lines
inside so far; one that no line closes is no passage. -/
def passages : Option (Line × List Line) → List Line → List Passage
  | _, [] => []
  | none, l :: ls =>
    if l.text.isEmpty then passages none ls
    else if (Block.mode? l.text).isSome then passages (some (l, [])) ls
    else .statement l :: passages none ls
  | some (header, body), l :: ls =>
    if l.text.isEmpty then passages (some (header, body)) ls
    else if l.text = [']'] then .block header body :: passages none ls
    else passages (some (header, body ++ [l])) ls

section Passages
variable {l header : Line} {body ls : List Line}

theorem passages_blank (o : Option (Line × List Line)) (hblank : l.text = []) :
    passages o (l :: ls) = passages o ls := by
  rcases o with - | ⟨header, body⟩ <;> simp [passages, hblank]

theorem passages_header (hmode : (Block.mode? l.text).isSome) :
    passages none (l :: ls) = passages (some (l, [])) ls := by
  simp [passages, hmode, Block.ne_nil_of_mode? hmode]

theorem passages_statement (hblank : l.text ≠ []) (hmode : (Block.mode? l.text).isSome = false) :
    passages none (l :: ls) = .statement l :: passages none ls := by
  simp [passages, hblank, hmode]

theorem passages_nested (hblank : l.text ≠ []) (hclose : l.text ≠ [']']) :
    passages (some (header, body)) (l :: ls) = passages (some (header, body ++ [l])) ls := by
  simp [passages, hblank, hclose]

theorem passages_close (hclose : l.text = [']']) :
    passages (some (header, body)) (l :: ls) = .block header body :: passages none ls := by
  simp [passages, hclose]

end Passages

/-- A statement inside a block, which may have no position. -/
def Nested (l : Line) (i : ShapeInstruction) : Prop :=
  Statement.ofText l.text l.place false = .ok (.shape i)

/-- The instructions of a passage. In a block each shape gets a box, the layout of the block
gives the boxes their corners, and the instruction of a box is moved to its corner. -/
inductive Passage.Reads : Passage → List Instruction → Prop where
  | statement {l : Line} {i : Instruction} (h : Statement.ofText l.text l.place true = .ok i) :
    Reads (.statement l) [i]
  | block {header : Line} {body : List Line} {b : Block} {nested : List ShapeInstruction}
    {boxes : List (Box ShapeInstruction)} {placed : List (Placed ShapeInstruction)}
    (hheader : Block.header header.text header.place = .ok b)
    (hbody : List.Forall₂ Nested body nested)
    (hboxes : nested.mapM Block.boxOf = .ok boxes)
    (hpayload : boxes.map (·.payload) = nested)
    (hplaced : b.place boxes = .ok placed)
    (hbox : placed.map (·.box) = boxes) :
    Reads (.block header body) (placed.map fun p => .shape (p.box.payload.moveTo p.corner))

theorem payload_mem {nested : List ShapeInstruction} {boxes : List (Box ShapeInstruction)}
    {placed : List (Placed ShapeInstruction)} (hpayload : boxes.map (·.payload) = nested)
    (hbox : placed.map (·.box) = boxes) {q : Placed ShapeInstruction} (hq : q ∈ placed) :
    q.box.payload ∈ nested := by
  rw [← hpayload, ← hbox, List.map_map]
  exact List.mem_map_of_mem hq

/-! ## Reading line by line -/

/-- How accepted lines are read, given the block that is open. -/
inductive Reads : Option Block → List Line → List Instruction → Prop where
  | done : Reads none [] []
  | blank {b : Option Block} {l : Line} {ls : List Line} {is : List Instruction}
    (hblank : l.text = []) (h : Reads b ls is) : Reads b (l :: ls) is
  | header {b : Block} {l : Line} {ls : List Line} {is : List Instruction}
    (hmode : (Block.mode? l.text).isSome) (hheader : Block.header l.text l.place = .ok b)
    (h : Reads (some b) ls is) : Reads none (l :: ls) is
  | statement {l : Line} {ls : List Line} {i : Instruction} {is : List Instruction}
    (hblank : l.text ≠ []) (hmode : (Block.mode? l.text).isSome = false)
    (hi : Statement.ofText l.text l.place true = .ok i) (h : Reads none ls is) :
    Reads none (l :: ls) (i :: is)
  | nested {b : Block} {l : Line} {ls : List Line} {i : ShapeInstruction}
    {is : List Instruction} (hblank : l.text ≠ []) (hclose : l.text ≠ [']'])
    (hmode : (Block.mode? l.text).isSome = false) (hi : Nested l i)
    (h : Reads (some (b.push i)) ls is) : Reads (some b) (l :: ls) is
  | close {b : Block} {l : Line} {ls : List Line} {shapes : List ShapeInstruction}
    {is : List Instruction} (hclose : l.text = [']']) (hexpand : b.expand = .ok shapes)
    (h : Reads none ls is) : Reads (some b) (l :: ls) (shapes.map .shape ++ is)

theorem reads_of_readLines {ls : List String} {b : Option Block} {k : Nat}
    {is : List Instruction} (h : readLines b k ls = .ok is) :
    Reads b ((ls.zipIdx k).map .ofNumbered) is := by
  -- By induction on the lines, each of which is one of the five kinds.
  induction ls generalizing b k is with
  | nil =>
    cases b with
    | none => cases h; exact .done
    | some b => cases h
  | cons line ls ih =>
    rw [List.zipIdx_cons, List.map_cons]
    obtain ⟨js, c, ks, hline, hrest, rfl⟩ := readLines_cons_eq_ok.mp h
    have hreads : Reads c ((ls.zipIdx (k + 1)).map .ofNumbered) ks := ih hrest
    cases lineStep_of_readLine hline with
    | blank hblank => exact .blank hblank hreads
    | header hmode hheader => exact .header hmode hheader hreads
    | statement hblank hmode hi => exact .statement hblank hmode hi hreads
    | nested hblank hclose hmode hi => exact .nested hblank hclose hmode hi hreads
    | close hclose hexpand => exact .close hclose hexpand hreads

/-- A block is open behind its header and the statements inside so far. -/
inductive Open : Option Block → Option (Line × List Line) → Prop where
  | outside : Open none none
  | inside {header : Line} {body : List Line} {b : Block} {nested : List ShapeInstruction}
    (hheader : Block.header header.text header.place = .ok b)
    (hbody : List.Forall₂ Nested body nested) :
    Open (some { b with nested }) (some (header, body))

theorem Open.header {l : Line} {b : Block} (h : Block.header l.text l.place = .ok b) :
    Open (some b) (some (l, [])) := by
  have hb : b = { b with nested := [] } := by
    obtain ⟨c, rfl⟩ := (Block.header_oneLine l.text).ok_put h
    rfl
  rw [hb]
  exact .inside h .nil

/-- Accepted lines are read passage by passage. -/
theorem Reads.passages {b : Option Block} {ls : List Line} {is : List Instruction}
    (h : Reads b ls is) {o : Option (Line × List Line)} (ho : Open b o) :
    ∃ parts, List.Forall₂ Passage.Reads (passages o ls) parts ∧ is = parts.flatten := by
  -- By induction on the reading, along which a block stays open in the reader and in the cut alike.
  induction h generalizing o with
  | done =>
    cases ho with
    | outside => exact ⟨[], .nil, rfl⟩
  | blank hblank h ih =>
    rw [passages_blank o hblank]
    exact ih ho
  | header hmode hheader h ih =>
    cases ho with
    | outside =>
      rw [passages_header hmode]
      exact ih (.header hheader)
  | statement hblank hmode hi h ih =>
    cases ho with
    | outside =>
      obtain ⟨parts, hparts, rfl⟩ := ih .outside
      rw [passages_statement hblank hmode]
      exact ⟨_ :: parts, .cons (.statement hi) hparts, rfl⟩
  | nested hblank hclose hmode hi h ih =>
    cases ho with
    | @inside _ _ c _ hheader hbody =>
      rw [passages_nested hblank hclose]
      exact ih (@Open.inside _ _ c _ hheader (List.rel_append hbody (.cons hi .nil)))
  | close hclose hexpand h ih =>
    cases ho with
    | inside hheader hbody =>
      obtain ⟨parts, hparts, rfl⟩ := ih .outside
      obtain ⟨boxes, placed, hboxes, hplaced, hpayload, hbox, rfl⟩ := Block.expand_eq_ok hexpand
      rw [passages_close hclose]
      refine ⟨_ :: parts, .cons (.block hheader hbody hboxes hpayload hplaced hbox) hparts, ?_⟩
      rw [List.map_map, List.flatten_cons]
      rfl

theorem ofText_close {line : LineNumber} {allowPosition : Bool} {i : Instruction} :
    Statement.ofText [']'] line allowPosition ≠ .ok i := by
  intro h
  cases h

/-- The statements of the passages are the lines that hold statements. -/
theorem Reads.statements {b : Option Block} {ls : List Line} {is : List Instruction}
    (h : Reads b ls is) {o : Option (Line × List Line)} (ho : Open b o) :
    (Source.passages o ls).flatMap Passage.statements =
      (o.map (·.2)).getD [] ++ ls.filter Line.isStatement := by
  -- By the same induction; the open block holds the statements that were read already.
  induction h generalizing o with
  | done =>
    cases ho with
    | outside => rfl
  | blank hblank h ih =>
    have hline := mt Line.isStatement_iff.mp fun hl => hl.1 hblank
    rw [passages_blank o hblank, List.filter_cons_of_neg hline]
    exact ih ho
  | header hmode hheader h ih =>
    cases ho with
    | outside =>
      have hline := mt Line.isStatement_iff.mp fun hl => Bool.eq_false_iff.mp hl.2.1 hmode
      rw [passages_header hmode, List.filter_cons_of_neg hline]
      exact ih (.header hheader)
  | statement hblank hmode hi h ih =>
    cases ho with
    | outside =>
      have hline := Line.isStatement_iff.mpr ⟨hblank, hmode, fun h => ofText_close (h ▸ hi)⟩
      rw [passages_statement hblank hmode, List.filter_cons_of_pos hline]
      exact congrArg (_ :: ·) (ih .outside)
  | nested hblank hclose hmode hi h ih =>
    cases ho with
    | @inside _ body c _ hheader hbody =>
      have hline := Line.isStatement_iff.mpr ⟨hblank, hmode, hclose⟩
      rw [passages_nested hblank hclose, List.filter_cons_of_pos hline]
      refine (ih (@Open.inside _ _ c _ hheader (List.rel_append hbody (.cons hi .nil)))).trans ?_
      exact List.append_assoc body [_] _
  | close hclose hexpand h ih =>
    cases ho with
    | inside hheader hbody =>
      have hline := mt Line.isStatement_iff.mp fun hl => hl.2.2 hclose
      rw [passages_close hclose, List.filter_cons_of_neg hline]
      exact congrArg (_ ++ ·) (ih .outside)

theorem lines_of_nested {body : List Line} {nested : List ShapeInstruction}
    (h : List.Forall₂ Nested body nested) : nested.map (·.line) = body.map (·.place) := by
  induction h with
  | nil => rfl
  | cons hi _ ih => rw [List.map_cons, List.map_cons, ih, ← Statement.line_of_ofText hi]; rfl

theorem Passage.Reads.lines {p : Passage} {part : List Instruction} (h : p.Reads part) :
    part.map (·.line) = p.statements.map (·.place) := by
  cases h with
  | statement h => exact congrArg (fun line => [line]) (Statement.line_of_ofText h)
  | @block _ body _ nested boxes placed _ hbody _ hpayload _ hbox =>
    calc (placed.map fun p => Instruction.shape (p.box.payload.moveTo p.corner)).map (·.line)
        = ((placed.map (·.box)).map (·.payload)).map (·.line) := by
          simp only [List.map_map]
          rfl
      _ = nested.map (·.line) := by rw [hbox, hpayload]
      _ = body.map (·.place) := lines_of_nested hbody

theorem lines_of_parts {ps : List Passage} {parts : List (List Instruction)}
    (h : List.Forall₂ Passage.Reads ps parts) :
    parts.flatten.map (·.line) = (ps.flatMap Passage.statements).map (·.place) := by
  induction h with
  | nil => rfl
  | cons hpart _ ih =>
    rw [List.flatten_cons, List.map_append, List.flatMap_cons, List.map_append, ← hpart.lines, ih]

theorem lines_ascending (text : String) : (lines text).Pairwise (·.number < ·.number) := by
  unfold lines
  rw [List.pairwise_map]
  have hnumbers := List.pairwise_lt_range' (s := 1) (n := (Text.sourceLines text).length)
  rw [← List.zipIdx_map_snd, List.pairwise_map] at hnumbers
  exact hnumbers

/-- An accepted source gives the instructions of its passages, one passage after the other.
The statements of the passages are the lines that are not blank, no headers and no closing
brackets; the instructions carry their numbers, which ascend. -/
theorem instructions_passages {text : String} {is : List Instruction}
    (h : instructions text = .ok is) :
    let statements := (lines text).filter Line.isStatement
    (∃ parts, List.Forall₂ Passage.Reads (passages none (lines text)) parts ∧
        is = parts.flatten) ∧
      (passages none (lines text)).flatMap Passage.statements = statements ∧
        is.map (·.line) = statements.map (·.place) ∧
          statements.Pairwise (·.number < ·.number) := by
  intro statements
  have hreads : Reads none (lines text) is := reads_of_readLines h
  obtain ⟨parts, hparts, rfl⟩ := hreads.passages .outside
  have hstatements : (passages none (lines text)).flatMap Passage.statements = statements :=
    hreads.statements .outside
  refine ⟨⟨parts, hparts, rfl⟩, hstatements, ?_, (lines_ascending text).filter _⟩
  rw [← hstatements, lines_of_parts hparts]

/-- Comments, blank lines, an arrow, a stack and a grid: the four statements of these twelve
lines come back with the numbers of their lines. -/
theorem instructions_passages_mixed :
    let text := "# two blocks\nrect 0,0 \"A\"\n\nstack horizontal 5,5 gap=1 [\n  rect \"B\" # b\n\n]\n" ++
      "Grid 0,90 cols=2 gap=4 [\nnote \"C\"\n]\n# end\narrow A -> B"
    ∃ is, instructions text = .ok is ∧
      is.map (·.line) = [some 2, some 5, some 9, some 12] := by
  intro text
  cases h : instructions text with
  | error e =>
    have hok : (instructions text).isOk = true := by decide +kernel
    rw [h] at hok
    cases hok
  | ok is =>
    refine ⟨is, rfl, ?_⟩
    obtain ⟨-, -, hlines, -⟩ := instructions_passages h
    rw [hlines]
    decide +kernel

end Source

end DiagramScript
