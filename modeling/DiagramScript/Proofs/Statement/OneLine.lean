import DiagramScript.Proofs.Outcome
import DiagramScript.Source

/-
  Readers of one line.

  A reader of one line is told the number of its line. That number comes back in what it
  reads and in its complaint, and nothing else depends on it (`OneLine`). So a statement or
  a header that is moved to another line gives the same instruction or the same block with
  another number, or is refused for the same reason at another line.
-/

namespace DiagramScript

/-- The instruction of the same statement on another line. -/
def Instruction.onLine (line : LineNumber) : Instruction → Instruction
  | .shape i => .shape { i with line }
  | .connector i => .connector { i with line }

@[simp] theorem Instruction.line_onLine (line : LineNumber) (i : Instruction) :
    (i.onLine line).line = line := by
  cases i <;> rfl

/-- The block of the same header on another line. A header comes without shapes. -/
def Block.onLine (line : LineNumber) (b : Block) : Block := { b with nested := [], line }

/-- A reader that is told its line, whose value takes the number of the line by `put`. It
reads the same value on every line, or makes the same complaint about every line, or fails
in the same computation. -/
inductive OneLine {α : Type} (put : LineNumber → α → α) (read : LineNumber → Except Fault α) :
    Prop where
  | value (a : α) (h : ∀ line, read line = .ok (put line a))
  | complaint (p : ParseProblem) (h : ∀ line, read line = .error (.parse p line))
  | arithmetic (p : ArithmeticProblem) (h : ∀ line, read line = .error (.arithmetic p))

/-- A reader of one line whose value does not tell the line. -/
abbrev Unlined {α : Type} (read : LineNumber → Except Fault α) : Prop := OneLine (fun _ a => a) read

namespace OneLine
variable {α β : Type} {put : LineNumber → α → α}

theorem constant (a : α) : Unlined fun _ => .ok a := value a fun _ => rfl

theorem refuse (p : ParseProblem) : OneLine put fun line => .error (p.on line) :=
  complaint p fun _ => rfl

theorem bind {x : LineNumber → Except Fault β} {f : β → LineNumber → Except Fault α}
    (hx : Unlined x) (hf : ∀ b, OneLine put (f b)) :
    OneLine put fun line => x line >>= fun b => f b line := by
  cases hx with
  | value b h =>
    have heq : (fun line => x line >>= fun b => f b line) = f b := by
      funext line
      rw [h line]
      rfl
    exact heq ▸ hf b
  | complaint p h => exact complaint p fun line => by rw [h line]; rfl
  | arithmetic p h => exact arithmetic p fun line => by rw [h line]; rfl

theorem map {x : LineNumber → Except Fault β} {f : β → α} (hx : Unlined x) :
    Unlined fun line => f <$> x line := by
  cases hx with
  | value b h => exact value (f b) fun line => by rw [h line]; rfl
  | complaint p h => exact complaint p fun line => by rw [h line]; rfl
  | arithmetic p h => exact arithmetic p fun line => by rw [h line]; rfl

/-- What is read on one line is read on every other line, with that line put in. -/
theorem ok_everywhere {read : LineNumber → Except Fault α} (h : OneLine put read)
    {line : LineNumber} {a : α} (hread : read line = .ok a) :
    ∃ b, a = put line b ∧ ∀ other, read other = .ok (put other b) := by
  cases h with
  | value b hb =>
    rw [hb line] at hread
    cases hread
    exact ⟨b, rfl, hb⟩
  | complaint p hp => rw [hp line] at hread; cases hread
  | arithmetic p hp => rw [hp line] at hread; cases hread

/-- What is read on a line is the value of some reading with that line put in. -/
theorem ok_put {read : LineNumber → Except Fault α} (h : OneLine put read) {line : LineNumber}
    {a : α} (hread : read line = .ok a) : ∃ b, a = put line b := by
  obtain ⟨b, ha, -⟩ := h.ok_everywhere hread
  exact ⟨b, ha⟩

end OneLine

/-! ## Numbers and options -/

namespace Measure

theorem number_unlined (what : String) (cs : List Char) : Unlined (number what cs) := by
  unfold number
  split
  · split
    · exact .constant _
    · exact .refuse _
  · exact .refuse _

theorem position_unlined (text : String) : Unlined (position text) := by
  unfold position
  split
  · exact .refuse _
  · exact .bind (number_unlined _ _) fun _ => .bind (number_unlined _ _) fun _ => .constant _

theorem size_unlined (text : String) : Unlined (size text) := by
  unfold size
  split
  · exact .refuse _
  · refine .bind (number_unlined _ _) fun w => .bind (number_unlined _ _) fun h => ?_
    cases w.le 0 || h.le 0
    · exact .constant _
    · exact .refuse _

end Measure

namespace Options

theorem split_unlined (t : Token) : Unlined (split t) := by
  unfold split
  dsimp only
  split
  · exact .refuse _
  · split
    · exact .refuse _
    · exact .constant _

theorem step_unlined (allowed : List String) (options : Options) (t : Token) :
    Unlined fun line => step allowed line options t := by
  unfold step
  split
  · refine .bind (split_unlined t) fun entry => ?_
    cases allowed.contains entry.1
    · exact .refuse _
    · exact .constant _
  · exact .refuse _

theorem collect_unlined (tokens : List Token) (allowed : List String) :
    Unlined (collect tokens allowed) := by
  -- Over the options that were read before, which the fold carries along.
  have hfold (options : Options) :
      Unlined fun line => tokens.foldlM (step allowed line) options := by
    induction tokens generalizing options with
    | nil => exact .constant _
    | cons t tokens ih =>
      simp only [List.foldlM_cons]
      exact .bind (step_unlined allowed options t) ih
  exact hfold []

end Options

theorem Style.checked_unlined (key : String) (allowed : List String) (value : Option String) :
    Unlined (checked key allowed value) := by
  unfold checked
  split
  · exact .constant _
  · split
    · exact .constant _
    · exact .refuse _

theorem Style.ofOptions_unlined (get : String → Option String) : Unlined (ofOptions get) :=
  .bind (checked_unlined _ _ _) fun _ => .bind (checked_unlined _ _ _) fun _ =>
    .bind (checked_unlined _ _ _) fun _ => .bind (checked_unlined _ _ _) fun _ => .constant _

theorem SizeOption.read_unlined (value : String) (allowBox : Bool) :
    Unlined fun line => read value line allowBox := by
  unfold read
  split
  · exact .constant _
  · split
    · split
      · exact .map (Measure.size_unlined value)
      · exact .refuse _
    · split
      · exact .refuse _
      · exact .refuse _

/-! ## Statements -/

namespace Statement

theorem leadingPosition_unlined (words : List Token) (allowPosition : Bool) :
    Unlined fun line => leadingPosition words line allowPosition := by
  unfold leadingPosition
  split
  · split
    · split
      · exact .bind (Measure.position_unlined _) fun _ => .constant _
      · exact .refuse _
    · exact .constant _
  · exact .constant _

theorem leadingSize_unlined (words : List Token) : Unlined (leadingSize words) := by
  unfold leadingSize
  split
  · split
    · exact .bind (Measure.size_unlined _) fun _ => .constant _
    · exact .constant _
  · exact .constant _

theorem positionOption_unlined (options : Options) (allowPosition : Bool)
    (positional : Option Point) :
    Unlined fun line => positionOption options line allowPosition positional := by
  unfold positionOption
  split
  · exact .constant _
  · split
    · exact .map (Measure.position_unlined _)
    · exact .refuse _

theorem sizeOption_unlined (options : Options) (style : Style) (positional : Option Size) :
    Unlined fun line => sizeOption options line style positional := by
  unfold sizeOption
  split
  · exact .constant _
  · exact .bind (SizeOption.read_unlined _ true) fun _ => .constant _

theorem dimensionsOption_unlined (options : Options) : Unlined (dimensionsOption options) := by
  unfold dimensionsOption
  split
  · exact .constant _
  · exact .map (Measure.size_unlined _)

/-- A text goes to its place on an instruction whatever line that has. -/
theorem withText_line (i : ShapeInstruction) (line : LineNumber) (text : Option String) :
    ({ i with line } : ShapeInstruction).withText text = { i.withText text with line } := by
  unfold ShapeInstruction.withText
  split <;> rfl

theorem shape_oneLine (kind : Kind) (words : List Token) (allowPosition : Bool) :
    OneLine Instruction.onLine fun line => shape kind words line allowPosition := by
  unfold shape
  refine .bind (leadingPosition_unlined words allowPosition) fun (position, words) => ?_
  refine .bind (leadingSize_unlined words) fun (size, words) => ?_
  refine .bind (Options.collect_unlined _ _) fun options => ?_
  refine .bind (Style.ofOptions_unlined _) fun style => ?_
  refine .bind (positionOption_unlined _ _ _) fun position => ?_
  refine .bind (sizeOption_unlined _ _ _) fun (style, size) => ?_
  refine .bind (dimensionsOption_unlined _) fun dimensions => ?_
  dsimp only
  split
  · exact .refuse _
  · rename_i text _
    let i : ShapeInstruction :=
      { kind, position, size, dimensions, style, id := options.get? "id" }
    refine .value (.shape (i.withText text)) fun line => ?_
    rw [Instruction.onLine, ← withText_line]

theorem connector_oneLine (words : List Token) :
    OneLine Instruction.onLine (connector words) := by
  unfold connector
  dsimp only
  split
  · exact .refuse _
  · split
    · exact .refuse _
    · refine .bind (Options.collect_unlined _ _) fun options => ?_
      refine .bind (Style.ofOptions_unlined _) fun style => ?_
      let i (style : Style) : ConnectorInstruction :=
        { source := phrase (words.takeWhile (! isMarker ·))
          target := phrase
            (((words.dropWhile (! isMarker ·)).drop 1).takeWhile (! Options.isOption ·))
          label := options.get? "label", style, id := options.get? "id" }
      cases options.get? "size" with
      | none => exact .value (.connector (i style)) fun line => rfl
      | some value =>
        exact .bind (SizeOption.read_unlined value false) fun o =>
          .value (.connector (i (o.onStyle style))) fun line => rfl

/-- Tokens on another line are the same statement, or refused for the same reason. -/
theorem ofTokens_oneLine (tokens : List Token) (allowPosition : Bool) :
    OneLine Instruction.onLine fun line => ofTokens tokens line allowPosition := by
  unfold ofTokens
  split
  · exact .refuse _
  · split
    · exact connector_oneLine _
    · split
      · exact .refuse _
      · exact .refuse _
      · exact shape_oneLine _ _ _

/-- A text on another line is the same statement, or refused for the same reason. -/
theorem ofText_oneLine (text : List Char) (allowPosition : Bool) :
    OneLine Instruction.onLine fun line => ofText text line allowPosition := by
  refine .bind ?_ fun tokens => ofTokens_oneLine tokens allowPosition
  unfold Token.ofLine
  split
  · exact .constant _
  · exact .refuse _

/-- The instruction of a statement carries the line that it was read on. -/
theorem line_of_ofText {text : List Char} {line : LineNumber} {allowPosition : Bool}
    {i : Instruction} (h : ofText text line allowPosition = .ok i) : i.line = line := by
  obtain ⟨j, rfl⟩ := (ofText_oneLine text allowPosition).ok_put h
  exact Instruction.line_onLine line j

end Statement

/-! ## Headers -/

namespace Block

theorem header_oneLine (text : List Char) : OneLine Block.onLine (header text) := by
  unfold header
  dsimp only
  split
  · split
    · exact .refuse _
    · rename_i direction _ gap _
      refine .bind (Measure.position_unlined _) fun origin => ?_
      let arrangement := Arrangement.stack (String.ofList (Text.lowerChars direction))
      exact .value { mode := (mode? text).getD "", arrangement, origin, gap := decimal gap }
        fun line => rfl
  · split
    · exact .refuse _
    · rename_i columns gap _
      -- The count of columns is read without the line, and fails without it.
      have hcount : Unlined fun _ => wholeNumber columns := by
        unfold wholeNumber
        split
        · exact .arithmetic _ fun _ => rfl
        · exact .constant _
      refine .bind hcount fun n => ?_
      split
      · exact .refuse _
      · refine .bind (Measure.position_unlined _) fun origin => ?_
        exact .value
          { mode := (mode? text).getD "", arrangement := .grid n, origin, gap := decimal gap }
          fun line => rfl

end Block

end DiagramScript
