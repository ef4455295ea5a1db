import DiagramScript.Proofs.Block
import DiagramScript.Source

/-
  Sources line by line.

  A line gives its instructions and leaves a block open or none (`readLine`), and the lines of a
  source are read one after the other (`readLines_cons`). So what every line keeps, a source
  keeps, and each theorem about the lines of a source is a lemma about one line and an induction.
-/

namespace DiagramScript.Source

variable {b c : Option Block} {n : Int} {line : String} {rest : List String}
  {is : List Instruction}

/-- The instructions of a line and the block that is open behind it, given the block that is open
in front of it. -/
def readLine (b : Option Block) (n : Int) (line : String) :
    Except Fault (List Instruction × Option Block) :=
  match b with
  | none =>
    let text := statementText line
    if text.isEmpty then .ok ([], none)
    else if (Block.mode? text).isSome then do
      let b ← Block.header text (some n)
      .ok ([], some b)
    else do
      let i ← Statement.ofText text (some n) true
      .ok ([i], none)
  | some b => do
    match ← b.bodyLine line (some n) with
    | .blank => .ok ([], some b)
    | .nested i => .ok ([], some (b.push i))
    | .close =>
      let placed ← b.expand
      .ok (placed.map .shape, none)

/-- The instructions of a line stand in front of those of the lines behind it. -/
theorem readLines_cons (b : Option Block) (n : Int) (line : String) (rest : List String) :
    readLines b n (line :: rest) = (do
      let (is, c) ← readLine b n line
      let js ← readLines c (n + 1) rest
      .ok (is ++ js)) := by
  -- A line without instructions of its own passes those behind it through.
  have hnothing (c : Option Block) : (do
      let js ← readLines c (n + 1) rest
      .ok ([] ++ js)) = readLines c (n + 1) rest := by
    cases readLines c (n + 1) rest <;> rfl
  cases b with
  | none =>
    simp only [readLines, readLine]
    split
    · exact (hnothing none).symm
    · split
      · rw [bind_assoc]
        exact congrArg (_ >>= ·) (funext fun c => (hnothing (some c)).symm)
      · rw [bind_assoc]
        rfl
  | some b =>
    simp only [readLines, readLine, bind_assoc]
    congr 1
    funext body
    cases body with
    | blank => exact (hnothing (some b)).symm
    | nested i => exact (hnothing (some (b.push i))).symm
    | close => rw [bind_assoc]; rfl

theorem readLines_cons_eq_ok :
    readLines b n (line :: rest) = .ok is ↔ ∃ js c ks, readLine b n line = .ok (js, c) ∧
      readLines c (n + 1) rest = .ok ks ∧ is = js ++ ks := by
  simp only [readLines_cons, Outcome.bind_eq_ok, Except.ok.injEq, Prod.exists]
  constructor
  · intro h
    obtain ⟨js, c, hline, ks, hrest, rfl⟩ := h
    exact ⟨js, c, ks, hline, hrest, rfl⟩
  · intro h
    obtain ⟨js, c, ks, hline, hrest, rfl⟩ := h
    exact ⟨js, c, hline, ks, hrest, rfl⟩

/-- What an accepted line is, with its instructions and the block that is open in front of it and
behind it. -/
inductive LineStep (text : List Char) (number : LineNumber) :
    Option Block → List Instruction → Option Block → Prop where
  | blank {b : Option Block} (hblank : text = []) : LineStep text number b [] b
  | header {b : Block} (hmode : (Block.mode? text).isSome)
    (hb : Block.header text number = .ok b) : LineStep text number none [] (some b)
  | statement {i : Instruction} (hblank : text ≠ []) (hmode : (Block.mode? text).isSome = false)
    (hi : Statement.ofText text number true = .ok i) : LineStep text number none [i] none
  | nested {b : Block} {i : ShapeInstruction} (hblank : text ≠ []) (hclose : text ≠ [']'])
    (hmode : (Block.mode? text).isSome = false)
    (hi : Statement.ofText text number false = .ok (.shape i)) :
    LineStep text number (some b) [] (some (b.push i))
  | close {b : Block} {shapes : List ShapeInstruction} (hclose : text = [']'])
    (hshapes : b.expand = .ok shapes) : LineStep text number (some b) (shapes.map .shape) none

theorem lineStep_of_readLine (h : readLine b n line = .ok (is, c)) :
    LineStep (statementText line) (some n) b is c := by
  cases b with
  | none =>
    simp only [readLine] at h
    split at h
    · rename_i hblank
      cases h
      exact .blank (List.isEmpty_iff.mp hblank)
    · rename_i hblank
      split at h
      · rename_i hmode
        obtain ⟨d, hd, h⟩ := Outcome.bind_eq_ok.mp h
        cases h
        exact .header hmode hd
      · rename_i hmode
        obtain ⟨i, hi, h⟩ := Outcome.bind_eq_ok.mp h
        cases h
        exact .statement (mt List.isEmpty_iff.mpr hblank) (Bool.eq_false_iff.mpr hmode) hi
  | some d =>
    obtain ⟨body, hbody, h⟩ := Outcome.bind_eq_ok.mp h
    rcases Block.bodyLine_cases hbody with
      ⟨hblank, rfl⟩ | ⟨hclose, rfl⟩ | ⟨i, hblank, hclose, hmode, hi, rfl⟩
    · cases h
      exact .blank hblank
    · obtain ⟨shapes, hshapes, h⟩ := Outcome.bind_eq_ok.mp h
      cases h
      exact .close hclose hshapes
    · cases h
      exact .nested hblank hclose hmode hi

end DiagramScript.Source
