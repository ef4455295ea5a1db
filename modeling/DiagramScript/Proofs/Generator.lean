import DiagramScript.Proofs.Comment
import DiagramScript.Proofs.Drawable
import DiagramScript.Proofs.Drawing
import DiagramScript.Proofs.Text

/-
  How drawing a source ends.

  A source is drawn, refused with an error of the library, or breaks on a number that cannot be
  computed with; one with moderate numbers does not break (`Generator.renderSvg_ends`). A column
  count of too many digits is such a number (`Generator.renderSvg_gridText`).
-/

namespace DiagramScript

/-! ## The standard generator -/

theorem Settings.measure_number {n : Scalar} (name : String) (h : n.isNumber)
    (hn : n.lt 0 = false) :
    measure name (.number n) = .ok n := by
  simp only [measure, number?, (Scalar.isNumber_iff.mp h).1, hn]
  rfl

theorem Settings.scale_number {n : Scalar} (h : n.isNumber) (hn : n.le 0 = false) :
    scale (.number n) = .ok n := by
  simp only [scale, number?, (Scalar.isNumber_iff.mp h).1, hn]
  rfl

theorem Generator.standard_eq :
    Generator.standard = .ok ⟨24, "#ffffff", 8, .number 2⟩ := by
  have hpadding : Settings.measure "padding" Settings.defaultPadding = .ok 24 :=
    Settings.measure_number _ (by decide +kernel) rfl
  have harrow : Settings.measure "arrow_padding" Settings.defaultArrowPadding = .ok 8 :=
    Settings.measure_number _ (by decide +kernel) rfl
  have hscale : Settings.scale Settings.defaultScale = .ok 2 :=
    Settings.scale_number (by decide +kernel) rfl
  rw [standard, ofSettings, hpadding, harrow, hscale]
  rfl

/-! ## Column counts of too many digits -/

/-- The header of a grid in front of its column count. -/
def Block.gridHead : List Char :=
  ['g', 'r', 'i', 'd', ' ', '0', ',', '0', ' ', 'c', 'o', 'l', 's', '=']

/-- The header of a grid behind its column count. -/
def Block.gridTail : List Char := [' ', 'g', 'a', 'p', '=', '0', ' ', '[']

/-- The header line of a grid whose column count has the given digits. -/
def Block.gridLine (columns : List Char) : List Char := gridHead ++ (columns ++ gridTail)

theorem Block.gridParts?_gridLine {columns : List Char}
    (hdigit : ∀ c ∈ columns, Text.isDigit c = true) (hne : columns ≠ []) :
    gridParts? (gridLine columns) = some (['0', ',', '0'], columns, ['0']) := by
  have htake : (columns ++ gridTail).takeWhile Text.isDigit = columns := by
    rw [List.takeWhile_append_of_pos hdigit]
    exact List.append_nil columns
  have hdrop : (columns ++ gridTail).dropWhile Text.isDigit = gridTail :=
    List.dropWhile_append_of_pos hdigit
  have hgrid : Text.dropWord? ['g', 'r', 'i', 'd'] (gridLine columns) =
      some ([' ', '0', ',', '0', ' ', 'c', 'o', 'l', 's', '='] ++ (columns ++ gridTail)) := rfl
  have horigin (rest : List Char) :
      (dropBlanks? ([' ', '0', ',', '0', ' ', 'c', 'o', 'l', 's', '='] ++ rest)).bind word? =
        some (['0', ',', '0'], ['c', 'o', 'l', 's', '='] ++ rest) := rfl
  have hcols (rest : List Char) :
      Text.dropWord? ['c', 'o', 'l', 's', '='] (['c', 'o', 'l', 's', '='] ++ rest) = some rest :=
    rfl
  have hgap : (dropBlanks? gridTail).bind gap? = some ['0'] := by decide
  simp only [gridParts?, hgrid, horigin, hcols, htake, hdrop, Option.bind_eq_bind,
    Option.bind_some, List.isEmpty_iff, hne, if_false]
  rw [← Option.bind_assoc, hgap]
  rfl

theorem Block.header_gridLine {columns : List Char} (hdigit : ∀ c ∈ columns, Text.isDigit c = true)
    (hlong : digitLimit < columns.length) (line : LineNumber) :
    header (gridLine columns) line =
      .error (.arithmetic (.tooManyDigits columns.length)) := by
  have hne : columns ≠ [] := List.ne_nil_of_length_pos (by omega)
  have hmode : mode? (gridLine columns) = some "grid" := rfl
  simp only [header, hmode, gridParts?_gridLine hdigit hne, wholeNumber, hlong, if_true]
  rfl

/-- A source with a box in a grid whose column count has the given digits. -/
def Source.gridText (columns : List Char) : String :=
  String.ofList (Block.gridLine columns ++ '\n' :: "rect 100x50\n]".toList)

/-- The header has no character that would end the line, start a comment or open a quote. -/
theorem Block.gridLine_plain {columns : List Char}
    (hdigit : ∀ c ∈ columns, Text.isDigit c = true) :
    ∀ c ∈ gridLine columns, c ≠ '\n' ∧ c ≠ '#' ∧ c ≠ '"' := by
  have hfixed : (gridHead ++ gridTail).all (fun c => c != '\n' && c != '#' && c != '"') = true := by
    decide +kernel
  have hword (c : Char) (hc : c ∈ gridHead ++ gridTail) : c ≠ '\n' ∧ c ≠ '#' ∧ c ≠ '"' := by
    simpa [and_assoc] using List.all_eq_true.mp hfixed c hc
  intro c hc
  rcases List.mem_append.mp hc with hc | hc
  · exact hword c (List.mem_append_left _ hc)
  · rcases List.mem_append.mp hc with hc | hc
    · have hother (d : Char) (hd : Text.isDigit d = false) : c ≠ d := by
        rintro rfl
        rw [hdigit c hc] at hd
        cases hd
      exact ⟨hother _ (by decide), hother _ (by decide), hother _ (by decide)⟩
    · exact hword c (List.mem_append_right _ hc)

theorem Source.instructions_gridText {columns : List Char}
    (hdigit : ∀ c ∈ columns, Text.isDigit c = true) (hlong : digitLimit < columns.length) :
    instructions (gridText columns) =
      .error (.arithmetic (.tooManyDigits columns.length)) := by
  have hplain := Block.gridLine_plain hdigit
  have hlast : (Block.gridLine columns).getLast? = some '[' := by
    rw [Block.gridLine, ← List.append_assoc, List.getLast?_append]
    rfl
  have hlines : Text.sourceLines (gridText columns) =
      [String.ofList (Block.gridLine columns), "rect 100x50", "]"] := by
    have hreturn : Text.dropReturn (Block.gridLine columns) = Block.gridLine columns := by
      rw [Text.dropReturn, hlast, if_neg (by decide)]
    have hrest : Text.splitOn '\n' "rect 100x50\n]".toList =
        ["rect 100x50".toList, "]".toList] := by decide +kernel
    rw [Text.sourceLines, gridText, String.toList_ofList, Text.splitOn_append,
      Text.splitOn_of_not_mem fun h => (hplain _ h).1 rfl, hrest]
    simp only [List.singleton_append, Text.dropReturns, hreturn]
    rfl
  have htext : statementText (String.ofList (Block.gridLine columns)) = Block.gridLine columns := by
    rw [statementText, String.toList_ofList, uncomment_of_unmarked fun c hc => (hplain c hc).2.symm]
    refine Text.stripChars_of_ends ?_ ?_
    · rintro c ⟨⟩
      decide
    · rw [hlast]
      rintro c ⟨⟩
      decide
  -- The header is the first line, so none of the others is ever read.
  have hmode : Block.mode? (Block.gridLine columns) = some "grid" := rfl
  have hfilled : (Block.gridLine columns).isEmpty = false := rfl
  rw [instructions, hlines]
  simp only [readLines, htext, hmode, hfilled, Block.header_gridLine hdigit hlong]
  rfl

/-! ## Ends -/

/-- Every source is drawn, refused with an error of the library, or breaks on a number or a place
in a list. A source with moderate numbers is drawn or refused. -/
theorem Generator.renderSvg_ends (source : String) : ∃ g, Generator.standard = .ok g ∧
    Drawable (g.renderSvg source).result ∧ (Source.Moderate source →
      Settles Fault.Own (fun _ => True) (g.renderSvg source).result) := by
  refine ⟨_, standard_eq, renderSvg_drawable _ source, fun h => ?_⟩
  have hpadding : Scalar.Within 1 24 := .of_nat (n := 24) (by norm_num)
  have harrow : Scalar.Within 1 8 := .of_nat (n := 8) (by norm_num)
  exact renderSvg_settles hpadding harrow h

/-- A source with a frame, shapes of all other kinds that a block may hold, and connectors. -/
def Source.mixedText : String :=
  "frame -20.5,-20 400x300 id=f\ngrid 0,0 cols=2 gap=12.5 [\nrect 100x50 \"First\"\n" ++
    "ellipse 80x80 id=e\ntext \"Last\"\nnote\n]\n" ++
    "arrow First -> e label=\"to\"\narrow e -> 500,2.5"

theorem Generator.renderSvg_ends_mixed : Source.Moderate Source.mixedText ∧
    ∃ g, Generator.standard = .ok g ∧
      Settles Fault.Own (fun _ => True) (g.renderSvg Source.mixedText).result := by
  have hmoderate : Source.Moderate Source.mixedText := by decide +kernel
  obtain ⟨g, hg, -, hends⟩ := renderSvg_ends Source.mixedText
  exact ⟨hmoderate, g, hg, hends hmoderate⟩

/-- A column count of 4301 digits breaks drawing. -/
theorem Generator.renderSvg_gridText :
    Generator.standard.map (fun g =>
        (g.renderSvg (Source.gridText (List.replicate 4301 '1'))).result) =
      .ok (.error (.arithmetic (.tooManyDigits 4301))) := by
  have hlength : (List.replicate 4301 '1').length = 4301 := List.length_replicate
  have hdigit : ∀ c ∈ List.replicate 4301 '1', Text.isDigit c = true := fun c hc => by
    rw [List.eq_of_mem_replicate hc]
    decide
  have hread := Source.instructions_gridText hdigit (by rw [hlength]; decide)
  rw [hlength] at hread
  rw [standard_eq, Except.map, renderSvg, compile, Report.result_bind, Report.result_bind,
    Report.result_liftM, hread]
  rfl

end DiagramScript
