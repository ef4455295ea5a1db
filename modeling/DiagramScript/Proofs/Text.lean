import DiagramScript.Text.Blank
import DiagramScript.Text.Lines
import DiagramScript.Token

/-
  Laws of lines and blanks.

  A text cut at a character falls into the pieces in front of an occurrence of it and those
  behind it (`splitOn_append`). Blanks at the end of a line do not count for its statement,
  so the carriage return of a line break does not either (`statementText_dropReturn`).
-/

namespace DiagramScript

namespace Text

theorem splitOn_append (sep : Char) (xs ys : List Char) :
    splitOn sep (xs ++ sep :: ys) = splitOn sep xs ++ splitOn sep ys := by
  induction xs with
  | nil => simp [splitOn]
  | cons x xs ih =>
    by_cases h : x = sep
    · simp only [List.cons_append, splitOn, h, if_true, ih]
    · simp only [List.cons_append, splitOn, h, if_false, ih]
      cases hs : splitOn sep xs with
      | nil => exact absurd hs (splitOn_ne_nil sep xs)
      | cons piece pieces => rfl

theorem splitOn_of_not_mem {sep : Char} {cs : List Char} (h : sep ∉ cs) :
    splitOn sep cs = [cs] := by
  induction cs with
  | nil => rfl
  | cons c cs ih =>
    have hc : c ≠ sep := fun hc => h (hc ▸ List.mem_cons_self)
    have hcs : sep ∉ cs := fun hcs => h (List.mem_cons_of_mem c hcs)
    rw [splitOn, if_neg hc, ih hcs]

theorem length_splitOn (sep : Char) (cs : List Char) :
    (splitOn sep cs).length = cs.count sep + 1 := by
  induction cs with
  | nil => rfl
  | cons c cs ih =>
    by_cases h : c = sep
    · rw [splitOn, if_pos h, List.length_cons, ih, h, List.count_cons_self]
    · rw [splitOn, if_neg h, List.count_cons_of_ne h]
      cases hs : splitOn sep cs with
      | nil => exact absurd hs (splitOn_ne_nil sep cs)
      | cons piece pieces => rw [← ih, hs]; rfl

theorem length_displayLines (s : String) : (displayLines s).length = lineCount s := by
  rw [displayLines, List.length_map, length_splitOn, lineCount]

/-- A text that neither starts nor ends with a blank is stripped of nothing. -/
theorem stripChars_of_ends {cs : List Char} (hfirst : ∀ c ∈ cs.head?, isBlank c = false)
    (hlast : ∀ c ∈ cs.getLast?, isBlank c = false) : stripChars cs = cs := by
  have hskip {cs : List Char} (h : ∀ c ∈ cs.head?, isBlank c = false) : skipBlanks cs = cs := by
    cases cs with
    | nil => rfl
    | cons c cs => exact List.dropWhile_cons_of_neg (Bool.eq_false_iff.mp (h c rfl))
  unfold stripChars dropTrailingBlanks
  rw [hskip hfirst, hskip (by rwa [List.head?_reverse]), List.reverse_reverse]

theorem stripChars_of_solid {cs : List Char} (h : ∀ c ∈ cs, isBlank c = false) :
    stripChars cs = cs :=
  stripChars_of_ends (fun c hc => h c (List.mem_of_mem_head? hc))
    fun c hc => h c (List.mem_of_mem_getLast? hc)

theorem skipBlanks_head (cs : List Char) : ∀ c ∈ (skipBlanks cs).head?, isBlank c = false := by
  intro c hc
  have h := List.head?_dropWhile_not isBlank cs
  rw [skipBlanks] at hc
  rw [Option.mem_def.mp hc] at h
  exact h

theorem stripChars_stripChars (cs : List Char) :
    stripChars (stripChars cs) = stripChars cs := by
  have hfront : stripChars cs <+: skipBlanks cs := by
    rw [← List.reverse_suffix, stripChars, dropTrailingBlanks, List.reverse_reverse]
    exact List.dropWhile_suffix isBlank
  apply stripChars_of_ends
  · intro c hc
    obtain ⟨rest, hrest⟩ := hfront
    apply skipBlanks_head cs
    rw [← hrest, List.head?_append, Option.mem_def.mp hc]
    rfl
  · intro c hc
    rw [stripChars, dropTrailingBlanks, List.getLast?_reverse] at hc
    exact skipBlanks_head _ c hc

theorem strip_strip (s : String) : strip (strip s) = strip s := by
  unfold strip
  rw [String.toList_ofList, stripChars_stripChars]

theorem stripChars_append_blank (cs : List Char) {c : Char} (h : isBlank c = true) :
    stripChars (cs ++ [c]) = stripChars cs := by
  unfold stripChars skipBlanks dropTrailingBlanks
  rw [List.dropWhile_append]
  split
  · rename_i hempty
    -- Nothing but blanks: both texts are stripped to nothing.
    rw [List.isEmpty_iff.mp hempty, List.dropWhile_cons_of_pos h, List.dropWhile_nil]
  · rw [List.reverse_append, List.reverse_singleton, List.singleton_append, skipBlanks,
      List.dropWhile_cons_of_pos h]
    rfl

end Text

/-- A carriage return at the end of a line belongs to the comment of the line or ends what
is in front of it. -/
theorem uncomment_append_return (q : Quoting) (cs : List Char) :
    uncomment q (cs ++ ['\r']) = uncomment q cs ∨
      uncomment q (cs ++ ['\r']) = uncomment q cs ++ ['\r'] := by
  induction cs generalizing q with
  | nil =>
    right
    have hreturn : ¬('\r' = '#' ∧ !q.inQuotes) := fun h => absurd h.1 (by decide)
    simp only [List.nil_append, uncomment, if_neg hreturn]
  | cons c cs ih =>
    by_cases h : c = '#' ∧ !q.inQuotes
    · left
      simp only [List.cons_append, uncomment, if_pos h]
    · simp only [List.cons_append, uncomment, if_neg h]
      rcases ih (q.next c) with ih | ih
      · left; rw [ih]
      · right; rw [ih]

theorem statementText_dropReturn (line : List Char) :
    statementText (String.ofList (Text.dropReturn line)) = statementText (String.ofList line) := by
  unfold Text.dropReturn
  split
  · rename_i h
    obtain ⟨front, rfl⟩ := List.getLast?_eq_some_iff.mp h
    have hblank : Text.isBlank '\r' = true := by decide
    unfold statementText
    rw [List.dropLast_concat, String.toList_ofList, String.toList_ofList]
    rcases uncomment_append_return .outside front with hcomment | hcomment
    · rw [hcomment]
    · rw [hcomment, Text.stripChars_append_blank _ hblank]
  · rfl

/-- The lines of two texts with a line feed between them are statements like the lines of the
first text and those of the second one. -/
theorem statementText_sourceLines_append (a b : String) :
    (Text.sourceLines (a ++ "\n" ++ b)).map statementText =
      (Text.sourceLines a).map statementText ++ (Text.sourceLines b).map statementText := by
  have hsplit : Text.splitOn '\n' (a ++ "\n" ++ b).toList =
      Text.splitOn '\n' a.toList ++ Text.splitOn '\n' b.toList := by
    rw [String.toList_append, String.toList_append, List.append_assoc]
    exact Text.splitOn_append '\n' a.toList b.toList
  have hreturns (pieces : List (List Char)) :
      (Text.dropReturns pieces).map (statementText ∘ String.ofList) =
        pieces.map (statementText ∘ String.ofList) := by
    fun_induction Text.dropReturns pieces with
    | case1 => rfl
    | case2 line => rfl
    | case3 line lines _ ih =>
      rw [List.map_cons, ih, List.map_cons]
      exact congrArg (· :: _) (statementText_dropReturn line)
  simp only [Text.sourceLines, List.map_map, hreturns, hsplit, List.map_append]

end DiagramScript
