import DiagramScript.Proofs.Spelling.Words

/-
  Texts in quotes.

  Every text can be written in quotes and is read back as it was, also behind a plain word that
  belongs to the same token. So a line of such words with any blanks around them has their tokens
  and no comment (`ofLine_lineOf`), whatever characters the texts hold.
-/

namespace DiagramScript

namespace Spelling

/-- A text in quotes on a line, behind some blanks and a plain word, which may be empty. -/
structure Piece where
  gap : List Char
  key : String
  text : String

namespace Piece

def word (p : Piece) : List Char := p.key.toList ++ quote p.text.toList

/-- The token of the word. It counts as quoted where nothing stands in front of the quotes. -/
def token (p : Piece) : Token := ⟨p.key ++ p.text, p.key.isEmpty⟩

/-- A piece of blanks and a word that is not empty. -/
structure IsValid (p : Piece) : Prop where
  blank : ∀ c ∈ p.gap, Text.isBlank c = true
  plain : ∀ c ∈ p.key.toList, isPlain c = true
  filled : p.key ++ p.text ≠ ""

theorem IsValid.spells {p : Piece} (h : p.IsValid) : Spells p.word p.token := by
  have hfilled : p.key.toList ++ p.text.toList ≠ [] := by
    rw [← String.toList_append]
    exact mt String.toList_eq_nil_iff.mp h.filled
  have hspells := spells_quote p.key.toList h.plain p.text.toList hfilled
  have hempty : p.key.toList.isEmpty = p.key.isEmpty := by
    rw [Bool.eq_iff_iff, List.isEmpty_iff, String.toList_eq_nil_iff, String.isEmpty_iff]
  rw [← String.toList_append, String.ofList_toList, hempty] at hspells
  exact hspells

end Piece

/-- The line of some pieces, with blanks behind the last one. -/
def lineOf (pieces : List Piece) (trail : List Char) : List Char :=
  pieces.flatMap (fun p => p.gap ++ p.word) ++ trail

theorem lineOf_cons (p : Piece) (pieces : List Piece) (trail : List Char) :
    lineOf (p :: pieces) trail = p.gap ++ (p.word ++ lineOf pieces trail) := by
  simp only [lineOf, List.flatMap_cons, List.append_assoc]

/-! ## Blanks -/

section Blanks
variable {gap : List Char} (hgap : ∀ c ∈ gap, Text.isBlank c = true)
include hgap

theorem uncomment_blanks (rest : List Char) :
    uncomment .outside (gap ++ rest) = gap ++ uncomment .outside rest := by
  refine uncomment_unmarked (fun c hc => ?_) rest
  have hblank := hgap c hc
  constructor
  · rintro rfl
    exact absurd hblank (by decide)
  · rintro rfl
    exact absurd hblank (by decide)

theorem skipBlanks_blanks (rest : List Char) :
    Text.skipBlanks (gap ++ rest) = Text.skipBlanks rest :=
  List.dropWhile_append_of_pos hgap

theorem scan_blanks (rest : List Char) :
    Token.scan .outside .empty (gap ++ rest) = Token.scan .outside .empty rest := by
  rw [← Token.scan_skipBlanks, skipBlanks_blanks hgap, Token.scan_skipBlanks]

theorem scan_gap (hne : gap ≠ []) (d : Token.Draft) (rest : List Char) :
    Token.scan .outside d (gap ++ rest) =
      (Token.scan .outside .empty rest).map (d.finish ++ ·) := by
  obtain ⟨c, cs, rfl⟩ := List.exists_cons_of_ne_nil hne
  obtain ⟨hc, hcs⟩ := List.forall_mem_cons.mp hgap
  rw [List.cons_append, Token.scan_outside_blank _ _ hc, scan_blanks hcs]

theorem scan_trail (d : Token.Draft) : Token.scan .outside d gap = some d.finish := by
  cases gap with
  | nil => rfl
  | cons c cs =>
    have hscan := scan_gap hgap (List.cons_ne_nil c cs) d []
    rw [List.append_nil] at hscan
    rw [hscan]
    show some (d.finish ++ []) = _
    rw [List.append_nil]

end Blanks

/-! ## Lines -/

theorem uncomment_lineOf {pieces : List Piece} {trail : List Char}
    (hpieces : ∀ p ∈ pieces, p.IsValid) (htrail : ∀ c ∈ trail, Text.isBlank c = true) :
    uncomment .outside (lineOf pieces trail) = lineOf pieces trail := by
  -- By induction on the pieces: blanks and words are no comment.
  induction pieces with
  | nil =>
    have hend := uncomment_blanks htrail []
    rwa [List.append_nil, uncomment, List.append_nil] at hend
  | cons p pieces ih =>
    obtain ⟨hp, hpieces⟩ := List.forall_mem_cons.mp hpieces
    rw [lineOf_cons, uncomment_blanks hp.blank, hp.spells.comment, ih hpieces]

theorem scan_lineOf {pieces : List Piece} {trail : List Char} (hpieces : ∀ p ∈ pieces, p.IsValid)
    (hgaps : ∀ p ∈ pieces, p.gap ≠ []) (htrail : ∀ c ∈ trail, Text.isBlank c = true)
    (d : Token.Draft) :
    Token.scan .outside d (lineOf pieces trail) = some (d.finish ++ pieces.map (·.token)) := by
  -- By induction on the pieces: each ends the token in front of it.
  induction pieces generalizing d with
  | nil => rw [List.map_nil, List.append_nil]; exact scan_trail htrail d
  | cons p pieces ih =>
    obtain ⟨hp, hpieces⟩ := List.forall_mem_cons.mp hpieces
    obtain ⟨hgap, hgaps⟩ := List.forall_mem_cons.mp hgaps
    obtain ⟨e, hfinish, hscan⟩ := hp.spells.scan
    rw [lineOf_cons, scan_gap hp.blank hgap, hscan, ih hpieces hgaps e, hfinish]
    rfl

theorem ofLine_lineOf {pieces : List Piece} {trail : List Char} (hpieces : ∀ p ∈ pieces, p.IsValid)
    (hgaps : ∀ p ∈ pieces.tail, p.gap ≠ []) (htrail : ∀ c ∈ trail, Text.isBlank c = true)
    (number : LineNumber) :
    Token.ofLine (lineOf pieces trail) number = .ok (pieces.map (·.token)) := by
  have hscan : Token.scan .outside .empty (lineOf pieces trail) =
      some (pieces.map (·.token)) := by
    cases pieces with
    | nil => exact scan_trail htrail .empty
    | cons p pieces =>
      obtain ⟨hp, hpieces⟩ := List.forall_mem_cons.mp hpieces
      obtain ⟨d, hfinish, hscan⟩ := hp.spells.scan
      rw [lineOf_cons, scan_blanks hp.blank, hscan, scan_lineOf hpieces hgaps htrail, hfinish]
      rfl
  rw [Token.ofLine, hscan]

/-- Texts in quotes are read as they were, and nothing of them is a comment; with a plain word in
front of its quotes a text is part of the token of this word. -/
theorem ofLine_quotes (number : LineNumber) :
    (∀ (texts : List (List Char × String)) (trail : List Char),
      (∀ t ∈ texts, (∀ c ∈ t.1, Text.isBlank c = true) ∧ t.2 ≠ "") →
      (∀ t ∈ texts.tail, t.1 ≠ []) → (∀ c ∈ trail, Text.isBlank c = true) →
        let line := texts.flatMap (fun t => t.1 ++ quote t.2.toList) ++ trail
        stripComment (String.ofList line) = String.ofList line ∧
          Token.ofLine line number = .ok (texts.map fun t => ⟨t.2, true⟩)) ∧
    ∀ key text : String, (∀ c ∈ key.toList, isPlain c = true) → key ≠ "" →
      Token.ofLine (key.toList ++ quote text.toList) number = .ok [⟨key ++ text, false⟩] := by
  constructor
  · intro texts trail htexts hgaps htrail line
    -- Each text is a piece whose word is all in quotes.
    let pieces : List Piece := texts.map fun t => ⟨t.1, "", t.2⟩
    have hline : line = lineOf pieces trail := by
      simp only [line, pieces, lineOf, List.flatMap_map, Piece.word, String.toList_empty,
        List.nil_append]
    have hpieces : ∀ p ∈ pieces, p.IsValid := by
      rw [List.forall_mem_map]
      intro t ht
      obtain ⟨hblank, hfilled⟩ := htexts t ht
      exact ⟨hblank, List.forall_mem_nil _, by rwa [String.empty_append]⟩
    have htail : ∀ p ∈ pieces.tail, p.gap ≠ [] := by
      rw [← List.map_tail, List.forall_mem_map]
      exact hgaps
    constructor
    · rw [stripComment, String.toList_ofList, hline, uncomment_lineOf hpieces htrail]
    · rw [hline, ofLine_lineOf hpieces htail htrail number, List.map_map]
      refine congrArg Except.ok (List.map_congr_left fun t _ => ?_)
      show Token.mk ("" ++ t.2) true = ⟨t.2, true⟩
      rw [String.empty_append]
  · intro key text hplain hne
    -- One piece without a gap in front; its word is not empty, so it does not count as quoted.
    let piece : Piece := ⟨[], key, text⟩
    have hfilled : key ++ text ≠ "" := by
      intro h
      exact hne (String.append_eq_empty_iff.mp h).1
    have hpiece : piece.IsValid := ⟨List.forall_mem_nil _, hplain, hfilled⟩
    have htokens : Token.ofLine (lineOf [piece] []) number = .ok ([piece].map Piece.token) :=
      ofLine_lineOf (List.forall_mem_singleton.mpr hpiece) (List.forall_mem_nil _)
        (List.forall_mem_nil _) number
    have hline : lineOf [piece] [] = key.toList ++ quote text.toList := by
      rw [lineOf_cons]
      exact List.append_nil _
    have hquoted : key.isEmpty = false := by
      rw [Bool.eq_false_iff, ne_eq, String.isEmpty_iff]
      exact hne
    rw [hline] at htokens
    rw [htokens, List.map_singleton, Piece.token, hquoted]

/-- Two texts full of marks and blanks, and the value of an option. -/
theorem ofLine_quotes_marks :
    let texts : List (List Char × String) := [([], "a \\ \"b\" # c"), ([' ', '\n'], "\n\t-> x=1")]
    let trail : List Char := ['\t', '\u3000']
    (∀ t ∈ texts, (∀ c ∈ t.1, Text.isBlank c = true) ∧ t.2 ≠ "") ∧ (∀ t ∈ texts.tail, t.1 ≠ []) ∧
      (∀ c ∈ trail, Text.isBlank c = true) ∧
      Token.ofLine "\"a \\\\ \\\"b\\\" # c\" \n\"\\n\\t-> x=1\"\t\u3000".toList (some 7) =
        .ok [⟨"a \\ \"b\" # c", true⟩, ⟨"\n\t-> x=1", true⟩] ∧
      Token.ofLine "label=\"#1 \\\"\"".toList (some 7) = .ok [⟨"label=#1 \"", false⟩] := by
  intro texts trail
  have htexts : ∀ t ∈ texts, (∀ c ∈ t.1, Text.isBlank c = true) ∧ t.2 ≠ "" := by
    simp only [← List.all_eq_true]
    decide
  have hgaps : ∀ t ∈ texts.tail, t.1 ≠ [] := by decide
  have htrail : ∀ c ∈ trail, Text.isBlank c = true := List.all_eq_true.mp (by decide)
  have hkey : ∀ c ∈ "label=".toList, isPlain c = true := List.all_eq_true.mp (by decide)
  refine ⟨htexts, hgaps, htrail, ?_, ?_⟩
  · exact ((ofLine_quotes (some 7)).1 texts trail htexts hgaps htrail).2
  · exact (ofLine_quotes (some 7)).2 "label=" "#1 \"" hkey (by decide)

end Spelling

end DiagramScript
