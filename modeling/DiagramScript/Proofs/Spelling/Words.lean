import DiagramScript.Proofs.Comment
import DiagramScript.Proofs.Text
import DiagramScript.Source
import Mathlib.Data.List.Forall2

/-
  Words as they are written on a line.

  A word stands for a token (`Spells`) where it is plain, a text in quotes, or a plain word in
  front of a text in quotes. In quotes every text can be written (`quote`). Words with single
  blanks between them are the tokens of their line (`ofLine_spell`), and the line is a source of
  one statement (`instructions_spell`).
-/

namespace DiagramScript

namespace Spelling

/-! ## Quotes -/

/-- A character as it is written in quotes. -/
def escape (c : Char) : List Char :=
  if c = '\\' then ['\\', '\\']
  else if c = '"' then ['\\', '"']
  else if c = '\n' then ['\\', 'n']
  else if c = '\t' then ['\\', 't']
  else [c]

/-- A text in quotes. -/
def quote (cs : List Char) : List Char := '"' :: (cs.flatMap escape ++ ['"'])

theorem escape_cases (c : Char) :
    (escape c = [c] ∧ c ≠ '"' ∧ c ≠ '\\' ∧ c ≠ '\n') ∨
      ∃ e, escape c = ['\\', e] ∧ unescape e = c ∧ e ≠ '\n' := by
  by_cases hbackslash : c = '\\'
  · subst hbackslash
    exact .inr ⟨'\\', rfl, rfl, by decide⟩
  by_cases hmark : c = '"'
  · subst hmark
    exact .inr ⟨'"', rfl, rfl, by decide⟩
  by_cases hfeed : c = '\n'
  · subst hfeed
    exact .inr ⟨'n', rfl, rfl, by decide⟩
  by_cases htab : c = '\t'
  · subst htab
    exact .inr ⟨'t', rfl, rfl, by decide⟩
  · refine .inl ⟨?_, hmark, hbackslash, hfeed⟩
    rw [escape, if_neg hbackslash, if_neg hmark, if_neg hfeed, if_neg htab]

theorem quote_one_line (cs : List Char) : '\n' ∉ quote cs := by
  intro h
  rcases List.mem_cons.mp h with h | h
  · exact absurd h (by decide)
  · rcases List.mem_append.mp h with h | h
    · obtain ⟨c, -, hc⟩ := List.mem_flatMap.mp h
      rcases escape_cases c with ⟨he, -, -, hfeed⟩ | ⟨e, he, -, hfeed⟩
      · rw [he, List.mem_singleton] at hc
        exact hfeed hc.symm
      · rw [he] at hc
        rcases List.mem_cons.mp hc with hc | hc
        · exact absurd hc (by decide)
        · exact hfeed (List.mem_singleton.mp hc).symm
    · exact absurd (List.mem_singleton.mp h) (by decide)

/-! ## Reading on -/

/-- The draft with some more characters. -/
def pushAll (d : Token.Draft) (cs : List Char) : Token.Draft := cs.foldl .push d

theorem pushAll_reversed (d : Token.Draft) (cs : List Char) :
    (pushAll d cs).reversed = cs.reverse ++ d.reversed := by
  induction cs generalizing d with
  | nil => rfl
  | cons c cs ih =>
    rw [pushAll, List.foldl_cons, ← pushAll, ih, List.reverse_cons, List.append_assoc]
    rfl

theorem pushAll_quoted (d : Token.Draft) (cs : List Char) :
    (pushAll d cs).quoted = d.quoted := by
  induction cs generalizing d with
  | nil => rfl
  | cons c cs ih => exact ih (d.push c)

theorem pushAll_started (d : Token.Draft) (cs : List Char) :
    (pushAll d cs).started = (d.started || !cs.isEmpty) := by
  induction cs generalizing d with
  | nil => exact (Bool.or_false _).symm
  | cons c cs ih =>
    refine (ih (d.push c)).trans ?_
    rw [List.isEmpty_cons, Bool.not_false, Bool.or_true]
    exact Bool.true_or _

/-- A character of a plain word: no blank, no quote mark and no start of a comment. -/
def isPlain (c : Char) : Bool := !Text.isBlank c && c != '"' && c != '#'

theorem isPlain_iff {c : Char} :
    isPlain c = true ↔ Text.isBlank c = false ∧ c ≠ '"' ∧ c ≠ '#' := by
  simp [isPlain, and_assoc]

theorem scan_plain {cs : List Char} (h : ∀ c ∈ cs, isPlain c) (d : Token.Draft)
    (rest : List Char) :
    Token.scan .outside d (cs ++ rest) = Token.scan .outside (pushAll d cs) rest := by
  induction cs generalizing d with
  | nil => rfl
  | cons c cs ih =>
    obtain ⟨hblank, hmark, -⟩ := isPlain_iff.mp (h c List.mem_cons_self)
    rw [List.cons_append, Token.scan_outside_solid _ _ hmark hblank]
    exact ih (fun c' hc' => h c' (List.mem_cons_of_mem c hc')) (d.push c)

/-- A draft that a quote mark has started takes an escaped character like any other one. -/
theorem put_eq_push {d : Token.Draft} (h : d.started = true) (c : Char) : d.put c = d.push c := by
  rw [Token.Draft.push, ← h]
  rfl

theorem scan_quote (cs : List Char) (d : Token.Draft) (rest : List Char) :
    Token.scan .outside d (quote cs ++ rest) =
      Token.scan .outside (pushAll d.mark cs).mark rest := by
  have hinside (d : Token.Draft) (hd : d.started = true) :
      Token.scan .inside d (cs.flatMap escape ++ '"' :: rest) =
        Token.scan .outside (pushAll d cs).mark rest := by
    induction cs generalizing d with
    | nil => rfl
    | cons c cs ih =>
      rw [List.flatMap_cons, List.append_assoc]
      rcases escape_cases c with ⟨he, hmark, hbackslash, -⟩ | ⟨e, he, hback, -⟩
      · rw [he, List.singleton_append, Token.scan_inside_other _ _ hmark hbackslash]
        exact ih (d.push c) rfl
      · rw [he, List.cons_append, List.singleton_append, Token.scan_inside_escape, hback,
          put_eq_push hd]
        exact ih (d.push c) rfl
  rw [quote, List.cons_append, List.append_assoc]
  exact hinside d.mark rfl

theorem uncomment_plain {cs : List Char} (h : ∀ c ∈ cs, isPlain c) (rest : List Char) :
    uncomment .outside (cs ++ rest) = cs ++ uncomment .outside rest :=
  uncomment_unmarked (fun c hc => (isPlain_iff.mp (h c hc)).2) rest

theorem uncomment_quote (cs rest : List Char) :
    uncomment .outside (quote cs ++ rest) = quote cs ++ uncomment .outside rest := by
  have hinside : uncomment .inside (cs.flatMap escape ++ '"' :: rest) =
      cs.flatMap escape ++ '"' :: uncomment .outside rest := by
    induction cs with
    | nil => rfl
    | cons c cs ih =>
      rw [List.flatMap_cons, List.append_assoc, List.append_assoc]
      rcases escape_cases c with ⟨he, hmark, hbackslash, -⟩ | ⟨e, he, -, -⟩
      · rw [he, List.singleton_append, uncomment_inside_other _ hmark hbackslash, ih]
        rfl
      · rw [he, List.cons_append, List.singleton_append, uncomment_inside_escape, ih]
        rfl
  rw [quote, List.cons_append, List.append_assoc]
  show '"' :: uncomment .inside (cs.flatMap escape ++ '"' :: rest) = _
  rw [hinside, List.cons_append, List.append_assoc]
  rfl

/-! ## Words -/

/-- A word that is one token wherever it stands, and on the line whose comment it is not in. -/
structure Spells (word : List Char) (t : Token) : Prop where
  scan : ∃ d : Token.Draft, d.finish = [t] ∧
    ∀ rest, Token.scan .outside .empty (word ++ rest) = Token.scan .outside d rest
  comment : ∀ rest, uncomment .outside (word ++ rest) = word ++ uncomment .outside rest
  line : '\n' ∉ word
  first : ∃ c cs, word = c :: cs ∧ Text.isBlank c = false
  last : ∃ cs c, word = cs ++ [c] ∧ Text.isBlank c = false

theorem spells_plain {cs : List Char} (h : ∀ c ∈ cs, isPlain c) (hne : cs ≠ []) :
    Spells cs ⟨String.ofList cs, false⟩ where
  scan := by
    refine ⟨pushAll .empty cs, ?_, fun rest => scan_plain h _ rest⟩
    unfold Token.Draft.finish
    rw [pushAll_reversed, pushAll_quoted]
    simp only [Token.Draft.empty, List.append_nil, List.reverse_reverse, List.isEmpty_reverse,
      List.isEmpty_iff, hne, if_false]
  comment := uncomment_plain h
  line hfeed := by
    have hblank := (isPlain_iff.mp (h _ hfeed)).1
    revert hblank
    decide
  first := by
    cases cs with
    | nil => exact absurd rfl hne
    | cons c cs => exact ⟨c, cs, rfl, (isPlain_iff.mp (h c List.mem_cons_self)).1⟩
  last := by
    obtain ⟨front, c, rfl⟩ := List.eq_nil_or_concat cs |>.resolve_left hne
    exact ⟨front, c, List.concat_eq_append, (isPlain_iff.mp (h c (by simp))).1⟩

/-- A text in quotes behind a plain word, which may be empty, is a token of both; it counts as
quoted where the word is empty. -/
theorem spells_quote (key : List Char) (hkey : ∀ c ∈ key, isPlain c) (cs : List Char)
    (hne : key ++ cs ≠ []) :
    Spells (key ++ quote cs) ⟨String.ofList (key ++ cs), key.isEmpty⟩ where
  scan := by
    refine ⟨(pushAll (pushAll .empty key).mark cs).mark, ?_, fun rest => ?_⟩
    · -- A quote adds nothing to the token but the mark that one was there.
      have hreversed : (pushAll (pushAll .empty key).mark cs).mark.reversed =
          cs.reverse ++ key.reverse := by
        rw [Token.Draft.mark, pushAll_reversed, Token.Draft.mark, pushAll_reversed]
        exact congrArg _ (List.append_nil _)
      have hquoted : (pushAll (pushAll .empty key).mark cs).mark.quoted = key.isEmpty := by
        simp only [Token.Draft.mark, pushAll_quoted, pushAll_started, Token.Draft.empty,
          Bool.false_or, Bool.true_or, Bool.not_true, Bool.or_false, Bool.not_not]
      have hfilled : ¬(cs.reverse ++ key.reverse).isEmpty = true := by
        rw [← List.reverse_append, List.isEmpty_reverse, List.isEmpty_iff]
        exact hne
      rw [Token.Draft.finish, hreversed, hquoted, if_neg hfilled, List.reverse_append,
        List.reverse_reverse, List.reverse_reverse]
    · rw [List.append_assoc, scan_plain hkey, scan_quote]
  comment rest := by
    rw [List.append_assoc, uncomment_plain hkey, uncomment_quote, List.append_assoc]
  line hfeed := by
    rcases List.mem_append.mp hfeed with hfeed | hfeed
    · exact (spells_plain hkey (List.ne_nil_of_mem hfeed)).line hfeed
    · exact quote_one_line cs hfeed
  first := by
    cases key with
    | nil => exact ⟨'"', _, rfl, by decide⟩
    | cons c key => exact ⟨c, _, rfl, (isPlain_iff.mp (hkey c List.mem_cons_self)).1⟩
  last := ⟨key ++ '"' :: cs.flatMap escape, '"', by simp [quote], by decide⟩

theorem spells_text {s : String} (h : s ≠ "") : Spells (quote s.toList) ⟨s, true⟩ := by
  have hspells := spells_quote [] (fun c hc => by cases hc) s.toList
    (mt String.toList_eq_nil_iff.mp h)
  rw [List.nil_append, List.nil_append, String.ofList_toList] at hspells
  exact hspells

/-! ## Lines -/

/-- Words that are tokens are the tokens of their line, single blanks between them. -/
theorem scan_spell {words : List (List Char)} {tokens : List Token}
    (h : List.Forall₂ Spells words tokens) :
    Token.scan .outside .empty (Text.joinOn ' ' words) = some tokens := by
  induction h with
  | nil => rfl
  | @cons word t words tokens hword hwords ih =>
    obtain ⟨d, hfinish, hscan⟩ := hword.scan
    cases hwords with
    | nil =>
      have hend := hscan []
      rw [List.append_nil] at hend
      rw [Text.joinOn, hend, ← hfinish]
      rfl
    | cons hword' hwords' =>
      rw [Text.joinOn, hscan, Token.scan_outside_blank _ _ (by decide), ih, hfinish]
      · rfl
      · exact List.cons_ne_nil _ _

theorem uncomment_spell {words : List (List Char)} {tokens : List Token}
    (h : List.Forall₂ Spells words tokens) :
    uncomment .outside (Text.joinOn ' ' words) = Text.joinOn ' ' words := by
  induction h with
  | nil => rfl
  | @cons word t words tokens hword hwords ih =>
    cases hwords with
    | nil =>
      have hend := hword.comment []
      rwa [List.append_nil, uncomment, List.append_nil] at hend
    | cons hword' hwords' =>
      rw [Text.joinOn, hword.comment, uncomment, if_neg (by decide)]
      · exact congrArg (word ++ ' ' :: ·) ih
      · exact List.cons_ne_nil _ _

theorem line_spell {words : List (List Char)} {tokens : List Token}
    (h : List.Forall₂ Spells words tokens) : '\n' ∉ Text.joinOn ' ' words := by
  induction h with
  | nil => exact List.not_mem_nil
  | @cons word t words tokens hword hwords ih =>
    cases hwords with
    | nil => exact hword.line
    | cons hword' hwords' =>
      rw [Text.joinOn]
      · intro hfeed
        rcases List.mem_append.mp hfeed with hfeed | hfeed
        · exact hword.line hfeed
        · rcases List.mem_cons.mp hfeed with hfeed | hfeed
          · exact absurd hfeed (by decide)
          · exact ih hfeed
      · exact List.cons_ne_nil _ _

theorem joinOn_cons (sep : Char) (piece : List Char) (pieces : List (List Char)) :
    ∃ rest, Text.joinOn sep (piece :: pieces) = piece ++ rest ∧ ∀ c ∈ rest.head?, c = sep := by
  cases pieces with
  | nil => exact ⟨[], (List.append_nil piece).symm, fun c hc => by cases hc⟩
  | cons piece' pieces => exact ⟨_, rfl, fun c hc => by cases hc; rfl⟩

theorem last_spell {words : List (List Char)} {tokens : List Token}
    (h : List.Forall₂ Spells words tokens) (hne : words ≠ []) :
    ∃ front c, Text.joinOn ' ' words = front ++ [c] ∧ Text.isBlank c = false := by
  induction h with
  | nil => exact absurd rfl hne
  | @cons word t words tokens hword hwords ih =>
    cases hwords with
    | nil => exact hword.last
    | cons hword' hwords' =>
      obtain ⟨front, c, hlast, hblank⟩ := ih (List.cons_ne_nil _ _)
      refine ⟨word ++ ' ' :: front, c, ?_, hblank⟩
      rw [Text.joinOn, hlast, List.append_assoc]
      · rfl
      · exact List.cons_ne_nil _ _

theorem strip_spell {words : List (List Char)} {tokens : List Token}
    (h : List.Forall₂ Spells words tokens) :
    Text.stripChars (Text.joinOn ' ' words) = Text.joinOn ' ' words := by
  cases h with
  | nil => rfl
  | @cons word t words tokens hword hwords =>
    apply Text.stripChars_of_ends
    · obtain ⟨rest, hrest, -⟩ := joinOn_cons ' ' word words
      obtain ⟨c, cs, rfl, hblank⟩ := hword.first
      intro c' hc'
      rw [hrest] at hc'
      cases hc'
      exact hblank
    · obtain ⟨front, c, hlast, hblank⟩ := last_spell (.cons hword hwords) (List.cons_ne_nil _ _)
      intro c' hc'
      rw [hlast, List.getLast?_concat] at hc'
      cases hc'
      exact hblank

theorem firstWord_spell {first : List Char} (hfirst : ∀ c ∈ first, isPlain c) (hne : first ≠ [])
    (words : List (List Char)) : Text.firstWord (Text.joinOn ' ' (first :: words)) = first := by
  have hsolid : ∀ c ∈ first, (!Text.isBlank c) = true := fun c hc => by
    rw [(isPlain_iff.mp (hfirst c hc)).1]
    rfl
  obtain ⟨rest, hrest, hhead⟩ := joinOn_cons ' ' first words
  obtain ⟨c, cs, rfl⟩ := List.exists_cons_of_ne_nil hne
  have hskip : Text.skipBlanks (c :: cs ++ rest) = c :: cs ++ rest :=
    List.dropWhile_cons_of_neg (by simpa using hsolid c List.mem_cons_self)
  have hstop : rest.takeWhile (!Text.isBlank ·) = [] := by
    cases rest with
    | nil => rfl
    | cons r rest =>
      rw [hhead r rfl]
      rfl
  rw [hrest, Text.firstWord, hskip, List.takeWhile_append_of_pos hsolid, hstop, List.append_nil]

/-- A line of words, the first of which is plain and no block word, is a source of the one
statement that its tokens are. -/
theorem instructions_spell {first : List Char} {words : List (List Char)} {tokens : List Token}
    (hfirst : ∀ c ∈ first, isPlain c) (hne : first ≠ [])
    (hblock : Block.mode? first = none) (h : List.Forall₂ Spells words tokens)
    {i : Instruction}
    (hi : Statement.ofTokens (⟨String.ofList first, false⟩ :: tokens) (some 1) true = .ok i) :
    Source.instructions (String.ofList (Text.joinOn ' ' (first :: words))) = .ok [i] := by
  have hwords := List.Forall₂.cons (spells_plain hfirst hne) h
  have hlines : Text.sourceLines (String.ofList (Text.joinOn ' ' (first :: words))) =
      [String.ofList (Text.joinOn ' ' (first :: words))] := by
    rw [Text.sourceLines, String.toList_ofList, Text.splitOn_of_not_mem (line_spell hwords)]
    rfl
  have htext : statementText (String.ofList (Text.joinOn ' ' (first :: words))) =
      Text.joinOn ' ' (first :: words) := by
    rw [statementText, String.toList_ofList, uncomment_spell hwords, strip_spell hwords]
  have hfilled : ¬(Text.joinOn ' ' (first :: words)).isEmpty = true := by
    obtain ⟨rest, hrest, -⟩ := joinOn_cons ' ' first words
    rw [hrest, List.isEmpty_iff]
    exact List.append_ne_nil_of_left_ne_nil hne rest
  -- A block is told by the first word alone.
  have hmode : Block.mode? (Text.joinOn ' ' (first :: words)) = none := by
    have halone := firstWord_spell hfirst hne []
    rw [Text.joinOn] at halone
    rw [← hblock, Block.mode?, Block.mode?, firstWord_spell hfirst hne, halone]
  have hread : Statement.ofText (Text.joinOn ' ' (first :: words)) (some 1) true = .ok i := by
    rw [Statement.ofText, Token.ofLine, scan_spell hwords]
    exact hi
  rw [Source.instructions, hlines]
  simp only [Source.readLines, htext, if_neg hfilled, hmode, hread]
  rfl

end Spelling

end DiagramScript
