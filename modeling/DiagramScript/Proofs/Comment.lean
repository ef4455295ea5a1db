import Mathlib.Data.List.Induction
import DiagramScript.Proofs.Text

/-
  Comments and quotes.

  Two readers go through a line, one for its comment and one for its tokens, and each keeps track of
  the quotes with flags of its own. They never disagree, whatever the flags are at the start: tokens
  can be read exactly up to where no quote is open (`scan_isSome`), so the comment of a line starts
  at the first `#` in front of which tokens can be read (`stripComment_cuts`). Blanks around the
  rest of a line make no difference to its tokens (`scan_stripChars`).
-/

namespace DiagramScript

/-! ## Flags -/

namespace Quoting
variable {q : Quoting} {c : Char}

/-- What the reader of comments knows behind some characters. -/
def after (q : Quoting) (cs : List Char) : Quoting := cs.foldl next q

theorem after_cons (q : Quoting) (c : Char) (cs : List Char) :
    q.after (c :: cs) = (q.next c).after cs := rfl

theorem next_escaped (h : q.escaped = true) (c : Char) :
    q.next c = { q with escaped := false } := by
  simp [next, h]

theorem next_mark (h : ¬q.escaped = true) : q.next '"' = { q with inQuotes := !q.inQuotes } := by
  simp [next, h]

theorem next_backslash (h : ¬q.escaped = true) (hquote : q.inQuotes = true) :
    q.next '\\' = { q with escaped := true } := by
  simp [next, h, hquote]

theorem next_other (h : ¬q.escaped = true) (hmark : c ≠ '"')
    (hback : ¬(q.inQuotes = true ∧ c = '\\')) : q.next c = q := by
  obtain ⟨inQuotes, escaped⟩ := q
  obtain rfl : escaped = false := Bool.eq_false_iff.mpr h
  have hplain : (decide (c = '\\') && inQuotes) = false := by
    rw [Bool.eq_false_iff, ne_eq, Bool.and_eq_true, decide_eq_true_iff]
    exact fun hc => hback hc.symm
  simp [next, hmark, hplain]

/-- Inside quotes. -/
def inside : Quoting := ⟨true, false⟩

/-- Only in a quote is a character escaped. -/
def IsSound (q : Quoting) : Prop := q.escaped = true → q.inQuotes = true

theorem outside_next (hmark : c ≠ '"') : outside.next c = outside :=
  next_other Bool.false_ne_true hmark fun h => Bool.false_ne_true h.1

end Quoting

/-! ## Tokens -/

namespace Token

/-- Tokens can be read exactly where no quote stays open. -/
theorem scan_isSome (q : Quoting) (d : Draft) (cs : List Char) :
    (scan q d cs).isSome = !(q.after cs).inQuotes := by
  -- In each case the reader of comments sets the same flags.
  fun_induction scan q d cs with
  | case1 q d hquote => rw [Quoting.after, List.foldl_nil, hquote]; rfl
  | case2 q d hquote =>
    rw [Quoting.after, List.foldl_nil, Bool.eq_false_iff.mpr hquote]
    rfl
  | case3 q d c cs hescaped ih => rw [ih, Quoting.after_cons, Quoting.next_escaped hescaped]
  | case4 q d cs hescaped ih => rw [ih, Quoting.after_cons, Quoting.next_mark hescaped]
  | case5 q d c cs hescaped hmark hback ih =>
    rw [ih, Quoting.after_cons, hback.2, Quoting.next_backslash hescaped hback.1]
  | case6 q d c cs hescaped hmark hback _ ih =>
    rw [Option.isSome_map, ih, Quoting.after_cons, Quoting.next_other hescaped hmark hback]
  | case7 q d c cs hescaped hmark hback _ ih =>
    rw [ih, Quoting.after_cons, Quoting.next_other hescaped hmark hback]

/-- Whether the tokens of a line without comment can be read. -/
def isReadable (line : List Char) (number : LineNumber) : Bool :=
  (ofLine line number).toOption.isSome

theorem isReadable_eq (line : List Char) (number : LineNumber) :
    isReadable line number = !(Quoting.outside.after line).inQuotes := by
  rw [← scan_isSome .outside .empty, isReadable, ofLine]
  cases scan .outside .empty line with
  | none => rfl
  | some tokens => rfl

variable {c : Char}

theorem ne_mark_of_isBlank (h : Text.isBlank c = true) : c ≠ '"' ∧ c ≠ '\\' := by
  constructor
  · rintro rfl
    exact absurd h (by decide)
  · rintro rfl
    exact absurd h (by decide)

section Step
variable (d : Draft) (cs : List Char)

theorem scan_outside_blank (h : Text.isBlank c = true) :
    scan .outside d (c :: cs) = (scan .outside .empty cs).map (d.finish ++ ·) := by
  simp [scan, Quoting.outside, (ne_mark_of_isBlank h).1, h]

theorem scan_outside_solid (hmark : c ≠ '"') (h : Text.isBlank c = false) :
    scan .outside d (c :: cs) = scan .outside (d.push c) cs := by
  simp [scan, Quoting.outside, hmark, h]

theorem scan_inside_other (hmark : c ≠ '"') (hback : c ≠ '\\') :
    scan .inside d (c :: cs) = scan .inside (d.push c) cs := by
  simp [scan, Quoting.inside, hmark, hback]

theorem scan_inside_escape (c : Char) :
    scan .inside d ('\\' :: c :: cs) = scan .inside (d.put (unescape c)) cs := rfl

end Step

/-- A blank at the end ends a token that would end there anyway, or belongs to a quote that stays
open. -/
theorem scan_append_blank (h : Text.isBlank c = true) {q : Quoting} (hq : q.IsSound) (d : Draft)
    (cs : List Char) : scan q d (cs ++ [c]) = scan q d cs := by
  obtain ⟨hmark, hback⟩ := ne_mark_of_isBlank h
  fun_induction scan q d cs with
  | case1 q d hquote =>
    by_cases hescaped : q.escaped = true
    · rw [List.nil_append, scan, if_pos hescaped, scan, if_pos hquote]
    · rw [List.nil_append, scan, if_neg hescaped, if_neg hmark, if_neg fun h => hback h.2,
        if_neg fun h => by simp [hquote] at h, scan, if_pos hquote]
  | case2 q d hquote =>
    rw [List.nil_append, scan, if_neg (mt hq hquote), if_neg hmark, if_neg fun h => hback h.2,
      if_pos ⟨by simp [hquote], h⟩, scan, if_neg hquote]
    show some (d.finish ++ []) = _
    rw [List.append_nil]
  | case3 q d c' cs hescaped ih =>
    rw [List.cons_append, scan, if_pos hescaped, ih fun _ => hq hescaped]
  | case4 q d cs hescaped ih =>
    rw [List.cons_append, scan, if_neg hescaped, if_pos rfl, ih fun h => absurd h hescaped]
  | case5 q d c' cs hescaped hmark' hback' ih =>
    rw [List.cons_append, scan, if_neg hescaped, if_neg hmark', if_pos hback', ih fun _ => hback'.1]
  | case6 q d c' cs hescaped hmark' hback' hblank ih =>
    rw [List.cons_append, scan, if_neg hescaped, if_neg hmark', if_neg hback', if_pos hblank, ih hq]
  | case7 q d c' cs hescaped hmark' hback' hblank ih =>
    rw [List.cons_append, scan, if_neg hescaped, if_neg hmark', if_neg hback', if_neg hblank, ih hq]

theorem scan_skipBlanks (cs : List Char) :
    scan .outside .empty (Text.skipBlanks cs) = scan .outside .empty cs := by
  induction cs with
  | nil => rfl
  | cons c cs ih =>
    by_cases hblank : Text.isBlank c = true
    · have hempty : (scan .outside .empty cs).map (Draft.empty.finish ++ ·) =
          scan .outside .empty cs := Option.map_id'
      rw [Text.skipBlanks, List.dropWhile_cons_of_pos hblank, ← Text.skipBlanks, ih,
        scan_outside_blank _ _ hblank, hempty]
    · rw [Text.skipBlanks, List.dropWhile_cons_of_neg hblank]

theorem scan_dropTrailingBlanks {q : Quoting} (hq : q.IsSound) (d : Draft) (cs : List Char) :
    scan q d (Text.dropTrailingBlanks cs) = scan q d cs := by
  induction cs using List.reverseRecOn with
  | nil => rfl
  | append_singleton cs c ih =>
    rw [Text.dropTrailingBlanks, List.reverse_append, List.reverse_singleton, List.singleton_append,
      Text.skipBlanks]
    by_cases hblank : Text.isBlank c = true
    · rw [List.dropWhile_cons_of_pos hblank, scan_append_blank hblank hq]
      exact ih
    · rw [List.dropWhile_cons_of_neg hblank, List.reverse_cons, List.reverse_reverse]

/-- Blanks around a line make no difference to its tokens. -/
theorem scan_stripChars (cs : List Char) :
    scan .outside .empty (Text.stripChars cs) = scan .outside .empty cs := by
  have hsound : Quoting.outside.IsSound := fun h => h
  rw [Text.stripChars, scan_dropTrailingBlanks hsound, scan_skipBlanks]

end Token

/-! ## Comments -/

/-- Nothing is a comment up to the first quote mark or `#`. -/
theorem uncomment_unmarked {cs : List Char} (h : ∀ c ∈ cs, c ≠ '"' ∧ c ≠ '#') (rest : List Char) :
    uncomment .outside (cs ++ rest) = cs ++ uncomment .outside rest := by
  induction cs with
  | nil => rfl
  | cons c cs ih =>
    obtain ⟨⟨hmark, hcomment⟩, hcs⟩ := List.forall_mem_cons.mp h
    rw [List.cons_append, uncomment, if_neg fun hc => hcomment hc.1, Quoting.outside_next hmark,
      ih hcs]
    rfl

theorem uncomment_of_unmarked {cs : List Char} (h : ∀ c ∈ cs, c ≠ '"' ∧ c ≠ '#') :
    uncomment .outside cs = cs := by
  have hall := uncomment_unmarked h []
  rwa [List.append_nil, uncomment, List.append_nil] at hall

section Inside
variable (cs : List Char)

theorem uncomment_inside_other {c : Char} (hmark : c ≠ '"') (hback : c ≠ '\\') :
    uncomment .inside (c :: cs) = c :: uncomment .inside cs := by
  have hnext : Quoting.inside.next c = .inside :=
    Quoting.next_other Bool.false_ne_true hmark fun h => hback h.2
  rw [uncomment, if_neg fun h => Bool.false_ne_true h.2, hnext]

theorem uncomment_inside_escape (c : Char) :
    uncomment .inside ('\\' :: c :: cs) = '\\' :: c :: uncomment .inside cs := by
  have hnext : (Quoting.inside.next '\\').next c = .inside := Quoting.next_escaped rfl c
  rw [uncomment, if_neg fun h => Bool.false_ne_true h.2, uncomment,
    if_neg fun h => Bool.false_ne_true h.2, hnext]

end Inside

theorem uncomment_uncomment (q : Quoting) (cs : List Char) :
    uncomment q (uncomment q cs) = uncomment q cs := by
  fun_induction uncomment q cs with
  | case1 q => rfl
  | case2 q c cs h => rfl
  | case3 q c cs h ih => rw [uncomment, if_neg h, ih]

/-- Whether a comment starts at a place of a line that is read on from some state. -/
def startsComment (q : Quoting) (cs : List Char) (i : Nat) : Bool :=
  cs[i]? == some '#' && !(q.after (cs.take i)).inQuotes

theorem startsComment_zero (q : Quoting) (c : Char) (cs : List Char) :
    startsComment q (c :: cs) 0 = true ↔ c = '#' ∧ !q.inQuotes := by
  simp [startsComment, Quoting.after]

theorem uncomment_eq_take (q : Quoting) (cs : List Char) :
    uncomment q cs =
      cs.take (((List.range cs.length).find? (startsComment q cs)).getD cs.length) := by
  -- By induction on the line: what is in front of a comment is what is left of the line.
  induction cs generalizing q with
  | nil => rfl
  | cons c cs ih =>
    rw [List.length_cons, List.range_succ_eq_map, uncomment]
    by_cases h : c = '#' ∧ !q.inQuotes
    · rw [if_pos h, List.find?_cons_of_pos ((startsComment_zero q c cs).mpr h)]
      rfl
    · have hnext : startsComment q (c :: cs) ∘ Nat.succ = startsComment (q.next c) cs := rfl
      rw [if_neg h, ih, List.find?_cons_of_neg (mt (startsComment_zero q c cs).mp h),
        List.find?_map, hnext]
      cases (List.range cs.length).find? (startsComment (q.next c) cs) with
      | none => rfl
      | some i => rfl

/-- Where the comment of a line starts: at the first `#` up to which the tokens can be read. -/
def commentStart? (cs : List Char) (number : LineNumber) : Option Nat :=
  (List.range cs.length).find? fun i => cs[i]? == some '#' && Token.isReadable (cs.take i) number

/-- A line loses its comment, which starts at the first `#` that the reader of tokens does not find
in a quote. So it has no other comment, and blanks around the rest are no part of its tokens. -/
theorem stripComment_cuts (line : String) (number : LineNumber) :
    (stripComment line = match commentStart? line.toList number with
      | some i => String.ofList (line.toList.take i)
      | none => line) ∧
    stripComment (stripComment line) = stripComment line ∧
    Token.ofLine (Text.strip (stripComment line)).toList number =
      Token.ofLine (stripComment line).toList number := by
  refine ⟨?_, ?_, ?_⟩
  · have hstart : commentStart? line.toList number =
        (List.range line.toList.length).find? (startsComment .outside line.toList) := by
      unfold commentStart? startsComment
      simp only [Token.isReadable_eq]
    rw [hstart, stripComment, uncomment_eq_take]
    cases (List.range line.toList.length).find? (startsComment .outside line.toList) with
    | none =>
      show String.ofList (line.toList.take line.toList.length) = line
      rw [List.take_length, String.ofList_toList]
    | some i => rfl
  · rw [stripComment, stripComment, String.toList_ofList, uncomment_uncomment]
  · rw [Text.strip, String.toList_ofList, Token.ofLine, Token.ofLine, Token.scan_stripChars]

end DiagramScript
