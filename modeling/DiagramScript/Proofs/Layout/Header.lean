import DiagramScript.Proofs.Layout.Total
import DiagramScript.Proofs.Statement.Measure

/-
  Headers that are accepted and layouts that are refused.

  The header of a block is compared up to case, and its direction is lowered before it is looked
  up. The two readings differ on the dotless and the dotted i, which count as i in a header and
  are not lowered to it (`ofName?_lowered_eq_none`). Nothing else that a header accepts is refused
  by the layout: its origin is finite, its gap is not negative and its columns are at least one
  (`place_header_iff`).
-/

namespace DiagramScript

/-! ## Words up to case -/

namespace Text

theorem exists_of_dropWord? {word cs rest : List Char} (h : dropWord? word cs = some rest) :
    ∃ front, cs = front ++ rest ∧ List.Forall₂ (fun w c => sameLetter w c = true) word front := by
  induction word generalizing cs with
  | nil => exact ⟨[], Option.some.inj h, .nil⟩
  | cons w word ih =>
    cases cs with
    | nil => cases h
    | cons c cs =>
      rw [dropWord?] at h
      split at h
      · rename_i hsame
        obtain ⟨front, rfl, hfront⟩ := ih h
        exact ⟨c :: front, rfl, .cons hsame hfront⟩
      · cases h

/-- The two letters that count as i up to case and are not lowered to it. -/
def isStrangeI (c : Char) : Bool := c == '\u0131' || c == '\u0130'

theorem lowerChars_of_sameLetter {word cs : List Char}
    (h : List.Forall₂ (fun w c => sameLetter w c = true) word cs) (hs : 's' ∉ word)
    (hplain : ∀ c ∈ cs, isStrangeI c = false) : lowerChars cs = word := by
  induction h with
  | nil => rfl
  | @cons w c word cs hsame _ ih =>
    obtain ⟨hc, hcs⟩ := List.forall_mem_cons.mp hplain
    have hw : w ≠ 's' := fun hw => hs (by simp [hw])
    have hword : 's' ∉ word := fun hmem => hs (List.mem_cons_of_mem w hmem)
    simp only [isStrangeI, Bool.or_eq_false_iff, beq_eq_false_iff_ne] at hc
    have hsmall : smallLetter c = w := by
      simpa [sameLetter, hc.1, hc.2, hw] using hsame
    have hlower : lowerChar c = [w] := by rw [lowerChar, if_neg hc.2, hsmall]
    have hrest : lowerChars cs = word := ih hword hcs
    rw [lowerChars, List.flatMap_cons, hlower, ← hrest]
    rfl

theorem exists_strange_of_lowerChars {cs : List Char} {c : Char} (hc : c ∈ cs)
    (h : isStrangeI c = true) : '\u0131' ∈ lowerChars cs ∨ '\u0307' ∈ lowerChars cs := by
  have hlower : '\u0131' ∈ lowerChar c ∨ '\u0307' ∈ lowerChar c := by
    rw [isStrangeI, Bool.or_eq_true, beq_iff_eq, beq_iff_eq] at h
    obtain rfl | rfl := h
    · exact .inl (by decide)
    · exact .inr (by decide)
  exact hlower.imp (fun hmem => List.mem_flatMap.mpr ⟨c, hc, hmem⟩)
    fun hmem => List.mem_flatMap.mpr ⟨c, hc, hmem⟩

end Text

/-- The directions as a header spells them up to case. -/
def directionWords : List (List Char) := ["vertical".toList, "horizontal".toList]

theorem directionWords_plain : ∀ word ∈ directionWords, 's' ∉ word ∧ '\u0131' ∉ word ∧
    '\u0307' ∉ word ∧ (Axis.ofName? (String.ofList word)).isSome = true := by
  decide

theorem mem_directionWords {name : String} {axis : Axis} (h : Axis.ofName? name = some axis) :
    name.toList ∈ directionWords := by
  unfold Axis.ofName? at h
  split at h
  · rename_i hname
    simp [hname, directionWords]
  · split at h
    · rename_i hname
      simp [hname, directionWords]
    · cases h

/-- A direction is not found where it is written with a strange letter, and only there. -/
theorem ofName?_lowered_eq_none {word cs : List Char} (hword : word ∈ directionWords)
    (h : List.Forall₂ (fun w c => Text.sameLetter w c = true) word cs) :
    Axis.ofName? (String.ofList (Text.lowerChars cs)) = none ↔
      ∃ c ∈ cs, Text.isStrangeI c = true := by
  constructor
  · intro hnone
    by_contra hplain
    obtain ⟨hs, -, -, hsome⟩ := directionWords_plain word hword
    rw [Text.lowerChars_of_sameLetter h hs (by simpa using hplain)] at hnone
    rw [hnone] at hsome
    cases hsome
  · rintro ⟨c, hc, hstrange⟩
    cases haxis : Axis.ofName? (String.ofList (Text.lowerChars cs)) with
    | none => rfl
    | some axis =>
      have hmem := mem_directionWords haxis
      rw [String.toList_ofList] at hmem
      obtain ⟨-, hdotless, hdot, -⟩ := directionWords_plain _ hmem
      obtain hmem | hmem := Text.exists_strange_of_lowerChars hc hstrange
      · exact absurd hmem hdotless
      · exact absurd hmem hdot

/-! ## Headers -/

namespace Text

theorem isDigit_of_isBasicDigit {c : Char} (h : isBasicDigit c = true) : isDigit c = true := by
  simp only [isBasicDigit, Bool.and_eq_true, decide_eq_true_eq] at h
  have hlow : 0x30 ≤ c.toNat := h.1
  have hhigh : c.toNat ≤ 0x39 := h.2
  unfold isDigit digit?
  dsimp only
  rw [if_pos (by omega), if_pos ⟨hlow, hhigh⟩]
  rfl

end Text

namespace Block

theorem exists_literal_of_basicDecimal? {cs number rest : List Char}
    (h : basicDecimal? cs = some (number, rest)) :
    ∃ l : Literal, l.negative = false ∧ number = l.text := by
  have hdigits (cs : List Char) : ∀ c ∈ cs.takeWhile Text.isBasicDigit, Text.isDigit c = true :=
    fun c hc => Text.isDigit_of_isBasicDigit (List.mem_takeWhile_imp hc)
  unfold basicDecimal? at h
  dsimp only at h
  split at h
  · cases h
  rename_i hwhole
  rw [List.isEmpty_iff] at hwhole
  -- A point without places behind it is left where it is.
  have hinteger : ∃ l : Literal, l.negative = false ∧ cs.takeWhile Text.isBasicDigit = l.text :=
    ⟨⟨false, cs.takeWhile Text.isBasicDigit, [], hwhole, by simpa using hdigits cs⟩, rfl,
      by simp [Literal.text, Literal.body]⟩
  split at h
  · rename_i rest' hpoint
    split at h
    · cases h
      exact hinteger
    · rename_i hpart
      rw [List.isEmpty_iff] at hpart
      cases h
      refine ⟨⟨false, cs.takeWhile Text.isBasicDigit, rest'.takeWhile Text.isBasicDigit, hwhole,
        List.forall_mem_append.mpr ⟨hdigits cs, hdigits rest'⟩⟩, rfl, ?_⟩
      simp [Literal.text, Literal.body, hpart]
  · cases h
    exact hinteger

theorem exists_literal_of_gap? {cs gap : List Char} (h : gap? cs = some gap) :
    ∃ l : Literal, l.negative = false ∧ gap = l.text := by
  unfold gap? at h
  split at h
  · cases h
  · split at h
    · cases h
    · rename_i hdecimal
      dsimp only at h
      split at h
      · cases h
        exact exists_literal_of_basicDecimal? hdecimal
      · cases h

theorem stackParts?_parts {cs direction origin gap : List Char}
    (h : stackParts? cs = some (direction, origin, gap)) :
    (∃ word ∈ directionWords,
      List.Forall₂ (fun w c => Text.sameLetter w c = true) word direction) ∧
      ∃ rest, gap? rest = some gap := by
  simp only [stackParts?, bind, Option.bind_eq_some_iff, Option.some.injEq, Prod.mk.injEq] at h
  obtain ⟨-, -, text, -, rest, hword, parts, -, _, hgap, rfl, -, rfl⟩ := h
  refine ⟨?_, parts.2, hgap⟩
  have hdirection {word : List Char} (hdrop : Text.dropWord? word text = some rest) :
      List.Forall₂ (fun w c => Text.sameLetter w c = true) word
        (text.take (text.length - rest.length)) := by
    obtain ⟨front, rfl, hfront⟩ := Text.exists_of_dropWord? hdrop
    rwa [List.length_append, Nat.add_sub_cancel, List.take_left]
  obtain hvertical | ⟨-, hhorizontal⟩ := Option.or_eq_some_iff.mp hword
  · exact ⟨_, by decide, hdirection hvertical⟩
  · exact ⟨_, by decide, hdirection hhorizontal⟩

theorem gridParts?_gap {cs origin columns gap : List Char}
    (h : gridParts? cs = some (origin, columns, gap)) : ∃ rest, gap? rest = some gap := by
  simp only [gridParts?, bind, Option.bind_eq_some_iff] at h
  obtain ⟨-, -, parts, -, text, -, h⟩ := h
  split at h
  · cases h
  · obtain ⟨rest, -, h⟩ := Option.bind_eq_some_iff.mp h
    obtain ⟨_, hgap, h⟩ := Option.bind_eq_some_iff.mp h
    cases h
    exact ⟨rest, hgap⟩

/-- Whether the direction of a stack header is written with a strange letter. -/
def hasStrangeDirection (text : List Char) : Bool :=
  mode? text == some "stack" && (stackParts? text).any fun parts => parts.1.any Text.isStrangeI

/-- What a header that is accepted comes to. -/
theorem header_cases {text : List Char} {line : LineNumber} {b : Block}
    (h : header text line = .ok b) :
    b.origin.IsFinite ∧ (∃ l : Literal, l.negative = false ∧ b.gap = .real l.number) ∧
      ((∃ direction, b.arrangement = .stack direction ∧
          (Axis.ofName? direction = none ↔ hasStrangeDirection text = true)) ∨
        ∃ n, b.arrangement = .grid (n + 1) ∧ hasStrangeDirection text = false) := by
  have hgap {rest gap : List Char} (hrest : gap? rest = some gap) :
      ∃ l : Literal, l.negative = false ∧ decimal gap = .real l.number := by
    obtain ⟨l, hsign, rfl⟩ := exists_literal_of_gap? hrest
    exact ⟨l, hsign, by rw [decimal, l.read?_text]; rfl⟩
  have hmode : (mode? text).getD "" = "stack" ↔ mode? text = some "stack" := by
    cases mode? text with
    | none => simp
    | some mode => simp
  unfold header at h
  dsimp only at h
  split at h
  · rename_i hstack
    split at h
    · cases h
    · rename_i direction origin gap hparts
      obtain ⟨p, hp, h⟩ := Outcome.bind_eq_ok.mp h
      cases h
      obtain ⟨⟨word, hword, hsame⟩, rest, hrest⟩ := stackParts?_parts hparts
      refine ⟨(Measure.position_finite line _).of_ok hp, hgap hrest, .inl ⟨_, rfl, ?_⟩⟩
      -- A direction that is accepted and not found is written with a strange letter.
      rw [ofName?_lowered_eq_none hword hsame]
      simp [hasStrangeDirection, hmode.mp hstack, hparts]
  · rename_i hstack
    split at h
    · cases h
    · rename_i origin columns gap hparts
      obtain ⟨n, hn, h⟩ := Outcome.bind_eq_ok.mp h
      split at h
      · cases h
      · rename_i hcolumns
        obtain ⟨p, hp, h⟩ := Outcome.bind_eq_ok.mp h
        cases h
        obtain ⟨rest, hrest⟩ := gridParts?_gap hparts
        obtain ⟨n, rfl⟩ := Nat.exists_eq_add_one_of_ne_zero hcolumns
        exact ⟨(Measure.position_finite line _).of_ok hp, hgap hrest,
          .inr ⟨n, rfl, by simp [hasStrangeDirection, mt hmode.mpr hstack]⟩⟩

end Block

/-! ## Layouts -/

namespace Layout

/-- Failures of a layout that are no complaint about geometry. -/
inductive Computation : Fault → Prop where
  | arithmetic (p : ArithmeticProblem) : Computation (.arithmetic p)
  | outOfRange : Computation .outOfRange

theorem Computation.not_layout {α : Type} {value : α → Prop} {result : Except Fault α}
    (h : Outcome.Ends Computation value result) :
    ¬∃ p block, result = .error (.layout p block) := by
  rintro ⟨p, block, rfl⟩
  cases h.of_error rfl

section
variable {α : Type} {boxes : List (Box α)} {origin : Point} {gap : Scalar}
  (horigin : origin.IsFinite) (hgap : gap.IsFinite) (hsign : Scalar.le 0 gap = true)
  (hboxes : ∀ box ∈ boxes, box.IsPositive)
include horigin hgap hsign hboxes

theorem checks_compute : Outcome.Ends Computation (fun _ => True) (checkOrigin origin) ∧
    Outcome.Ends Computation (fun _ => True) (checkGap gap) ∧
    ∀ box ∈ boxes, Outcome.Ends Computation (fun _ => True) (checkBox box) := by
  have hown : Computation (.arithmetic .wholeTooLarge) := .arithmetic _
  refine ⟨(checkOrigin_settles horigin (.inr hown) (.inr hown)).ends,
    (checkGap_settles hgap hsign (.inr hown)).ends, fun box hbox => ?_⟩
  have hwidth := checkLength_settles "width" (hboxes box hbox).1 (.inr hown)
  have hheight := checkLength_settles "height" (hboxes box hbox).2 (.inr hown)
  exact (hwidth.bind fun _ _ => hheight).ends

theorem stack_computes (axis : Axis) (shown : String) :
    Outcome.Ends Computation (fun placed => placed.map (·.box) = boxes)
      (stack boxes (some axis) shown origin gap) := by
  obtain ⟨horigin, hgap, hboxes⟩ := checks_compute horigin hgap hsign hboxes
  exact horigin.bind fun _ _ => hgap.bind fun _ _ =>
    stackFrom_ends .arithmetic axis gap origin hboxes

theorem grid_computes (n : ℕ) (shown : String) :
    Outcome.Ends Computation (fun placed => placed.map (·.box) = boxes)
      (grid boxes origin (some (n + 1)) shown gap) := by
  obtain ⟨horigin, hgap, hboxes⟩ := checks_compute horigin hgap hsign hboxes
  exact horigin.bind fun _ _ => hgap.bind fun _ _ =>
    gridOf_ends .arithmetic .outOfRange hboxes origin (n + 1) gap

end

end Layout

namespace Block

/-- A block whose header is accepted with a finite gap is laid out without a complaint about
geometry, whatever its boxes are, unless its direction is written with a strange letter. -/
theorem place_header_iff {text : List Char} {line : LineNumber} {b : Block}
    (h : header text line = .ok b) (hgap : b.gap.IsFinite) (boxes : List (Box ShapeInstruction))
    (hboxes : ∀ box ∈ boxes, box.IsPositive) :
    (∃ p block, b.place boxes = .error (.layout p block)) ↔ hasStrangeDirection text = true := by
  obtain ⟨horigin, ⟨l, hl, hnumber⟩, hcases⟩ := header_cases h
  have hsign : Scalar.le 0 b.gap = true := by
    obtain ⟨w, hw⟩ := hgap.exists_at
    refine (Scalar.le_at Scalar.zero_at hw).mpr ?_
    rw [hnumber] at hw
    obtain ⟨r, -, hnonneg⟩ := Literal.exists_unsigned hl hw
    exact hnonneg
  -- A stack is refused for its direction only; the columns of a grid are positive.
  obtain ⟨direction, harrangement, haxis⟩ | ⟨n, harrangement, hplain⟩ := hcases
  · have hplace : b.place boxes =
        Layout.stack boxes (Axis.ofName? direction) direction b.origin b.gap := by
      simp only [place, harrangement]
    rw [hplace, ← haxis]
    cases Axis.ofName? direction with
    | none => exact iff_of_true ⟨_, _, rfl⟩ rfl
    | some axis =>
      have hstack := Layout.stack_computes horigin hgap hsign hboxes axis direction
      exact iff_of_false (Layout.Computation.not_layout hstack) (Option.some_ne_none axis)
  · have hplace : b.place boxes =
        Layout.grid boxes b.origin (some (n + 1)) (toString (n + 1)) b.gap := by
      simp only [place, harrangement]
    have hgrid := Layout.grid_computes horigin hgap hsign hboxes n (toString (n + 1))
    rw [hplace]
    exact iff_of_false (Layout.Computation.not_layout hgrid) (by simp [hplain])

/-- Up to case a direction is understood, and with a dotless i it is not. -/
theorem place_header_spellings :
    let boxes : List (Box ShapeInstruction) := [⟨10, 10, { kind := .rectangle }⟩]
    let plain : Block := ⟨"stack", .stack "vertical", ⟨.ofPlaces 1 0, .ofPlaces 25 1⟩,
      .ofPlaces 5 1, [], some 1⟩
    let dotless : Block := ⟨"stack", .stack "vert\u0131cal", ⟨.ofPlaces 0 0, .ofPlaces 0 0⟩,
      .ofPlaces 0 0, [], some 1⟩
    (∀ box ∈ boxes, box.IsPositive) ∧ plain.gap.IsFinite ∧ dotless.gap.IsFinite ∧
      header "Stack VERTICAL 1,2.50 gap=0.5 [".toList (some 1) = .ok plain ∧
      header "stack vert\u0131cal 0,0 gap=0 [".toList (some 1) = .ok dotless ∧
      (¬∃ p block, plain.place boxes = .error (.layout p block)) ∧
      ∃ p block, dotless.place boxes = .error (.layout p block) := by
  intro boxes plain dotless
  have hboxes : ∀ box ∈ boxes, box.IsPositive := by decide +kernel
  have hplain : header "Stack VERTICAL 1,2.50 gap=0.5 [".toList (some 1) = .ok plain := by
    decide +kernel
  have hdotless : header "stack vert\u0131cal 0,0 gap=0 [".toList (some 1) = .ok dotless := by
    decide +kernel
  have hplainGap : plain.gap.IsFinite := by decide +kernel
  have hdotlessGap : dotless.gap.IsFinite := by decide +kernel
  refine ⟨hboxes, hplainGap, hdotlessGap, hplain, hdotless, ?_, ?_⟩
  · rw [place_header_iff hplain hplainGap boxes hboxes]
    decide +kernel
  · rw [place_header_iff hdotless hdotlessGap boxes hboxes]
    decide +kernel

/-- A header with a dotless i in its direction is accepted, and a box under it is refused. -/
theorem header_dotless_refused :
    ∃ b : Block, header "stack vert\u0131cal 0,0 gap=0 [".toList (some 1) = .ok b ∧
      b.gap.IsFinite ∧ (⟨10, 10, { kind := .rectangle }⟩ : Box ShapeInstruction).IsPositive ∧
      b.place [⟨10, 10, { kind := .rectangle }⟩] =
        .error (.layout (.direction "vert\u0131cal") none) := by
  refine ⟨⟨"stack", .stack "vert\u0131cal", ⟨.ofPlaces 0 0, .ofPlaces 0 0⟩, .ofPlaces 0 0, [],
    some 1⟩, ?_⟩
  decide +kernel

end Block

end DiagramScript
