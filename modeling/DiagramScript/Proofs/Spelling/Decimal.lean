import DiagramScript.Proofs.Statement.Measure

/-
  Decimals as they are written.

  A decimal is given by its digits (`PlainDecimal`), so that every one of them can be written
  (`text`) and names a number (`number`); it is a literal, so that what is written is read as that
  number (`text_literal`, `number_literal`). A coordinate and a length are decimals whose numbers
  are finite and, for a length, positive; two of them with a comma or an `x` between them are a
  position or a size (`position_spell`, `size_spell`).
-/

namespace DiagramScript

/-- A decimal without sign: at least one digit, and a point in front of the places if there are
any. -/
structure PlainDecimal where
  first : Fin 10
  more : List (Fin 10)
  places : List (Fin 10)
  deriving DecidableEq

namespace PlainDecimal

/-- The character of a digit. -/
def char (k : Fin 10) : Char := Decimal.digitChar k

/-- The digits in front of the point. -/
def whole (d : PlainDecimal) : List (Fin 10) := d.first :: d.more

def text (d : PlainDecimal) : List Char :=
  d.whole.map char ++ if d.places = [] then [] else '.' :: d.places.map char

/-- The double nearest to a decimal of a sign. -/
def number (negative : Bool) (d : PlainDecimal) : Binary64 :=
  .ofDecimal negative (Decimal.value ((d.whole ++ d.places).map Fin.val)) (-d.places.length)

/-- A decimal with a minus sign if it is negative. -/
def signed (negative : Bool) (d : PlainDecimal) : List Char :=
  if negative then '-' :: d.text else d.text

/-! ## Characters -/

theorem digit?_char (k : Fin 10) : Text.digit? (char k) = some k.val := by
  revert k
  decide

theorem isDigit_char (k : Fin 10) : Text.isDigit (char k) = true := by
  revert k
  decide

theorem filterMap_char (ks : List (Fin 10)) :
    (ks.map char).filterMap Text.digit? = ks.map Fin.val := by
  induction ks with
  | nil => rfl
  | cons k ks ih => simp [digit?_char, ih]

theorem mem_text {d : PlainDecimal} {c : Char} (h : c ∈ d.text) : c = '.' ∨ ∃ k, c = char k := by
  unfold text at h
  rcases List.mem_append.mp h with h | h
  · obtain ⟨k, -, rfl⟩ := List.mem_map.mp h
    exact .inr ⟨k, rfl⟩
  · split at h
    · cases h
    · rcases List.mem_cons.mp h with rfl | h
      · exact .inl rfl
      · obtain ⟨k, -, rfl⟩ := List.mem_map.mp h
        exact .inr ⟨k, rfl⟩

theorem forall_text {P : Char → Prop} (hpoint : P '.') (hdigit : ∀ k, P (char k))
    (d : PlainDecimal) : ∀ c ∈ d.text, P c := by
  intro c hc
  rcases mem_text hc with rfl | ⟨k, rfl⟩
  · exact hpoint
  · exact hdigit k

theorem forall_signed {P : Char → Prop} (hminus : P '-') (hpoint : P '.')
    (hdigit : ∀ k, P (char k)) (negative : Bool) (d : PlainDecimal) :
    ∀ c ∈ d.signed negative, P c := by
  intro c hc
  cases negative with
  | false => exact forall_text hpoint hdigit d c hc
  | true =>
    rcases List.mem_cons.mp hc with rfl | hc
    · exact hminus
    · exact forall_text hpoint hdigit d c hc

/-! ## Literals -/

/-- A decimal of a sign is a literal of basic digits. -/
def literal (negative : Bool) (d : PlainDecimal) : Literal where
  negative := negative
  whole := d.whole.map char
  places := d.places.map char
  nonempty := List.cons_ne_nil _ _
  digits := by
    intro c hc
    rw [← List.map_append] at hc
    obtain ⟨k, -, rfl⟩ := List.mem_map.mp hc
    exact isDigit_char k

theorem text_literal (negative : Bool) (d : PlainDecimal) :
    (d.literal negative).text = d.signed negative := by
  simp [Literal.text, Literal.body, literal, signed, text]

theorem number_literal (negative : Bool) (d : PlainDecimal) :
    (d.literal negative).number = d.number negative := by
  simp only [Literal.number, Literal.numerator, literal, number, ← List.map_append, filterMap_char,
    List.length_map]

end PlainDecimal

namespace Spelling

/-! ## Coordinates and lengths -/

/-- A coordinate: a decimal whose number is finite. -/
structure Coordinate where
  negative : Bool
  decimal : PlainDecimal
  finite : (decimal.number negative).isFinite = true

/-- A length: a decimal whose number is finite and positive. -/
structure Length where
  decimal : PlainDecimal
  finite : (decimal.number false).isFinite = true
  positive : (Scalar.real (decimal.number false)).le 0 = false

def Coordinate.text (c : Coordinate) : List Char := c.decimal.signed c.negative

def Coordinate.scalar (c : Coordinate) : Scalar := .real (c.decimal.number c.negative)

def Length.text (l : Length) : List Char := l.decimal.text

def Length.scalar (l : Length) : Scalar := .real (l.decimal.number false)

/-- A position as a word of a statement. -/
def positionText (x y : Coordinate) : List Char := x.text ++ ',' :: y.text

/-- A size as a word of a statement. -/
def sizeText (w h : Length) : List Char := w.text ++ 'x' :: h.text

theorem writesPosition_positionText (x y : Coordinate) :
    Measure.WritesPosition (x.decimal.literal x.negative) (y.decimal.literal y.negative)
      (positionText x y) := by
  have h := Measure.writesPosition_text (x.decimal.literal x.negative)
    (y.decimal.literal y.negative)
  rwa [PlainDecimal.text_literal, PlainDecimal.text_literal] at h

theorem writesSize_sizeText (w h : Length) :
    Measure.WritesSize (w.decimal.literal false) (h.decimal.literal false) (sizeText w h) := by
  refine ⟨rfl, rfl, [], 'x', [], Text.allBlank_nil, Text.allBlank_nil, .inl rfl, ?_⟩
  rw [PlainDecimal.text_literal, PlainDecimal.text_literal, List.append_nil]
  rfl

theorem isPosition_positionText (x y : Coordinate) :
    Measure.isPosition (positionText x y) = true :=
  (Measure.isPosition_iff _).mpr ⟨_, _, writesPosition_positionText x y⟩

theorem isSize_sizeText (w h : Length) : Measure.isSize (sizeText w h) = true :=
  (Measure.isSize_iff _).mpr ⟨_, _, writesSize_sizeText w h⟩

theorem isPosition_sizeText (w h : Length) : Measure.isPosition (sizeText w h) = false := by
  have hcomma (l : Length) : ',' ∉ l.text := fun hmem =>
    PlainDecimal.forall_text (P := (· ≠ ',')) (by decide) (by decide) l.decimal _ hmem rfl
  apply Bool.eq_false_iff.mpr
  intro hform
  obtain ⟨x, y, front, back, -, -, htext⟩ := (Measure.isPosition_iff _).mp hform
  have hmem : ',' ∈ sizeText w h := by simp [htext]
  simp [sizeText, hcomma] at hmem

/-- A word that starts with neither a blank nor a sign nor a digit is no measure. -/
theorem no_measure {c : Char} (hblank : Text.isBlank c = false) (hminus : c ≠ '-')
    (hdigit : Text.isDigit c = false) (cs : List Char) :
    Measure.isPosition (c :: cs) = false ∧ Measure.isSize (c :: cs) = false := by
  have hskip : Text.skipBlanks (c :: cs) = c :: cs :=
    List.dropWhile_cons_of_neg (Bool.eq_false_iff.mp hblank)
  have hdrop : Measure.dropDecimal? (c :: cs) = none := by
    simp only [Measure.dropDecimal?, Measure.dropDigits?, hdigit, Bool.false_eq_true, if_false]
  have hsigned : Measure.dropSignedDecimal? (c :: cs) = none := by
    unfold Measure.dropSignedDecimal?
    split
    · rename_i h
      exact absurd (List.cons.inj h).1 hminus
    · exact hdrop
  constructor
  · unfold Measure.isPosition
    rw [hskip, hsigned]
    rfl
  · unfold Measure.isSize
    rw [hskip, hdrop]

/-! ## Reading measures -/

theorem number_spell (what : String) {negative : Bool} {d : PlainDecimal}
    (hfinite : (d.number negative).isFinite = true) (line : LineNumber) :
    Measure.number what (d.literal negative).text line = .ok (.real (d.number negative)) := by
  unfold Measure.number
  rw [Literal.read?_text, PlainDecimal.number_literal]
  exact if_pos hfinite

/-- A position that is written is read. -/
theorem position_spell (x y : Coordinate) (line : LineNumber) :
    Measure.position (String.ofList (positionText x y)) line = .ok ⟨x.scalar, y.scalar⟩ := by
  have hwrites := writesPosition_positionText x y
  rw [← String.toList_ofList (l := positionText x y)] at hwrites
  rw [Measure.position_eq line hwrites, number_spell _ x.finite, number_spell _ y.finite]
  rfl

theorem size_spell (w h : Length) (line : LineNumber) :
    Measure.size (String.ofList (sizeText w h)) line = .ok ⟨w.scalar, h.scalar⟩ := by
  have hpositive : ¬(w.scalar.le 0 || h.scalar.le 0) = true := by
    rw [Length.scalar, Length.scalar, w.positive, h.positive]
    decide
  have hwrites := writesSize_sizeText w h
  rw [← String.toList_ofList (l := sizeText w h)] at hwrites
  rw [Measure.size_eq line hwrites, number_spell _ w.finite, number_spell _ h.finite]
  exact if_neg hpositive

end Spelling

end DiagramScript
