import DiagramScript.Number.Numeral
import DiagramScript.Proofs.Number.Near
import DiagramScript.Proofs.Text
import DiagramScript.Proofs.Text.Digit

/-
  Plain decimals as texts write them.

  A literal is an optional minus sign, digits of any script, and a point in front of the places
  if there are any (`text`). It has a value (`value`), and reading it gives the double that is
  rounded from that value (`number`, `read?_text`).
-/

namespace DiagramScript

/-- A plain decimal. -/
structure Literal where
  negative : Bool
  /-- The digits in front of the point, at least one. -/
  whole : List Char
  /-- The digits behind the point. -/
  places : List Char
  nonempty : whole ≠ []
  digits : ∀ c ∈ whole ++ places, Text.isDigit c = true

namespace Literal

/-- The characters of a literal behind its sign. -/
def body (l : Literal) : List Char :=
  l.whole ++ if l.places = [] then [] else '.' :: l.places

def text (l : Literal) : List Char := if l.negative then '-' :: l.body else l.body

/-- The whole number that all digits write. -/
def numerator (l : Literal) : Nat := Decimal.value ((l.whole ++ l.places).filterMap Text.digit?)

/-- The double that a literal stands for. -/
def number (l : Literal) : Binary64 := .ofDecimal l.negative l.numerator (-l.places.length)

def value (l : Literal) : ℚ :=
  Binary64.signed l.negative (l.numerator / 10 ^ l.places.length)

section
variable (l : Literal)

theorem whole_digits : ∀ c ∈ l.whole, Text.isDigit c = true := by
  intro c hc
  exact l.digits c (by simp [hc])

theorem places_digits : ∀ c ∈ l.places, Text.isDigit c = true := by
  intro c hc
  exact l.digits c (by simp [hc])

/-! ## Characters -/

theorem exists_first : ∃ d cs, l.body = d :: cs ∧ Text.isDigit d = true := by
  unfold body
  have hdigits := l.whole_digits
  cases hwhole : l.whole with
  | nil => exact absurd hwhole l.nonempty
  | cons d ds =>
    rw [hwhole] at hdigits
    exact ⟨d, _, List.cons_append, hdigits d List.mem_cons_self⟩

theorem text_ne_nil : l.text ≠ [] := by
  obtain ⟨d, cs, hbody, -⟩ := l.exists_first
  unfold text
  split
  · simp
  · simp [hbody]

/-- What holds of digits, of the point and of the sign holds of all characters of a literal. -/
theorem forall_text {P : Char → Prop} (hdigit : ∀ c, Text.isDigit c = true → P c) (hpoint : P '.')
    (hminus : l.negative = true → P '-') : ∀ c ∈ l.text, P c := by
  have hbody : ∀ c ∈ l.body, P c := by
    intro c hc
    unfold body at hc
    split at hc
    · rw [List.append_nil] at hc
      exact hdigit c (l.whole_digits c hc)
    · simp only [List.mem_append, List.mem_cons] at hc
      obtain hc | rfl | hc := hc
      · exact hdigit c (l.whole_digits c hc)
      · exact hpoint
      · exact hdigit c (l.places_digits c hc)
  unfold text
  split
  · rename_i hnegative
    exact List.forall_mem_cons.mpr ⟨hminus hnegative, hbody⟩
  · exact hbody

theorem isBlank_text : ∀ c ∈ l.text, Text.isBlank c = false :=
  l.forall_text Text.isBlank_of_isDigit (by decide) fun _ => by decide

/-- A mark that is no digit, no point and no sign is in no literal. -/
theorem not_mem_text {c : Char} (hdigit : Text.isDigit c = false) (hpoint : c ≠ '.')
    (hminus : c ≠ '-') : c ∉ l.text := by
  intro hmem
  refine l.forall_text (P := (· ≠ c)) ?_ hpoint.symm (fun _ => hminus.symm) c hmem rfl
  intro d hd
  exact Text.ne_of_isDigit hd hdigit

end

/-! ## Reading -/

section Runs
variable {ds rest : List Char} (hds : ∀ c ∈ ds, Text.isDigit c = true)
include hds

theorem length_values : (ds.filterMap Text.digit?).length = ds.length := by
  rw [List.filterMap_length_eq_length]
  exact hds

/-- Digits are read up to the first character that is none. -/
theorem moreDigits_digits (hrest : Numeral.moreDigits rest = ([], rest)) :
    Numeral.moreDigits (ds ++ rest) = (ds.filterMap Text.digit?, rest) := by
  induction ds with
  | nil => exact hrest
  | cons d ds ih =>
    obtain ⟨hd, hds⟩ := List.forall_mem_cons.mp hds
    obtain ⟨k, hk⟩ := Option.isSome_iff_exists.mp hd
    rw [List.cons_append, Numeral.moreDigits]
    · simp [hk, ih hds]
    · intro _ _ h
      exact absurd h (Text.ne_of_isDigit hd (by decide))

theorem digitRun_digits (hne : ds ≠ []) (hrest : Numeral.moreDigits rest = ([], rest)) :
    Numeral.digitRun (ds ++ rest) = (ds.filterMap Text.digit?, rest) := by
  cases ds with
  | nil => exact absurd rfl hne
  | cons d ds =>
    obtain ⟨hd, hds⟩ := List.forall_mem_cons.mp hds
    obtain ⟨k, hk⟩ := Option.isSome_iff_exists.mp hd
    simp [Numeral.digitRun, hk, moreDigits_digits hds hrest]

end Runs

section
variable (l : Literal)

theorem unsigned?_body (negative : Bool) :
    Numeral.unsigned? negative l.body =
      some (.decimal negative l.numerator (-l.places.length)) := by
  -- A literal starts with a digit, so it is none of the words.
  obtain ⟨d, cs, hbody, hd⟩ := l.exists_first
  have hword {c : Char} (hc : Text.isDigit c = false) (word : List Char) :
      l.body.map Char.toLower ≠ c :: word := by
    rw [hbody, List.map_cons, Text.toLower_of_isDigit hd]
    intro h
    exact Text.ne_of_isDigit hd hc (List.cons.inj h).1
  unfold Numeral.unsigned?
  rw [if_neg (not_or.mpr ⟨hword (by decide) _, hword (by decide) _⟩), if_neg (hword (by decide) _)]
  have hlength := length_values l.places_digits
  have hwhole : l.whole.filterMap Text.digit? ≠ [] := by
    rw [← List.length_pos_iff, length_values l.whole_digits, List.length_pos_iff]
    exact l.nonempty
  unfold body numerator
  rw [List.filterMap_append]
  split
  · rename_i hplaces
    rw [digitRun_digits l.whole_digits l.nonempty rfl]
    simp [Numeral.fraction, Numeral.exponent?, hplaces, hwhole]
  · rename_i hplaces
    have hrun : Numeral.digitRun (l.places ++ []) = (l.places.filterMap Text.digit?, []) :=
      digitRun_digits l.places_digits hplaces rfl
    rw [List.append_nil] at hrun
    rw [digitRun_digits l.whole_digits l.nonempty rfl]
    simp [Numeral.fraction, hrun, Numeral.exponent?, hwhole, hlength]

theorem sign_text : Numeral.sign l.text = (l.negative, l.body) := by
  obtain ⟨d, cs, hbody, hd⟩ := l.exists_first
  unfold text
  cases l.negative with
  | true => rfl
  | false =>
    rw [if_neg Bool.false_ne_true, hbody]
    unfold Numeral.sign
    split
    · rename_i h
      exact absurd (List.cons.inj h).1 (Text.ne_of_isDigit hd (by decide))
    · rename_i h
      exact absurd (List.cons.inj h).1 (Text.ne_of_isDigit hd (by decide))
    · rfl

/-- Reading a literal gives its number. -/
theorem read?_text : Binary64.read? l.text = some l.number := by
  unfold Binary64.read? Numeral.read?
  rw [Text.stripChars_of_solid l.isBlank_text, l.sign_text, l.unsigned?_body]
  rfl

end

end Literal

/-! ## Written integers -/

namespace Decimal

theorem digit?_digitChar {d : Nat} (h : d < 10) : Text.digit? (digitChar d) = some d := by
  have hall : ∀ k < 10, Text.digit? (digitChar k) = some k := by decide
  exact hall d h

theorem isDigit_digitChar {d : Nat} (h : d < 10) : Text.isDigit (digitChar d) = true := by
  simp [Text.isDigit, digit?_digitChar h]

theorem digits_ne_nil (n : Nat) : digits n ≠ [] := by
  unfold digits
  split
  · simp
  · simp

theorem isDigit_digits (n : Nat) : ∀ c ∈ digits n, Text.isDigit c = true := by
  induction n using digits.induct with
  | case1 n h =>
    rw [digits, if_pos h]
    simp [isDigit_digitChar h]
  | case2 n h ih =>
    rw [digits, if_neg h]
    simpa [or_imp, forall_and] using
      ⟨ih, isDigit_digitChar (Nat.mod_lt n (by decide))⟩

/-- The digits of a number write it. -/
theorem value_digit?_digits (n : Nat) : value ((digits n).filterMap Text.digit?) = n := by
  induction n using digits.induct with
  | case1 n h =>
    rw [digits, if_pos h]
    simp [digit?_digitChar h, value]
  | case2 n h ih =>
    have hdigit := digit?_digitChar (Nat.mod_lt n (show 0 < 10 by decide))
    rw [digits, if_neg h, List.filterMap_append]
    simp [hdigit, value_append, ih]
    omega

end Decimal

namespace Literal

/-- An integer as it is written. -/
def ofInt (k : ℤ) : Literal where
  negative := decide (k < 0)
  whole := Decimal.digits k.natAbs
  places := []
  nonempty := Decimal.digits_ne_nil _
  digits := by simpa using Decimal.isDigit_digits k.natAbs

theorem text_ofInt (k : ℤ) : (ofInt k).text = Decimal.integer k := by
  simp [text, body, ofInt, Decimal.integer]

theorem value_ofInt (k : ℤ) : (ofInt k).value = k := by
  have hnumerator : (ofInt k).numerator = k.natAbs := by
    simp [numerator, ofInt, Decimal.value_digit?_digits]
  rw [value, hnumerator]
  show Binary64.signed (decide (k < 0)) (k.natAbs / 10 ^ 0) = k
  rw [pow_zero, div_one, Scalar.signed_natAbs]

end Literal

end DiagramScript
