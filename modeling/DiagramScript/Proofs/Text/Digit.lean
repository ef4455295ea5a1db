import DiagramScript.Text.Blank
import DiagramScript.Text.DecimalDigit
import DiagramScript.Text.FinalSigma
import Mathlib.Data.List.Basic

/-
  Decimal digits and blanks as classes of characters.

  A digit lies among ten characters from some zero on (`exists_zero`), so that what can be
  computed of one character can be checked of all of them (`forall_digit`); the blanks are listed
  (`forall_blank`). No digit is a blank, and neither digits nor blanks change in small letters
  (`lowerChar_of_isDigit`, `lowerChar_of_isBlank`).
-/

namespace DiagramScript.Text

theorem exists_zero {c : Char} (h : isDigit c = true) :
    ∃ z ∈ digitZeros, z ≤ c.toNat ∧ c.toNat < z + 10 := by
  unfold isDigit digit? at h
  dsimp only at h
  split at h
  · split at h
    · exact ⟨0x30, by decide, by omega, by omega⟩
    · simp at h
  · rw [Option.isSome_map, List.find?_isSome] at h
    simpa using h

/-- What holds of ten characters from each zero on holds of every digit. -/
theorem forall_digit {P : Char → Prop}
    (h : ∀ z ∈ digitZeros, ∀ k < 10, P (Char.ofNat (z + k))) : ∀ c, isDigit c = true → P c := by
  intro c hc
  obtain ⟨z, hz, hle, hlt⟩ := exists_zero hc
  have hP := h z hz (c.toNat - z) (by omega)
  rwa [Nat.add_sub_cancel' hle, Char.ofNat_toNat] at hP

/-- Code points of the blanks. -/
def blankCodes : List Nat := [
    0x09, 0x0A, 0x0B, 0x0C, 0x0D, 0x1C, 0x1D, 0x1E, 0x1F, 0x20, 0x85, 0xA0, 0x1680, 0x2000, 0x2001,
    0x2002, 0x2003, 0x2004, 0x2005, 0x2006, 0x2007, 0x2008, 0x2009, 0x200A, 0x2028, 0x2029, 0x202F,
    0x205F, 0x3000]

theorem forall_blank {P : Char → Prop} (h : ∀ n ∈ blankCodes, P (Char.ofNat n)) :
    ∀ c, isBlank c = true → P c := by
  intro c hc
  have hmem : c.toNat ∈ blankCodes := by
    simp [isBlank] at hc
    simp [blankCodes]
    omega
  have hP := h c.toNat hmem
  rwa [Char.ofNat_toNat] at hP

theorem isBlank_of_isDigit : ∀ c, isDigit c = true → isBlank c = false :=
  forall_digit (by decide +kernel)

/-- No run of capital letters meets the digits of a script. -/
theorem capitalRuns_apart : ∀ z ∈ digitZeros, ∀ run ∈ capitalRuns,
    z + 10 ≤ run.1 ∨ run.1 + run.2.1 * run.2.2.1 ≤ z := by
  have hcheck : (digitZeros.all fun z => capitalRuns.all fun run =>
      Nat.ble (z + 10) run.1 || Nat.ble (run.1 + run.2.1 * run.2.2.1) z) = true := by
    decide +kernel
  simpa only [List.all_eq_true, Bool.or_eq_true, Nat.ble_eq] using hcheck

section Digit
variable {c d : Char} (h : isDigit c = true)
include h

theorem ne_of_isDigit (hd : isDigit d = false) : c ≠ d := by
  intro heq
  rw [heq, hd] at h
  cases h

/-- The digits of the basic alphabet come before those of all other scripts. -/
theorem toNat_of_isDigit : (0x30 ≤ c.toNat ∧ c.toNat ≤ 0x39) ∨ 0x660 ≤ c.toNat := by
  have hzeros : ∀ z ∈ digitZeros, z = 0x30 ∨ 0x660 ≤ z := by decide
  obtain ⟨z, hz, hle, hlt⟩ := exists_zero h
  have := hzeros z hz
  omega

theorem toLower_of_isDigit : c.toLower = c := by
  have hcode := toNat_of_isDigit h
  unfold Char.toLower
  split
  · rename_i hletter
    have hlow : 0x41 ≤ c.toNat := hletter.1
    have hhigh : c.toNat ≤ 0x5A := hletter.2
    omega
  · rfl

theorem lowerChar_of_isDigit : lowerChar c = [c] := by
  obtain ⟨z, hz, hle, hlt⟩ := exists_zero h
  have hcode := toNat_of_isDigit h
  have hsmall : smallLetter c = c := by
    unfold smallLetter
    dsimp only
    split
    · exact if_neg (by omega)
    · split
      · rename_i hfound
        have hrun := List.find?_some hfound
        have hapart := capitalRuns_apart z hz _ (List.mem_of_find?_eq_some hfound)
        simp only [Bool.and_eq_true, decide_eq_true_eq] at hrun hapart
        omega
      · rfl
  unfold lowerChar
  rw [if_neg (ne_of_isDigit h (by decide)), hsmall]

end Digit

theorem lowerChar_of_isBlank : ∀ c, isBlank c = true → lowerChar c = [c] :=
  forall_blank (by decide +kernel)

theorem lowerChars_append (cs ds : List Char) :
    lowerChars (cs ++ ds) = lowerChars cs ++ lowerChars ds :=
  List.flatMap_append

/-- Characters that are their own small letters stay in small letters. -/
theorem lowerChars_keep {cs : List Char} (h : ∀ c ∈ cs, lowerChar c = [c]) :
    lowerChars cs = cs := by
  unfold lowerChars
  rw [List.flatMap_congr h, List.flatMap_singleton']

end DiagramScript.Text
