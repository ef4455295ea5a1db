import DiagramScript.Proofs.Markup.Reader
import DiagramScript.Svg.Element
import Mathlib.Tactic.SplitIfs

/-
  Escapes and their readings.

  Escaped characters spell a letter: it is read off them whatever follows (`Spells`). By
  induction on its letters a text is read off its escape as it was (`unescape_escapeLetters`). No
  escape holds a sign at which the reader would cut it, so nothing in a text starts or ends a tag
  and nothing in a value ends that value (`tagless_escapeText`, `not_mem_escapeValue`).
-/

namespace DiagramScript

namespace Text

theorem letters_append_of_plain {cs : List Char} (h : mark ∉ cs) (rest : List Char) :
    letters (cs ++ rest) = cs.map .char ++ letters rest := by
  induction cs with
  | nil => rfl
  | cons c cs ih =>
    have hc : c ≠ mark := fun hc => h (by rw [hc]; exact List.mem_cons_self)
    have hletters := letters_chars_append (.char c) (cs ++ rest)
    rw [Letter.chars, if_neg hc, List.singleton_append] at hletters
    rw [List.cons_append, hletters, ih fun hcs => h (List.mem_cons_of_mem c hcs)]
    rfl

theorem letters_eq_nil {cs : List Char} (h : letters cs = []) : cs = [] := by
  match cs with
  | [] => rfl
  | [c] => cases h
  | c :: d :: rest =>
    rw [letters] at h
    split at h <;> cases h

theorem Letter.ofCode_code (n : Fin 2048) : ofCode (half n).code = half n := by
  have hcode : (half n).code - firstHalf = n := Nat.add_sub_cancel_left ..
  have hfirst : firstHalf ≤ (half n).code := Nat.le_add_right ..
  rw [ofCode, dif_pos ⟨by rw [hcode]; exact n.isLt, hfirst⟩]
  exact congrArg half (Fin.ext hcode)

end Text

namespace Markup
open Text (Letter)
open Svg.Element (escapeTextChar escapeValueChar escapeLetters escapeText escapeValue)

/-- Characters that spell a letter: it is read off them whatever follows. -/
def Spells (written : List Char) (l : Letter) : Prop :=
  ∀ rest, resolve? none (Text.letters (written ++ rest)) =
    (l :: ·) <$> resolve? none (Text.letters rest)

theorem resolve?_name {before name : List Char} (h : ';' ∉ name) (ls : List Letter) :
    resolve? (some before) (name.map .char ++ .char ';' :: ls) =
      reference? (before ++ name) >>= fun l => (l :: ·) <$> resolve? none ls := by
  -- By induction on the name, of which some has been read before.
  induction name generalizing before with
  | nil => simp only [List.map_nil, List.nil_append, List.append_nil, resolve?, if_true]
  | cons c name ih =>
    have hc : c ≠ ';' := fun hc => h (hc ▸ List.mem_cons_self)
    simp only [List.map_cons, List.cons_append, resolve?, if_neg hc]
    rw [ih fun hname => h (List.mem_cons_of_mem c hname), List.append_assoc, List.singleton_append]

theorem spells_reference (name : List Char) {l : Letter} (hmark : Text.mark ∉ name)
    (hend : ';' ∉ name) (h : reference? name = some l) : Spells ('&' :: (name ++ [';'])) l := by
  intro rest
  have hplain : Text.mark ∉ '&' :: (name ++ [';']) := by
    simp only [List.mem_cons, List.mem_append, List.not_mem_nil, or_false]
    rintro (hc | hc | hc)
    · exact absurd hc (by decide)
    · exact hmark hc
    · exact absurd hc (by decide)
  rw [Text.letters_append_of_plain hplain, List.map_cons, List.cons_append, resolve?, if_pos rfl,
    List.map_append, List.append_assoc]
  change resolve? (some []) (name.map .char ++ .char ';' :: Text.letters rest) = _
  rw [resolve?_name hend, List.nil_append, h]
  rfl

theorem spells_chars {l : Letter} (h : l ≠ .char '&') : Spells l.chars l := by
  intro rest
  rw [Text.letters_chars_append, resolve?, if_neg h]

theorem spells_escapeTextChar (c : Char) : Spells (escapeTextChar c) (.char c) := by
  unfold escapeTextChar
  split
  · subst c
    exact spells_reference ['a', 'm', 'p'] (by decide) (by decide) rfl
  split
  · subst c
    exact spells_reference ['l', 't'] (by decide) (by decide) rfl
  split
  · subst c
    exact spells_reference ['g', 't'] (by decide) (by decide) rfl
  · rename_i hc _ _
    exact spells_chars fun hl => hc (Letter.char.inj hl)

theorem spells_escapeValueChar (c : Char) : Spells (escapeValueChar c) (.char c) := by
  unfold escapeValueChar
  split
  · subst c
    exact spells_reference ['q', 'u', 'o', 't'] (by decide) (by decide) rfl
  split
  · subst c
    exact spells_reference ['#', '1', '3'] (by decide) (by decide) (by decide)
  split
  · subst c
    exact spells_reference ['#', '1', '0'] (by decide) (by decide) (by decide)
  split
  · subst c
    exact spells_reference ['#', '0', '9'] (by decide) (by decide) (by decide)
  · exact spells_escapeTextChar c

theorem spells_code (n : Fin 2048) :
    Spells ('&' :: '#' :: ((toString (Letter.half n).code).toList ++ [';'])) (.half n) := by
  rw [Nat.toString_eq_ofList_toDigits, String.toList_ofList]
  have hdigit : ∀ c ∈ Nat.toDigits 10 (Letter.half n).code, c.isDigit = true := fun c hc =>
    Nat.isDigit_of_mem_toDigits (by decide) (by decide) hc
  have hother {c : Char} (hc : c.isDigit = false) (hhash : c ≠ '#') :
      c ∉ '#' :: Nat.toDigits 10 (Letter.half n).code := by
    rintro (_ | ⟨_, hmem⟩)
    · exact hhash rfl
    · rw [hdigit c hmem] at hc
      cases hc
  refine spells_reference ('#' :: Nat.toDigits 10 (Letter.half n).code)
    (hother (by decide) (by decide)) (hother (by decide) (by decide)) ?_
  have hcode : (Letter.half n).code < 0x110000 := by
    have := n.isLt
    simp only [Letter.code, Text.firstHalf]
    omega
  simp only [reference?, Nat.ofDigitChars_ten_toDigits, Letter.ofCode_code,
    List.all_eq_true.mpr hdigit, List.isEmpty_eq_false_iff.mpr Nat.toDigits_ne_nil, hcode]
  rfl

variable {escape : Char → List Char}

theorem unescape_escapeLetters (h : ∀ c, Spells (escape c) (.char c)) (s : String) :
    unescape (escapeLetters escape s) = some (Text.letters s.toList) := by
  unfold unescape escapeLetters
  -- By induction on the letters: each of them is read off its escape.
  induction Text.letters s.toList with
  | nil => rfl
  | cons l ls ih =>
    rw [List.flatMap_cons]
    cases l with
    | char c => rw [h c, ih]; rfl
    | half n => rw [spells_code n, ih]; rfl

/-! ## Signs -/

/-- The signs that end a text or the value of an attribute. -/
def signs : List Char := ['"', '<', '>']

theorem not_mem_of_all {sign : Char} {written : List Char} (hsign : sign ∈ signs)
    (h : signs.all (! written.contains ·) = true) : sign ∉ written := by
  intro hmem
  have hother := List.all_eq_true.mp h sign hsign
  rw [List.contains_iff_mem.mpr hmem] at hother
  cases hother

theorem not_mem_escapeLetters {sign : Char} (hsign : sign ∈ signs) (h : ∀ c, sign ∉ escape c)
    (s : String) : sign ∉ escapeLetters escape s := by
  intro hmem
  obtain ⟨l, -, hl⟩ := List.mem_flatMap.mp hmem
  cases l with
  | char c => exact h c hl
  | half n =>
    have hreference : sign ∉ ['&', '#', ';'] := not_mem_of_all hsign (by decide)
    have hdigit : (!sign.isDigit) = true :=
      List.all_eq_true.mp (show signs.all (! ·.isDigit) = true by decide) sign hsign
    simp only [Nat.toString_eq_ofList_toDigits, String.toList_ofList, List.mem_cons,
      List.mem_append, List.not_mem_nil, or_false, not_or] at hl hreference
    rcases hl with hl | hl | hl | hl
    · exact hreference.1 hl
    · exact hreference.2.1 hl
    · rw [Nat.isDigit_of_mem_toDigits (by decide) (by decide) hl] at hdigit
      cases hdigit
    · exact hreference.2.2 hl

theorem eq_of_mem_chars {sign c : Char} (hsign : sign ∈ signs)
    (h : sign ∈ (Letter.char c).chars) : sign = c := by
  by_cases hc : c = Text.mark
  · rw [Letter.chars, if_pos hc] at h
    exact absurd h (not_mem_of_all hsign (by decide))
  · rw [Letter.chars, if_neg hc] at h
    exact List.mem_singleton.mp h

/-- The only sign that is not escaped in a text is a quote. -/
theorem eq_quote_of_mem_escapeTextChar {sign c : Char} (hsign : sign ∈ signs)
    (h : sign ∈ escapeTextChar c) : sign = c ∧ c = '"' := by
  unfold escapeTextChar at h
  split_ifs at h with _ hless hgreater
  · exact absurd h (not_mem_of_all hsign (by decide))
  · exact absurd h (not_mem_of_all hsign (by decide))
  · exact absurd h (not_mem_of_all hsign (by decide))
  · obtain rfl := eq_of_mem_chars hsign h
    refine ⟨rfl, ?_⟩
    simpa [signs, hless, hgreater] using hsign

theorem not_mem_escapeValueChar {sign : Char} (hsign : sign ∈ signs) (c : Char) :
    sign ∉ escapeValueChar c := by
  intro h
  unfold escapeValueChar at h
  split_ifs at h with hquote
  · exact not_mem_of_all hsign (by decide) h
  · exact not_mem_of_all hsign (by decide) h
  · exact not_mem_of_all hsign (by decide) h
  · exact not_mem_of_all hsign (by decide) h
  · exact hquote (eq_quote_of_mem_escapeTextChar hsign h).2

/-- Characters that neither start nor end a tag. -/
def Tagless (cs : List Char) : Prop := ∀ sign, sign = '<' ∨ sign = '>' → sign ∉ cs

theorem tagless_append {cs ds : List Char} (hcs : Tagless cs) (hds : Tagless ds) :
    Tagless (cs ++ ds) := fun sign hsign hmem =>
  (List.mem_append.mp hmem).elim (hcs sign hsign) (hds sign hsign)

/-- An escaped text neither starts nor ends a tag. -/
theorem tagless_escapeText (s : String) : Tagless (escapeText s) := by
  intro sign hsign
  have hmem : sign ∈ signs := by rcases hsign with rfl | rfl <;> decide
  have hquote : sign ≠ '"' := by rcases hsign with rfl | rfl <;> decide
  refine not_mem_escapeLetters hmem (fun c hc => ?_) s
  obtain ⟨heq, rfl⟩ := eq_quote_of_mem_escapeTextChar hmem hc
  exact hquote heq

theorem not_mem_escapeValue {sign : Char} (hsign : sign ∈ signs) (s : String) :
    sign ∉ escapeValue s :=
  not_mem_escapeLetters hsign (not_mem_escapeValueChar hsign) s

/-- What stands between two tags is the text that was written there. -/
theorem text?_escapeText (s : String) : text? (escapeText s) =
    some (if s.isEmpty then [] else [.text (Text.letters s.toList)]) := by
  have hletters := unescape_escapeLetters spells_escapeTextChar s
  by_cases hs : s = ""
  · subst hs
    rfl
  · have hwritten : escapeText s ≠ [] := by
      intro hnil
      rw [show escapeLetters _ s = [] from hnil] at hletters
      exact hs (String.toList_eq_nil_iff.mp (Text.letters_eq_nil (Option.some.inj hletters).symm))
    rw [text?, List.isEmpty_eq_false_iff.mpr hwritten, if_neg Bool.false_ne_true,
      escapeText, hletters, if_neg (by rwa [String.isEmpty_iff])]
    rfl

end Markup

end DiagramScript
