/-
  Letters of a text.

  A letter is a character, or half of a surrogate pair that came without its other half. A
  string holds characters only, so a half is written in it as two of them, a mark and a
  stand-in, and the mark itself is written twice. Whoever counts, cuts or escapes a text
  reads it by `letters`; reading gives back the letters that were written
  (`letters_flatMap_chars`).
-/

namespace DiagramScript.Text

/-- A letter: a character, or a half of a pair by its number among all halves. -/
inductive Letter where
  | char (c : Char)
  | half (n : Fin 2048)
  deriving DecidableEq, Repr

/-- What a half is written with in front of its stand-in. -/
def mark : Char := Char.ofNat 0x10FFFF

/-- The code of the first half. -/
def firstHalf : Nat := 0xD800

/-- The code of the first stand-in. -/
def firstStandIn : Nat := 0xF0000

namespace Letter

/-- The letter of a code. -/
def ofCode (n : Nat) : Letter :=
  if h : n - firstHalf < 2048 ∧ firstHalf ≤ n then half ⟨n - firstHalf, h.1⟩
  else char (Char.ofNat n)

/-- The code of a letter. -/
def code : Letter → Nat
  | char c => c.toNat
  | half n => firstHalf + n

/-- The characters that a letter is written with. -/
def chars : Letter → List Char
  | char c => if c = mark then [mark, mark] else [c]
  | half n => [mark, Char.ofNat (firstStandIn + n)]

/-- The letter that is written with a mark and another character. -/
def marked (c : Char) : Letter :=
  if c = mark then char mark
  else half ⟨(c.toNat - firstStandIn) % 2048, Nat.mod_lt _ (by decide)⟩

/-- Whether a letter is half of a pair. -/
def isHalf : Letter → Bool
  | char _ => false
  | half _ => true

end Letter

/-- The letters of a text. -/
def letters : List Char → List Letter
  | [] => []
  | [c] => [.char c]
  | c :: d :: rest =>
    if c = mark then Letter.marked d :: letters rest else .char c :: letters (d :: rest)

/-- The text of some letters. -/
def ofLetters (ls : List Letter) : List Char := ls.flatMap Letter.chars

/-- The number of letters of a text. -/
def letterCount (cs : List Char) : Nat := (letters cs).length

/-- The first letters of a text. -/
def takeLetters (n : Nat) (cs : List Char) : List Char := ofLetters ((letters cs).take n)

/-- Whether a text holds half of a pair. -/
def hasHalf (cs : List Char) : Bool := (letters cs).any Letter.isHalf

/-- A text of characters alone. -/
def ofChars (cs : List Char) : List Char := ofLetters (cs.map .char)

/-! ## Laws -/

theorem toNat_standIn (n : Fin 2048) :
    (Char.ofNat (firstStandIn + n)).toNat = firstStandIn + n := by
  have hv : (firstStandIn + n).isValidChar := by
    have := n.isLt
    right; simp only [firstStandIn]; omega
  rw [Char.ofNat, dif_pos hv]
  rfl

theorem standIn_ne_mark (n : Fin 2048) : Char.ofNat (firstStandIn + n) ≠ mark := by
  intro h
  have h := congrArg Char.toNat h
  rw [toNat_standIn] at h
  have hm : mark.toNat = 0x10FFFF := by decide
  have := n.isLt
  simp only [hm, firstStandIn] at h
  omega

theorem marked_standIn (n : Fin 2048) :
    Letter.marked (Char.ofNat (firstStandIn + n)) = .half n := by
  rw [Letter.marked, if_neg (standIn_ne_mark n)]
  refine congrArg Letter.half (Fin.ext ?_)
  change ((Char.ofNat (firstStandIn + n)).toNat - firstStandIn) % 2048 = n
  rw [toNat_standIn, Nat.add_sub_cancel_left]
  exact Nat.mod_eq_of_lt n.isLt

/-- The first letter is read off the characters that it was written with. -/
theorem letters_chars_append (l : Letter) (cs : List Char) :
    letters (l.chars ++ cs) = l :: letters cs := by
  cases l with
  | char c =>
    by_cases h : c = mark
    · rw [Letter.chars, if_pos h, List.cons_append, List.cons_append, List.nil_append, letters,
        if_pos rfl, Letter.marked, if_pos rfl, h]
    · rw [Letter.chars, if_neg h, List.cons_append, List.nil_append]
      cases cs with
      | nil => rfl
      | cons d rest => rw [letters, if_neg h]
  | half n =>
    rw [Letter.chars, List.cons_append, List.cons_append, List.nil_append, letters, if_pos rfl,
      marked_standIn]

theorem letters_flatMap_chars (ls : List Letter) : letters (ls.flatMap Letter.chars) = ls := by
  induction ls with
  | nil => rfl
  | cons l ls ih => rw [List.flatMap_cons, letters_chars_append, ih]

end DiagramScript.Text
