import DiagramScript.Proofs.Markup.Escape
import DiagramScript.Proofs.Svg.Element

/-
  Letters that XML allows.

  A text of XML may hold most characters and no half of a pair. An escape replaces signs of the
  markup, and halves by references to their numbers; it lets every other character through, also
  one that XML does not allow. So what is written of an element carries exactly those characters
  that are not allowed and stand in its texts and attributes (`carries_write`), and is legal where
  there are none (`Carries.isLegal_iff`).
-/

namespace DiagramScript

open Text (Letter)

/-! ## Letters -/

/-- Whether a text of XML may hold a letter. -/
def Text.Letter.isLegal (l : Letter) : Bool :=
  l.code = 0x9 || l.code = 0xA || l.code = 0xD || (0x20 ≤ l.code && l.code ≤ 0xD7FF) ||
    (0xE000 ≤ l.code && l.code ≤ 0xFFFD) || (0x10000 ≤ l.code && l.code ≤ 0x10FFFF)

/-- A text of letters that XML allows. -/
def Markup.IsLegal (s : String) : Prop := ∀ l ∈ Text.letters s.toList, l.isLegal = true

namespace Text

/-- Whether a text holds no letter but those that XML allows and halves of pairs. -/
def isClean (s : String) : Bool := (letters s.toList).all fun l => l.isLegal || l.isHalf

/-- Characters all of which XML allows. -/
def Legible (cs : List Char) : Prop := ∀ c ∈ cs, (Letter.char c).isLegal = true

instance (cs : List Char) : Decidable (Legible cs) := List.decidableBAll _ cs

theorem Letter.isLegal_iff {l : Letter} : l.isLegal = true ↔
    l.code = 0x9 ∨ l.code = 0xA ∨ l.code = 0xD ∨ (0x20 ≤ l.code ∧ l.code ≤ 0xD7FF) ∨
      (0xE000 ≤ l.code ∧ l.code ≤ 0xFFFD) ∨ (0x10000 ≤ l.code ∧ l.code ≤ 0x10FFFF) := by
  simp only [isLegal, Bool.or_eq_true, Bool.and_eq_true, decide_eq_true_eq, or_assoc]

theorem Letter.isLegal_of_isDigit {c : Char} (h : c.isDigit = true) :
    (char c).isLegal = true := by
  rw [Char.isDigit, Bool.and_eq_true, decide_eq_true_eq, decide_eq_true_eq] at h
  have hlow : 48 ≤ c.toNat := h.1
  have hhigh : c.toNat ≤ 57 := h.2
  rw [isLegal_iff, code]
  omega

theorem mem_of_char_mem_letters {c : Char} {cs : List Char} (h : .char c ∈ letters cs) :
    c ∈ cs := by
  fun_induction letters cs with
  | case1 => cases h
  | case2 d =>
    rw [Letter.char.inj (List.mem_singleton.mp h)]
    exact List.mem_singleton_self d
  | case3 d rest ih =>
    rcases List.mem_cons.mp h with h | h
    · rw [Letter.marked] at h
      split at h
      · rw [Letter.char.inj h]
        exact List.mem_cons_self
      · cases h
    · exact List.mem_cons_of_mem _ (List.mem_cons_of_mem _ (ih h))
  | case4 d e rest hd ih =>
    rcases List.mem_cons.mp h with h | h
    · rw [Letter.char.inj h]
      exact List.mem_cons_self
    · exact List.mem_cons_of_mem _ (ih h)

theorem isClean_iff {s : String} : isClean s = true ↔
    ∀ c, (Letter.char c).isLegal = false → .char c ∉ letters s.toList := by
  rw [isClean, List.all_eq_true]
  constructor
  · intro h c hc hmem
    have := h _ hmem
    rw [hc] at this
    cases this
  · intro h l hl
    cases l with
    | half n => exact Bool.or_true _
    | char c =>
      cases hc : (Letter.char c).isLegal with
      | true => rfl
      | false => exact absurd hl (h c hc)

@[simp] theorem isClean_empty : isClean "" = true := rfl

theorem isClean_of_legible {s : String} (h : Legible s.toList) : isClean s = true :=
  isClean_iff.mpr fun c hc hmem => by
    rw [h c (mem_of_char_mem_letters hmem)] at hc
    cases hc

theorem Legible.append {cs ds : List Char} (hcs : Legible cs) (hds : Legible ds) :
    Legible (cs ++ ds) := List.forall_mem_append.mpr ⟨hcs, hds⟩

theorem Legible.cons {c : Char} {cs : List Char} (hc : (Letter.char c).isLegal = true)
    (hcs : Legible cs) : Legible (c :: cs) := List.forall_mem_cons.mpr ⟨hc, hcs⟩

theorem Legible.intercalate {cs : List Char} (hcs : Legible cs) :
    ∀ {ds : List (List Char)}, (∀ d ∈ ds, Legible d) → Legible (cs.intercalate ds)
  | [], _ => fun _ hc => by cases hc
  | [d], hds => by
    rw [List.intercalate_singleton]
    exact hds d List.mem_cons_self
  | d :: e :: ds, hds => by
    obtain ⟨hd, hrest⟩ := List.forall_mem_cons.mp hds
    rw [List.intercalate_cons_cons]
    exact (hd.append hcs).append (hcs.intercalate hrest)

end Text

/-! ## Numbers -/

namespace Decimal
open Text (Legible)

theorem legible_digits (n : Nat) : Legible (digits n) := by
  have hdigit (d : Nat) (hd : d < 10) : Legible [digitChar d] := by
    have hall : ∀ k : Fin 10, (Letter.char (digitChar k)).isLegal = true := by decide
    exact List.forall_mem_singleton.mpr (hall ⟨d, hd⟩)
  induction n using Nat.strongRecOn with
  | ind n ih =>
    unfold digits
    split
    · rename_i hn
      exact hdigit n hn
    · exact (ih (n / 10) (by omega)).append (hdigit _ (Nat.mod_lt _ (by decide)))

theorem legible_integer (n : Int) : Legible (integer n) := by
  unfold integer
  split
  · exact .cons (by decide) (legible_digits _)
  · exact legible_digits _

theorem legible_zeros (n : Nat) : Legible (zeros n) := fun c hc => by
  rw [List.eq_of_mem_replicate hc]
  decide

theorem legible_withPoint {ds : List Char} (h : Legible ds) (places : Nat) :
    Legible (withPoint ds places) := by
  unfold withPoint
  split
  · exact .cons (by decide) (.cons (by decide) ((legible_zeros _).append h))
  · refine Legible.append (fun c hc => h c (List.mem_of_mem_take hc)) (.cons (by decide) ?_)
    exact fun c hc => h c (List.mem_of_mem_drop hc)

theorem legible_write (l : Layout) (p : Parts) : Legible (p.write l) := by
  have hds := legible_digits p.digits
  unfold Parts.write
  dsimp only
  split
  · split
    · exact (hds.append (legible_zeros _)).append (by decide)
    · exact legible_withPoint hds _
  · refine Legible.append ?_ (.cons (by decide) (.cons ?_ ?_))
    · split
      · rename_i d heq
        rwa [heq] at hds
      · rename_i d rest _ heq
        rw [heq] at hds
        have hd := List.forall_mem_cons.mp hds
        exact .cons hd.1 (.cons (by decide) hd.2)
      · exact List.forall_mem_nil _
    · split <;> decide
    · exact (legible_zeros _).append (legible_digits _)

end Decimal

theorem Scalar.legible_write (v : Scalar) : Text.Legible v.write.toList := by
  cases v with
  | whole n =>
    rw [write, String.toList_ofList]
    exact Decimal.legible_integer n
  | flag b => cases b <;> decide
  | real x =>
    have hsign (s : Bool) : Text.Legible (if s then ['-'] else []) := by cases s <;> decide
    rw [write, String.toList_ofList]
    cases x with
    | nan => decide
    | infinite s => exact (hsign s).append (by decide)
    | finite s r =>
      refine (hsign s).append ?_
      split
      · decide
      · exact Decimal.legible_write _ _

/-! ## Written texts -/

namespace Text

/-- Whether a text is written in characters that XML allows and that mark no half of a pair. -/
def isBare (cs : List Char) : Bool := cs.all fun c => (Letter.char c).isLegal && c != mark

theorem ofChars_append (cs ds : List Char) : ofChars (cs ++ ds) = ofChars cs ++ ofChars ds := by
  simp only [ofChars, ofLetters, List.map_append, List.flatMap_append]

theorem letters_ofChars (cs : List Char) : letters (ofChars cs) = cs.map .char :=
  letters_flatMap_chars _

theorem ofChars_of_bare {cs : List Char} (h : isBare cs = true) : ofChars cs = cs := by
  induction cs with
  | nil => rfl
  | cons c cs ih =>
    rw [isBare, List.all_cons, Bool.and_eq_true, Bool.and_eq_true, bne_iff_ne] at h
    have hcons : ofChars (c :: cs) = (Letter.char c).chars ++ ofChars cs := rfl
    rw [hcons, ih h.2, Letter.chars, if_neg h.1.2]
    rfl

theorem isBare_append (cs ds : List Char) : isBare (cs ++ ds) = (isBare cs && isBare ds) :=
  List.all_append

theorem isBare_toString (n : Nat) : isBare (toString n).toList = true := by
  rw [Nat.toString_eq_ofList_toDigits, String.toList_ofList, isBare, List.all_eq_true]
  intro c hc
  have hdigit : c.isDigit = true := Nat.isDigit_of_mem_toDigits (by decide) (by decide) hc
  have hmark : c ≠ mark := by
    rintro rfl
    exact absurd hdigit (by decide)
  rw [Letter.isLegal_of_isDigit hdigit, Bool.true_and, bne_iff_ne]
  exact hmark

theorem legible_of_isBare {cs : List Char} (h : isBare cs = true) : Legible cs := fun c hc =>
  (Bool.and_eq_true_iff.mp (List.all_eq_true.mp h c hc)).1

@[simp] theorem isClean_repr (n : Nat) : isClean n.repr = true :=
  isClean_of_legible (legible_of_isBare (isBare_toString n))

end Text

namespace Markup
open Text (Legible isClean isBare)
open Svg.Element (escapeTextChar escapeValueChar escapeLetters escapeText escapeValue)

/-- Characters that spell no half of a pair, and no character that XML does not allow but that of
a letter. -/
def Escapes (written : List Char) (l : Letter) : Prop :=
  ∃ ks, written = Text.ofChars ks ∧
    ∀ c, (Letter.char c).isLegal = false → (c ∈ ks ↔ l = .char c)

theorem escapes_bare {written : List Char} (h : isBare written = true) {l : Letter}
    (hl : l.isLegal = true ∨ l.isHalf = true) : Escapes written l := by
  refine ⟨written, (Text.ofChars_of_bare h).symm, fun c hc => iff_of_false (fun hmem => ?_) ?_⟩
  · have hlegal := List.all_eq_true.mp h c hmem
    rw [hc] at hlegal
    cases hlegal
  · rintro rfl
    rw [hc] at hl
    exact hl.elim Bool.false_ne_true Bool.false_ne_true

theorem escapes_chars (c : Char) : Escapes (Letter.char c).chars (.char c) := by
  refine ⟨[c], (List.append_nil _).symm, fun d _ => ?_⟩
  rw [List.mem_singleton, Letter.char.injEq, eq_comm]

/-- A character that XML allows may be written in other characters. -/
theorem escapes_ite {c d : Char} {written other : List Char}
    (hd : (Letter.char d).isLegal = true) (hwritten : isBare written = true)
    (h : Escapes other (.char c)) : Escapes (if c = d then written else other) (.char c) := by
  split
  · rename_i hc
    exact escapes_bare hwritten (.inl (hc ▸ hd))
  · exact h

theorem escapes_escapeTextChar (c : Char) : Escapes (escapeTextChar c) (.char c) := by
  refine escapes_ite (by decide) (by decide) ?_
  refine escapes_ite (by decide) (by decide) ?_
  exact escapes_ite (by decide) (by decide) (escapes_chars c)

theorem escapes_escapeValueChar (c : Char) : Escapes (escapeValueChar c) (.char c) := by
  refine escapes_ite (by decide) (by decide) ?_
  refine escapes_ite (by decide) (by decide) ?_
  refine escapes_ite (by decide) (by decide) ?_
  exact escapes_ite (by decide) (by decide) (escapes_escapeTextChar c)

theorem escapes_code (n : Fin 2048) :
    Escapes ('&' :: '#' :: ((toString (Letter.half n).code).toList ++ [';'])) (.half n) := by
  refine escapes_bare ?_ (.inr rfl)
  show isBare (['&', '#'] ++ ((toString (Letter.half n).code).toList ++ [';'])) = true
  rw [Text.isBare_append, Text.isBare_append, Text.isBare_toString]
  rfl

/-- Characters that spell no half of a pair, and no character that XML does not allow but those
of some texts. -/
def Carries (written : List Char) (texts : List String) : Prop :=
  ∃ ks, written = Text.ofChars ks ∧ ∀ c, (Letter.char c).isLegal = false →
    (c ∈ ks ↔ ∃ t ∈ texts, .char c ∈ Text.letters t.toList)

theorem carries_escapeLetters {escape : Char → List Char}
    (h : ∀ c, Escapes (escape c) (.char c)) (s : String) :
    Carries (escapeLetters escape s) [s] := by
  unfold Carries escapeLetters
  simp only [List.mem_singleton, exists_eq_left]
  induction Text.letters s.toList with
  | nil => exact ⟨[], rfl, fun c _ => iff_of_false List.not_mem_nil List.not_mem_nil⟩
  | cons l ls ih =>
    obtain ⟨ks, hks, hrest⟩ := ih
    -- Whatever the first letter is written as goes in front of what the others are written as.
    have hjoin {written : List Char} (hwritten : Escapes written l) :
        ∃ js, written ++ Text.ofChars ks = Text.ofChars js ∧
          ∀ c, (Letter.char c).isLegal = false → (c ∈ js ↔ .char c ∈ l :: ls) := by
      obtain ⟨js, rfl, hfirst⟩ := hwritten
      refine ⟨js ++ ks, (Text.ofChars_append js ks).symm, fun c hc => ?_⟩
      rw [List.mem_append, List.mem_cons, hfirst c hc, hrest c hc, eq_comm]
    rw [List.flatMap_cons, hks]
    cases l with
    | char c => exact hjoin (h c)
    | half n => exact hjoin (escapes_code n)

namespace Carries
variable {cs ds : List Char} {texts more : List String}

theorem bare (h : isBare cs = true) : Carries cs [] := by
  refine ⟨cs, (Text.ofChars_of_bare h).symm, fun c hc => iff_of_false (fun hmem => ?_) ?_⟩
  · have hlegal := List.all_eq_true.mp h c hmem
    rw [hc] at hlegal
    cases hlegal
  · simp

theorem append (h : Carries cs texts) (h' : Carries ds more) :
    Carries (cs ++ ds) (texts ++ more) := by
  obtain ⟨ks, rfl, hks⟩ := h
  obtain ⟨ls, rfl, hls⟩ := h'
  refine ⟨ks ++ ls, (Text.ofChars_append ks ls).symm, fun c hc => ?_⟩
  simp only [List.mem_append, hks c hc, hls c hc, or_and_right, exists_or]

/-- A text without characters that are not allowed does not count. -/
theorem cons_iff {t : String} (ht : isClean t = true) :
    Carries cs (t :: texts) ↔ Carries cs texts := by
  refine exists_congr fun ks => and_congr_right fun _ => forall₂_congr fun c hc => ?_
  rw [List.exists_mem_cons_iff, or_iff_right (Text.isClean_iff.mp ht c hc)]

/-- A letter that is not allowed is a character of one of the texts. -/
theorem mem_of_illegal (h : Carries cs texts) {l : Letter} (hl : l ∈ Text.letters cs)
    (hillegal : l.isLegal = false) :
    ∃ c, ∃ t ∈ texts, .char c ∈ Text.letters t.toList ∧ l = .char c := by
  obtain ⟨ks, rfl, hks⟩ := h
  rw [Text.letters_ofChars] at hl
  obtain ⟨c, hc, rfl⟩ := List.mem_map.mp hl
  obtain ⟨t, ht, htc⟩ := (hks c hillegal).mp hc
  exact ⟨c, t, ht, htc, rfl⟩

theorem isLegal_iff {out : String} (h : Carries out.toList texts) :
    IsLegal out ↔ ∀ t ∈ texts, isClean t = true := by
  constructor
  · intro hlegal t ht
    refine Text.isClean_iff.mpr fun c hc hmem => ?_
    obtain ⟨ks, hwritten, hks⟩ := h
    rw [IsLegal, hwritten, Text.letters_ofChars, List.forall_mem_map] at hlegal
    rw [hlegal c ((hks c hc).mpr ⟨t, ht, hmem⟩)] at hc
    cases hc
  · intro hclean l hl
    by_contra hillegal
    rw [Bool.not_eq_true] at hillegal
    obtain ⟨c, t, ht, htc, rfl⟩ := h.mem_of_illegal hl hillegal
    exact Text.isClean_iff.mp (hclean t ht) c hillegal htc

end Carries

end Markup

/-! ## Elements -/

namespace Svg.Element
open Text (isClean isBare)
open Markup (Carries)
variable {name text : String} {attributes : List (String × Attribute)} {children es : List Element}
  {texts : List String}

/-- Whether attributes hold nothing that XML does not allow. -/
def areClean (attributes : List (String × Attribute)) : Bool :=
  attributes.all fun a => isBare a.1.toList && isClean a.2.write

@[simp] theorem areClean_nil : areClean [] = true := rfl

@[simp] theorem areClean_cons (a : String × Attribute) (attributes : List (String × Attribute)) :
    areClean (a :: attributes) =
      (isBare a.1.toList && isClean a.2.write && areClean attributes) := rfl

@[simp] theorem areClean_append (as bs : List (String × Attribute)) :
    areClean (as ++ bs) = (areClean as && areClean bs) := List.all_append

@[simp] theorem isClean_text (s : String) : isClean (Attribute.text s).write = isClean s := rfl

@[simp] theorem isClean_number (v : Scalar) : isClean (Attribute.number v).write = true :=
  Text.isClean_of_legible v.simplify.legible_write

theorem areClean_arrange (h : areClean attributes = true) :
    areClean (arrange attributes) = true := by
  rw [areClean, List.all_eq_true] at *
  exact fun a ha => h a (mem_arrange.mp ha).1

theorem carries_attributes (h : areClean attributes = true) :
    Carries (attributes.flatMap writeAttribute) [] := by
  induction attributes with
  | nil => exact .bare rfl
  | cons a attributes ih =>
    rw [areClean_cons, Bool.and_eq_true, Bool.and_eq_true] at h
    obtain ⟨⟨hname, hvalue⟩, hrest⟩ := h
    have hescaped : Carries (escapeValue a.2.write) [] := (Carries.cons_iff hvalue).mp
      (Markup.carries_escapeLetters Markup.escapes_escapeValueChar a.2.write)
    have hspace : Carries [' '] [] := .bare (by decide)
    have hopen : Carries ['=', '"'] [] := .bare (by decide)
    have hclose : Carries ['"'] [] := .bare (by decide)
    have hcut : (a :: attributes).flatMap writeAttribute = [' '] ++ a.1.toList ++ ['=', '"'] ++
        escapeValue a.2.write ++ ['"'] ++ attributes.flatMap writeAttribute := by
      simp [writeAttribute]
    rw [hcut]
    exact ((((hspace.append (.bare hname)).append hopen).append hescaped).append hclose).append
      (ih hrest)

/-- An element with plain attributes holds what its text and the elements in it hold. -/
theorem carries_write (hname : isBare name.toList = true)
    (hattributes : areClean attributes = true) (hchildren : Carries (writeAll children) texts) :
    Carries (write (.node name attributes text children)) (text :: texts) := by
  have hless : Carries ['<'] [] := .bare (by decide)
  have hgreater : Carries ['>'] [] := .bare (by decide)
  have hend : Carries [' ', '/', '>'] [] := .bare (by decide)
  have hslash : Carries ['<', '/'] [] := .bare (by decide)
  have hstart : Carries ('<' :: (name.toList ++ attributes.flatMap writeAttribute)) [] :=
    hless.append ((Carries.bare hname).append (carries_attributes hattributes))
  have hinside : Carries (escapeText text ++ writeAll children) (text :: texts) :=
    (Markup.carries_escapeLetters Markup.escapes_escapeTextChar text).append hchildren
  rw [write]
  split
  · rename_i hempty
    rw [Bool.and_eq_true, List.isEmpty_iff, String.isEmpty_iff] at hempty
    obtain ⟨rfl, rfl⟩ := hempty
    have hwritten := (hstart.append hend).append hinside
    have hnothing : escapeText "" ++ writeAll [] = [] := rfl
    rwa [hnothing, List.append_nil] at hwritten
  · have hclose : Carries ('<' :: '/' :: (name.toList ++ ['>'])) [] :=
      (hslash.append (.bare hname)).append hgreater
    have hwritten := ((hstart.append hgreater).append hinside).append hclose
    simpa using hwritten

theorem carries_singleton {e : Element} (h : Carries e.write texts) :
    Carries (writeAll [e]) texts := by
  rw [writeAll, writeAll, List.append_nil]
  exact h

theorem writeAll_append (es fs : List Element) :
    writeAll (es ++ fs) = writeAll es ++ writeAll fs := by
  induction es with
  | nil => rfl
  | cons e es ih => rw [List.cons_append, writeAll, writeAll, ih, List.append_assoc]

theorem carries_group (hname : isBare name.toList = true) (hattributes : areClean attributes = true)
    (hchildren : Carries (writeAll children) texts) :
    Carries (group name attributes children).write texts :=
  (Carries.cons_iff Text.isClean_empty).mp
    (carries_write hname (areClean_arrange hattributes) hchildren)

theorem carries_leaf (hname : isBare name.toList = true) (hattributes : areClean attributes = true) :
    Carries (leaf name attributes text).write [text] :=
  carries_write hname (areClean_arrange hattributes) (.bare rfl)

theorem carries_all (h : List.Forall₂ (fun e t => Carries e.write [t]) es texts) :
    Carries (writeAll es) texts := by
  induction h with
  | nil => exact .bare rfl
  | cons he _ ih => exact he.append ih

theorem carries_flatten {groups : List (List Element)}
    (h : List.Forall₂ (fun es t => Carries (writeAll es) [t]) groups texts) :
    Carries (writeAll groups.flatten) texts := by
  induction h with
  | nil => exact .bare rfl
  | cons he _ ih =>
    rw [List.flatten_cons, writeAll_append]
    exact he.append ih

end Svg.Element

end DiagramScript
