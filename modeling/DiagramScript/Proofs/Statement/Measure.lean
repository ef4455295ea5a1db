import DiagramScript.Proofs.Number.Exact
import DiagramScript.Proofs.Number.Nearest
import DiagramScript.Statement.Measure
import Mathlib.Data.List.TakeWhile

/-
  Recognising and reading positions and sizes.

  The two recognisers accept exactly the texts in which two literals are written with a comma or
  an `x` between them (`isPosition_iff`, `isSize_iff`). Whatever they accept is read: as the two
  numbers nearest to the literals, or refused for a number that is not finite or, in a size, not
  positive (`recognised_read`).
-/

namespace DiagramScript

namespace Text

/-- A text of nothing but blanks. -/
def AllBlank (cs : List Char) : Prop := ∀ c ∈ cs, isBlank c = true

theorem allBlank_nil : AllBlank [] := by
  intro c hc
  cases hc

theorem AllBlank.not_mem {cs : List Char} (h : AllBlank cs) {c : Char} (hc : isBlank c = false) :
    c ∉ cs := by
  intro hmem
  rw [h c hmem] at hc
  cases hc

/-- Every text is blanks in front of what is left of it without them. -/
theorem exists_blanks (cs : List Char) : ∃ a, AllBlank a ∧ cs = a ++ skipBlanks cs :=
  ⟨cs.takeWhile isBlank, fun _ => List.mem_takeWhile_imp, List.takeWhile_append_dropWhile.symm⟩

theorem allBlank_of_skipBlanks {cs : List Char} (h : skipBlanks cs = []) : AllBlank cs := by
  obtain ⟨a, ha, hcs⟩ := exists_blanks cs
  rw [h, List.append_nil] at hcs
  rwa [hcs]

theorem skipBlanks_append {a : List Char} (ha : AllBlank a) (cs : List Char) :
    skipBlanks (a ++ cs) = skipBlanks cs :=
  List.dropWhile_append_of_pos ha

theorem skipBlanks_of_allBlank {a : List Char} (ha : AllBlank a) : skipBlanks a = [] := by
  rw [← List.append_nil a, skipBlanks_append ha]
  rfl

/-- A text that goes on with no blank is stripped of none. -/
theorem skipBlanks_solid {t : List Char} (ht : ∀ c ∈ t, isBlank c = false) (hne : t ≠ [])
    (cs : List Char) : skipBlanks (t ++ cs) = t ++ cs := by
  cases t with
  | nil => exact absurd rfl hne
  | cons c t => exact List.dropWhile_cons_of_neg (by simp [ht c List.mem_cons_self])

/-- Blanks around a text without blanks are stripped. -/
theorem stripChars_padded {a t b : List Char} (ha : AllBlank a) (ht : ∀ c ∈ t, isBlank c = false)
    (hne : t ≠ []) (hb : AllBlank b) : stripChars (a ++ (t ++ b)) = t := by
  have hb' : AllBlank b.reverse := by
    intro c hc
    exact hb c (List.mem_reverse.mp hc)
  have ht' : ∀ c ∈ t.reverse, isBlank c = false := by
    intro c hc
    exact ht c (List.mem_reverse.mp hc)
  have hsolid := skipBlanks_solid ht' (by simpa using hne) []
  rw [List.append_nil] at hsolid
  unfold stripChars dropTrailingBlanks
  rw [skipBlanks_append ha, skipBlanks_solid ht hne, List.reverse_append, skipBlanks_append hb',
    hsolid, List.reverse_reverse]

end Text

namespace Measure
open Text (AllBlank)

/-! ## Decimals -/

theorem dropDigits?_digits {ds rest : List Char} (hds : ∀ c ∈ ds, Text.isDigit c = true)
    (hne : ds ≠ []) (hrest : ∀ c ∈ rest.head?, Text.isDigit c = false) :
    dropDigits? (ds ++ rest) = some rest := by
  have hstop : rest.dropWhile Text.isDigit = rest := by
    cases rest with
    | nil => rfl
    | cons c rest => exact List.dropWhile_cons_of_neg (by simp [hrest c rfl])
  cases ds with
  | nil => exact absurd rfl hne
  | cons d ds =>
    obtain ⟨hd, hds⟩ := List.forall_mem_cons.mp hds
    rw [List.cons_append, dropDigits?, if_pos hd, List.dropWhile_append_of_pos hds, hstop]

theorem exists_digits {cs rest : List Char} (h : dropDigits? cs = some rest) :
    ∃ ds, ds ≠ [] ∧ (∀ c ∈ ds, Text.isDigit c = true) ∧ cs = ds ++ rest := by
  cases cs with
  | nil => cases h
  | cons c cs =>
    rw [dropDigits?] at h
    split at h
    · rename_i hc
      obtain rfl := Option.some.inj h
      refine ⟨c :: cs.takeWhile Text.isDigit, List.cons_ne_nil _ _, ?_, ?_⟩
      · exact List.forall_mem_cons.mpr ⟨hc, fun _ => List.mem_takeWhile_imp⟩
      · rw [List.cons_append, List.takeWhile_append_dropWhile]
    · cases h

/-- A text that does not go on with a digit or with a point. -/
def Ends (rest : List Char) : Prop := ∀ c ∈ rest.head?, Text.isDigit c = false ∧ c ≠ '.'

theorem ends_nil : Ends [] := by
  intro c hc
  cases hc

theorem ends_cons {c : Char} (hdigit : Text.isDigit c = false) (hpoint : c ≠ '.') (cs : List Char) :
    Ends (c :: cs) := by
  intro d hd
  obtain rfl := Option.some.inj hd
  exact ⟨hdigit, hpoint⟩

theorem Ends.append {a rest : List Char} (ha : AllBlank a) (h : Ends rest) : Ends (a ++ rest) := by
  cases a with
  | nil => exact h
  | cons c a =>
    have hblank := ha c List.mem_cons_self
    refine ends_cons ?_ ?_ _
    · apply Bool.eq_false_iff.mpr
      intro hdigit
      rw [Text.isBlank_of_isDigit c hdigit] at hblank
      cases hblank
    · rintro rfl
      exact absurd hblank (by decide)

theorem dropDecimal?_body (l : Literal) {rest : List Char} (hrest : Ends rest) :
    dropDecimal? (l.body ++ rest) = some rest := by
  have hdigit : ∀ c ∈ rest.head?, Text.isDigit c = false := fun c hc => (hrest c hc).1
  unfold dropDecimal? Literal.body
  split_ifs with hplaces
  · -- Without places nothing behind the digits may be read as a point.
    rw [List.append_nil, dropDigits?_digits l.whole_digits l.nonempty hdigit]
    cases rest with
    | nil => rfl
    | cons c rest =>
      split
      · rename_i h
        cases h
      · rename_i h
        cases h
        exact absurd rfl (hrest '.' rfl).2
      · rename_i h
        exact h.symm
  · have hpoint : ∀ c ∈ ('.' :: (l.places ++ rest)).head?, Text.isDigit c = false := by
      intro c hc
      obtain rfl := Option.some.inj hc
      decide
    rw [List.append_assoc, List.cons_append, dropDigits?_digits l.whole_digits l.nonempty hpoint]
    simp [dropDigits?_digits l.places_digits hplaces hdigit]

theorem dropSignedDecimal?_text (l : Literal) {rest : List Char} (hrest : Ends rest) :
    dropSignedDecimal? (l.text ++ rest) = some rest := by
  unfold Literal.text
  split
  · exact dropDecimal?_body l hrest
  · obtain ⟨d, cs, hbody, hd⟩ := l.exists_first
    have hbelow := dropDecimal?_body l hrest
    rw [hbody, List.cons_append] at hbelow ⊢
    unfold dropSignedDecimal?
    split
    · rename_i h
      exact absurd (List.cons.inj h).1 (Text.ne_of_isDigit hd (by decide))
    · exact hbelow

/-- What is taken for a decimal is a literal. -/
theorem exists_literal {cs rest : List Char} (h : dropDecimal? cs = some rest) :
    ∃ l : Literal, l.negative = false ∧ cs = l.text ++ rest := by
  unfold dropDecimal? at h
  split at h
  · cases h
  · rename_i rest' hwhole
    obtain ⟨ds, hne, hds, rfl⟩ := exists_digits hwhole
    cases hplaces : dropDigits? rest' with
    | none =>
      rw [hplaces] at h
      obtain rfl := Option.some.inj h
      refine ⟨⟨false, ds, [], hne, by simpa using hds⟩, rfl, ?_⟩
      simp [Literal.text, Literal.body]
    | some rest'' =>
      obtain ⟨ps, hne', hps, rfl⟩ := exists_digits hplaces
      rw [hplaces] at h
      obtain rfl := Option.some.inj h
      have hall : ∀ c ∈ ds ++ ps, Text.isDigit c = true :=
        List.forall_mem_append.mpr ⟨hds, hps⟩
      refine ⟨⟨false, ds, ps, hne, hall⟩, rfl, ?_⟩
      simp [Literal.text, Literal.body, hne']
  · rename_i hwhole
    obtain rfl := Option.some.inj h
    obtain ⟨ds, hne, hds, rfl⟩ := exists_digits hwhole
    refine ⟨⟨false, ds, [], hne, by simpa using hds⟩, rfl, ?_⟩
    simp [Literal.text, Literal.body]

theorem exists_signed_literal {cs rest : List Char} (h : dropSignedDecimal? cs = some rest) :
    ∃ l : Literal, cs = l.text ++ rest := by
  unfold dropSignedDecimal? at h
  split at h
  · obtain ⟨l, hsign, rfl⟩ := exists_literal h
    refine ⟨{ l with negative := true }, ?_⟩
    simp [Literal.text, Literal.body, hsign]
  · obtain ⟨l, -, hcs⟩ := exists_literal h
    exact ⟨l, hcs⟩

/-! ## Forms -/

/-- A literal with blanks around it. -/
def Pads (l : Literal) (cs : List Char) : Prop :=
  ∃ a b, AllBlank a ∧ AllBlank b ∧ cs = a ++ (l.text ++ b)

/-- A text that writes the position of two coordinates. -/
def WritesPosition (x y : Literal) (cs : List Char) : Prop :=
  ∃ front back, Pads x front ∧ Pads y back ∧ cs = front ++ ',' :: back

/-- A text that writes the size of two lengths, which have no sign. -/
def WritesSize (w h : Literal) (cs : List Char) : Prop :=
  w.negative = false ∧ h.negative = false ∧
    ∃ a k b, AllBlank a ∧ AllBlank b ∧ (k = 'x' ∨ k = 'X') ∧
      cs = a ++ (w.text ++ k :: (h.text ++ b))

theorem pads_text (l : Literal) : Pads l l.text :=
  ⟨[], [], Text.allBlank_nil, Text.allBlank_nil, (List.append_nil _).symm⟩

theorem writesPosition_text (x y : Literal) : WritesPosition x y (x.text ++ ',' :: y.text) :=
  ⟨x.text, y.text, pads_text x, pads_text y, rfl⟩

theorem skipBlanks_text (l : Literal) (cs : List Char) :
    Text.skipBlanks (l.text ++ cs) = l.text ++ cs :=
  Text.skipBlanks_solid l.isBlank_text l.text_ne_nil cs

/-- What is taken for a literal with blanks around it is one, and the rest starts behind them. -/
theorem drop_padded_iff {cs rest : List Char} (hrest : Ends rest)
    (hskip : Text.skipBlanks rest = rest) :
    (dropSignedDecimal? (Text.skipBlanks cs)).map Text.skipBlanks = some rest ↔
      ∃ l front, Pads l front ∧ cs = front ++ rest := by
  constructor
  · intro h
    obtain ⟨mid, hmid, hend⟩ := Option.map_eq_some_iff.mp h
    obtain ⟨l, hl⟩ := exists_signed_literal hmid
    obtain ⟨a, ha, hcs⟩ := Text.exists_blanks cs
    obtain ⟨b, hb, hmid'⟩ := Text.exists_blanks mid
    rw [hend] at hmid'
    refine ⟨l, _, ⟨a, b, ha, hb, rfl⟩, ?_⟩
    rw [hcs, hl, hmid', List.append_assoc, List.append_assoc]
  · rintro ⟨l, front, ⟨a, b, ha, hb, rfl⟩, rfl⟩
    rw [List.append_assoc, List.append_assoc, Text.skipBlanks_append ha, skipBlanks_text,
      dropSignedDecimal?_text l (hrest.append hb), Option.map_some, Text.skipBlanks_append hb,
      hskip]

theorem isPosition_iff (cs : List Char) :
    isPosition cs = true ↔ ∃ x y, WritesPosition x y cs := by
  -- Behind the second number there is nothing but blanks.
  have hback (rest : List Char) :
      (dropSignedDecimal? (Text.skipBlanks rest)).map Text.skipBlanks = some [] ↔
        ∃ y, Pads y rest := by
    have hdrop := @drop_padded_iff rest [] ends_nil rfl
    simpa using hdrop
  unfold isPosition
  constructor
  · intro h
    split at h
    · rename_i rest hcomma
      obtain ⟨x, front, hx, hcs⟩ :=
        (drop_padded_iff (ends_cons (by decide) (by decide) _) rfl).mp hcomma
      obtain ⟨y, hy⟩ := (hback rest).mp (beq_iff_eq.mp h)
      exact ⟨x, y, front, rest, hx, hy, hcs⟩
    · cases h
  · rintro ⟨x, y, front, back, hx, hy, hcs⟩
    have hcomma := (drop_padded_iff (ends_cons (by decide) (by decide) back) rfl).mpr
      ⟨x, front, hx, hcs⟩
    simp only [hcomma]
    exact beq_iff_eq.mpr ((hback back).mpr ⟨y, hy⟩)

theorem isSize_iff (cs : List Char) : isSize cs = true ↔ ∃ w h, WritesSize w h cs := by
  have hbody {l : Literal} (hl : l.negative = false) : l.text = l.body := by
    simp [Literal.text, hl]
  unfold isSize
  constructor
  · intro hsize
    split at hsize
    · rename_i k rest hw
      rw [Bool.and_eq_true, Bool.or_eq_true, beq_iff_eq, beq_iff_eq, beq_iff_eq] at hsize
      obtain ⟨hk, hend⟩ := hsize
      obtain ⟨mid, hmid, hblank⟩ := Option.map_eq_some_iff.mp hend
      obtain ⟨w, hwsign, hwtext⟩ := exists_literal hw
      obtain ⟨h, hhsign, rfl⟩ := exists_literal hmid
      obtain ⟨a, ha, hcs⟩ := Text.exists_blanks cs
      rw [hwtext] at hcs
      exact ⟨w, h, hwsign, hhsign, a, k, mid, ha, Text.allBlank_of_skipBlanks hblank, hk, hcs⟩
    · cases hsize
  · rintro ⟨w, h, hwsign, hhsign, a, k, b, ha, hb, hk, rfl⟩
    -- The mark between the lengths ends the first of them.
    have hends : Ends (k :: (h.text ++ b)) := by
      obtain rfl | rfl := hk
      · exact ends_cons (by decide) (by decide) _
      · exact ends_cons (by decide) (by decide) _
    have hdrop : dropDecimal? (h.text ++ b) = some b := by
      have hdrop := dropDecimal?_body h (ends_nil.append hb)
      rwa [List.append_nil, ← hbody hhsign] at hdrop
    rw [Text.skipBlanks_append ha, skipBlanks_text, hbody hwsign, dropDecimal?_body w hends]
    simp only [hdrop, Option.map_some, Text.skipBlanks_of_allBlank hb]
    obtain rfl | rfl := hk
    · rfl
    · rfl

/-! ## Reading -/

theorem Pads.stripChars {l : Literal} {cs : List Char} (h : Pads l cs) :
    Text.stripChars cs = l.text := by
  obtain ⟨a, b, ha, hb, rfl⟩ := h
  exact Text.stripChars_padded ha l.isBlank_text l.text_ne_nil hb

theorem Pads.not_mem {l : Literal} {cs : List Char} (h : Pads l cs) {c : Char}
    (hblank : Text.isBlank c = false) (hc : c ∉ l.text) : c ∉ cs := by
  obtain ⟨a, b, ha, hb, rfl⟩ := h
  simp only [List.mem_append, not_or]
  exact ⟨ha.not_mem hblank, hc, hb.not_mem hblank⟩

/-- Two literals with blanks around them are the two parts of a text. -/
theorem twoParts?_pads {sep : Char} {x y : Literal} {front back : List Char} (hx : Pads x front)
    (hy : Pads y back) (hfront : sep ∉ front) (hback : sep ∉ back) :
    twoParts? sep (front ++ sep :: back) = some (x.text, y.text) := by
  unfold twoParts?
  rw [Text.splitOn_append, Text.splitOn_of_not_mem hfront, Text.splitOn_of_not_mem hback]
  simp [hx.stripChars, hy.stripChars, x.text_ne_nil, y.text_ne_nil]

/-- A literal is a finite number, or is refused because it is none. -/
theorem number_text (what : String) (l : Literal) (line : LineNumber) :
    (|l.value| < Binary64.limit ∧ number what l.text line = .ok (.real l.number)) ∨
      (Binary64.limit ≤ |l.value| ∧
        number what l.text line =
          .error ((ParseProblem.number what (String.ofList l.text)).on line)) := by
  have hfinite := l.nearest.isFinite_iff
  unfold number
  rw [l.read?_text]
  dsimp only
  split
  · rename_i h
    exact .inl ⟨hfinite.mp h, rfl⟩
  · rename_i h
    exact .inr ⟨not_lt.mp fun hlt => h (hfinite.mpr hlt), rfl⟩

section
variable {x y : Literal} {text : String} (line : LineNumber)

theorem position_eq (h : WritesPosition x y text.toList) :
    position text line = (do
      let a ← number "x position" x.text line
      let b ← number "y position" y.text line
      .ok ⟨a, b⟩) := by
  obtain ⟨front, back, hx, hy, htext⟩ := h
  have hcomma (l : Literal) : ',' ∉ l.text := l.not_mem_text (by decide) (by decide) (by decide)
  have hparts := twoParts?_pads hx hy (hx.not_mem (by decide) (hcomma x))
    (hy.not_mem (by decide) (hcomma y))
  rw [position, htext, hparts]

/-- Only the mark between the two lengths of a size changes in small letters. -/
theorem lowerText_size {w h : Literal} {a b : List Char} {k : Char} (ha : AllBlank a)
    (hb : AllBlank b) (hk : k = 'x' ∨ k = 'X') :
    Text.lowerText (a ++ (w.text ++ k :: (h.text ++ b))) = a ++ w.text ++ 'x' :: (h.text ++ b) := by
  have hblank {cs : List Char} (hcs : AllBlank cs) : Text.lowerChars cs = cs :=
    Text.lowerChars_keep fun c hc => Text.lowerChar_of_isBlank c (hcs c hc)
  have hliteral (l : Literal) : Text.lowerChars l.text = l.text :=
    Text.lowerChars_keep (l.forall_text (fun _ => Text.lowerChar_of_isDigit) (by decide)
      fun _ => by decide)
  have hmark : Text.lowerChars [k] = ['x'] := by
    obtain rfl | rfl := hk
    · decide
    · decide
  -- Only a sigma is lowered by what stands around it, and there is none.
  have hsigma : '\u03A3' ∉ a ++ (w.text ++ k :: (h.text ++ b)) := by
    have hnot (l : Literal) : '\u03A3' ∉ l.text :=
      l.not_mem_text (by decide) (by decide) (by decide)
    have hk' : '\u03A3' ≠ k := by
      obtain rfl | rfl := hk
      · decide
      · decide
    simp [ha.not_mem (c := '\u03A3') (by decide), hb.not_mem (c := '\u03A3') (by decide), hnot, hk']
  rw [Text.lowerText_eq_lowerChars _ hsigma, ← List.singleton_append]
  simp only [Text.lowerChars_append, hblank ha, hblank hb, hliteral, hmark, List.append_assoc]
  rfl

theorem size_eq {w h : Literal} (hsize : WritesSize w h text.toList) :
    size text line = (do
      let a ← number "width" w.text line
      let b ← number "height" h.text line
      if a.le 0 || b.le 0 then .error ((ParseProblem.sizeNotPositive text).on line)
      else .ok ⟨a, b⟩) := by
  obtain ⟨-, -, a, k, b, ha, hb, hk, htext⟩ := hsize
  have hx (l : Literal) : 'x' ∉ l.text := l.not_mem_text (by decide) (by decide) (by decide)
  have hw : Pads w (a ++ w.text) := ⟨a, [], ha, Text.allBlank_nil, by simp⟩
  have hh : Pads h (h.text ++ b) := ⟨[], b, Text.allBlank_nil, hb, rfl⟩
  have hparts := twoParts?_pads hw hh (hw.not_mem (by decide) (hx w))
    (hh.not_mem (by decide) (hx h))
  rw [size, htext, lowerText_size ha hb hk, hparts]

end

/-- A literal without sign is not above zero only where it is rounded to zero. -/
theorem le_zero_iff {l : Literal} (hsign : l.negative = false)
    (hsmall : |l.value| < Binary64.limit) :
    (Scalar.real l.number).le 0 = true ↔ l.number = .zero false := by
  obtain ⟨w, hw, -⟩ := l.nearest.exists_at hsmall
  have hle : (Scalar.real l.number).le 0 = true ↔ w ≤ 0 := Scalar.le_at hw Scalar.zero_at
  obtain ⟨r, hr, hnonneg⟩ := Literal.exists_unsigned hsign hw
  rw [hle, hnonneg.ge_iff_eq', ← Binary64.isZero_iff hw, hr]
  simp [Binary64.isZero, Binary64.zero, Fin.ext_iff]

/-- The complaint about a literal whose number is not finite. -/
def notFinite (what : String) (l : Literal) (line : LineNumber) : Fault :=
  (ParseProblem.number what (String.ofList l.text)).on line

/-- What the position of two literals may be read as. -/
inductive ReadsPosition (x y : Literal) (line : LineNumber) : Except Fault Point → Prop
  | point (hx : |x.value| < Binary64.limit) (hy : |y.value| < Binary64.limit) :
      ReadsPosition x y line (.ok ⟨.real x.number, .real y.number⟩)
  | first (hx : Binary64.limit ≤ |x.value|) :
      ReadsPosition x y line (.error (notFinite "x position" x line))
  | second (hx : |x.value| < Binary64.limit) (hy : Binary64.limit ≤ |y.value|) :
      ReadsPosition x y line (.error (notFinite "y position" y line))

/-- What the size of two literals may be read as. -/
inductive ReadsSize (text : String) (w h : Literal) (line : LineNumber) : Except Fault Size → Prop
  | size (hw : |w.value| < Binary64.limit) (hh : |h.value| < Binary64.limit)
      (hwpos : w.number ≠ .zero false) (hhpos : h.number ≠ .zero false) :
      ReadsSize text w h line (.ok ⟨.real w.number, .real h.number⟩)
  | width (hw : Binary64.limit ≤ |w.value|) :
      ReadsSize text w h line (.error (notFinite "width" w line))
  | height (hw : |w.value| < Binary64.limit) (hh : Binary64.limit ≤ |h.value|) :
      ReadsSize text w h line (.error (notFinite "height" h line))
  | notPositive (hw : |w.value| < Binary64.limit) (hh : |h.value| < Binary64.limit)
      (hzero : w.number = .zero false ∨ h.number = .zero false) :
      ReadsSize text w h line (.error ((ParseProblem.sizeNotPositive text).on line))

section
variable {text : String} (line : LineNumber)

theorem readsPosition {x y : Literal} (h : WritesPosition x y text.toList) :
    ReadsPosition x y line (position text line) := by
  rw [position_eq line h]
  obtain ⟨hx, hread⟩ | ⟨hx, hread⟩ := number_text "x position" x line
  · rw [hread]
    obtain ⟨hy, hread⟩ | ⟨hy, hread⟩ := number_text "y position" y line
    · rw [hread]
      exact .point hx hy
    · rw [hread]
      exact .second hx hy
  · rw [hread]
    exact .first hx

theorem readsSize {w h : Literal} (hsize : WritesSize w h text.toList) :
    ReadsSize text w h line (size text line) := by
  rw [size_eq line hsize]
  obtain ⟨hw, hread⟩ | ⟨hw, hread⟩ := number_text "width" w line
  · rw [hread]
    obtain ⟨hh, hread⟩ | ⟨hh, hread⟩ := number_text "height" h line
    · rw [hread]
      have hwzero := le_zero_iff hsize.1 hw
      have hhzero := le_zero_iff hsize.2.1 hh
      show ReadsSize text w h line (if _ then _ else _)
      split
      · rename_i hle
        rw [Bool.or_eq_true, hwzero, hhzero] at hle
        exact .notPositive hw hh hle
      · rename_i hle
        rw [Bool.or_eq_true, hwzero, hhzero, not_or] at hle
        exact .size hw hh hle.1 hle.2
    · rw [hread]
      exact .height hw hh
  · rw [hread]
    exact .width hw

end

/-- Every text that is taken for a position or a size is read as such. It is refused only for a
literal past the greatest finite number or, in a size, for one that is rounded to zero. -/
theorem recognised_read (text : String) (line : LineNumber) :
    (isPosition text.toList = true →
      ∃ x y : Literal, WritesPosition x y text.toList ∧ Binary64.Nearest x.value x.number ∧
        Binary64.Nearest y.value y.number ∧ ReadsPosition x y line (position text line)) ∧
    (isSize text.toList = true →
      ∃ w h : Literal, WritesSize w h text.toList ∧ Binary64.Nearest w.value w.number ∧
        Binary64.Nearest h.value h.number ∧ ReadsSize text w h line (size text line)) := by
  constructor
  · intro hform
    obtain ⟨x, y, hwrites⟩ := (isPosition_iff _).mp hform
    exact ⟨x, y, hwrites, x.nearest, y.nearest, readsPosition line hwrites⟩
  · intro hform
    obtain ⟨w, h, hwrites⟩ := (isSize_iff _).mp hform
    exact ⟨w, h, hwrites, w.nearest, h.nearest, readsSize line hwrites⟩

/-- A position and a size with digits of other scripts, other blanks and a capital X. -/
theorem recognised_read_scripts :
    (∃ x y : Literal, WritesPosition x y "\u0663\u00A0, -\uFF11.5".toList ∧
      Binary64.Nearest x.value x.number ∧ Binary64.Nearest y.value y.number ∧
      ReadsPosition x y (some 1) (position "\u0663\u00A0, -\uFF11.5" (some 1))) ∧
    (∃ w h : Literal, WritesSize w h "\u3000\u0967.5X0.0".toList ∧
      Binary64.Nearest w.value w.number ∧ Binary64.Nearest h.value h.number ∧
      ReadsSize "\u3000\u0967.5X0.0" w h (some 1) (size "\u3000\u0967.5X0.0" (some 1))) :=
  ⟨(recognised_read "\u0663\u00A0, -\uFF11.5" (some 1)).1 (by decide),
    (recognised_read "\u3000\u0967.5X0.0" (some 1)).2 (by decide)⟩

end Measure

end DiagramScript
