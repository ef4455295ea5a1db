import DiagramScript.Proofs.Scalar
import DiagramScript.Proofs.Settles
import DiagramScript.Proofs.Text
import DiagramScript.Block

/-
  Well-formed instructions.

  An instruction is well formed where later stages may use it without checks: its options
  are words of their vocabularies, its sizes are finite and positive, its texts are not
  empty, and it has the text that its kind shows. Every statement is read as a well-formed
  instruction or refused with an error of the library (`Statement.ofText_wellFormed`), and the
  size of a well-formed shape is finite and positive (`sizeOf_positive`).
-/

namespace DiagramScript

/-! ## What is well formed -/

namespace Scalar

/-- A number that is not infinite. A whole number of any size is finite. -/
def IsFinite : Scalar → Prop
  | whole _ => True
  | real x => x.isFinite = true
  | flag _ => False

instance : DecidablePred IsFinite
  | whole _ => isTrue trivial
  | real x => inferInstanceAs (Decidable (x.isFinite = true))
  | flag _ => isFalse id

/-- A finite number above zero. -/
structure IsPositive (n : Scalar) : Prop where
  finite : n.IsFinite
  above : lt 0 n = true

instance (n : Scalar) : Decidable n.IsPositive :=
  decidable_of_iff (n.IsFinite ∧ lt 0 n = true) ⟨fun h => ⟨h.1, h.2⟩, fun h => ⟨h.finite, h.above⟩⟩

theorem isPositive_whole {n : Int} (h : 0 < n) : (whole n).IsPositive :=
  ⟨trivial, decide_eq_true h⟩

/-- A finite number that is not at most zero lies above it. -/
theorem isPositive_of_not_le {n : Scalar} (hfinite : n.IsFinite) (h : n.le 0 = false) :
    n.IsPositive := by
  refine ⟨hfinite, ?_⟩
  rw [le, Bool.or_eq_false_iff] at h
  obtain ⟨hlt, hsame⟩ := h
  cases n with
  | whole k =>
    have hlt : ¬ k < 0 := of_decide_eq_false hlt
    have hsame : k ≠ 0 := bne_iff_ne.mp (congrArg not hsame)
    exact decide_eq_true (show (0 : Int) < k by omega)
  | real x =>
    cases x with
    | nan => cases hfinite
    | infinite s => cases hfinite
    | finite s r =>
      -- Numbers are compared by their units, and zero has none.
      let u := Binary64.signedUnits s r
      let zero : Int := (0 : Nat) * Binary64.one
      have hlt : ¬ u < zero := of_decide_eq_false hlt
      have hsame : u ≠ zero := by
        intro heq
        have h : (Place.finite u == Place.finite zero) = false := hsame
        rw [heq, beq_self_eq_true] at h
        cases h
      exact decide_eq_true (show zero < u by omega)
  | flag b => cases hfinite

theorem isPositive_max {a b : Scalar} (ha : a.IsPositive) (hb : b.IsPositive) :
    (a.max b).IsPositive :=
  max_of (P := IsPositive) ha hb

end Scalar

def Point.IsFinite (p : Point) : Prop := p.x.IsFinite ∧ p.y.IsFinite

instance (p : Point) : Decidable p.IsFinite := inferInstanceAs (Decidable (_ ∧ _))

/-- A size with finite sides above zero. -/
def Size.IsPositive (s : Size) : Prop := s.w.IsPositive ∧ s.h.IsPositive

/-- A text that is left out or not empty. -/
def Filled (text : Option String) : Prop := ∀ t ∈ text, t ≠ ""

structure Style.WellFormed (s : Style) : Prop where
  color : ∀ v ∈ s.color, v ∈ colorNames
  fill : ∀ v ∈ s.fill, v ∈ fillNames
  dash : ∀ v ∈ s.dash, v ∈ dashNames
  font : ∀ v ∈ s.font, v ∈ Font.names
  size : ∀ v ∈ s.size, v ∈ Tier.names

/-- A shape instruction that needs no more checks, wherever the shape goes. -/
structure ShapeInstruction.WellFormed (i : ShapeInstruction) : Prop where
  kind : i.kind ≠ .connector
  size : ∀ s ∈ i.size, s.IsPositive
  dimensions : ∀ s ∈ i.dimensions, s.IsPositive
  content : Filled i.content
  label : Filled i.label
  body : if i.kind.hasTextBody then i.label = none else i.content = none
  style : i.style.WellFormed
  id : Filled i.id

structure ConnectorInstruction.WellFormed (i : ConnectorInstruction) : Prop where
  source : i.source ≠ ""
  sourceStripped : Text.strip i.source = i.source
  target : i.target ≠ ""
  targetStripped : Text.strip i.target = i.target
  label : Filled i.label
  style : i.style.WellFormed
  id : Filled i.id

def Instruction.WellFormed : Instruction → Prop
  | .shape i => i.WellFormed
  | .connector i => i.WellFormed

/-- An instruction whose place, if it names one, is finite. -/
def Instruction.IsExplicit : Instruction → Prop
  | .shape i => ∀ p ∈ i.position, p.IsFinite
  | .connector _ => True

theorem filled_none : Filled none := fun _ h => by cases h

theorem Filled.or {a b : Option String} (ha : Filled a) (hb : Filled b) : Filled (a.or b) := by
  cases a with
  | none => exact hb
  | some t => exact ha

/-! ## Options -/

section
variable (line : LineNumber)

theorem Measure.number_finite (what : String) (cs : List Char) :
    Settles Fault.Own Scalar.IsFinite (number what cs line) := by
  unfold number
  split
  · apply Settles.ite
    · exact fun hfinite => Settles.ok hfinite
    · exact fun _ => Settles.refuse _ _
  · exact Settles.refuse _ _

theorem Measure.position_finite (text : String) :
    Settles Fault.Own Point.IsFinite (position text line) := by
  unfold position
  split
  · exact Settles.refuse _ _
  · refine (number_finite line _ _).bind fun x hx => ?_
    exact (number_finite line _ _).bind fun y hy => Settles.ok ⟨hx, hy⟩

theorem Measure.size_positive (text : String) :
    Settles Fault.Own Size.IsPositive (size text line) := by
  unfold size
  split
  · exact Settles.refuse _ _
  · refine (number_finite line _ _).bind fun w hw => ?_
    refine (number_finite line _ _).bind fun h hh => ?_
    apply Settles.ite
    · exact fun _ => Settles.refuse _ _
    · intro hle
      rw [Bool.not_eq_true, Bool.or_eq_false_iff] at hle
      exact Settles.ok
        ⟨Scalar.isPositive_of_not_le hw hle.1, Scalar.isPositive_of_not_le hh hle.2⟩

/-- A tier of the vocabulary or a box with positive sides. -/
def SizeOption.WellFormed : SizeOption → Prop
  | tier name => name ∈ Tier.names
  | box size => size.IsPositive

theorem SizeOption.read_wellFormed (value : String) (allowBox : Bool) :
    Settles Fault.Own SizeOption.WellFormed (read value line allowBox) := by
  unfold read
  apply Settles.ite
  · exact fun hmem => Settles.ok (List.contains_iff_mem.mp hmem)
  intro _
  apply Settles.ite
  · intro _
    apply Settles.ite
    · exact fun _ => (Measure.size_positive line value).map fun _ hs => hs
    · exact fun _ => Settles.refuse _ _
  intro _
  exact Settles.ite (fun _ => Settles.refuse _ _) fun _ => Settles.refuse _ _

theorem SizeOption.box_positive {o : SizeOption} (h : o.WellFormed) :
    ∀ s ∈ o.box?, s.IsPositive := by
  intro s hs
  cases o with
  | tier name => cases hs
  | box size =>
    cases hs
    exact h

theorem SizeOption.onStyle_wellFormed {o : SizeOption} {s : Style} (h : o.WellFormed)
    (hs : s.WellFormed) : (o.onStyle s).WellFormed := by
  cases o with
  | tier name =>
    refine { hs with size := fun v hv => ?_ }
    cases hv
    exact h
  | box size => exact hs

theorem Style.checked_mem (key : String) (allowed : List String) (value : Option String) :
    Settles Fault.Own (fun checked => ∀ v ∈ checked, v ∈ allowed)
      (checked key allowed value line) := by
  unfold checked
  split
  · exact Settles.ok (by simp)
  · apply Settles.ite
    · exact fun hmem => Settles.ok (by simpa using List.contains_iff_mem.mp hmem)
    · exact fun _ => Settles.refuse _ _

/-- A style whose size was not looked at yet is well formed. -/
theorem Style.ofOptions_wellFormed (get : String → Option String) :
    Settles Fault.Own Style.WellFormed (ofOptions get line) := by
  unfold ofOptions
  refine (checked_mem line _ _ _).bind fun color hcolor => ?_
  refine (checked_mem line _ _ _).bind fun fill hfill => ?_
  refine (checked_mem line _ _ _).bind fun dash hdash => ?_
  refine (checked_mem line _ _ _).bind fun font hfont => ?_
  exact Settles.ok ⟨hcolor, hfill, hdash, hfont, fun v hv => by cases hv⟩

/-! ## Tokens -/

/-- A token of at least one character. -/
def Token.IsFilled (t : Token) : Prop := t.value ≠ ""

theorem Token.finish_filled (d : Draft) : ∀ t ∈ d.finish, t.IsFilled := by
  intro t ht
  unfold Draft.finish at ht
  split at ht
  · cases ht
  · rename_i hne
    rw [List.mem_singleton] at ht
    subst ht
    intro hempty
    apply hne
    rw [List.isEmpty_iff, ← List.reverse_eq_nil_iff]
    exact String.ofList_eq_empty_iff.mp hempty

theorem Token.scan_filled {q : Quoting} {d : Draft} {cs : List Char} {tokens : List Token}
    (h : scan q d cs = some tokens) : ∀ t ∈ tokens, t.IsFilled := by
  fun_induction scan q d cs generalizing tokens with
  | case1 => cases h
  | case2 q d =>
    cases h
    exact finish_filled d
  | case6 q d c cs _ _ _ _ ih =>
    obtain ⟨rest, hrest, rfl⟩ := Option.map_eq_some_iff.mp h
    intro t ht
    cases List.mem_append.mp ht with
    | inl ht => exact finish_filled d t ht
    | inr ht => exact ih hrest t ht
  | _ =>
    rename_i ih
    exact ih h

theorem Token.ofLine_filled (text : List Char) :
    Settles Fault.Own (fun tokens => ∀ t ∈ tokens, t.IsFilled) (ofLine text line) := by
  unfold ofLine
  split
  · rename_i hscan
    exact Settles.ok (scan_filled hscan)
  · exact Settles.refuse _ _

/-- Options none of which is empty. -/
def Options.AllFilled (options : Options) : Prop := ∀ entry ∈ options, entry.2 ≠ ""

theorem Options.split_filled (t : Token) :
    Settles Fault.Own (fun entry => entry.2 ≠ "") (split t line) := by
  unfold split
  dsimp only
  apply Settles.ite
  · exact fun _ => Settles.refuse _ _
  intro _
  apply Settles.ite
  · exact fun _ => Settles.refuse _ _
  · intro hne
    refine Settles.ok fun hempty => hne ?_
    rw [List.isEmpty_iff]
    exact String.ofList_eq_empty_iff.mp hempty

theorem Options.collect_filled (tokens : List Token) (allowed : List String) :
    Settles Fault.Own AllFilled (collect tokens allowed line) := by
  refine Settles.foldlM (fun options hoptions t _ => ?_) fun entry hentry => by cases hentry
  unfold step
  apply Settles.ite
  · intro _
    refine (split_filled line t).bind fun entry hentry => ?_
    apply Settles.ite
    · exact fun _ => Settles.ok (List.forall_mem_cons.mpr ⟨hentry, hoptions⟩)
    · exact fun _ => Settles.refuse _ _
  · exact fun _ => Settles.refuse _ _

theorem Options.get?_filled {options : Options} (h : options.AllFilled) (key : String) :
    Filled (options.get? key) := by
  intro value hvalue
  obtain ⟨front, back, rfl, -⟩ := List.lookup_eq_some_iff.mp hvalue
  exact h (key, value) (by simp)

/-! ## Statements -/

theorem Content.filled_filled (text : Option String) : Filled (filled text) := by
  intro t ht
  have hne := (Option.filter_eq_some_iff.mp ht).2
  rintro rfl
  cases hne

theorem Content.settle_filled {kind : Kind} {content label text : Option String}
    (h : (reconcile content label).settle kind = .ok text) : Filled text := by
  have hcontent := filled_filled content
  have hlabel := filled_filled label
  unfold reconcile at h
  split at h
  · rename_i c l hc hl
    split at h
    · cases h
      rwa [hc] at hcontent
    · cases h
  · rename_i c hc hl
    cases h
    rwa [hc] at hcontent
  · cases h
    exact hlabel

/-- A shape with nothing but its text to be added. -/
theorem ShapeInstruction.withText_wellFormed {i : ShapeInstruction} (h : i.WellFormed)
    (hcontent : i.content = none) (hlabel : i.label = none) {text : Option String}
    (htext : Filled text) : (i.withText text).WellFormed := by
  unfold withText
  split
  · rename_i hbody
    exact { h with content := htext, body := by rw [if_pos hbody, hlabel] }
  · rename_i hbody
    exact { h with label := htext, body := by rw [if_neg hbody, hcontent] }

theorem ShapeInstruction.withText_position (i : ShapeInstruction) (text : Option String) :
    (i.withText text).position = i.position := by
  unfold withText
  split <;> rfl

namespace Statement

theorem leadingPosition_finite {words : List Token} (hwords : ∀ t ∈ words, t.IsFilled)
    (allowPosition : Bool) :
    Settles Fault.Own (fun r => (∀ p ∈ r.1, p.IsFinite) ∧ ∀ t ∈ r.2, t.IsFilled)
      (leadingPosition words line allowPosition) := by
  unfold leadingPosition
  split
  · apply Settles.ite
    · intro _
      apply Settles.ite
      · intro _
        refine (Measure.position_finite line _).bind fun p hp => Settles.ok ?_
        exact ⟨by simpa using hp, fun t ht => hwords t (List.mem_cons_of_mem _ ht)⟩
      · exact fun _ => Settles.refuse _ _
    · exact fun _ => Settles.ok ⟨by simp, hwords⟩
  · exact Settles.ok ⟨by simp, hwords⟩

theorem leadingSize_positive {words : List Token} (hwords : ∀ t ∈ words, t.IsFilled) :
    Settles Fault.Own (fun r => (∀ s ∈ r.1, s.IsPositive) ∧ ∀ t ∈ r.2, t.IsFilled)
      (leadingSize words line) := by
  unfold leadingSize
  split
  · apply Settles.ite
    · intro _
      refine (Measure.size_positive line _).bind fun s hs => Settles.ok ?_
      exact ⟨by simpa using hs, fun t ht => hwords t (List.mem_cons_of_mem _ ht)⟩
    · exact fun _ => Settles.ok ⟨by simp, hwords⟩
  · exact Settles.ok ⟨by simp, hwords⟩

theorem positionOption_finite (options : Options) (allowPosition : Bool) {positional : Option Point}
    (h : ∀ p ∈ positional, p.IsFinite) :
    Settles Fault.Own (fun r => ∀ p ∈ r, p.IsFinite)
      (positionOption options line allowPosition positional) := by
  unfold positionOption
  split
  · exact Settles.ok h
  · apply Settles.ite
    · exact fun _ => (Measure.position_finite line _).map fun p hp => by simpa using hp
    · exact fun _ => Settles.refuse _ _

theorem sizeOption_wellFormed (options : Options) {style : Style} (hstyle : style.WellFormed)
    {positional : Option Size} (h : ∀ s ∈ positional, s.IsPositive) :
    Settles Fault.Own (fun r => r.1.WellFormed ∧ ∀ s ∈ r.2, s.IsPositive)
      (sizeOption options line style positional) := by
  unfold sizeOption
  split
  · exact Settles.ok ⟨hstyle, h⟩
  · refine (SizeOption.read_wellFormed line _ _).bind fun o ho => Settles.ok ⟨?_, ?_⟩
    · exact SizeOption.onStyle_wellFormed ho hstyle
    · intro s hs
      cases hbox : o.box? with
      | none =>
        rw [hbox] at hs
        exact h s hs
      | some t => exact SizeOption.box_positive ho s (by rw [hbox] at hs ⊢; exact hs)

theorem dimensionsOption_positive (options : Options) :
    Settles Fault.Own (fun r => ∀ s ∈ r, s.IsPositive) (dimensionsOption options line) := by
  unfold dimensionsOption
  split
  · exact Settles.ok (by simp)
  · exact (Measure.size_positive line _).map fun s hs => by simpa using hs

theorem shape_wellFormed {kind : Kind} (hkind : kind ≠ .connector) {words : List Token}
    (hwords : ∀ t ∈ words, t.IsFilled) (allowPosition : Bool) :
    Settles Fault.Own (fun i => i.WellFormed ∧ i.IsExplicit)
      (shape kind words line allowPosition) := by
  unfold shape
  refine (leadingPosition_finite line hwords allowPosition).bind fun (positional, words') h => ?_
  obtain ⟨hpositional, hwords'⟩ := h
  refine (leadingSize_positive line hwords').bind fun (leading, words'') h => ?_
  obtain ⟨hleading, hwords''⟩ := h
  refine (Options.collect_filled line _ _).bind fun options hoptions => ?_
  refine (Style.ofOptions_wellFormed line _).bind fun style hstyle => ?_
  refine (positionOption_finite line options allowPosition hpositional).bind ?_
  intro position hposition
  refine (sizeOption_wellFormed line options hstyle hleading).bind fun (style', size) h => ?_
  obtain ⟨hstyle', hsize⟩ := h
  refine (dimensionsOption_positive line options).bind fun dimensions hdimensions => ?_
  dsimp only
  split
  · exact Settles.refuse _ _
  · rename_i text htext
    refine Settles.ok ⟨?_, ?_⟩
    · refine ShapeInstruction.withText_wellFormed ?_ rfl rfl (Content.settle_filled htext)
      exact ⟨hkind, hsize, hdimensions, filled_none, filled_none, by split <;> rfl, hstyle',
        Options.get?_filled hoptions "id"⟩
    · intro p hp
      rw [ShapeInstruction.withText_position] at hp
      exact hposition p hp

/-- A phrase is stripped at its ends. -/
theorem strip_phrase (tokens : List Token) : Text.strip (phrase tokens) = phrase tokens :=
  Text.strip_strip _

theorem connector_wellFormed (words : List Token) :
    Settles Fault.Own (fun i => i.WellFormed ∧ i.IsExplicit) (connector words line) := by
  unfold connector
  dsimp only
  apply Settles.ite
  · exact fun _ => Settles.refuse _ _
  intro _
  apply Settles.ite
  · exact fun _ => Settles.refuse _ _
  intro hends
  rw [Bool.not_eq_true, Bool.or_eq_false_iff] at hends
  refine (Options.collect_filled line _ _).bind fun options hoptions => ?_
  refine (Style.ofOptions_wellFormed line _).bind fun style hstyle => ?_
  -- Whatever style the size leaves, the connector around it is well formed.
  have hbuild {style : Style} (hstyle : style.WellFormed) :=
    (⟨by simpa using hends.1, strip_phrase _, by simpa using hends.2, strip_phrase _,
      Options.get?_filled hoptions "label", hstyle, Options.get?_filled hoptions "id"⟩ :
      ConnectorInstruction.WellFormed
        { source := phrase (words.takeWhile (! isMarker ·))
          target := phrase (((words.dropWhile (! isMarker ·)).drop 1).takeWhile
            (! Options.isOption ·))
          label := options.get? "label", style, id := options.get? "id", line })
  split
  · exact Settles.ok ⟨hbuild hstyle, trivial⟩
  · refine (SizeOption.read_wellFormed line _ _).bind fun o ho => ?_
    exact Settles.ok ⟨hbuild (SizeOption.onStyle_wellFormed ho hstyle), trivial⟩

theorem ofTokens_wellFormed {tokens : List Token} (htokens : ∀ t ∈ tokens, t.IsFilled)
    (allowPosition : Bool) :
    Settles Fault.Own (fun i => i.WellFormed ∧ i.IsExplicit)
      (ofTokens tokens line allowPosition) := by
  unfold ofTokens
  split
  · exact Settles.refuse _ _
  · apply Settles.ite
    · exact fun _ => connector_wellFormed line _
    · intro _
      split
      · exact Settles.refuse _ _
      · exact Settles.refuse _ _
      · rename_i kind hconnector _
        refine shape_wellFormed line ?_ (fun t ht => htokens t (List.mem_cons_of_mem _ ht)) _
        intro hkind
        exact hconnector hkind

/-- A statement is read as a well-formed instruction whose place is finite, or refused. -/
theorem ofText_wellFormed (text : List Char) (allowPosition : Bool) :
    Settles Fault.Own (fun i => i.WellFormed ∧ i.IsExplicit) (ofText text line allowPosition) := by
  refine (Token.ofLine_filled line text).bind fun tokens htokens => ?_
  exact ofTokens_wellFormed line htokens allowPosition

end Statement

end

/-! ## Sizes -/

theorem Tier.lineHeight_pos (t : Tier) : 0 < t.lineHeight := by
  cases t <;> decide

theorem Tier.lineHeight_le (t : Tier) : t.lineHeight ≤ 44 := by
  cases t <;> decide

theorem Label.box_positive (text : String) (tier : Tier) (font : Font) :
    (box text tier font).IsPositive := by
  have hwidth : 0 < width text tier font := Nat.add_pos_right _ (by decide)
  have hheight : 0 < height text tier := Nat.add_pos_right _ (by decide)
  exact ⟨Scalar.isPositive_whole (by exact_mod_cast hwidth),
    Scalar.isPositive_whole (by exact_mod_cast hheight)⟩

theorem defaultSize_positive {k : Kind} (h : k ≠ .connector) : (defaultSize k).IsPositive := by
  have hside (n : Nat) (hn : 0 < n) : Scalar.IsPositive (OfNat.ofNat n) :=
    Scalar.isPositive_whole (by exact_mod_cast hn)
  cases k with
  | connector => exact absurd rfl h
  | _ => exact ⟨hside _ (by decide), hside _ (by decide)⟩

theorem Tier.noteSize_positive (t : Tier) : t.noteSize.IsPositive := by
  have hside (n : Nat) (hn : 0 < n) : Scalar.IsPositive (OfNat.ofNat n) :=
    Scalar.isPositive_whole (by exact_mod_cast hn)
  cases t with
  | _ => exact ⟨hside _ (by decide), hside _ (by decide)⟩

/-- The size of a well-formed shape is there, finite and positive. -/
theorem Block.sizeOf_positive {i : ShapeInstruction} (h : i.WellFormed) :
    Gives Size.IsPositive (sizeOf i) := by
  have hbase := defaultSize_positive h.kind
  unfold sizeOf
  rw [if_neg h.kind]
  dsimp only
  split
  · rename_i d hd
    exact Settles.ok (h.dimensions d hd)
  · rename_i s _ hs
    exact Settles.ok (h.size s hs)
  · split
    · exact Settles.ok (Tier.noteSize_positive _)
    · refine Settles.ok ⟨hbase.1, Scalar.isPositive_whole ?_⟩
      -- Even an empty text has one line.
      have hlines : 0 < Text.lineCount (i.content.getD "") := Nat.succ_pos _
      have hheight := Nat.mul_pos (Tier.lineHeight_pos (Tier.ofOption i.style.size)) hlines
      exact_mod_cast hheight
    · split
      · have hfit := Label.box_positive
        exact Settles.ok ⟨Scalar.isPositive_max hbase.1 (hfit _ _ _).1,
          Scalar.isPositive_max hbase.2 (hfit _ _ _).2⟩
      · exact Settles.ok hbase
    · split
      · have hfit := Label.box_positive
        exact Settles.ok ⟨Scalar.isPositive_max hbase.1 (hfit _ _ _).1,
          Scalar.isPositive_max hbase.2 (hfit _ _ _).2⟩
      · exact Settles.ok hbase
    · exact Settles.ok hbase

end DiagramScript
