import DiagramScript.Proofs.Markup.Legal
import DiagramScript.Proofs.Source.WellFormed

/-
  Where the characters of labels come from.

  Reading a source cuts it into lines, words and options and puts line feeds and tabs for their
  escapes. So a label has characters of its source and characters that XML allows, and no others
  (`Source.instructions_stem`). What is cut off a text, the blanks around it or a comment, never
  matters.
-/

namespace DiagramScript

/-! ## Pieces of a text -/

namespace Text
variable {cs ds es : List Char} {c : Char}

/-- Characters each of which XML allows or stands in another text. -/
def StemFrom (cs ds : List Char) : Prop := ∀ c ∈ ds, (Letter.char c).isLegal = true ∨ c ∈ cs

theorem stemFrom_of_subset (h : ds ⊆ cs) : StemFrom cs ds := fun _ hc => .inr (h hc)

theorem stemFrom_of_legible (h : Legible ds) : StemFrom cs ds := fun c hc => .inl (h c hc)

theorem StemFrom.of_subset (h : StemFrom cs ds) (hes : es ⊆ ds) : StemFrom cs es := fun c hc =>
  h c (hes hc)

theorem StemFrom.cons (hc : (Letter.char c).isLegal = true ∨ c ∈ cs) (h : StemFrom cs ds) :
    StemFrom cs (c :: ds) :=
  List.forall_mem_cons.mpr ⟨hc, h⟩

theorem stripChars_subset (cs : List Char) : stripChars cs ⊆ cs := fun c hc => by
  have hend := List.mem_reverse.mp hc
  have hstart := List.mem_reverse.mp (List.dropWhile_subset _ hend)
  exact List.dropWhile_subset _ hstart

theorem subset_of_mem_splitOn {sep : Char} (h : ds ∈ splitOn sep cs) : ds ⊆ cs := by
  induction cs generalizing ds with
  | nil =>
    rw [splitOn, List.mem_singleton] at h
    rw [h]
    exact List.Subset.refl []
  | cons c cs ih =>
    rw [splitOn] at h
    split at h
    · rcases List.mem_cons.mp h with rfl | h
      · exact List.nil_subset _
      · exact List.subset_cons_of_subset c (ih h)
    · split at h
      · rw [List.mem_singleton.mp h]
        exact List.cons_subset_cons c (List.nil_subset _)
      · rename_i piece pieces hpieces
        rcases List.mem_cons.mp h with rfl | h
        · exact List.cons_subset_cons c (ih (hpieces ▸ List.mem_cons_self))
        · exact List.subset_cons_of_subset c (ih (hpieces ▸ List.mem_cons_of_mem _ h))

theorem dropReturn_subset (line : List Char) : dropReturn line ⊆ line := by
  unfold dropReturn
  split
  · exact List.dropLast_subset line
  · exact List.Subset.refl line

theorem subset_of_mem_dropReturns {lines : List (List Char)} (h : ds ∈ dropReturns lines) :
    ∃ line ∈ lines, ds ⊆ line := by
  fun_induction dropReturns lines with
  | case1 => cases h
  | case2 line => exact ⟨ds, h, List.Subset.refl ds⟩
  | case3 line lines _ ih =>
    rcases List.mem_cons.mp h with rfl | h
    · exact ⟨line, List.mem_cons_self, dropReturn_subset line⟩
    · obtain ⟨line', hline', hds⟩ := ih h
      exact ⟨line', List.mem_cons_of_mem line hline', hds⟩

theorem subset_of_mem_sourceLines {text line : String} (h : line ∈ sourceLines text) :
    line.toList ⊆ text.toList := by
  obtain ⟨ds, hds, rfl⟩ := List.mem_map.mp h
  obtain ⟨piece, hpiece, hsubset⟩ := subset_of_mem_dropReturns hds
  rw [String.toList_ofList]
  exact List.Subset.trans hsubset (subset_of_mem_splitOn hpiece)

end Text

theorem uncomment_subset (q : Quoting) (cs : List Char) : uncomment q cs ⊆ cs := by
  induction cs generalizing q with
  | nil => exact List.Subset.refl []
  | cons c cs ih =>
    rw [uncomment]
    split
    · exact List.nil_subset _
    · exact List.cons_subset_cons c (ih (q.next c))

theorem Source.subset_of_mem_lines {text : String} {l : Source.Line} (h : l ∈ Source.lines text) :
    l.text ⊆ text.toList := by
  obtain ⟨⟨line, n⟩, hline, rfl⟩ := List.mem_map.mp h
  have hmem : line ∈ Text.sourceLines text := by
    rw [← List.zipIdx_map_fst 1 (Text.sourceLines text)]
    exact List.mem_map_of_mem hline
  exact List.Subset.trans (Text.stripChars_subset _)
    (List.Subset.trans (uncomment_subset _ _) (Text.subset_of_mem_sourceLines hmem))

/-! ## Tokens and options -/

section
variable {source : List Char}
open Text (StemFrom)

/-- An optional text that stems from a source. -/
def Stemming (source : List Char) (text : Option String) : Prop :=
  ∀ t ∈ text, StemFrom source t.toList

/-- A token of characters of a source and of characters that XML allows. -/
def Token.Stems (source : List Char) (t : Token) : Prop := StemFrom source t.value.toList

theorem unescape_stem {c : Char} (h : (Text.Letter.char c).isLegal = true ∨ c ∈ source) :
    (Text.Letter.char (unescape c)).isLegal = true ∨ unescape c ∈ source := by
  unfold unescape
  split
  · exact .inl (by decide)
  split
  · exact .inl (by decide)
  · exact h

theorem Token.finish_stem {d : Draft} (h : StemFrom source d.reversed) :
    ∀ t ∈ d.finish, t.Stems source := by
  intro t ht
  unfold Draft.finish at ht
  split at ht
  · cases ht
  · rw [List.mem_singleton] at ht
    rw [ht, Stems, String.toList_ofList]
    exact h.of_subset fun c hc => List.mem_reverse.mp hc

theorem Token.scan_stem {q : Quoting} {d : Draft} {cs : List Char} {tokens : List Token}
    (h : scan q d cs = some tokens) (hd : StemFrom source d.reversed) (hcs : StemFrom source cs) :
    ∀ t ∈ tokens, t.Stems source := by
  -- By induction on the rest of the line, whatever was read of the token under way.
  fun_induction scan q d cs generalizing tokens with
  | case1 => cases h
  | case2 q d =>
    cases h
    exact finish_stem hd
  | case3 q d c cs _ ih =>
    obtain ⟨hc, hcs⟩ := List.forall_mem_cons.mp hcs
    exact ih h (.cons (unescape_stem hc) hd) hcs
  | case7 q d c cs _ _ _ _ ih =>
    obtain ⟨hc, hcs⟩ := List.forall_mem_cons.mp hcs
    exact ih h (.cons hc hd) hcs
  | case6 q d c cs _ _ _ _ ih =>
    obtain ⟨rest, hrest, rfl⟩ := Option.map_eq_some_iff.mp h
    exact List.forall_mem_append.mpr ⟨finish_stem hd,
      ih hrest (fun _ hc => by cases hc) (List.forall_mem_cons.mp hcs).2⟩
  | case4 q d cs _ ih | case5 q d c cs _ _ _ ih =>
    -- A quote mark and a backslash are no part of the token.
    exact ih h hd (List.forall_mem_cons.mp hcs).2

theorem Token.ofLine_stem {text : List Char} (h : StemFrom source text) (line : LineNumber) :
    Yields (fun tokens => ∀ t ∈ tokens, t.Stems source) (ofLine text line) := by
  unfold ofLine
  split
  · rename_i hscan
    exact .ok (scan_stem hscan (fun _ hc => by cases hc) h)
  · exact .fails _

/-- Options whose values stem from a source. -/
def Options.Stem (source : List Char) (options : Options) : Prop :=
  ∀ entry ∈ options, StemFrom source entry.2.toList

theorem Options.split_stem {t : Token} (h : t.Stems source) (line : LineNumber) :
    Yields (fun entry => StemFrom source entry.2.toList) (split t line) := by
  refine .ite (fun _ => .fails _) fun _ => .ite (fun _ => .fails _) fun _ => .ok ?_
  rw [String.toList_ofList]
  refine h.of_subset (List.Subset.trans (Text.stripChars_subset _) ?_)
  exact List.Subset.trans (List.drop_subset _ _) (List.dropWhile_subset _)

theorem Options.collect_stem {tokens : List Token}
    (h : ∀ t ∈ tokens, t.Stems source) (allowed : List String) (line : LineNumber) :
    Yields (Options.Stem source) (collect tokens allowed line) := by
  refine Settles.foldlM (fun options hoptions t ht => ?_) fun entry hentry => by cases hentry
  refine .ite (fun _ => ?_) fun _ => .fails _
  refine (split_stem (h t ht) line).bind fun entry hentry => ?_
  exact .ite (fun _ => .ok (List.forall_mem_cons.mpr ⟨hentry, hoptions⟩)) fun _ => .fails _

theorem Options.Stem.get? {options : Options} (h : options.Stem source) (key : String) :
    Stemming source (options.get? key) := by
  intro value hvalue
  obtain ⟨front, back, rfl, -⟩ := List.lookup_eq_some_iff.mp hvalue
  exact h (key, value) (by simp)

/-! ## Statements -/

theorem Content.filled_stem {text : Option String} (h : Stemming source text) :
    Stemming source (filled text) := fun t ht =>
  h t (Option.filter_eq_some_iff.mp ht).1

theorem Content.settle_stem {kind : Kind} {content label : Option String}
    (hcontent : Stemming source content) (hlabel : Stemming source label) {text : Option String}
    (h : (reconcile content label).settle kind = .ok text) : Stemming source text := by
  have hcontent := filled_stem hcontent
  have hlabel := filled_stem hlabel
  unfold reconcile at h
  split at h
  · rename_i c l hc hl
    split at h
    · cases h
      rwa [hc] at hcontent
    · cases h
  · rename_i c hc hl
    cases h
    rwa [hc] at hcontent
  · cases h
    exact hlabel

/-- An instruction whose texts stem from a source. -/
def Instruction.Stems (source : List Char) : Instruction → Prop
  | .shape i => Stemming source i.content ∧ Stemming source i.label
  | .connector i => Stemming source i.label

theorem stemming_none : Stemming source none := fun _ h => by cases h

theorem ShapeInstruction.withText_stems {i : ShapeInstruction} (hcontent : i.content = none)
    (hlabel : i.label = none) {text : Option String} (h : Stemming source text) :
    Instruction.Stems source (.shape (i.withText text)) := by
  unfold withText
  split
  · exact ⟨h, hlabel ▸ stemming_none⟩
  · exact ⟨hcontent ▸ stemming_none, h⟩

namespace Statement
variable (line : LineNumber)

theorem leadingPosition_subset (words : List Token) (allowPosition : Bool) :
    Yields (fun r => r.2 ⊆ words) (leadingPosition words line allowPosition) := by
  unfold leadingPosition
  split
  · refine .ite (fun _ => .ite (fun _ => .after fun p => ?_) fun _ => .fails _) fun _ => ?_
    · exact .ok (List.subset_cons_self _ _)
    · exact .ok (List.Subset.refl _)
  · exact .ok (List.Subset.refl _)

theorem leadingSize_subset (words : List Token) :
    Yields (fun r => r.2 ⊆ words) (leadingSize words line) := by
  unfold leadingSize
  split
  · refine .ite (fun _ => .after fun s => ?_) fun _ => ?_
    · exact .ok (List.subset_cons_self _ _)
    · exact .ok (List.Subset.refl _)
  · exact .ok (List.Subset.refl _)

theorem leadingContent_stems {words : List Token} (h : ∀ t ∈ words, t.Stems source) :
    Stemming source (leadingContent words).1 ∧ ∀ t ∈ (leadingContent words).2, t.Stems source := by
  unfold leadingContent
  split
  · split
    · exact ⟨stemming_none, h⟩
    · obtain ⟨ht, hrest⟩ := List.forall_mem_cons.mp h
      exact ⟨fun t' ht' => Option.some.inj ht' ▸ ht, hrest⟩
  · exact ⟨stemming_none, h⟩

theorem shape_stems (kind : Kind) {words : List Token} (h : ∀ t ∈ words, t.Stems source)
    (allowPosition : Bool) :
    Yields (Instruction.Stems source) (shape kind words line allowPosition) := by
  refine (leadingPosition_subset line words allowPosition).bind fun (_, words') hwords' => ?_
  refine (leadingSize_subset line words').bind fun (_, words'') hwords'' => ?_
  obtain ⟨hcontent, hrest⟩ :=
    leadingContent_stems fun t ht => h t (hwords' (hwords'' ht))
  refine (Options.collect_stem hrest _ line).bind fun options hoptions => ?_
  refine .after fun style => .after fun position => .after fun sized => .after fun dimensions => ?_
  dsimp only
  split
  · exact .fails _
  · rename_i text htext
    exact .ok (ShapeInstruction.withText_stems rfl rfl
      (Content.settle_stem hcontent (hoptions.get? "label") htext))

theorem connector_stems {words : List Token} (h : ∀ t ∈ words, t.Stems source) :
    Yields (Instruction.Stems source) (connector words line) := by
  unfold connector
  refine .ite (fun _ => .fails _) fun _ => .ite (fun _ => .fails _) fun _ => ?_
  have hrest : ∀ t ∈ ((words.dropWhile (! isMarker ·)).drop 1).dropWhile (! Options.isOption ·),
      t.Stems source := fun t ht =>
    h t (List.dropWhile_subset _ (List.drop_subset _ _ (List.dropWhile_subset _ ht)))
  refine (Options.collect_stem hrest _ line).bind fun options hoptions => .after fun style => ?_
  split
  · exact .ok (hoptions.get? "label")
  · exact .after fun o => .ok (hoptions.get? "label")

/-- The texts of a statement stem from its line. -/
theorem ofText_stems {text : List Char} (h : StemFrom source text) (allowPosition : Bool) :
    Yields (Instruction.Stems source) (ofText text line allowPosition) := by
  refine (Token.ofLine_stem h line).bind fun tokens htokens => ?_
  unfold ofTokens
  split
  · exact .fails _
  · have hwords := (List.forall_mem_cons.mp htokens).2
    refine .ite (fun _ => connector_stems line hwords) fun _ => ?_
    split
    · exact .fails _
    · exact .fails _
    · exact shape_stems line _ hwords allowPosition

end Statement

/-! ## Sources -/

namespace Source

theorem nested_stems {body : List Line} {nested : List ShapeInstruction}
    (h : List.Forall₂ Nested body nested) (hbody : ∀ l ∈ body, StemFrom source l.text) :
    ∀ i ∈ nested, Instruction.Stems source (.shape i) := by
  induction h with
  | nil => exact fun i hi => by cases hi
  | @cons l i _ _ hi _ ih =>
    obtain ⟨hl, hbody⟩ := List.forall_mem_cons.mp hbody
    exact List.forall_mem_cons.mpr
      ⟨(Statement.ofText_stems l.place hl false).of_ok hi, ih hbody⟩

/-- The texts of the instructions of a passage stem from its statements. -/
theorem Passage.Reads.stems {p : Passage} {part : List Instruction} (h : p.Reads part)
    (hp : ∀ l ∈ p.statements, StemFrom source l.text) : ∀ i ∈ part, i.Stems source := by
  cases h with
  | @statement l _ h =>
    intro i hi
    rw [List.mem_singleton.mp hi]
    exact (Statement.ofText_stems l.place (hp l List.mem_cons_self) true).of_ok h
  | @block _ _ _ nested boxes placed _ hbody _ hpayload _ hbox =>
    intro i hi
    obtain ⟨q, hq, rfl⟩ := List.mem_map.mp hi
    have hnested : q.box.payload ∈ nested := payload_mem hpayload hbox hq
    -- A block moves its shapes and leaves their texts alone.
    have hstems : Instruction.Stems source (.shape q.box.payload) := nested_stems hbody hp _ hnested
    exact hstems

/-- The instructions of a source are well formed, and their texts stem from the source. -/
theorem instructions_stem {text : String} {is : List Instruction} (h : instructions text = .ok is) :
    ∀ i ∈ is, i.WellFormed ∧ i.Stems text.toList := by
  have hreads : Reads none (lines text) is := reads_of_readLines h
  obtain ⟨parts, hparts, rfl⟩ := hreads.passages .outside
  have hstatements : (passages none (lines text)).flatMap Passage.statements =
      (lines text).filter Line.isStatement := hreads.statements .outside
  intro i hi
  -- An instruction belongs to a passage, whose statements are lines of the source.
  obtain ⟨part, hpart, hi⟩ := List.mem_flatten.mp hi
  obtain ⟨p, hp, hreads⟩ := Outcome.exists_of_forall₂ hparts.flip hpart
  refine ⟨(hreads.wellFormed i hi).1, hreads.stems (fun l hl => ?_) i hi⟩
  have hline : l ∈ (lines text).filter Line.isStatement :=
    hstatements ▸ List.mem_flatMap.mpr ⟨p, hp, hl⟩
  exact Text.stemFrom_of_subset (subset_of_mem_lines (List.mem_filter.mp hline).1)

end Source

end

end DiagramScript
