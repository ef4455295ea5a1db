import DiagramScript.Proofs.Spelling.Form
import DiagramScript.Proofs.Statement.OneLine

/-
  Forms as statements.

  Each reader of a statement takes the words of its own part and leaves the others: no size, text
  or option looks like a position, and no text or option like a size. The options come back by
  their keys, in whatever order they are written (`collect_spell`). So a form written as a line is
  a source of its instruction (`Form.instructions_line`).
-/

namespace DiagramScript

namespace Spelling

/-! ## Words of the grammar -/

/-- The key of an option: a plain word without `=` that starts with no digit or sign. -/
structure KeyWord (key : String) : Prop where
  plain : ∀ c ∈ key.toList, isPlain c
  noMark : '=' ∉ key.toList
  measure : ∃ c cs, key.toList = c :: cs ∧ Text.isBlank c = false ∧ c ≠ '-' ∧
    Text.isDigit c = false

theorem keyWord_of_mem {key : String} (h : key ∈ shapeOptionKeys ∨ key ∈ connectorOptionKeys) :
    KeyWord key := by
  have hall : ∀ k ∈ shapeOptionKeys ++ connectorOptionKeys,
      k.toList.all isPlain = true ∧ '=' ∉ k.toList ∧
        k.toList.head?.any (fun c => !Text.isBlank c && c != '-' && !Text.isDigit c) = true := by
    decide
  obtain ⟨hplain, hmark, hmeasure⟩ := hall key (List.mem_append.mpr h)
  obtain ⟨c, hc, hmeasure⟩ := (Option.any_eq_true _ _).mp hmeasure
  obtain ⟨cs, hcs⟩ := List.head?_eq_some_iff.mp hc
  simp only [Bool.and_eq_true, Bool.not_eq_true', bne_iff_ne] at hmeasure
  exact ⟨List.all_eq_true.mp hplain, hmark, c, cs, hcs, hmeasure.1.1, hmeasure.1.2, hmeasure.2⟩

/-- The token of an option. -/
def optionToken (o : String × String) : Token :=
  ⟨String.ofList (o.1.toList ++ '=' :: o.2.toList), false⟩

theorem spells_option {o : String × String} (hkey : KeyWord o.1) :
    Spells (optionWord o) (optionToken o) := by
  have hplain : ∀ c ∈ o.1.toList ++ ['='], isPlain c := by
    intro c hc
    rcases List.mem_append.mp hc with hc | hc
    · exact hkey.plain c hc
    · exact List.mem_singleton.mp hc ▸ (by decide)
  have hspells := spells_quote _ hplain o.2.toList (by simp)
  have hfilled : (o.1.toList ++ ['=']).isEmpty = false := by simp
  rw [hfilled, List.append_assoc, List.append_assoc] at hspells
  exact hspells

theorem isOption_optionToken (o : String × String) : Options.isOption (optionToken o) = true := by
  simp [Options.isOption, optionToken]

theorem optionToken_measure {o : String × String} (hkey : KeyWord o.1) :
    Measure.isPosition (optionToken o).value.toList = false ∧
      Measure.isSize (optionToken o).value.toList = false := by
  obtain ⟨c, cs, hcs, hblank, hminus, hdigit⟩ := hkey.measure
  rw [optionToken, String.toList_ofList, hcs]
  exact no_measure hblank hminus hdigit _

theorem split_spell {o : String × String} (hkey : KeyWord o.1) (hne : o.2 ≠ "")
    (hstrip : Text.strip o.2 = o.2) (line : LineNumber) :
    Options.split (optionToken o) line = .ok o := by
  have hmark : ∀ c ∈ o.1.toList, (c != '=') = true := fun c hc =>
    bne_iff_ne.mpr fun h => hkey.noMark (h ▸ hc)
  have hkeyPart : (o.1.toList ++ '=' :: o.2.toList).takeWhile (· != '=') = o.1.toList := by
    rw [List.takeWhile_append_of_pos hmark]
    simp
  have hvaluePart : ((o.1.toList ++ '=' :: o.2.toList).dropWhile (· != '=')).drop 1 = o.2.toList := by
    rw [List.dropWhile_append_of_pos hmark]
    simp
  have hkeyStrip : Text.stripChars o.1.toList = o.1.toList :=
    Text.stripChars_of_solid fun c hc => (isPlain_iff.mp (hkey.plain c hc)).1
  have hvalueStrip : Text.stripChars o.2.toList = o.2.toList := by
    have h := congrArg String.toList hstrip
    rwa [Text.strip, String.toList_ofList] at h
  have hkeyFilled : ¬o.1.toList.isEmpty = true := by
    obtain ⟨c, cs, hcs, -⟩ := hkey.measure
    rw [hcs]
    exact Bool.false_ne_true
  have hvalueFilled : ¬o.2.toList.isEmpty = true := by
    rw [List.isEmpty_iff, String.toList_eq_nil_iff]
    exact hne
  unfold Options.split optionToken
  simp only [String.toList_ofList, hkeyPart, hvaluePart, hkeyStrip, hvalueStrip,
    if_neg hkeyFilled, if_neg hvalueFilled, String.ofList_toList]

theorem collect_spell {options : List (String × String)} {allowed : List String}
    (h : ∀ o ∈ options, o.1 ∈ allowed ∧ KeyWord o.1 ∧ o.2 ≠ "" ∧ Text.strip o.2 = o.2)
    (line : LineNumber) :
    Options.collect (options.map optionToken) allowed line = .ok options.reverse := by
  -- Over the options that were read before, which the fold carries along.
  have hfold (before : Options) : (options.map optionToken).foldlM (Options.step allowed line)
      before = .ok (options.reverse ++ before) := by
    induction options generalizing before with
    | nil => rfl
    | cons o options ih =>
      obtain ⟨hallowed, hkey, hne, hstrip⟩ := h o List.mem_cons_self
      have hstep : Options.step allowed line before (optionToken o) = .ok (o :: before) := by
        rw [Options.step, if_pos (isOption_optionToken o), split_spell hkey hne hstrip]
        exact if_pos (List.contains_iff_mem.mpr hallowed)
      rw [List.map_cons, List.foldlM_cons, hstep]
      refine (ih (fun o' ho' => h o' (List.mem_cons_of_mem o ho')) (o :: before)).trans ?_
      rw [List.reverse_cons, List.append_assoc]
      rfl
  rw [Options.collect, hfold, List.append_nil]

/-! ## Words in front of the options -/

/-- The token of a plain word. -/
def plainToken (cs : List Char) : Token := ⟨String.ofList cs, false⟩

theorem leadingPosition_spell (position : Option (Coordinate × Coordinate)) (rest : List Token)
    (hrest : ∀ t ∈ rest.head?, t.quoted = true ∨ Measure.isPosition t.value.toList = false)
    (line : LineNumber) :
    Statement.leadingPosition
        (((position.map fun (x, y) => positionText x y).map plainToken).toList ++ rest) line true =
      .ok (position.map fun (x, y) => ⟨x.scalar, y.scalar⟩, rest) := by
  cases position with
  | some p =>
    obtain ⟨x, y⟩ := p
    have hform : (!(plainToken (positionText x y)).quoted &&
        Measure.isPosition (plainToken (positionText x y)).value.toList) = true := by
      rw [plainToken, String.toList_ofList, isPosition_positionText]
      rfl
    simp only [Option.map_some, Option.toList_some, List.singleton_append,
      Statement.leadingPosition, if_pos hform, if_true]
    rw [plainToken, position_spell]
    rfl
  | none =>
    cases rest with
    | nil => rfl
    | cons t rest =>
      have hform : ¬(!t.quoted && Measure.isPosition t.value.toList) = true := by
        rcases hrest t rfl with h | h <;> simp [h]
      exact if_neg hform

theorem leadingSize_spell (size : Option (Length × Length)) (rest : List Token)
    (hrest : ∀ t ∈ rest.head?, t.quoted = true ∨ Measure.isSize t.value.toList = false)
    (line : LineNumber) :
    Statement.leadingSize
        (((size.map fun (w, h) => sizeText w h).map plainToken).toList ++ rest) line =
      .ok (size.map fun (w, h) => ⟨w.scalar, h.scalar⟩, rest) := by
  cases size with
  | some s =>
    obtain ⟨w, h⟩ := s
    have hform : (!(plainToken (sizeText w h)).quoted &&
        Measure.isSize (plainToken (sizeText w h)).value.toList) = true := by
      rw [plainToken, String.toList_ofList, isSize_sizeText]
      rfl
    simp only [Option.map_some, Option.toList_some, List.singleton_append,
      Statement.leadingSize, if_pos hform]
    rw [plainToken, size_spell]
    rfl
  | none =>
    cases rest with
    | nil => rfl
    | cons t rest =>
      have hform : ¬(!t.quoted && Measure.isSize t.value.toList) = true := by
        rcases hrest t rfl with h | h <;> simp [h]
      exact if_neg hform

theorem leadingContent_spell (body : Option String) (options : List (String × String)) :
    Statement.leadingContent ((body.map fun s => ⟨s, true⟩).toList ++ options.map optionToken) =
      (body, options.map optionToken) := by
  cases body with
  | some s => rfl
  | none =>
    cases options with
    | nil => rfl
    | cons o options => exact if_pos (isOption_optionToken o)

/-! ## Options of forms -/

theorem word_value {w : String}
    (h : w ∈ colorNames ++ fillNames ++ dashNames ++ Font.names ++ Tier.names) :
    w ≠ "" ∧ Text.strip w = w := by
  have hall : ∀ w ∈ colorNames ++ fillNames ++ dashNames ++ Font.names ++ Tier.names,
      w ≠ "" ∧ Text.strip w = w := by
    decide +kernel
  exact hall w h

theorem tier_mem (t : Tier) : t.name ∈ Tier.names := by
  cases t <;> decide

theorem options_value {l : Look} {tier : Option Tier} {label : Option Trimmed}
    {o : String × String} (h : o ∈ given (optionTable l tier label)) :
    o.1 ∈ shapeOptionKeys ∧ o.1 ∈ connectorOptionKeys ∧ o.2 ≠ "" ∧ Text.strip o.2 = o.2 := by
  obtain ⟨key, value⟩ := o
  have hkeys : (optionTable l tier label).map (·.1) =
      ["color", "fill", "dash", "font", "size", "label", "id"] := rfl
  have hmem := mem_given.mp h
  have hkey : key ∈ ["color", "fill", "dash", "font", "size", "label", "id"] :=
    hkeys ▸ List.mem_map_of_mem (f := (·.1)) hmem
  have hallowed : ∀ k ∈ ["color", "fill", "dash", "font", "size", "label", "id"],
      k ∈ shapeOptionKeys ∧ k ∈ connectorOptionKeys := by
    decide
  refine ⟨(hallowed key hkey).1, (hallowed key hkey).2, ?_⟩
  -- The values are words of the vocabularies, or texts that the form holds stripped.
  have hword {names : List String} {w : Option (WordOf names)}
      (hnames : names ⊆ colorNames ++ fillNames ++ dashNames ++ Font.names ++ Tier.names)
      (hw : w.map (·.1) = some value) : value ≠ "" ∧ Text.strip value = value := by
    obtain ⟨w, rfl, rfl⟩ := Option.map_eq_some_iff.mp hw
    exact word_value (hnames w.2)
  have htrimmed {t : Option Trimmed} (ht : t.map (·.1) = some value) :
      value ≠ "" ∧ Text.strip value = value := by
    obtain ⟨t, rfl, rfl⟩ := Option.map_eq_some_iff.mp ht
    exact t.2
  simp only [optionTable, List.mem_cons, Prod.mk.injEq, List.not_mem_nil, or_false] at hmem
  rcases hmem with ⟨-, h⟩ | ⟨-, h⟩ | ⟨-, h⟩ | ⟨-, h⟩ | ⟨-, h⟩ | ⟨-, h⟩ | ⟨-, h⟩
  · exact hword (fun _ hw => by simp [hw]) h.symm
  · exact hword (fun _ hw => by simp [hw]) h.symm
  · exact hword (fun _ hw => by simp [hw]) h.symm
  · exact hword (fun _ hw => by simp [hw]) h.symm
  · obtain ⟨t, -, rfl⟩ := Option.map_eq_some_iff.mp h.symm
    exact word_value (List.mem_append_right _ (tier_mem t))
  · exact htrimmed h.symm
  · exact htrimmed h.symm

theorem checked_spell (key : String) {names : List String} (w : Option (WordOf names))
    (line : LineNumber) :
    Style.checked key names (w.map (·.1)) line = .ok (w.map (·.1)) := by
  cases w with
  | none => rfl
  | some w => exact if_pos (List.contains_iff_mem.mpr w.2)

theorem ofOptions_spell {get : String → Option String} (l : Look)
    (hcolor : get "color" = l.color.map (·.1)) (hfill : get "fill" = l.fill.map (·.1))
    (hdash : get "dash" = l.dash.map (·.1)) (hfont : get "font" = l.font.map (·.1))
    (line : LineNumber) : Style.ofOptions get line = .ok (l.style none) := by
  simp only [Style.ofOptions, hcolor, hfill, hdash, hfont, checked_spell]
  rfl

theorem read_tier (t : Tier) (line : LineNumber) (allowBox : Bool) :
    SizeOption.read t.name line allowBox = .ok (.tier t.name) :=
  if_pos (List.contains_iff_mem.mpr (tier_mem t))

theorem reconcile_once {text : Option String} (h : ∀ s ∈ text, s ≠ "") :
    Content.reconcile text none = .resolved text ∧
      Content.reconcile none text = .resolved text := by
  cases text with
  | none => exact ⟨rfl, rfl⟩
  | some s =>
    have hfilled : Content.filled (some s) = some s := by
      simp [Content.filled, h s rfl]
    constructor <;> rw [Content.reconcile, hfilled] <;> rfl

/-! ## Statements -/

theorem option_get {l : Look} {tier : Option Tier} {label : Option Trimmed}
    {options : List (String × String)} (ho : options.Perm (given (optionTable l tier label)))
    (key : String) :
    Options.get? options.reverse key = ((optionTable l tier label).lookup key).join :=
  lookup_given ((List.reverse_perm _).trans ho) (by simp [optionTable]) key

theorem sizeOption_spell {options : Options} {tier : Option Tier}
    (h : options.get? "size" = tier.map Tier.name) (l : Look) (size : Option Size)
    (line : LineNumber) :
    Statement.sizeOption options line (l.style none) size = .ok (l.style tier, size) := by
  cases tier with
  | none => simp only [Statement.sizeOption, h, Option.map_none]
  | some t =>
    simp only [Statement.sizeOption, h, Option.map_some, read_tier]
    rfl

/-- The tokens of a form between its kind and its options. -/
def Form.tokens : Form → List Token
  | shape f => (f.positionWord?.map plainToken).toList ++ ((f.sizeWord?.map plainToken).toList ++
      ((f.body.map (·.2.1)).map fun s => ⟨s, true⟩).toList)
  | connector f => [⟨f.source.1, true⟩, ⟨"->", false⟩, ⟨f.target.1, true⟩]

/-- What follows the size of a shape is its text, or an option, and no measure. -/
theorem head_body {f : ShapeForm} {options : List (String × String)}
    (hvalues : ∀ o ∈ options, KeyWord o.1) :
    ∀ t ∈ (((f.body.map (·.2.1)).map fun s => (⟨s, true⟩ : Token)).toList ++
      options.map optionToken).head?, t.quoted = true ∨
        Measure.isPosition t.value.toList = false ∧ Measure.isSize t.value.toList = false := by
  intro t ht
  cases hs : f.body.map (·.2.1) with
  | some s =>
    rw [hs] at ht
    cases ht
    exact .inl rfl
  | none =>
    rw [hs] at ht
    cases options with
    | nil => cases ht
    | cons o options =>
      cases ht
      exact .inr (optionToken_measure (hvalues o List.mem_cons_self))

/-- What follows the position of a shape is its size, or what follows that, and no position. -/
theorem head_size {f : ShapeForm} {rest : List Token}
    (hrest : ∀ t ∈ rest.head?, t.quoted = true ∨ Measure.isPosition t.value.toList = false) :
    ∀ t ∈ ((f.sizeWord?.map plainToken).toList ++ rest).head?,
      t.quoted = true ∨ Measure.isPosition t.value.toList = false := by
  intro t ht
  unfold ShapeForm.sizeWord? at ht
  cases hs : f.extent.size? with
  | some s =>
    rw [hs] at ht
    cases ht
    refine .inr ?_
    rw [plainToken, String.toList_ofList]
    exact isPosition_sizeText _ _
  | none =>
    rw [hs] at ht
    exact hrest t ht

/-- The words of a shape, without its kind, are read as its instruction. -/
theorem shape_spell (f : ShapeForm) {options : List (String × String)}
    (ho : options.Perm (Form.shape f).options) (line : LineNumber) :
    Statement.shape f.kind ((Form.shape f).tokens ++ options.map optionToken) line true =
      .ok ((Form.shape f).instruction.onLine line) := by
  have hvalues : ∀ o ∈ options,
      o.1 ∈ shapeOptionKeys ∧ KeyWord o.1 ∧ o.2 ≠ "" ∧ Text.strip o.2 = o.2 := by
    intro o hmem
    obtain ⟨hkey, -, hvalue⟩ := options_value (ho.mem_iff.mp hmem)
    exact ⟨hkey, keyWord_of_mem (.inl hkey), hvalue⟩
  have hbody := head_body (f := f) fun o hmem => (hvalues o hmem).2.1
  have hposition := head_size (f := f) fun t ht => (hbody t ht).imp_right And.left
  have hget (key : String) := option_get ho key
  have htier : Options.get? options.reverse "size" = f.extent.tier?.map Tier.name := hget "size"
  have htext : Content.reconcile (f.body.map (·.2.1)) none = .resolved (f.body.map (·.2.1)) := by
    refine (reconcile_once fun s hs => ?_).1
    obtain ⟨b, -, rfl⟩ := Option.map_eq_some_iff.mp hs
    exact b.2.2
  have hlabel : Options.get? options.reverse "label" = none := hget "label"
  have hpos : Options.get? options.reverse "pos" = none := hget "pos"
  have hdimensions : Options.get? options.reverse "dimensions" = none := hget "dimensions"
  have hid : Options.get? options.reverse "id" = f.look.id.map (·.1) := hget "id"
  -- The place, the size and the text are taken off the front, and only options are left.
  rw [Statement.shape, Form.tokens, List.append_assoc, List.append_assoc,
    ShapeForm.positionWord?, leadingPosition_spell f.position _ hposition line]
  simp only [bind, Except.bind, ShapeForm.sizeWord?,
    leadingSize_spell f.extent.size? _ fun t ht => (hbody t ht).imp_right And.right,
    leadingContent_spell, collect_spell hvalues,
    ofOptions_spell f.look (hget "color") (hget "fill") (hget "dash") (hget "font"),
    Statement.positionOption, hpos, sizeOption_spell htier, Statement.dimensionsOption,
    hdimensions, hlabel, htext, Content.settle, hid]
  rw [Form.instruction, Instruction.onLine, ← Statement.withText_line]

theorem phrase_spell (t : Trimmed) : Statement.phrase [⟨t.1, true⟩] = t.1 := by
  rw [Statement.phrase]
  exact t.2.2

/-- The words of a connector, without its kind, are read as its instruction. -/
theorem connector_spell (f : ConnectorForm) {options : List (String × String)}
    (ho : options.Perm (Form.connector f).options) (line : LineNumber) :
    Statement.connector ((Form.connector f).tokens ++ options.map optionToken) line =
      .ok ((Form.connector f).instruction.onLine line) := by
  have hvalues : ∀ o ∈ options,
      o.1 ∈ connectorOptionKeys ∧ KeyWord o.1 ∧ o.2 ≠ "" ∧ Text.strip o.2 = o.2 := by
    intro o hmem
    obtain ⟨-, hkey, hvalue⟩ := options_value (ho.mem_iff.mp hmem)
    exact ⟨hkey, keyWord_of_mem (.inr hkey), hvalue⟩
  have hquoted (s : String) : Statement.isMarker ⟨s, true⟩ = false := Bool.and_false _
  have hmarker : Statement.isMarker ⟨"->", false⟩ = true := rfl
  have hend : Options.isOption ⟨f.target.1, true⟩ = false := rfl
  -- The target is the one token between the marker and the options.
  have htarget : (options.map optionToken).takeWhile (! Options.isOption ·) = [] ∧
      (options.map optionToken).dropWhile (! Options.isOption ·) = options.map optionToken := by
    cases options with
    | nil => exact ⟨rfl, rfl⟩
    | cons o options =>
      have ho : ¬(!Options.isOption (optionToken o)) = true := by
        rw [isOption_optionToken]
        decide
      exact ⟨List.takeWhile_cons_of_neg ho, List.dropWhile_cons_of_neg ho⟩
  have hfilled (t : Trimmed) : t.1.isEmpty = false := by
    rw [Bool.eq_false_iff, Ne, String.isEmpty_iff]
    exact t.2.1
  have hget (key : String) := option_get ho key
  have hsize : Options.get? options.reverse "size" = f.tier.map Tier.name := hget "size"
  have hlabel : Options.get? options.reverse "label" = f.label.map (·.1) := hget "label"
  have hid : Options.get? options.reverse "id" = f.look.id.map (·.1) := hget "id"
  have hstyle := ofOptions_spell f.look (hget "color") (hget "fill") (hget "dash") (hget "font") line
  rw [Statement.connector, Form.tokens]
  simp only [List.cons_append, List.nil_append, List.takeWhile_cons, List.dropWhile_cons, hquoted,
    hmarker, hend, htarget.1, htarget.2, Bool.not_false, Bool.not_true, if_true,
    Bool.false_eq_true, if_false, List.drop_succ_cons, List.drop_zero, List.isEmpty_cons,
    Bool.or_self, phrase_spell, hfilled]
  simp only [bind, Except.bind, collect_spell hvalues, hstyle, hsize, hlabel, hid,
    Form.instruction, Instruction.onLine]
  cases f.tier with
  | none => rfl
  | some t =>
    simp only [Option.map_some, read_tier]
    rfl

theorem isPlain_positionText (x y : Coordinate) : ∀ c ∈ positionText x y, isPlain c := by
  have hcoordinate (c : Coordinate) : ∀ d ∈ c.text, isPlain d :=
    PlainDecimal.forall_signed (by decide) (by decide) (by decide) c.negative c.decimal
  intro c hc
  rcases List.mem_append.mp hc with hc | hc
  · exact hcoordinate x c hc
  · rcases List.mem_cons.mp hc with rfl | hc
    · decide
    · exact hcoordinate y c hc

theorem isPlain_sizeText (w h : Length) : ∀ c ∈ sizeText w h, isPlain c := by
  have hlength (l : Length) : ∀ d ∈ l.text, isPlain d :=
    PlainDecimal.forall_text (by decide) (by decide) l.decimal
  intro c hc
  rcases List.mem_append.mp hc with hc | hc
  · exact hlength w c hc
  · rcases List.mem_cons.mp hc with rfl | hc
    · decide
    · exact hlength h c hc

theorem spells_measure {word : Option (List Char)}
    (h : ∀ cs ∈ word, (∀ c ∈ cs, isPlain c) ∧ cs ≠ []) :
    List.Forall₂ Spells word.toList (word.map plainToken).toList := by
  cases word with
  | none => exact .nil
  | some cs =>
    obtain ⟨hplain, hne⟩ := h cs rfl
    exact .cons (spells_plain hplain hne) .nil

theorem positionWord_plain (f : ShapeForm) :
    ∀ cs ∈ f.positionWord?, (∀ c ∈ cs, isPlain c) ∧ cs ≠ [] := by
  intro cs hcs
  obtain ⟨p, -, rfl⟩ := Option.map_eq_some_iff.mp hcs
  refine ⟨isPlain_positionText p.1 p.2, ?_⟩
  exact List.append_ne_nil_of_right_ne_nil _ (List.cons_ne_nil _ _)

theorem sizeWord_plain (f : ShapeForm) :
    ∀ cs ∈ f.sizeWord?, (∀ c ∈ cs, isPlain c) ∧ cs ≠ [] := by
  intro cs hcs
  obtain ⟨s, -, rfl⟩ := Option.map_eq_some_iff.mp hcs
  refine ⟨isPlain_sizeText s.1 s.2, ?_⟩
  exact List.append_ne_nil_of_right_ne_nil _ (List.cons_ne_nil _ _)

theorem spells_words (f : Form) : List.Forall₂ Spells f.words f.tokens := by
  have htext {s : String} (h : s ≠ "") : List.Forall₂ Spells [quote s.toList] [⟨s, true⟩] :=
    .cons (spells_text h) .nil
  cases f with
  | shape f =>
    have hbody : List.Forall₂ Spells f.bodyWord?.toList
        ((f.body.map (·.2.1)).map fun s => (⟨s, true⟩ : Token)).toList := by
      unfold ShapeForm.bodyWord?
      cases f.body with
      | none => exact .nil
      | some b => exact htext b.2.2
    rw [Form.words, List.append_assoc]
    exact List.rel_append (spells_measure (positionWord_plain f))
      (List.rel_append (spells_measure (sizeWord_plain f)) hbody)
  | connector f =>
    refine .cons (spells_text f.source.2.1) (.cons ?_ (htext f.target.2.1))
    exact spells_plain (List.all_eq_true.mp (by decide)) (by decide)

theorem ofTokens_spell (f : Form) {options : List (String × String)}
    (ho : options.Perm f.options) (line : LineNumber) :
    Statement.ofTokens (⟨f.keyword, false⟩ :: (f.tokens ++ options.map optionToken)) line true =
      .ok (f.instruction.onLine line) := by
  cases f with
  | connector f => exact connector_spell f ho line
  | shape f =>
    have hkind (k : Kind) (hk : k ≠ .connector) (words : List Token) :
        Statement.ofTokens (⟨k.keyword, false⟩ :: words) line true =
          Statement.shape k words line true := by
      cases k with
      | connector => exact absurd rfl hk
      | rectangle | ellipse | text | note | frame => rfl
    exact (hkind f.kind f.shape _).trans (shape_spell f ho line)

/-- A form that is written as a line, its options in any order, is a source of its instruction. -/
theorem instructions_line (f : Form) {options : List (String × String)}
    (ho : options.Perm f.options) :
    Source.instructions (f.line options) = .ok [f.instruction.onLine (some 1)] := by
  have hkeyword : (∀ c ∈ f.keyword.toList, isPlain c) ∧ f.keyword.toList ≠ [] ∧
      Block.mode? f.keyword.toList = none := by
    have hall (k : Kind) : (∀ c ∈ k.keyword.toList, isPlain c) ∧ k.keyword.toList ≠ [] ∧
        Block.mode? k.keyword.toList = none := by
      cases k <;> exact ⟨List.all_eq_true.mp (by decide), by decide, by decide⟩
    cases f with
    | shape f => exact hall f.kind
    | connector f => exact hall .connector
  obtain ⟨hplain, hne, hblock⟩ := hkeyword
  have hkeys : ∀ o ∈ options, KeyWord o.1 := by
    intro o hmem
    have hgiven := ho.mem_iff.mp hmem
    cases f with
    | shape f => exact keyWord_of_mem (.inl (options_value hgiven).1)
    | connector f => exact keyWord_of_mem (.inl (options_value hgiven).1)
  have hoptions : List.Forall₂ Spells (options.map optionWord) (options.map optionToken) := by
    rw [List.forall₂_map_left_iff, List.forall₂_map_right_iff]
    exact List.forall₂_same.mpr fun o hmem => spells_option (hkeys o hmem)
  refine instructions_spell hplain hne hblock (List.rel_append (spells_words f) hoptions) ?_
  rw [String.ofList_toList]
  exact ofTokens_spell f ho (some 1)

end Spelling

end DiagramScript
