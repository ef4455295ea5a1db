import DiagramScript.Proofs.Spelling.Statement

/-
  Forms as records, and the agreement of both.

  The fields of a record are looked up by their keys, so their order does not matter
  (`field_spell`). A form that is written as a record is the instruction that it is as a
  statement, but for the number of the line (`instructions_agree`).
-/

namespace DiagramScript

namespace Spelling

/-! ## Fields -/

section Fields
variable {keyword : String} {position : Option (Coordinate × Coordinate)}
  {sides : Option (Length × Length)} {size : Option String} {body : BodyKey → Option String}
  {l : Look} {source target : Option String} {r : Record.Fields}

theorem lookup_spell
    (hr : r.Perm (given (fieldTable keyword position sides size body l source target)))
    (key : String) : r.lookup key =
      ((fieldTable keyword position sides size body l source target).lookup key).join :=
  lookup_given hr (by simp [fieldTable]) key

theorem text?_spell {key : String} {text : Option String}
    (hkey : r.lookup key = text.map .text) (hne : ∀ s ∈ text, s ≠ "") :
    Record.text? r key = text := by
  rw [Record.text?, Record.field, hkey]
  cases text with
  | none => rfl
  | some s =>
    have hfilled : ¬s.isEmpty = true := by
      rw [String.isEmpty_iff]
      exact hne s rfl
    exact if_neg hfilled

theorem word_text {names : List String} {key : String} {w : Option (WordOf names)}
    (hnames : names ⊆ colorNames ++ fillNames ++ dashNames ++ Font.names ++ Tier.names)
    (hkey : r.lookup key = (w.map (·.1)).map .text) : Record.text? r key = w.map (·.1) := by
  apply text?_spell hkey
  intro s hs
  obtain ⟨w, -, rfl⟩ := Option.map_eq_some_iff.mp hs
  exact (word_value (hnames w.2)).1

theorem style_spell
    (hr : r.Perm (given (fieldTable keyword position sides size body l source target)))
    (line : LineNumber) :
    Style.ofOptions (Record.text? r) line = .ok (l.style none) := by
  apply ofOptions_spell
  · exact word_text (fun _ hw => by simp [hw]) (lookup_spell hr "color")
  · exact word_text (fun _ hw => by simp [hw]) (lookup_spell hr "fill")
  · exact word_text (fun _ hw => by simp [hw]) (lookup_spell hr "dash")
  · exact word_text (fun _ hw => by simp [hw]) (lookup_spell hr "font")

theorem id_spell
    (hr : r.Perm (given (fieldTable keyword position sides size body l source target))) :
    Record.text? r "id" = l.id.map (·.1) := by
  apply text?_spell (lookup_spell hr "id")
  intro s hs
  obtain ⟨t, -, rfl⟩ := Option.map_eq_some_iff.mp hs
  exact t.2.1

theorem kind_spell {k : Kind}
    (hr : r.Perm (given (fieldTable k.keyword position sides size body l source target)))
    (index : Nat) : Record.kind r index = .ok k := by
  have hshape : Record.field r "shape" = .text k.keyword := by
    rw [Record.field, lookup_spell hr]
    rfl
  rw [Record.kind, hshape]
  dsimp only
  rw [Kind.ofKeyword?_keyword]

theorem number_field {x : Binary64} (h : x.isFinite = true) (path : String) :
    Record.number (.number (.real x)) path = .ok (.real x) := by
  simp only [Record.number, Scalar.isFinite, Scalar.toReal, bind, Except.bind, h, Scalar.isFlag]
  rfl

theorem pair_field {a b : String} {p : Option (Binary64 × Binary64)}
    (ha : r.lookup a = p.map fun q => .number (.real q.1))
    (hb : r.lookup b = p.map fun q => .number (.real q.2))
    (hfinite : ∀ q ∈ p, q.1.isFinite = true ∧ q.2.isFinite = true) (index : Nat)
    (apart : ParseProblem) :
    Record.pair r a b index apart = .ok (p.map fun q => (.real q.1, .real q.2)) := by
  unfold Record.pair Record.has Record.field
  rw [ha, hb]
  cases p with
  | none => rfl
  | some q =>
    obtain ⟨hx, hy⟩ := hfinite q rfl
    simp only [Option.map_some, Option.isSome_some, bne_self_eq_false, Bool.false_eq_true, if_false,
      Bool.not_true, Option.getD_some, number_field hx, number_field hy]
    rfl

theorem position_field
    (hr : r.Perm (given (fieldTable keyword position sides size body l source target)))
    (index : Nat) : Record.position r index =
      .ok (position.map fun (x, y) => ⟨x.scalar, y.scalar⟩) := by
  have hx := lookup_spell hr "x"
  have hy := lookup_spell hr "y"
  let numbers := position.map fun (x, y) => (x.decimal.number x.negative, y.decimal.number y.negative)
  have hpair := pair_field (p := numbers) (hx.trans (by cases position <;> rfl))
    (hy.trans (by cases position <;> rfl)) (by
      intro q hq
      obtain ⟨⟨x, y⟩, -, rfl⟩ := Option.map_eq_some_iff.mp hq
      exact ⟨x.finite, y.finite⟩) index (.recordPosition index)
  rw [Record.position, hpair]
  cases position <;> rfl

theorem size_field
    (hr : r.Perm (given (fieldTable keyword position sides size body l source target)))
    (index : Nat) : Record.size r index =
      .ok (sides.map fun (w, h) => ⟨w.scalar, h.scalar⟩) := by
  have hw := lookup_spell hr "w"
  have hh := lookup_spell hr "h"
  let numbers := sides.map fun (w, h) => (w.decimal.number false, h.decimal.number false)
  have hpair := pair_field (p := numbers) (hw.trans (by cases sides <;> rfl))
    (hh.trans (by cases sides <;> rfl)) (by
      intro q hq
      obtain ⟨⟨w, h⟩, -, rfl⟩ := Option.map_eq_some_iff.mp hq
      exact ⟨w.finite, h.finite⟩) index (.recordSize index)
  rw [Record.size, hpair]
  cases sides with
  | none => rfl
  | some s =>
    have hpositive : ¬((Scalar.real (s.1.decimal.number false)).le 0 ||
        (Scalar.real (s.2.decimal.number false)).le 0) = true := by
      rw [s.1.positive, s.2.positive]
      decide
    exact if_neg hpositive

end Fields

/-! ## Shapes -/

/-- What the size option of a record says. -/
def Extent.read? : Extent → Option SizeOption
  | unsized tier => tier.map fun t => .tier t.name
  | sides _ _ tier => tier.map fun t => .tier t.name
  | box w h => some (.box ⟨w.scalar, h.scalar⟩)

theorem option_ne (e : Extent) : ∀ s ∈ e.option?, s ≠ "" := by
  have htier (tier : Option Tier) : ∀ s ∈ tier.map Tier.name, s ≠ "" := by
    intro s hs
    obtain ⟨t, -, rfl⟩ := Option.map_eq_some_iff.mp hs
    exact (word_value (List.mem_append_right _ (tier_mem t))).1
  cases e with
  | unsized tier => exact htier tier
  | sides w h tier => exact htier tier
  | box w h =>
    intro s hs
    cases hs
    rw [Ne, ← String.toList_eq_nil_iff, String.toList_ofList]
    exact List.cons_ne_nil _ _

/-- A size is no tier. -/
theorem sizeText_not_tier (w h : Length) :
    ¬Tier.names.contains (String.ofList (sizeText w h)) = true := by
  rw [List.contains_iff_mem]
  intro hmem
  have hhead : ∀ name ∈ Tier.names, ∀ k : Fin 10,
      name.toList.head? ≠ some (PlainDecimal.char k) := by
    decide
  apply hhead _ hmem w.decimal.first
  rw [String.toList_ofList]
  rfl

theorem sizeOption_tier {r : Record.Fields} {tier : Option Tier}
    (hsize : Record.text? r "size" = tier.map Tier.name) (kind : Kind) :
    Record.sizeOption r kind = .ok (tier.map fun t => .tier t.name) := by
  rw [Record.sizeOption, hsize]
  cases tier with
  | none => rfl
  | some t =>
    simp only [Option.map_some, read_tier]
    rfl

theorem sizeOption_field {r : Record.Fields} {kind : Kind} (hkind : kind ≠ .connector) (e : Extent)
    (hsize : Record.text? r "size" = e.option?) :
    Record.sizeOption r kind = .ok e.read? := by
  cases e with
  | unsized tier => exact sizeOption_tier hsize kind
  | sides w h tier => exact sizeOption_tier hsize kind
  | box w h =>
    have hbox : (kind != .connector) = true := bne_iff_ne.mpr hkind
    have hform : Measure.isSize (String.ofList (sizeText w h)).toList = true := by
      rw [String.toList_ofList]
      exact isSize_sizeText w h
    rw [Record.sizeOption, hsize, Extent.option?]
    simp only [SizeOption.read, if_neg (sizeText_not_tier w h), if_pos hform, hbox, if_true,
      size_spell]
    rfl

/-- The one text of a shape, whichever key it is under. -/
theorem text_field (f : ShapeForm) {r : Record.Fields} (hr : r.Perm (Form.shape f).fields) :
    Content.reconcile ((Record.text? r "content").or (Record.text? r "text"))
      (Record.text? r "label") = .resolved (f.body.map (·.2.1)) := by
  have hne (key : BodyKey) : ∀ s ∈ f.bodyAt key, s ≠ "" := by
    intro s hs
    obtain ⟨⟨k, s'⟩, -, h⟩ := Option.bind_eq_some_iff.mp hs
    dsimp only at h
    split at h
    · cases h
      exact s'.2
    · cases h
  have hlabel : Record.text? r "label" = f.bodyAt .label :=
    text?_spell (lookup_spell hr "label") (hne _)
  have hcontent : Record.text? r "content" = f.bodyAt .content :=
    text?_spell (lookup_spell hr "content") (hne _)
  have htext : Record.text? r "text" = f.bodyAt .text :=
    text?_spell (lookup_spell hr "text") (hne _)
  rw [hlabel, hcontent, htext]
  unfold ShapeForm.bodyAt
  -- A form has its text under one key, so the two other ones are empty.
  cases f.body with
  | none => rfl
  | some b =>
    obtain ⟨key, s⟩ := b
    have hfilled : ∀ s' ∈ some s.1, s' ≠ "" := fun s' hs' => by
      cases hs'
      exact s.2
    cases key with
    | label => exact (reconcile_once hfilled).2
    | content => exact (reconcile_once hfilled).1
    | text => exact (reconcile_once hfilled).1

theorem ofFields_shape (f : ShapeForm) {r : Record.Fields} (hr : r.Perm (Form.shape f).fields)
    (index : Nat) :
    Record.ofFields r index = .ok ((Form.shape f).instruction.onLine .unnumbered) := by
  have hsize : Record.text? r "size" = f.extent.option? :=
    text?_spell (lookup_spell hr "size") (option_ne f.extent)
  rw [Record.ofFields]
  simp only [bind, Except.bind, kind_spell hr, style_spell hr, sizeOption_field f.shape _ hsize,
    if_neg f.shape, position_field hr, size_field hr, text_field f hr, Content.settle,
    id_spell hr]
  rw [Form.instruction, Instruction.onLine, ← Statement.withText_line]
  -- Only the size and the tier are still put together, from what the extent says.
  cases f.extent with
  | unsized tier => cases tier <;> rfl
  | sides w h tier => cases tier <;> rfl
  | box w h => rfl

/-! ## Connectors -/

theorem ofFields_connector (f : ConnectorForm) {r : Record.Fields}
    (hr : r.Perm (Form.connector f).fields) (index : Nat) :
    Record.ofFields r index = .ok ((Form.connector f).instruction.onLine .unnumbered) := by
  have hkind : Record.kind r index = .ok .connector := kind_spell hr index
  have hsize : Record.text? r "size" = f.tier.map Tier.name :=
    text?_spell (lookup_spell hr "size") (option_ne (.unsized f.tier))
  have hlabel : Record.text? r "label" = f.label.map (·.1) := by
    apply text?_spell (lookup_spell hr "label")
    intro s hs
    obtain ⟨t, -, rfl⟩ := Option.map_eq_some_iff.mp hs
    exact t.2.1
  have hcontent : Record.text? r "content" = none :=
    text?_spell (lookup_spell hr "content") fun s hs => by cases hs
  have htext : Record.text? r "text" = none :=
    text?_spell (lookup_spell hr "text") fun s hs => by cases hs
  have hfrom : r.lookup "from" = some (.text f.source.1) := lookup_spell hr "from"
  have hto : r.lookup "to" = some (.text f.target.1) := lookup_spell hr "to"
  -- An end of a form is stripped already.
  have hend (t : Trimmed) (path : String) : Record.endpoint (.text t.1) path = .ok t.1 := by
    have hfilled : ¬t.1.isEmpty = true := by
      rw [String.isEmpty_iff]
      exact t.2.1
    simp only [Record.endpoint, t.2.2, if_neg hfilled]
  rw [Record.ofFields]
  simp only [bind, Except.bind, hkind, style_spell hr, sizeOption_tier hsize, if_true, Record.has,
    hfrom, hto, Option.isSome_some, Bool.and_self, Bool.not_true, Bool.false_eq_true, if_false, Record.field,
    Option.getD_some, hend, hlabel, hcontent, htext, Option.or_none, id_spell hr,
    Form.instruction, Instruction.onLine]
  cases f.tier <;> rfl

/-- A form is the same instruction as a record and as a statement, its fields and its options in
any order, but for the number of the line. -/
theorem instructions_agree (f : Form) {fields : List (String × Value)}
    (hfields : fields.Perm f.fields) {options : List (String × String)}
    (hoptions : options.Perm f.options) :
    Record.instructions (.list [.object fields]) = .ok [f.instruction.onLine .unnumbered] ∧
      Source.instructions (f.line options) = .ok [f.instruction.onLine (some 1)] := by
  refine ⟨?_, instructions_line f hoptions⟩
  have hread : Record.ofFields fields 0 = .ok (f.instruction.onLine .unnumbered) := by
    cases f with
    | shape f => exact ofFields_shape f hfields 0
    | connector f => exact ofFields_connector f hfields 0
  simp only [Record.instructions, Record.instructionsFrom, Record.instruction, hread, Record.blame]
  rfl

/-- A note whose text looks like a position, a comment, a marker and an option. -/
theorem instructions_agree_note :
    let f : Form := .shape
      { kind := .note, shape := by decide
        position := some (⟨true, ⟨1, [2], [5]⟩, by decide +kernel⟩, ⟨false, ⟨0, [], []⟩, by decide +kernel⟩)
        extent := .sides ⟨⟨2, [0], []⟩, by decide +kernel, by decide +kernel⟩
          ⟨⟨0, [], [5]⟩, by decide +kernel, by decide +kernel⟩ (some .large)
        body := some (.content, ⟨"1,2 # \"q\" -> a=b\n", by decide⟩)
        look := { color := some ⟨"red", by decide⟩, id := some ⟨"n=1", by decide +kernel⟩ } }
    f.line f.options.reverse =
        "note -12.5,0 20x0.5 \"1,2 # \\\"q\\\" -> a=b\\n\" id=\"n=1\" size=\"l\" color=\"red\"" ∧
      Record.instructions (.list [.object f.fields.reverse]) =
          .ok [f.instruction.onLine .unnumbered] ∧
        Source.instructions (f.line f.options.reverse) = .ok [f.instruction.onLine (some 1)] := by
  intro f
  exact ⟨by decide +kernel, instructions_agree f (List.reverse_perm _) (List.reverse_perm _)⟩

end Spelling

end DiagramScript
