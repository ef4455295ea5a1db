import DiagramScript.Proofs.Layout.Reach
import DiagramScript.Proofs.Source.Passages

/-
  Sources with moderate numbers.

  A source is moderate where its numbers are zero or neither tiny nor huge, its column counts
  have not too many digits, and neither the source nor a text in it has too many lines
  (`Source.Moderate`). Such a source is read or refused with an error of the library, and what
  is read from it stays within `lineReach` reaches (`Source.instructions_reaches`).
-/

namespace DiagramScript

/-- How many lines a source and a text in it may have. -/
def lineLimit : ℕ := 2 ^ 20

/-- How many digits a column count may have. -/
def columnDigits : ℕ := 300

/-- How many binary digits such a column count has at most. -/
def columnBits : ℕ := 1000

/-- How many reaches the layout of a block may take. -/
def lineReach : ℕ := 2 ^ 23

/-! ## What is moderate -/

def Point.Moderate (p : Point) : Prop := p.x.Moderate ∧ p.y.Moderate

def Size.Moderate (s : Size) : Prop := s.w.Moderate ∧ s.h.Moderate

/-- A shape instruction with a moderate place, a moderate size and not too many lines of text. -/
structure ShapeInstruction.Moderate (i : ShapeInstruction) : Prop where
  position : ∀ p ∈ i.position, p.Moderate
  size : ∀ s, Block.sizeOf i = .ok s → s.Moderate
  lines : Text.lineCount (i.text.getD "") ≤ lineLimit

/-- A text that names a moderate point, if it names a point. -/
def Measure.IsModerate (text : String) : Prop :=
  isPosition text.toList → ∀ p, position text .unnumbered = .ok p → p.Moderate

def Instruction.Moderate : Instruction → Prop
  | .shape i => i.Moderate
  | .connector i => Measure.IsModerate i.source ∧ Measure.IsModerate i.target

/-- A block with a moderate origin and a moderate gap. -/
def Block.Moderate (b : Block) : Prop := b.origin.Moderate ∧ b.gap.Moderate

namespace Source

/-- A line with moderate numbers, whatever it is read as. -/
structure ModerateLine (text : List Char) : Prop where
  columns : ∀ parts ∈ Block.gridParts? text, parts.2.1.length ≤ columnDigits
  header : ∀ b, Block.header text .unnumbered = .ok b → b.Moderate
  statement : ∀ allowPosition i, Statement.ofText text .unnumbered allowPosition = .ok i →
    i.Moderate

/-- A source with moderate numbers and not too many lines. -/
structure Moderate (source : String) : Prop where
  lines : (Text.sourceLines source).length ≤ lineLimit
  line : ∀ line ∈ Text.sourceLines source, ModerateLine (statementText line)

end Source

/-! Whether a source is moderate can be computed. -/

section Decidable

instance {α : Type} {P : α → Prop} [DecidablePred P] (x : Except Fault α) :
    Decidable (∀ a, x = .ok a → P a) :=
  match x with
  | .ok a => decidable_of_iff (P a)
      ⟨fun h _ hb => Except.ok.inj hb ▸ h, fun h => h a rfl⟩
  | .error _ => isTrue fun _ h => nomatch h

instance : DecidablePred Point.Moderate := fun p =>
  inferInstanceAs (Decidable (p.x.Moderate ∧ p.y.Moderate))

instance : DecidablePred Size.Moderate := fun s =>
  inferInstanceAs (Decidable (s.w.Moderate ∧ s.h.Moderate))

instance : DecidablePred ShapeInstruction.Moderate := fun i =>
  decidable_of_iff ((∀ p ∈ i.position, p.Moderate) ∧
      (∀ s, Block.sizeOf i = .ok s → s.Moderate) ∧ Text.lineCount (i.text.getD "") ≤ lineLimit)
    ⟨fun h => ⟨h.1, h.2.1, h.2.2⟩, fun h => ⟨h.position, h.size, h.lines⟩⟩

instance : DecidablePred Measure.IsModerate := fun text =>
  inferInstanceAs (Decidable (Measure.isPosition text.toList →
    ∀ p, Measure.position text .unnumbered = .ok p → p.Moderate))

instance : DecidablePred Instruction.Moderate
  | .shape i => inferInstanceAs (Decidable i.Moderate)
  | .connector i =>
    inferInstanceAs (Decidable (Measure.IsModerate i.source ∧ Measure.IsModerate i.target))

instance : DecidablePred Block.Moderate := fun b =>
  inferInstanceAs (Decidable (b.origin.Moderate ∧ b.gap.Moderate))

instance : DecidablePred Source.ModerateLine := fun text =>
  decidable_of_iff ((∀ parts ∈ Block.gridParts? text, parts.2.1.length ≤ columnDigits) ∧
      (∀ b, Block.header text .unnumbered = .ok b → b.Moderate) ∧
        ∀ allowPosition i, Statement.ofText text .unnumbered allowPosition = .ok i → i.Moderate)
    ⟨fun h => ⟨h.1, h.2.1, h.2.2⟩, fun h => ⟨h.columns, h.header, h.statement⟩⟩

instance : DecidablePred Source.Moderate := fun source =>
  decidable_of_iff ((Text.sourceLines source).length ≤ lineLimit ∧
      ∀ line ∈ Text.sourceLines source, Source.ModerateLine (statementText line))
    ⟨fun h => ⟨h.1, h.2⟩, fun h => ⟨h.lines, h.line⟩⟩

end Decidable

/-! ## What is in reach -/

theorem Point.Moderate.regular {p : Point} (h : p.Moderate) : p.Regular 132 1 :=
  ⟨h.1.regular, h.2.regular⟩

/-- A shape instruction with a size of moderate sides and not too many lines of text. -/
structure ShapeInstruction.Sized (i : ShapeInstruction) : Prop where
  size : Gives (fun s => s.w.IsSide ∧ s.h.IsSide) (Block.sizeOf i)
  lines : Text.lineCount (i.text.getD "") ≤ lineLimit

/-- A shape instruction whose place, if it names one, is within some reaches. -/
structure ShapeInstruction.Reaches (k : ℕ) (i : ShapeInstruction) : Prop extends i.Sized where
  position : ∀ p ∈ i.position, p.Regular 132 k

/-- A text that names a point within one reach, if it names a point. -/
def Measure.Reaches (text : String) (line : LineNumber) : Prop :=
  isPosition text.toList → ∀ p, position text line = .ok p → p.Regular 132 1

def Instruction.Reaches (k : ℕ) : Instruction → Prop
  | .shape i => i.Reaches k
  | .connector i => Measure.Reaches i.source i.line ∧ Measure.Reaches i.target i.line

theorem Instruction.Reaches.mono {k l : ℕ} {i : Instruction} (h : i.Reaches k) (hk : k ≤ l) :
    i.Reaches l := by
  cases i with
  | shape i => exact ⟨h.toSized, fun p hp => (h.position p hp).mono le_rfl hk⟩
  | connector i => exact h

theorem Block.sizeOf_onLine {i : ShapeInstruction} {s : Size} {line other : LineNumber}
    (h : sizeOf { i with line } = .ok s) : sizeOf { i with line := other } = .ok s := by
  unfold sizeOf at h ⊢
  by_cases hkind : i.kind = .connector
  · rw [if_pos hkind] at h
    cases h
  · rw [if_neg hkind] at h ⊢
    exact h

theorem Measure.IsModerate.reaches {text : String} (h : IsModerate text) (line : LineNumber) :
    Reaches text line := by
  intro hposition p hp
  obtain ⟨q, rfl, hq⟩ := (position_unlined text).ok_everywhere hp
  exact (h hposition p (hq .unnumbered)).regular

theorem Decimal.value_lt {ds : List Nat} (h : ∀ d ∈ ds, d < 10) : value ds < 10 ^ ds.length := by
  -- Over the number that was read before, which the fold carries along.
  have hfold (n : Nat) : ds.foldl (fun n d => 10 * n + d) n < 10 ^ ds.length * (n + 1) := by
    induction ds generalizing n with
    | nil => simp
    | cons d ds ih =>
      have hd := h d List.mem_cons_self
      have hrest := ih (fun e he => h e (List.mem_cons_of_mem d he)) (10 * n + d)
      have hstep : 10 ^ ds.length * (10 * n + d + 1) ≤ 10 ^ ds.length * (10 * (n + 1)) :=
        Nat.mul_le_mul_left _ (by omega)
      rw [List.foldl_cons, List.length_cons, Nat.pow_succ, Nat.mul_assoc]
      exact Nat.lt_of_lt_of_le hrest hstep
  simpa [value] using hfold 0

namespace Source
variable {text : List Char} {line : LineNumber}

theorem ModerateLine.ofText_reaches (h : ModerateLine text) (allowPosition : Bool) :
    Settles Fault.Own (Instruction.Reaches 1) (Statement.ofText text line allowPosition) := by
  refine ((Statement.ofText_wellFormed line text allowPosition).also fun i hi => ?_).imp
    fun i hi => hi.2
  obtain ⟨hwell, -⟩ := (Statement.ofText_wellFormed line text allowPosition).of_ok hi
  obtain ⟨j, rfl, hj⟩ := (Statement.ofText_oneLine text allowPosition).ok_everywhere hi
  have hmoderate := h.statement allowPosition _ (hj .unnumbered)
  cases j with
  | shape j =>
    obtain ⟨s, hs, hpositive⟩ := (Block.sizeOf_positive hwell).exists_ok
    obtain ⟨hw, hh⟩ := hmoderate.size s (Block.sizeOf_onLine hs)
    refine ⟨⟨?_, hmoderate.lines⟩, fun p hp => (hmoderate.position p hp).regular⟩
    rw [hs]
    exact .ok ⟨hw.isSide hpositive.1, hh.isSide hpositive.2⟩
  | connector j => exact ⟨hmoderate.1.reaches line, hmoderate.2.reaches line⟩

theorem wholeNumber_reaches {columns : List Char} (h : columns.length ≤ columnDigits) :
    Gives (· ≤ 2 ^ columnBits) (Block.wholeNumber columns) := by
  have hlimit : columnDigits ≤ digitLimit := by decide
  rw [Block.wholeNumber, if_neg (by omega)]
  refine .ok ?_
  have hdigits : ∀ d ∈ columns.filterMap Text.digit?, d < 10 := by
    intro d hd
    obtain ⟨c, -, hc⟩ := List.mem_filterMap.mp hd
    exact Text.digit?_lt hc
  have hlength : (columns.filterMap Text.digit?).length ≤ columnDigits :=
    (List.length_filterMap_le _ _).trans h
  rw [show columnBits = 10 * 100 from rfl, Nat.pow_mul]
  calc Decimal.value (columns.filterMap Text.digit?)
      ≤ 10 ^ (columns.filterMap Text.digit?).length := (Decimal.value_lt hdigits).le
    _ ≤ 10 ^ (3 * 100) := Nat.pow_le_pow_right (by decide) hlength
    _ = (10 ^ 3) ^ 100 := Nat.pow_mul 10 3 100
    _ ≤ (2 ^ 10) ^ 100 := Nat.pow_le_pow_left (by decide) 100

end Source

/-! ## Blocks -/

namespace Block

/-- A block whose layout can be computed. -/
structure Reaches (b : Block) : Prop where
  origin : b.origin.Regular 132 1
  gap : b.gap.Regular 132 1
  columns : ∀ n, b.arrangement = .grid n → n ≤ 2 ^ columnBits
  nested : ∀ i ∈ b.nested, i.Sized

theorem Reaches.push {b : Block} (h : b.Reaches) {i : ShapeInstruction} (hi : i.Sized) :
    (b.push i).Reaches := by
  refine { h with nested := fun j hj => ?_ }
  rcases List.mem_append.mp hj with hj | hj
  · exact h.nested j hj
  · exact List.mem_singleton.mp hj ▸ hi

theorem Reaches.boxes {b : Block} (h : b.Reaches) :
    Gives (fun boxes => (∀ box ∈ boxes, box.HasSides ∧ box.payload ∈ b.nested) ∧
      boxes.length = b.nested.length) (b.nested.mapM boxOf) := by
  refine (Settles.mapM fun i hi => ?_).also fun boxes hboxes => ?_
  · exact (h.nested i hi).size.bind fun s hs => .ok ⟨hs, hi⟩
  · rw [← payloads_of_boxes hboxes, List.length_map]

theorem blame_own {α : Type} {value : α → Prop} {x : Except Fault α} (line : LineNumber)
    (h : Settles Fault.Own value x) : Settles Fault.Own value (blame line x) := by
  unfold blame
  split
  · exact .error (.layout _ _)
  · exact h

theorem Reaches.place {b : Block} (h : b.Reaches) {boxes : List (Box ShapeInstruction)}
    (hboxes : ∀ box ∈ boxes, box.HasSides) (hroom : boxes.length ≤ lineLimit) :
    Settles Fault.Own (fun placed => ∀ q ∈ placed, q.box ∈ boxes ∧ q.corner.Regular 132 lineReach)
      (b.place boxes) := by
  have hlimit : 1 + 4 * (lineLimit + 1) ≤ lineReach := by decide
  have hfar : lineReach ≤ far := by decide
  have hplaced {x : Except Fault (List (Placed ShapeInstruction))}
      (hx : Settles Fault.Own (fun placed => ∀ q ∈ placed, q.box ∈ boxes ∧
        q.corner.Regular 132 (1 + 4 * (boxes.length + 1))) x) :
      Settles Fault.Own
        (fun placed => ∀ q ∈ placed, q.box ∈ boxes ∧ q.corner.Regular 132 lineReach) x :=
    hx.imp fun placed hplaced q hq =>
      ⟨(hplaced q hq).1, (hplaced q hq).2.mono le_rfl (by omega)⟩
  unfold Block.place
  split
  · exact hplaced (Layout.stack_reaches _ _ h.origin h.gap hboxes (by omega))
  · rename_i columns harrangement
    exact hplaced (Layout.grid_reaches _ (h.columns columns harrangement) (by decide) h.origin
      h.gap hboxes (by omega))

/-- The shapes of a block stay within `lineReach` reaches. -/
theorem Reaches.expand {b : Block} (h : b.Reaches) (hroom : b.nested.length ≤ lineLimit) :
    Settles Fault.Own (fun shapes => ∀ i ∈ shapes, i.Reaches lineReach) b.expand := by
  refine (Settles.of_gives h.boxes).bind fun boxes hboxes => ?_
  have hplace := h.place (fun box hbox => (hboxes.1 box hbox).1) (hboxes.2.trans_le hroom)
  refine (blame_own b.line hplace).bind fun placed hplaced => .ok ?_
  intro i hi
  obtain ⟨q, hq, rfl⟩ := List.mem_map.mp hi
  obtain ⟨hbox, hcorner⟩ := hplaced q hq
  obtain ⟨hsize, hlines⟩ := h.nested _ (hboxes.1 q.box hbox).2
  refine ⟨⟨hsize, hlines⟩, fun p hp => ?_⟩
  cases hp
  exact hcorner

end Block

namespace Source
variable {text : List Char} {line : LineNumber}

theorem ModerateLine.header_reaches (h : ModerateLine text) :
    Settles Fault.Own (fun b => b.Reaches ∧ b.nested = []) (Block.header text line) := by
  have hposition (text : String) : Settles Fault.Own (fun _ => True) (Measure.position text line) :=
    (Measure.position_finite line text).imp fun _ _ => trivial
  -- The columns are known from their digits, the origin and the gap from the block that is read.
  have hread : Settles Fault.Own (fun b => b.nested = [] ∧
      ∀ n, b.arrangement = .grid n → n ≤ 2 ^ columnBits) (Block.header text line) := by
    unfold Block.header
    dsimp only
    refine .ite (fun _ => ?_) fun _ => ?_
    · split
      · exact .refuse _ _
      · refine (hposition _).bind fun origin _ => .ok ⟨rfl, fun n hn => ?_⟩
        cases hn
    · split
      · exact .refuse _ _
      · rename_i columns gap hparts
        have hcolumns := h.columns _ hparts
        refine (Settles.of_gives (wholeNumber_reaches hcolumns)).bind fun n hn => ?_
        refine .ite (fun _ => .refuse _ _) fun _ => ?_
        refine (hposition _).bind fun origin _ => .ok ⟨rfl, fun m hm => ?_⟩
        cases hm
        exact hn
  have hmoderate : ∀ b, Block.header text line = .ok b → b.Moderate := by
    intro b hb
    obtain ⟨c, rfl, hc⟩ := (Block.header_oneLine text).ok_everywhere hb
    show (Block.onLine .unnumbered c).Moderate
    exact h.header _ (hc .unnumbered)
  refine (hread.also hmoderate).imp fun b hb => ?_
  obtain ⟨⟨hnested, hcolumns⟩, horigin, hgap⟩ := hb
  refine ⟨⟨horigin.regular, hgap.regular, hcolumns, fun i hi => ?_⟩, hnested⟩
  rw [hnested] at hi
  cases hi

theorem bodyLine_reaches {line : String} (h : ModerateLine (statementText line)) (b : Block)
    (number : LineNumber) :
    Settles Fault.Own (fun body => ∀ i, body = .nested i → i.Sized) (b.bodyLine line number) := by
  unfold Block.bodyLine
  dsimp only
  refine .ite (fun _ => .ok fun i hi => by cases hi) fun _ => ?_
  refine .ite (fun _ => .ok fun i hi => by cases hi) fun _ => ?_
  refine .ite (fun _ => .refuse _ _) fun _ => ?_
  refine (h.ofText_reaches false).bind fun i hi => ?_
  cases i with
  | shape i =>
    refine .ok fun j hj => ?_
    cases hj
    exact hi.toSized
  | connector i => exact .refuse _ _

/-- How many shapes the block nests that is open, if one is. -/
def openLength (b : Option Block) : ℕ := b.elim 0 fun c => c.nested.length

/-- A line with moderate numbers is read as instructions in reach, or refused, and the block that
is open nests at most one shape more behind it. -/
theorem readLine_reaches {line : String} (hline : ModerateLine (statementText line))
    {b : Option Block} (hb : ∀ c ∈ b, c.Reaches) (hroom : openLength b ≤ lineLimit) (n : Int) :
    Settles Fault.Own (fun r => (∀ i ∈ r.1, i.Reaches lineReach) ∧ (∀ c ∈ r.2, c.Reaches) ∧
      openLength r.2 ≤ openLength b + 1) (readLine b n line) := by
  have hone : 1 ≤ lineReach := by decide
  have hsome {c : Block} (hc : c.Reaches) : ∀ d ∈ some c, d.Reaches := by
    intro d hd
    cases hd
    exact hc
  cases b with
  | none =>
    simp only [readLine]
    refine .ite (fun _ => .ok ⟨by simp, hb, by simp⟩) fun _ => .ite (fun _ => ?_) fun _ => ?_
    · refine hline.header_reaches.bind fun c hc => .ok ⟨by simp, hsome hc.1, ?_⟩
      simp [openLength, hc.2]
    · refine (hline.ofText_reaches true).bind fun i hi => .ok ⟨?_, hb, by simp⟩
      exact List.forall_mem_singleton.mpr (hi.mono hone)
  | some b =>
    have hb := hb b rfl
    refine (bodyLine_reaches hline b _).bind fun body hbody => ?_
    cases body with
    | blank => exact .ok ⟨by simp, hsome hb, by simp⟩
    | nested i =>
      refine .ok ⟨by simp, hsome (hb.push (hbody i rfl)), ?_⟩
      simp [openLength, Block.push]
    | close =>
      refine (hb.expand hroom).bind fun shapes hshapes => .ok
        ⟨?_, fun c hc => ?_, by simp [openLength]⟩
      · exact List.forall_mem_map.mpr hshapes
      · cases hc

theorem readLines_reaches {b : Option Block} {n : Int} {lines : List String}
    (hlines : ∀ line ∈ lines, ModerateLine (statementText line)) (hb : ∀ c ∈ b, c.Reaches)
    (hroom : openLength b + lines.length ≤ lineLimit) :
    Settles Fault.Own (fun is => ∀ i ∈ is, i.Reaches lineReach) (readLines b n lines) := by
  induction lines generalizing b n with
  | nil =>
    cases b with
    | none => exact .ok fun i hi => by cases hi
    | some b => exact .error (.parse _ _)
  | cons line lines ih =>
    obtain ⟨hline, hlines⟩ := List.forall_mem_cons.mp hlines
    rw [List.length_cons] at hroom
    rw [readLines_cons]
    refine (readLine_reaches hline hb (by omega) n).bind fun r hr => ?_
    obtain ⟨his, hc, hopen⟩ := hr
    refine (ih hlines hc (by omega)).bind fun js hjs => .ok fun i hi => ?_
    exact (List.mem_append.mp hi).elim (his i) (hjs i)

/-- A moderate source is read as instructions in reach, or refused. -/
theorem Moderate.instructions_reaches {source : String} (h : Moderate source) :
    Settles Fault.Own (fun is => ∀ i ∈ is, i.Reaches lineReach) (instructions source) := by
  refine readLines_reaches h.line (fun c hc => by cases hc) ?_
  rw [openLength, Option.elim_none, Nat.zero_add]
  exact h.lines

theorem length_instructions_le {source : String} {is : List Instruction}
    (h : instructions source = .ok is) : is.length ≤ (Text.sourceLines source).length := by
  have hreads : Reads none (lines source) is := reads_of_readLines h
  obtain ⟨parts, hparts, rfl⟩ := hreads.passages .outside
  have hstatements : (passages none (lines source)).flatMap Passage.statements =
      (lines source).filter Line.isStatement := hreads.statements .outside
  calc parts.flatten.length = (parts.flatten.map (·.line)).length := (List.length_map _).symm
    _ = ((lines source).filter Line.isStatement).length := by
      rw [lines_of_parts hparts, hstatements, List.length_map]
    _ ≤ (lines source).length := List.length_filter_le _ _
    _ = (Text.sourceLines source).length := by
      rw [lines, List.length_map, List.length_zipIdx]

end Source

end DiagramScript
