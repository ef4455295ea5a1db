import DiagramScript.Proofs.Layout.Whole
import DiagramScript.Proofs.Page.Steps
import DiagramScript.Proofs.Source.WellFormed
import DiagramScript.Generator

/-
  Blocks on a page.

  A shape whose instruction has a place is created at this place with the size of the
  instruction (`Shape.Realizes`), and only a repeated id can be refused. The bounds of the
  shape are those of its box in the layout, except for a text with a size of its own: its
  bounds go by its lines and are never narrower than the least width, whatever size it asks
  for. Where no text asks for another size (`KeepsSize`), the shapes of a block do not overlap
  (`Source.block_apart`).
-/

namespace DiagramScript

/-- A complaint about an id that is taken. -/
def Repeats (e : Fault) : Prop := ∃ id line, e = .document (.duplicateId id) line

/-- A shape as its instruction asks for it, at the place that the instruction names. -/
structure Shape.Realizes (s : Shape) (i : ShapeInstruction) : Prop where
  kind : s.kind = .known i.kind
  place : i.position = some ⟨s.x, s.y⟩
  size : Block.sizeOf i = .ok ⟨s.w, s.h⟩
  label : s.label =
    if i.kind = .frame then Page.orElseText i.label "Frame" else Page.orElseText i.text ""
  style : s.style = Page.fullStyle i.style i.kind

namespace Page

theorem newId_repeats (p : Page) (custom : Option String) (line : LineNumber) :
    Settles Repeats (fun _ => True) (p.newId custom line) := by
  unfold newId
  split
  · exact Settles.ok trivial
  · apply Settles.ite
    · exact fun _ => Settles.error ⟨_, _, rfl⟩
    · exact fun _ => Settles.ok trivial

theorem add_repeats (p : Page) (s : Shape) :
    Settles Repeats (fun q => q.shapes = p.shapes ++ [s]) (p.add s) := by
  unfold add
  apply Settles.ite
  · exact fun _ => Settles.error ⟨_, _, rfl⟩
  · exact fun _ => Settles.ok (by simp [shapes])

theorem newShape_realizes (p : Page) {i : ShapeInstruction} (hi : i.WellFormed)
    (hplace : i.position.isSome) :
    Settles Repeats (fun s => s.Realizes i) (p.newShape i) := by
  obtain ⟨place, hplace⟩ := Option.isSome_iff_exists.mp hplace
  obtain ⟨size, hsize, -⟩ := (Block.sizeOf_positive hi).exists_ok
  unfold newShape newPosition
  rw [hplace, hsize]
  refine (Settles.same place).bind fun _ h => ?_
  subst h
  refine (Settles.same size).bind fun _ h => ?_
  subst h
  refine (p.newId_repeats i.id i.line).bind fun id _ => ?_
  exact Settles.ok ⟨rfl, hplace, hsize, rfl, rfl⟩

theorem createShape_realizes (p : Page) {i : ShapeInstruction} (hi : i.WellFormed)
    (hplace : i.position.isSome) :
    Settles Repeats (fun r => ∃ s, s.Realizes i ∧ r.1.shapes = p.shapes ++ [s])
      (p.createShape i).result := by
  simp only [createShape, Report.result_bind, Report.result_liftM, Report.result_tell,
    Report.result_pure]
  refine (p.newShape_realizes hi hplace).bind fun s hs => ?_
  refine (p.add_repeats s).bind fun q hq => ?_
  exact Settles.ok ⟨s, hs, hq⟩

theorem createAll_realizes (padding : Scalar) (p : Page) {is : List ShapeInstruction}
    (his : ∀ i ∈ is, i.WellFormed ∧ i.position.isSome) :
    Settles Repeats (fun r => ∃ news, List.Forall₂ Shape.Realizes news is ∧
        r.1.shapes = p.shapes ++ news)
      (createAll padding p (is.map .shape)).result := by
  -- By induction on the instructions, each of which adds a shape on top.
  induction is generalizing p with
  | nil => exact Settles.ok ⟨[], .nil, (List.append_nil _).symm⟩
  | cons i is ih =>
    obtain ⟨hi, hplace⟩ := his i List.mem_cons_self
    rw [List.map_cons, result_createAll_cons]
    refine (p.createShape_realizes hi hplace).bind fun first hfirst => ?_
    obtain ⟨s, hs, hfirst⟩ := hfirst
    have hrest := ih first.1 fun j hj => his j (List.mem_cons_of_mem i hj)
    refine hrest.bind fun rest hrest => ?_
    obtain ⟨news, hnews, hrest⟩ := hrest
    refine Settles.ok ⟨s :: news, .cons hs hnews, ?_⟩
    rw [hrest, hfirst, List.append_assoc, List.singleton_append]

theorem filter_isFrame_eq_nil {p : Page} (h : ∀ s ∈ p.shapes, isFrame s = false) :
    p.layers.filter (isFrame ·.shape) = [] := by
  rw [List.filter_eq_nil_iff]
  intro l hl
  rw [h l.shape (List.mem_map_of_mem hl)]
  exact Bool.false_ne_true

theorem settleFrames_of_no_frames {p : Page} (h : ∀ s ∈ p.shapes, isFrame s = false) :
    p.settleFrames.result = .ok p := by
  have hnone := filter_isFrame_eq_nil h
  have hall : p.layers.filter (! isFrame ·.shape) = p.layers := by
    rw [List.filter_eq_self]
    intro l hl
    rw [h l.shape (List.mem_map_of_mem hl), Bool.not_false]
  simp only [settleFrames, Report.result_bind, Report.result_liftM, framesToBottom_eq, hnone, hall,
    List.nil_append]
  show (growFrames _ p (List.map _ (p.layers.filter _))).result = _
  rw [hnone]
  rfl

/-- The shapes of a batch of instructions with places, none of them a frame, on the empty
page. -/
theorem apply_realizes (padding : Scalar) {is : List ShapeInstruction}
    (his : ∀ i ∈ is, i.WellFormed ∧ i.position.isSome) (hframe : ∀ i ∈ is, i.kind ≠ .frame) :
    Settles Repeats (fun r => List.Forall₂ Shape.Realizes r.1.shapes is)
      (empty.apply padding (is.map .shape)).result := by
  rw [result_apply]
  refine (createAll_realizes padding empty.copy his).bind fun r hr => ?_
  obtain ⟨news, hnews, hr⟩ := hr
  have hshapes : r.1.shapes = news := hr
  have hnone : ∀ s ∈ r.1.shapes, isFrame s = false := by
    intro s hs
    rw [hshapes] at hs
    obtain ⟨i, hi, hreal⟩ := Outcome.exists_of_forall₂ hnews hs
    have hkind := hframe i hi
    rw [isFrame, hreal.kind]
    simpa using hkind
  rw [settleFrames_of_no_frames hnone]
  refine Settles.ok ?_
  rw [hshapes]
  exact hnews

end Page

/-! ## Bounds -/

/-- The region of some bounds. -/
structure Bounds.At (b : Bounds) (r : Region) : Prop where
  x : b.x.At r.left
  y : b.y.At r.top
  width : b.w.At r.width
  height : b.h.At r.height

/-- The region that a shape covers on its page. -/
def Shape.Covers (s : Shape) (r : Region) : Prop := ∃ b, s.bounds = .ok b ∧ b.At r

/-- Whether a shape has the given whole numbers as its bounds. -/
def Shape.hasBounds (s : Shape) (x y w h : ℤ) : Bool :=
  s.bounds.toOption.any fun b =>
    b.x.whole? == some x && b.y.whole? == some y && b.w.whole? == some w && b.h.whole? == some h

theorem Shape.covers_of_hasBounds {s : Shape} {x y w h : ℤ} (hs : s.hasBounds x y w h = true) :
    s.Covers ⟨x, y, w, h⟩ := by
  obtain ⟨b, hb, hsides⟩ := Outcome.exists_of_any hs
  simp only [Bool.and_eq_true, beq_iff_eq] at hsides
  obtain ⟨⟨⟨hx, hy⟩, hw⟩, hh⟩ := hsides
  exact ⟨b, hb, Scalar.at_of_whole? hx, Scalar.at_of_whole? hy, Scalar.at_of_whole? hw,
    Scalar.at_of_whole? hh⟩

/-- The height of the lines of a text. -/
def ShapeInstruction.linesHeight (i : ShapeInstruction) : Scalar :=
  .whole (Text.lineCount (i.content.getD "") * (Tier.ofOption i.style.size).lineHeight)

/-- A text that asks for a size asks for one that it has on a page: at least as wide as any text
and as high as its lines. -/
def ShapeInstruction.KeepsSize (i : ShapeInstruction) : Prop :=
  i.kind = .text → ∀ s ∈ i.dimensions.or i.size, minTextWidth.le s.w ∧ s.h.same i.linesHeight

/-- An instruction whose shape, if it is one, is no frame and keeps its size. -/
def Instruction.KeepsSize : Instruction → Prop
  | .shape i => i.kind ≠ .frame ∧ i.KeepsSize
  | .connector _ => True

instance (i : ShapeInstruction) : Decidable i.KeepsSize :=
  inferInstanceAs (Decidable (_ → ∀ s ∈ i.dimensions.or i.size, _))

instance (i : Instruction) : Decidable i.KeepsSize :=
  match i with
  | .shape _ => inferInstanceAs (Decidable (_ ∧ _))
  | .connector _ => .isTrue trivial

theorem Page.tier_fullStyle (s : Style) (k : Kind) :
    Tier.ofOption (fullStyle s k).size = Tier.ofOption s.size := by
  show Tier.ofOption (some (orElseText s.size "m")) = _
  cases s.size with
  | none => rfl
  | some name =>
    by_cases hempty : name = ""
    · rw [hempty]
      rfl
    · rw [orElseText_of_ne hempty]

theorem ShapeInstruction.KeepsSize.sizeOf {i : ShapeInstruction} (h : i.KeepsSize)
    (hkind : i.kind = .text) {w h' : Scalar} (hsize : Block.sizeOf i = .ok ⟨w, h'⟩) :
    minTextWidth.le w ∧ h'.same i.linesHeight := by
  unfold Block.sizeOf at hsize
  rw [hkind] at hsize
  cases hd : i.dimensions with
  | some d =>
    rw [hd] at hsize
    cases hsize
    exact h hkind _ (by rw [hd]; rfl)
  | none =>
    cases hs : i.size with
    | some d =>
      rw [hd, hs] at hsize
      cases hsize
      exact h hkind _ (by rw [hd, hs]; rfl)
    | none =>
      rw [hd, hs] at hsize
      cases hsize
      refine ⟨rfl, ?_⟩
      rw [linesHeight, Scalar.same_whole, mul_comm]
      exact beq_self_eq_true _

namespace Shape

/-- The height of the lines of the label. -/
def lines (s : Shape) : Scalar :=
  .whole (Text.lineCount s.label * (Tier.ofOption s.style.size).lineHeight)

theorem Realizes.lines {s : Shape} {i : ShapeInstruction} (h : s.Realizes i)
    (htext : i.kind = .text) : s.lines = i.linesHeight := by
  have hlabel : s.label = i.content.getD "" := by
    rw [h.label, htext, if_neg (by decide), Page.orElseText_empty, ShapeInstruction.text, htext]
    rfl
  rw [Shape.lines, ShapeInstruction.linesHeight, hlabel, h.style, Page.tier_fullStyle]

/-- A shape covers the region of its place and its size. -/
theorem Realizes.covers {s : Shape} {i : ShapeInstruction} (h : s.Realizes i) (hi : i.WellFormed)
    (hkeeps : i.KeepsSize) {r : Region} (hx : s.x.At r.left) (hy : s.y.At r.top)
    (hw : s.w.At r.width) (hh : s.h.At r.height) : s.Covers r := by
  unfold Covers bounds
  rw [h.kind]
  by_cases htext : i.kind = .text
  · obtain ⟨hwidth, hheight⟩ := hkeeps.sizeOf htext h.size
    have hlines : s.lines = i.linesHeight := h.lines htext
    have hmin : minTextWidth.At 40 := Scalar.whole_at 40
    -- A text that keeps its size is wide enough and as high as its lines.
    have hwide : 40 ≤ r.width := (Scalar.le_at hmin hw).mp hwidth
    rw [htext]
    refine ⟨_, rfl, hx, hy, ?_, ?_⟩
    · have hmax := Scalar.max_at hmin hw
      rw [max_eq_right hwide] at hmax
      exact hmax
    · show s.lines.At r.height
      rw [hlines]
      obtain ⟨v, hv⟩ : ∃ v, i.linesHeight.At v := ⟨_, Scalar.whole_at _⟩
      rw [(Scalar.same_at hh hv).mp hheight]
      exact hv
  · refine ⟨⟨s.x, s.y, s.w, s.h⟩, ?_, hx, hy, hw, hh⟩
    have hconnector := hi.kind
    cases hkind : i.kind with
    | text => exact absurd hkind htext
    | connector => exact absurd hkind hconnector
    | rectangle | ellipse | frame | note => rfl

end Shape

/-! ## Blocks -/

theorem Block.sizeOf_of_boxOf {i : ShapeInstruction} {box : Box ShapeInstruction}
    (h : boxOf i = .ok box) : sizeOf box.payload = .ok ⟨box.width, box.height⟩ := by
  obtain ⟨size, hsize, h⟩ := Outcome.bind_eq_ok.mp h
  cases h
  exact hsize

/-- The instruction of a box, at the corner of the box. -/
def Placed.instruction (q : Placed ShapeInstruction) : ShapeInstruction :=
  q.box.payload.moveTo q.corner

/-- A placed instruction that is well formed and has the size of its box. -/
structure Placed.Sized (q : Placed ShapeInstruction) : Prop where
  wellFormed : q.instruction.WellFormed
  size : Block.sizeOf q.instruction = .ok ⟨q.box.width, q.box.height⟩

theorem Placed.Sized.isPositive {q : Placed ShapeInstruction} (h : q.Sized) : q.box.IsPositive :=
  (Block.sizeOf_positive h.wellFormed).of_ok h.size

theorem Shape.Realizes.covers_placed {s : Shape} {q : Placed ShapeInstruction} {r : Region}
    (h : s.Realizes q.instruction) (hq : q.Sized) (hkeeps : q.instruction.KeepsSize) (hr : q.At r) :
    s.Covers r := by
  have hplace : q.corner = ⟨s.x, s.y⟩ := Option.some.inj h.place
  have hbox := h.size
  rw [hq.size, Except.ok.injEq, Size.mk.injEq] at hbox
  obtain ⟨hx, hy, hw, hh⟩ := hr
  rw [hplace] at hx hy
  rw [hbox.1] at hw
  rw [hbox.2] at hh
  exact h.covers hq.wellFormed hkeeps hx hy hw hh

theorem Shape.covers_placed {shapes : List Shape} {placed : List (Placed ShapeInstruction)}
    {rs : List Region}
    (hshapes : List.Forall₂ (fun s q => s.Realizes q.instruction) shapes placed)
    (hrs : List.Forall₂ Placed.At placed rs)
    (hplaced : ∀ q ∈ placed, q.Sized ∧ q.instruction.KeepsSize) :
    List.Forall₂ Shape.Covers shapes rs := by
  induction hshapes generalizing rs with
  | nil =>
    cases hrs
    exact .nil
  | @cons s q _ placed hs _ ih =>
    cases hrs with
    | cons hr hrs =>
      obtain ⟨hq, hkeeps⟩ := hplaced q List.mem_cons_self
      refine .cons (hs.covers_placed hq hkeeps hr) (ih hrs ?_)
      exact fun q' hq' => hplaced q' (List.mem_cons_of_mem q hq')

namespace Source

/-- The box of a line inside a block. -/
def boxOfLine (l : Line) : Except Fault (Box ShapeInstruction) := do
  match ← Statement.ofText l.text l.place false with
  | .shape i => Block.boxOf i
  | .connector _ => .error .outOfRange

/-- A block without shapes, as its header gives it, and the boxes of the lines inside. -/
def blockOf (header : Line) (body : List Line) :
    Except Fault (Block × List (Box ShapeInstruction)) := do
  let b ← Block.header header.text header.place
  let boxes ← body.mapM boxOfLine
  .ok (b, boxes)

theorem boxes_of_nested {body : List Line} {nested : List ShapeInstruction}
    (h : List.Forall₂ Nested body nested) : body.mapM boxOfLine = nested.mapM Block.boxOf := by
  induction h with
  | nil => rfl
  | @cons l i _ _ hi _ ih =>
    have hbox : boxOfLine l = Block.boxOf i := by
      rw [boxOfLine, hi]
      rfl
    rw [List.mapM_cons, List.mapM_cons, hbox, ih]

theorem Passage.Reads.sized {header : Line} {body : List Line} {part : List Instruction}
    (h : (Passage.block header body).Reads part) :
    ∃ b boxes placed, blockOf header body = .ok (b, boxes) ∧ b.IsPlain ∧
      b.place boxes = .ok placed ∧ placed.map (·.box) = boxes ∧
        part = (placed.map Placed.instruction).map .shape ∧ ∀ q ∈ placed, q.Sized := by
  have hwell := h.wellFormed
  cases h with
  | @block _ _ b nested boxes placed hheader hbody hboxes hpayload hplaced hbox =>
    have hblock : blockOf header body = .ok (b, boxes) := by
      rw [blockOf, hheader, boxes_of_nested hbody, hboxes]
      rfl
    refine ⟨b, boxes, placed, hblock, (Block.header_plain _ _).of_ok hheader, hplaced, hbox, ?_, ?_⟩
    · rw [List.map_map]
      rfl
    · intro q hq
      have hmem : q.box ∈ boxes := hbox ▸ List.mem_map_of_mem hq
      obtain ⟨i, -, hi⟩ := Outcome.mem_of_mapM_ok hboxes hmem
      have hinstruction : Instruction.WellFormed (.shape q.instruction) :=
        (hwell _ (List.mem_map.mpr ⟨q, hq, rfl⟩)).1
      exact ⟨hinstruction, Block.sizeOf_of_boxOf hi⟩

theorem reads_of_block {text : String} {is : List Instruction} {header : Line} {body : List Line}
    (h : instructions text = .ok is)
    (hblock : passages none (lines text) = [.block header body]) :
    (Passage.block header body).Reads is := by
  have hreads : Reads none (lines text) is := reads_of_readLines h
  obtain ⟨parts, hparts, rfl⟩ := hreads.passages .outside
  rw [hblock] at hparts
  cases hparts with
  | cons hpart hrest =>
    cases hrest
    rw [List.flatten_cons, List.flatten_nil, List.append_nil]
    exact hpart

end Source

namespace Generator
open Source

/-- The shapes of a source of shapes with places, none of them a frame. -/
theorem compile_realizes (g : Generator) {text : String} {is : List ShapeInstruction}
    (h : instructions text = .ok (is.map .shape))
    (his : ∀ i ∈ is, i.WellFormed ∧ i.position.isSome) (hframe : ∀ i ∈ is, i.kind ≠ .frame) :
    Settles Repeats (fun p => List.Forall₂ Shape.Realizes p.shapes is)
      (g.compile Page.empty text).result := by
  simp only [compile, place, Report.result_bind, Report.result_liftM, Report.result_pure]
  rw [h]
  refine (Settles.same (is.map Instruction.shape)).bind fun _ hmap => ?_
  subst hmap
  exact (Page.apply_realizes _ his hframe).bind fun _ hp => Settles.ok hp

/-- On the empty page the shapes of a block do not overlap, and those of a stack are a gap
apart, where no frame is among them, no text asks for another size than that of its lines, and
no addition rounds. Only an id that comes twice can keep the block off the page. -/
theorem compile_block_apart (g : Generator) {text : String} {is : List Instruction}
    {header : Line} {body : List Line} {b : Block} {boxes : List (Box ShapeInstruction)}
    (h : instructions text = .ok is)
    (hpassage : passages none (lines text) = [.block header body])
    (hblock : blockOf header body = .ok (b, boxes)) (hexact : b.Exact boxes)
    (hkeeps : ∀ i ∈ is, i.KeepsSize) :
    Settles Repeats
      (fun p => ∃ rs, List.Forall₂ Shape.Covers p.shapes rs ∧ rs.Pairwise Region.Apart ∧
        ∀ axis ∈ b.axis?, ∃ gap, b.gap.At gap ∧ rs.IsChain (Region.Follows axis gap))
      (g.compile Page.empty text).result := by
  obtain ⟨_, _, placed, hread, hplain, hplaced, hbox, rfl, hsized⟩ :=
    (reads_of_block h hpassage).sized
  rw [hblock, Except.ok.injEq] at hread
  cases hread
  have hpositive : ∀ box ∈ boxes, box.IsPositive := by
    intro box hmem
    rw [← hbox] at hmem
    obtain ⟨q, hq, rfl⟩ := List.mem_map.mp hmem
    exact (hsized q hq).isPositive
  -- The layout places boxes; the shapes cover these where they keep their sizes.
  obtain ⟨rs, hrs, hapart, hchain⟩ := Block.place_apart hplaced hplain hexact hpositive
  have hkept (q : Placed ShapeInstruction) (hq : q ∈ placed) :
      q.instruction.kind ≠ .frame ∧ q.instruction.KeepsSize :=
    hkeeps (.shape q.instruction) (List.mem_map_of_mem (List.mem_map_of_mem hq))
  refine (g.compile_realizes h ?_ ?_).imp fun p hp => ?_
  · intro i hi
    obtain ⟨q, hq, rfl⟩ := List.mem_map.mp hi
    exact ⟨(hsized q hq).wellFormed, rfl⟩
  · intro i hi
    obtain ⟨q, hq, rfl⟩ := List.mem_map.mp hi
    exact (hkept q hq).1
  · rw [List.forall₂_map_right_iff] at hp
    refine ⟨rs, Shape.covers_placed hp hrs ?_, hapart, hchain⟩
    exact fun q hq => ⟨hsized q hq, (hkept q hq).2⟩

deriving instance DecidableEq for Passage

/-- A rectangle, a text of two lines, a text that asks for the height of its line and a note,
at a gap of 10. -/
theorem compile_block_apart_stack :
    let text := "stack vertical 5,-5 gap=10 [\nrect 100x50 \"A\"\ntext \"B\\nC\"\n" ++
      "text 80x28 \"D\"\nnote \"E\" size=s\n]"
    let g : Generator := ⟨24, "#ffffff", 8, .number 2⟩
    ∃ p, (g.compile Page.empty text).result = .ok p ∧ p.shapes.length = 4 ∧
      ∃ rs, List.Forall₂ Shape.Covers p.shapes rs ∧ rs.Pairwise Region.Apart ∧
        ∃ gap, rs.IsChain (Region.Follows .vertical gap) := by
  intro text g
  let header : Line := ⟨1, "stack vertical 5,-5 gap=10 [".toList⟩
  let body : List Line := [⟨2, "rect 100x50 \"A\"".toList⟩, ⟨3, "text \"B\\nC\"".toList⟩,
    ⟨4, "text 80x28 \"D\"".toList⟩, ⟨5, "note \"E\" size=s".toList⟩]
  have hpassage : passages none (lines text) = [.block header body] := by decide +kernel
  obtain ⟨is, h, hkeeps⟩ := Outcome.exists_of_any (x := instructions text)
    (p := fun is => decide (∀ i ∈ is, i.KeepsSize)) (by decide +kernel)
  obtain ⟨⟨b, boxes⟩, hblock, hcheck⟩ := Outcome.exists_of_any (x := blockOf header body)
    (p := fun r => r.1.isWhole 300 r.2 && r.1.axis? == some .vertical) (by decide +kernel)
  obtain ⟨p, hp, hlength⟩ := Outcome.exists_of_any (x := (g.compile Page.empty text).result)
    (p := fun p => decide (p.shapes.length = 4)) (by decide +kernel)
  simp only [Bool.and_eq_true, decide_eq_true_eq, beq_iff_eq] at hkeeps hcheck hlength
  obtain ⟨hwhole, haxis⟩ := hcheck
  obtain ⟨rs, hrs, hapart, hchain⟩ :=
    (compile_block_apart g h hpassage hblock (Block.exact_of_check hwhole) hkeeps).of_ok hp
  obtain ⟨gap, -, hchain⟩ := hchain .vertical haxis
  exact ⟨p, hp, hlength, rs, hrs, hapart, gap, hchain⟩

/-- Two texts that ask for less than the height of their line overlap, although no addition
rounds: the layout takes their sizes, and the page takes their lines. -/
theorem compile_block_overlap :
    let text := "stack vertical 0,0 gap=0 [\ntext 100x10 \"A\"\ntext 100x10 \"B\"\n]"
    let g : Generator := ⟨24, "#ffffff", 8, .number 2⟩
    (∃ header body b boxes, passages none (lines text) = [.block header body] ∧
        blockOf header body = .ok (b, boxes) ∧ b.axis? = some .vertical ∧ b.gap.At 0 ∧
          b.Exact boxes) ∧
      ∃ p r s, (g.compile Page.empty text).result = .ok p ∧
        (∀ t ∈ p.shapes, Page.isFrame t = false) ∧ List.Forall₂ Shape.Covers p.shapes [r, s] ∧
          ¬ r.Apart s ∧ ¬ r.Follows .vertical 0 s := by
  intro text g
  constructor
  · let header : Line := ⟨1, "stack vertical 0,0 gap=0 [".toList⟩
    let body : List Line := [⟨2, "text 100x10 \"A\"".toList⟩, ⟨3, "text 100x10 \"B\"".toList⟩]
    have hpassage : passages none (lines text) = [.block header body] := by decide +kernel
    obtain ⟨⟨b, boxes⟩, hblock, hcheck⟩ := Outcome.exists_of_any (x := blockOf header body)
      (p := fun r => r.1.isWhole 100 r.2 && r.1.axis? == some .vertical &&
        r.1.gap.whole? == some 0) (by decide +kernel)
    simp only [Bool.and_eq_true, beq_iff_eq] at hcheck
    obtain ⟨⟨hwhole, haxis⟩, hgap⟩ := hcheck
    have hgap : b.gap.At (0 : ℤ) := Scalar.at_of_whole? hgap
    rw [Int.cast_zero] at hgap
    exact ⟨header, body, b, boxes, hpassage, hblock, haxis, hgap, Block.exact_of_check hwhole⟩
  · obtain ⟨p, hp, hcheck⟩ := Outcome.exists_of_any (x := (g.compile Page.empty text).result)
      (p := fun p => decide (p.shapes.length = 2) && p.shapes.all (! Page.isFrame ·) &&
        p.shapes[0]?.any (·.hasBounds 0 0 100 28) && p.shapes[1]?.any (·.hasBounds 0 10 100 28))
      (by decide +kernel)
    simp only [Bool.and_eq_true, decide_eq_true_eq, List.all_eq_true, Bool.not_eq_true'] at hcheck
    obtain ⟨⟨⟨hlength, hframe⟩, hfirst⟩, hlast⟩ := hcheck
    obtain ⟨s, t, hshapes⟩ := List.length_eq_two.mp hlength
    rw [hshapes] at hfirst hlast
    have hs := Shape.covers_of_hasBounds (s := s) hfirst
    have ht := Shape.covers_of_hasBounds (s := t) hlast
    have hcovers : List.Forall₂ Shape.Covers p.shapes
        [⟨(0 : ℤ), (0 : ℤ), (100 : ℤ), (28 : ℤ)⟩, ⟨(0 : ℤ), (10 : ℤ), (100 : ℤ), (28 : ℤ)⟩] := by
      rw [hshapes]
      exact .cons hs (.cons ht .nil)
    refine ⟨p, _, _, hp, hframe, hcovers, ?_, ?_⟩
    · intro hapart
      refine hapart 50 20 ⟨?_, ?_⟩
      · norm_num [Region.Inside]
      · norm_num [Region.Inside]
    · norm_num [Region.Follows, Region.near, Region.length]

end Generator

end DiagramScript
