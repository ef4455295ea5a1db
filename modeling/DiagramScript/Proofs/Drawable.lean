import DiagramScript.Generator
import DiagramScript.Proofs.Page.Steps
import DiagramScript.Proofs.Settles
import DiagramScript.Proofs.Source.Lines
import DiagramScript.Proofs.Statement.OneLine

/-
  How drawing a source can fail.

  A source is drawn, or refused with one of the errors that are made for it (`Fault.Own`), or
  a number in it runs out of what can be computed (`Fault.Stray`); nothing else happens
  (`Generator.renderSvg_drawable`). Each part is told of any set of faults that has those of
  drawing (`Fault.Common`); only an id that is taken has to be told of by itself.
-/

namespace DiagramScript

/-- The errors of computing with numbers: arithmetic without a result, and a place past the end of
a list. -/
inductive Fault.Stray : Fault → Prop where
  | arithmetic (p : ArithmeticProblem) : Stray (.arithmetic p)
  | outOfRange : Stray .outOfRange

/-- An error of the library, or a stray one. -/
def Fault.OwnOrStray (e : Fault) : Prop := e.Own ∨ e.Stray

/-- A computation that fails with errors of the library or stray ones only. -/
abbrev Drawable {α : Type} (x : Except Fault α) : Prop :=
  Settles Fault.OwnOrStray (fun _ => True) x

/-- A set of faults that has all those of drawing a source, but for an id that is taken. -/
class Fault.Common (fault : Fault → Prop) : Prop where
  parse (p : ParseProblem) (line : LineNumber) : fault (.parse p line)
  layout (p : LayoutProblem) (block : LineNumber) : fault (.layout p block)
  resolution (token : String) (line : LineNumber) : fault (.resolution token line)
  unknownShape (id : String) (line : LineNumber) : fault (.document (.unknownShape id) line)
  arithmetic (p : ArithmeticProblem) : fault (.arithmetic p)
  outOfRange : fault .outOfRange

instance : Fault.Common Fault.OwnOrStray where
  parse p line := .inl (.parse p line)
  layout p block := .inl (.layout p block)
  resolution token line := .inl (.resolution token line)
  unknownShape _ line := .inl (.document _ line)
  arithmetic p := .inr (.arithmetic p)
  outOfRange := .inr .outOfRange

/-- A computation that fails with faults of a set only. -/
abbrev FailsOnly {α : Type} (fault : Fault → Prop) (x : Except Fault α) : Prop :=
  Settles fault (fun _ => True) x

variable {fault : Fault → Prop}

namespace FailsOnly
variable {α β : Type}

theorem ok (a : α) : FailsOnly fault (.ok a) := Settles.ok trivial

theorem error {e : Fault} (h : fault e) : FailsOnly fault (.error e : Except Fault α) :=
  Settles.error h

theorem bind {x : Except Fault α} {f : α → Except Fault β} (hx : FailsOnly fault x)
    (hf : ∀ a, FailsOnly fault (f a)) : FailsOnly fault (x >>= f) :=
  Settles.bind hx fun a _ => hf a

/-- What comes next may depend on what the first computation gives. -/
theorem bind_ok {x : Except Fault α} {f : α → Except Fault β} (hx : FailsOnly fault x)
    (hf : ∀ a, x = .ok a → FailsOnly fault (f a)) : FailsOnly fault (x >>= f) :=
  Settles.bind (hx.also fun _ ha => ha) fun a ha => hf a ha.2

theorem map {x : Except Fault α} (f : α → β) (hx : FailsOnly fault x) :
    FailsOnly fault (f <$> x) :=
  Settles.map hx fun _ _ => trivial

theorem mapM {f : α → Except Fault β} (hf : ∀ a, FailsOnly fault (f a)) (xs : List α) :
    FailsOnly fault (xs.mapM f) :=
  (Settles.mapM fun a _ => hf a).imp fun _ _ => trivial

theorem ite {p : Prop} {_ : Decidable p} {x y : Except Fault α} (hx : FailsOnly fault x)
    (hy : FailsOnly fault y) : FailsOnly fault (if p then x else y) :=
  Settles.ite (fun _ => hx) fun _ => hy

theorem of_ends {value : α → Prop} {x : Except Fault α} (h : Outcome.Ends fault value x) :
    FailsOnly fault x :=
  ⟨h.imp fun _ _ => trivial⟩

variable [Fault.Common fault]

theorem refuse (p : ParseProblem) (line : LineNumber) :
    FailsOnly fault (.error (p.on line) : Except Fault α) :=
  error (Fault.Common.parse p line)

/-- A layout that fails complains about geometry or is stray. -/
theorem of_layout {value : α → Prop} {x : Except Fault α}
    (h : Outcome.Ends Layout.Failure value x) : FailsOnly fault x := by
  refine of_ends (h.mono (fun e he => ?_) fun _ => id)
  cases he with
  | geometry p => exact Fault.Common.layout p none
  | arithmetic p => exact Fault.Common.arithmetic p
  | outOfRange => exact Fault.Common.outOfRange

theorem of_oneLine {put : LineNumber → α → α} {read : LineNumber → Except Fault α}
    (h : OneLine put read) (line : LineNumber) : FailsOnly fault (read line) := by
  cases h with
  | value a ha => exact ha line ▸ ok _
  | complaint p hp => exact hp line ▸ refuse p line
  | arithmetic p hp => exact hp line ▸ error (Fault.Common.arithmetic p)

end FailsOnly

/-- A caption fails only where there is something to write. -/
theorem Caption.titled_drawable (s : Shape) {c : Except Fault Caption} (h : FailsOnly fault c) :
    FailsOnly fault (titled s c) := by
  unfold titled
  exact .ite (.ok _) (.map _ h)

variable [Fault.Common fault]

/-! ## Arithmetic -/

namespace Scalar

theorem toReal_drawable (a : Scalar) : FailsOnly fault a.toReal :=
  .of_ends (toReal_ends Fault.Common.arithmetic a)

theorem add_drawable (a b : Scalar) : FailsOnly fault (a.add b) :=
  .of_ends (add_ends Fault.Common.arithmetic a b)

theorem sub_drawable (a b : Scalar) : FailsOnly fault (a.sub b) :=
  .of_ends (arith_ends Fault.Common.arithmetic _ _ a b)

theorem mul_drawable (a b : Scalar) : FailsOnly fault (a.mul b) :=
  .of_ends (arith_ends Fault.Common.arithmetic _ _ a b)

theorem div_drawable (a b : Scalar) : FailsOnly fault (a.div b) :=
  .of_ends (div_ends Fault.Common.arithmetic a b)

theorem half_drawable (a : Scalar) : FailsOnly fault a.half := a.div_drawable _

theorem ceil_drawable (a : Scalar) : FailsOnly fault a.ceil :=
  .of_ends (ceil_ends Fault.Common.arithmetic a)

theorem hypot_drawable (a b : Scalar) : FailsOnly fault (a.hypot b) :=
  .bind (toReal_drawable a) fun _ => .bind (toReal_drawable b) fun _ => .ok _

end Scalar

/-! ## Sources -/

theorem Statement.ofText_drawable (text : List Char) (line : LineNumber) (allowPosition : Bool) :
    FailsOnly fault (ofText text line allowPosition) :=
  .of_oneLine (ofText_oneLine text allowPosition) line

namespace Block

theorem header_drawable (text : List Char) (line : LineNumber) :
    FailsOnly fault (header text line) :=
  .of_oneLine (header_oneLine text) line

theorem bodyLine_drawable (b : Block) (line : String) (number : LineNumber) :
    FailsOnly fault (b.bodyLine line number) := by
  simp only [bodyLine]
  refine .ite (.ok _) (.ite (.ok _) (.ite (.refuse _ _) ?_))
  refine .bind (Statement.ofText_drawable _ _ _) fun i => ?_
  cases i with
  | shape i => exact .ok _
  | connector i => exact .refuse _ _

theorem sizeOf_drawable (i : ShapeInstruction) : FailsOnly fault (sizeOf i) := by
  unfold sizeOf
  refine .ite (.refuse _ _) ?_
  split
  · exact .ok _
  · exact .ok _
  · split
    · exact .ok _
    · exact .ok _
    · split <;> exact .ok _
    · split <;> exact .ok _
    · exact .ok _

theorem expand_drawable (b : Block) : FailsOnly fault b.expand := by
  refine .bind (.mapM (fun i => ?_) _) fun boxes => .bind ?_ fun placed => .ok _
  · exact .bind (sizeOf_drawable i) fun s => .ok _
  · have hplace := b.place_ends boxes
    unfold blame
    split
    · exact .error (Fault.Common.layout _ _)
    · exact .of_layout hplace

end Block

namespace Source

theorem readLine_drawable (b : Option Block) (k : Int) (line : String) :
    FailsOnly fault (readLine b k line) := by
  cases b with
  | none =>
    simp only [readLine]
    refine .ite (.ok _) (.ite ?_ ?_)
    · exact .bind (Block.header_drawable _ _) fun b => .ok _
    · exact .bind (Statement.ofText_drawable _ _ _) fun i => .ok _
  | some b =>
    refine .bind (Block.bodyLine_drawable _ _ _) fun body => ?_
    cases body with
    | blank => exact .ok _
    | nested i => exact .ok _
    | close => exact .bind (Block.expand_drawable _) fun placed => .ok _

theorem readLines_drawable (b : Option Block) (k : Int) (lines : List String) :
    FailsOnly fault (readLines b k lines) := by
  induction lines generalizing b k with
  | nil =>
    cases b with
    | none =>
      rw [readLines]
      exact .ok _
    | some b =>
      rw [readLines]
      exact .refuse _ _
  | cons line lines ih =>
    rw [readLines_cons]
    exact .bind (readLine_drawable b k line) fun r => .bind (ih r.2 _) fun is => .ok _

end Source

/-! ## Shapes -/

namespace Shape

theorem absolute_drawable (s : Shape) (p : Point) : FailsOnly fault (s.absolute p) :=
  .bind (Scalar.add_drawable _ _) fun _ => .bind (Scalar.add_drawable _ _) fun _ => .ok _

theorem bounds_drawable (s : Shape) : FailsOnly fault s.bounds := by
  have hend (offset : Option Point) : FailsOnly fault (s.absoluteOrPlace offset) := by
    cases offset with
    | none => exact .ok _
    | some p => exact s.absolute_drawable p
  unfold bounds
  split
  · refine .bind (hend _) fun a => .bind (hend _) fun b => ?_
    exact .bind (Scalar.sub_drawable _ _) fun _ => .bind (Scalar.sub_drawable _ _) fun _ => .ok _
  · exact .ok _
  · exact .ok _
  · exact .ok _

theorem center_drawable (s : Shape) : FailsOnly fault s.center :=
  .bind s.bounds_drawable fun _ => .bind (Scalar.half_drawable _) fun _ =>
    .bind (Scalar.add_drawable _ _) fun _ => .bind (Scalar.half_drawable _) fun _ =>
      .bind (Scalar.add_drawable _ _) fun _ => .ok _

end Shape

theorem Bounds.center_drawable (b : Bounds) : FailsOnly fault b.center :=
  .bind (Scalar.half_drawable _) fun _ => .bind (Scalar.add_drawable _ _) fun _ =>
    .bind (Scalar.half_drawable _) fun _ => .bind (Scalar.add_drawable _ _) fun _ => .ok _

namespace Border

theorem edgeScale_drawable (d half : Scalar) : FailsOnly fault (edgeScale d half) := by
  unfold edgeScale
  exact .ite (.ok _) (Scalar.div_drawable _ _)

theorem along_drawable (p : Point) (dx dy scale : Scalar) : FailsOnly fault (along p dx dy scale) :=
  .bind (Scalar.mul_drawable _ _) fun _ => .bind (Scalar.add_drawable _ _) fun _ =>
    .bind (Scalar.mul_drawable _ _) fun _ => .bind (Scalar.add_drawable _ _) fun _ => .ok _

theorem push_drawable (p : Point) (dx dy padding : Scalar) :
    FailsOnly fault (push p dx dy padding) := by
  unfold push
  refine .ite (.ok _) (.bind (Scalar.hypot_drawable _ _) fun length => ?_)
  refine .bind (Scalar.div_drawable _ _) fun _ => .bind (Scalar.mul_drawable _ _) fun _ =>
    .bind (Scalar.add_drawable _ _) fun _ => ?_
  exact .bind (Scalar.div_drawable _ _) fun _ => .bind (Scalar.mul_drawable _ _) fun _ =>
    .bind (Scalar.add_drawable _ _) fun _ => .ok _

theorem point_drawable (s : Shape) (toward : Point) (padding : Scalar) :
    FailsOnly fault (point s toward padding) := by
  have hrest (c : Point) (dx dy scale : Scalar) :
      FailsOnly fault (along c dx dy scale >>= fun edge => push edge dx dy padding) :=
    .bind (along_drawable _ _ _ _) fun edge => push_drawable _ _ _ _
  unfold point
  refine .bind s.bounds_drawable fun b => .bind b.center_drawable fun center => ?_
  refine .bind (Scalar.sub_drawable _ _) fun dx => .bind (Scalar.sub_drawable _ _) fun dy => ?_
  refine .ite (.ok _) ?_
  refine .bind (Scalar.half_drawable _) fun halfW => .bind (Scalar.half_drawable _) fun halfH => ?_
  split
  · refine .bind ?_ fun scale => hrest _ _ _ _
    exact .bind (Scalar.div_drawable _ _) fun _ => .bind (Scalar.div_drawable _ _) fun _ =>
      .bind (Scalar.hypot_drawable _ _) fun _ => Scalar.div_drawable _ _
  · refine .bind ?_ fun scale => hrest _ _ _ _
    exact .bind (edgeScale_drawable _ _) fun _ => .bind (edgeScale_drawable _ _) fun _ => .ok _

end Border

/-! ## Pages -/

namespace Bounds

theorem right_drawable (b : Bounds) : FailsOnly fault b.right := Scalar.add_drawable _ _

theorem bottom_drawable (b : Bounds) : FailsOnly fault b.bottom := Scalar.add_drawable _ _

theorem placeBelow_drawable (bottoms : List Scalar) : FailsOnly fault (placeBelow bottoms) := by
  cases bottoms with
  | nil => exact .ok _
  | cons b rest =>
    exact .bind (Scalar.add_drawable _ _) fun _ => .bind (Scalar.ceil_drawable _) fun _ => .ok _

end Bounds

namespace Page

theorem bind_drawable (p : Page) (b : Binding) : FailsOnly fault (p.bind b) := by
  have hcheck (id : String) : FailsOnly fault (p.checkId id) := by
    unfold checkId
    exact .ite (.ok _) (.error (Fault.Common.unknownShape _ _))
  exact .bind (hcheck _) fun _ => .bind (hcheck _) fun _ => .ok _

theorem newPosition_drawable (p : Page) (i : ShapeInstruction) :
    FailsOnly fault (p.newPosition i) := by
  unfold newPosition
  split
  · exact .ok _
  · refine .bind (.mapM (fun s => ?_) _) Bounds.placeBelow_drawable
    exact .bind s.bounds_drawable Bounds.bottom_drawable

theorem anchor_drawable (p : Page) (text : String) (line : LineNumber) :
    FailsOnly fault (p.anchor text line) := by
  unfold anchor
  refine .ite ?_ ?_
  · exact .bind (.of_oneLine (Measure.position_unlined text) line) fun _ => .ok _
  · split
    · exact .error (Fault.Common.resolution _ _)
    · exact .bind (Shape.center_drawable _) fun _ => .ok _

theorem Anchor.tip_drawable (a : Anchor) (other : Point) (padding : Scalar) :
    FailsOnly fault (a.tip other padding) := by
  unfold tip
  split
  · exact .ok _
  · exact Border.point_drawable _ _ _

theorem connectorShape_drawable (id : String) (i : ConnectorInstruction) (first last : Point) :
    FailsOnly fault (connectorShape id i first last) :=
  .bind (Scalar.sub_drawable _ _) fun _ => .bind (Scalar.sub_drawable _ _) fun _ =>
    .bind (Scalar.sub_drawable _ _) fun _ => .bind (Scalar.sub_drawable _ _) fun _ => .ok _

theorem bindEnd_drawable (p : Page) (connector terminal : String) (target : Option Shape) :
    FailsOnly fault (p.bindEnd connector terminal target).result := by
  cases target with
  | none => exact .ok _
  | some s =>
    simp only [bindEnd, Report.result_bind, Report.result_liftM, Report.result_tell,
      Report.result_pure]
    exact .bind (bind_drawable _ _) fun _ => .ok _

/-- An instruction fails with the faults of drawing, or since its id is taken: when the id is
looked for, or when the shape of this id is added. -/
theorem create_drawable (padding : Scalar) {p : Page} {i : Instruction}
    (hid : FailsOnly fault (p.newId i.wantedId i.line))
    (hadd : ∀ s : Shape, p.newId i.wantedId i.line = .ok s.id → FailsOnly fault (p.add s)) :
    FailsOnly fault (create padding p i).result := by
  cases i with
  | shape i =>
    have hshape : FailsOnly fault (p.newShape i) :=
      .bind (newPosition_drawable p i) fun _ => .bind (Block.sizeOf_drawable i) fun _ =>
        .bind hid fun _ => .ok _
    simp only [create, createShape, Report.result_bind, Report.result_liftM, Report.result_tell,
      Report.result_pure]
    exact hshape.bind_ok fun s hs => .bind (hadd s (newShape_eq_ok hs).1) fun _ => .ok _
  | connector i =>
    have hconnector : FailsOnly fault (p.newConnector padding i) := by
      refine .bind (anchor_drawable _ _ _) fun source =>
        .bind (anchor_drawable _ _ _) fun target => ?_
      refine .bind (source.tip_drawable _ _) fun _ => .bind (target.tip_drawable _ _) fun _ => ?_
      exact .bind hid fun _ => .bind (connectorShape_drawable _ _ _ _) fun _ => .ok _
    simp only [create, createConnector, Report.result_bind, Report.result_liftM,
      Report.result_pure]
    refine hconnector.bind_ok fun ends hends => ?_
    refine .bind (hadd _ (newConnector_eq_ok hends).1) fun _ => ?_
    exact .bind (bindEnd_drawable _ _ _ _) fun _ => .bind (bindEnd_drawable _ _ _ _) fun _ => .ok _

theorem createAll_drawable (padding : Scalar) (p : Page) (is : List Instruction) :
    Drawable (createAll padding p is).result := by
  induction is generalizing p with
  | nil => exact FailsOnly.ok _
  | cons i is ih =>
    -- A taken id is an error of the library.
    have hid : Drawable (p.newId i.wantedId i.line) := by
      unfold newId
      split
      · exact FailsOnly.ok _
      · exact FailsOnly.ite (.error (.inl (.document _ _))) (.ok _)
    have hadd (s : Shape) : Drawable (p.add s) :=
      FailsOnly.ite (.error (.inl (.document _ _))) (.ok _)
    rw [result_createAll_cons]
    exact FailsOnly.bind (create_drawable padding hid fun s _ => hadd s) fun x =>
      .bind (ih x.1) fun _ => .ok _

theorem isNear_drawable (s frame : Shape) : FailsOnly fault (isNear s frame) := by
  have hspan (c edge length : Scalar) : FailsOnly fault (nearSpan c edge length) := by
    refine .bind (Scalar.sub_drawable _ _) fun low => .ite ?_ (.ok _)
    exact .bind (Scalar.add_drawable _ _) fun _ => .bind (Scalar.add_drawable _ _) fun _ => .ok _
  exact .bind s.center_drawable fun c => .bind (hspan _ _ _) fun _ => .ite (hspan _ _ _) (.ok _)

theorem boundsNear_drawable (frame : Shape) (others : List Shape) :
    FailsOnly fault (boundsNear frame others) := by
  induction others with
  | nil => exact .ok _
  | cons s rest ih =>
    refine .bind (isNear_drawable s frame) fun _ => .ite ?_ ih
    exact .bind s.bounds_drawable fun _ => ih.bind fun _ => .ok _

theorem enclosing_drawable (frame : Shape) (b : Bounds) (bs : List Bounds) :
    FailsOnly fault (enclosing frame b bs) := by
  refine .bind (Scalar.sub_drawable _ _) fun _ => .bind (Scalar.sub_drawable _ _) fun _ => ?_
  refine .bind (Scalar.add_drawable _ _) fun _ => .bind b.right_drawable fun _ => ?_
  refine .bind (.mapM Bounds.right_drawable _) fun _ => .bind (Scalar.add_drawable _ _) fun _ => ?_
  refine .bind (Scalar.add_drawable _ _) fun _ => .bind b.bottom_drawable fun _ => ?_
  refine .bind (.mapM Bounds.bottom_drawable _) fun _ => .bind (Scalar.add_drawable _ _) fun _ => ?_
  exact .bind (Scalar.sub_drawable _ _) fun _ => .bind (Scalar.sub_drawable _ _) fun _ => .ok _

theorem growFrame_drawable (others : List Shape) (frame : Shape) :
    FailsOnly fault (growFrame others frame).result := by
  simp only [growFrame, Report.result_bind, Report.result_liftM]
  refine .bind (boundsNear_drawable frame others) fun bs => ?_
  cases bs with
  | nil => exact .ok _
  | cons b bs =>
    simp only [Report.result_bind, Report.result_liftM]
    refine .bind (enclosing_drawable frame b bs) fun box => ?_
    split <;> exact .ok _

theorem growFrames_drawable (others : List Shape) (p : Page) (numbers : List Nat) :
    FailsOnly fault (growFrames others p numbers).result := by
  induction numbers generalizing p with
  | nil => exact .ok _
  | cons n rest ih =>
    unfold growFrames
    split
    · exact ih p
    · simp only [Report.result_bind]
      exact .bind (growFrame_drawable _ _) fun s => ih _

theorem settleFrames_drawable (p : Page) : FailsOnly fault p.settleFrames.result := by
  simp only [settleFrames, framesToBottom_eq, Report.result_bind, Report.result_liftM]
  exact growFrames_drawable _ _ _

/-- Putting instructions on a page fails with an error of the library or in a computation. -/
theorem apply_drawable (p : Page) (padding : Scalar) (is : List Instruction) :
    Drawable (p.apply padding is).result := by
  rw [result_apply]
  exact FailsOnly.bind (createAll_drawable _ _ _) fun x =>
    .bind (settleFrames_drawable _) fun _ => .ok _

end Page

/-! ## Drawings -/

theorem Viewport.ofShapes_drawable (shapes : List Shape) (padding : Scalar) :
    FailsOnly fault (ofShapes shapes padding) := by
  have hlength (least low high : Scalar) : FailsOnly fault (length least low high padding) :=
    .bind (Scalar.sub_drawable _ _) fun _ => .bind (Scalar.mul_drawable _ _) fun _ =>
      .bind (Scalar.add_drawable _ _) fun _ => .bind (Scalar.ceil_drawable _) fun _ => .ok _
  have hunion (b : Bounds) (bs : List Bounds) : FailsOnly fault (union b bs) := by
    refine .bind b.right_drawable fun _ => .bind (.mapM Bounds.right_drawable _) fun _ => ?_
    exact .bind b.bottom_drawable fun _ => .bind (.mapM Bounds.bottom_drawable _) fun _ => .ok _
  refine .bind (.bind (.mapM Shape.bounds_drawable _) fun bs => ?_) fun e => ?_
  · cases bs with
    | nil => exact .ok _
    | cons b bs => exact .map _ (hunion b bs)
  · cases e with
    | none => exact .ok _
    | some e =>
      refine .bind (Scalar.sub_drawable _ _) fun _ => .bind (Scalar.sub_drawable _ _) fun _ => ?_
      exact .bind (hlength _ _ _) fun _ => .bind (hlength _ _ _) fun _ => .ok _

namespace Caption

theorem scaled_drawable (size : Nat) (factor : Scalar) : FailsOnly fault (scaled size factor) :=
  Scalar.mul_drawable _ _

theorem label_drawable (s : Shape) (x y : Scalar) : FailsOnly fault (label s x y) :=
  .bind (scaled_drawable _ _) fun _ => .ok _

theorem inside_drawable (s : Shape) : FailsOnly fault (inside s) := by
  refine .bind (Scalar.half_drawable _) fun _ => .bind (Scalar.add_drawable _ _) fun _ => ?_
  refine .bind (Scalar.half_drawable _) fun _ => .bind (Scalar.add_drawable _ _) fun _ => ?_
  exact .bind (scaled_drawable _ _) fun _ => .bind (Scalar.add_drawable _ _) fun _ =>
    label_drawable _ _ _

theorem body_drawable (s : Shape) : FailsOnly fault (body s) :=
  .bind (Scalar.add_drawable _ _) fun _ => .bind (scaled_drawable _ _) fun _ => .ok _

theorem note_drawable (s : Shape) : FailsOnly fault (note s) := by
  refine .bind (Scalar.add_drawable _ _) fun _ => .bind (Scalar.add_drawable _ _) fun _ => ?_
  exact .bind (scaled_drawable _ _) fun _ => .bind (Scalar.add_drawable _ _) fun _ =>
    .bind (scaled_drawable _ _) fun _ => .ok _

theorem frame_drawable (s : Shape) : FailsOnly fault (frame s) :=
  .bind (Scalar.add_drawable _ _) fun _ => .bind (Scalar.add_drawable _ _) fun _ => .ok _

theorem along_drawable (s : Shape) (a b : Point) : FailsOnly fault (along s a b) := by
  refine .bind (Scalar.add_drawable _ _) fun _ => .bind (Scalar.half_drawable _) fun _ => ?_
  exact .bind (Scalar.add_drawable _ _) fun _ => .bind (Scalar.half_drawable _) fun _ =>
    .bind (Scalar.sub_drawable _ _) fun _ => label_drawable _ _ _

end Caption

namespace Svg

theorem number_drawable (v : Scalar) : FailsOnly fault (number v) := by
  unfold number
  exact .ite (.ok _) (.error (Fault.Common.arithmetic _))

theorem caption_drawable (c : Caption) : FailsOnly fault (caption c) := by
  have hline (first : Bool) (text : String) : FailsOnly fault (line c first text) :=
    .bind (number_drawable _) fun _ => .bind (number_drawable _) fun _ => .ok _
  have hlines : FailsOnly fault (captionLines c) := by
    unfold captionLines
    split
    · exact .ok _
    · exact .bind (hline _ _) fun _ => .bind (.mapM (hline _) _) fun _ => .ok _
  exact hlines.bind fun _ => .ok _

theorem withCaption_drawable (body : Element) (c : Option Caption) :
    FailsOnly fault (withCaption body c) := by
  cases c with
  | none => exact .ok _
  | some c => exact .bind (caption_drawable c) fun _ => .ok _

theorem shape_drawable (s : Shape) : FailsOnly fault (shape s) := by
  have hinside : FailsOnly fault (Caption.inside s) := Caption.inside_drawable s
  unfold shape
  split
  · exact hinside.bind fun _ =>
      .bind (Caption.titled_drawable s hinside) fun _ => withCaption_drawable _ _
  · refine .bind (Scalar.half_drawable _) fun _ => .bind (Scalar.add_drawable _ _) fun _ => ?_
    refine .bind (Scalar.half_drawable _) fun _ => .bind (Scalar.add_drawable _ _) fun _ => ?_
    exact .bind (Caption.titled_drawable s hinside) fun _ => withCaption_drawable _ _
  · exact .bind (Caption.body_drawable s) fun _ => .bind (caption_drawable _) fun _ => .ok _
  · exact .bind (Caption.note_drawable s) fun _ => withCaption_drawable _ _
  · exact .bind (Caption.titled_drawable s (Caption.frame_drawable s)) fun _ =>
      withCaption_drawable _ _
  · have hend (offset : Option Point) : FailsOnly fault (s.absolute? offset) := by
      cases offset with
      | none => exact .ok _
      | some p => exact .map _ (s.absolute_drawable p)
    refine .bind (hend _) fun a => .bind (hend _) fun b => ?_
    split
    · exact .bind (Caption.titled_drawable s (Caption.along_drawable s _ _)) fun _ =>
        withCaption_drawable _ _
    · exact .ok _
  · exact .ok _

/-- Drawing shapes fails in a computation only. -/
theorem render_drawable (shapes : List Shape) (background : String) (padding : Scalar) :
    FailsOnly fault (render shapes background padding) := by
  have hbox (v : Viewport) : FailsOnly fault (viewBox v) :=
    .bind (.mapM number_drawable _) fun _ => .ok _
  have htree : FailsOnly fault (document shapes background padding) :=
    .bind (Viewport.ofShapes_drawable _ _) fun v => .bind (hbox v) fun _ =>
      .bind (.mapM shape_drawable _) fun _ => .ok _
  exact htree.bind fun _ => .ite (.ok _) (.error (Fault.Common.arithmetic _))

end Svg

/-- Every source is drawn, or refused with an error of the library, or a number in it runs out
of what can be computed. -/
theorem Generator.renderSvg_drawable (g : Generator) (source : String) :
    Drawable (g.renderSvg source).result := by
  simp only [renderSvg, compile, place, draw, Report.result_bind, Report.result_liftM,
    Report.result_pure]
  refine FailsOnly.bind (.bind (Source.readLines_drawable _ _ _) fun is => ?_) fun p =>
    Svg.render_drawable _ _ _
  exact .bind (Page.apply_drawable _ _ _) fun _ => .ok _

end DiagramScript
