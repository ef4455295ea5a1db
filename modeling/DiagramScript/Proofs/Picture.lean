import DiagramScript.Proofs.Svg.Element
import DiagramScript.Proofs.Viewport
import DiagramScript.Raster

/-
  One picture in two forms.

  A scalable drawing is a tree of elements, an image a list of calls. What both show of a shape
  are marks: bodies, lines with their tips, and texts (`Element.marks`, `Call.mark?`). For each
  kind of shape the elements and the calls show the same marks (`shape_agrees`); they are put
  together from bodies and captions, and so is the agreement (`Agree.append`). A whole drawing and
  a whole image lay the same viewport under their shapes (`drawn_alike`).

  A line has its tip from the same mark in every drawing, while an image has to find the direction
  of the tip. It finds none where the ends meet for its arithmetic, which takes a whole coordinate
  for a floating-point number if the other one is such a number (`tipless_line`).
-/

namespace DiagramScript

/-- What can be seen of a shape in a drawing of either form. -/
inductive Mark where
  | rounded
  | ellipse
  | line
  | tip
  | text (line : String)
  deriving DecidableEq, Repr

/-- The mark of a call, unless it only prepares the image. -/
def Raster.Call.mark? : Raster.Call → Option Mark
  | .newImage .. | .beginDrawing => none
  | .ellipse .. => some .ellipse
  | .rounded .. => some .rounded
  | .line .. => some .line
  | .polygon .. => some .tip
  | .text _ shown _ _ => some (.text shown)

/-- Whether the body that a call draws is left unfilled; none for a call that draws no body. -/
def Raster.Call.unfilled? : Raster.Call → Option Bool
  | .ellipse _ fill _ _ | .rounded _ _ fill _ _ => some fill.isNone
  | _ => none

namespace Svg.Element

def text : Element → String
  | .node _ _ text _ => text

/-- The marks of an element. A line has its tip from the mark that it refers to, where that has a
direction; a text shows its lines, of which empty ones cannot be seen. -/
def marks (headed : Bool) : Element → List Mark
  | .node name _ _ children =>
    if name = "rect" then [.rounded]
    else if name = "ellipse" then [.ellipse]
    else if name = "line" then .line :: if headed then [.tip] else []
    else if name = "text" then ((children.map text).filter (! ·.isEmpty)).map .text
    else []

/-- Whether a body is left unfilled; none for an element that is no body. -/
def unfilled? : Element → Option Bool
  | .node name attributes _ _ =>
    if name = "rect" ∨ name = "ellipse" then some (decide (("fill", .text "none") ∈ attributes))
    else none

end Svg.Element

/-- Whether the two ends of a connector are one place for the arithmetic. -/
def Shape.endsMeet (s : Shape) : Bool :=
  match s.absolute? s.start, s.absolute? s.finish with
  | .ok (some a), .ok (some b) => a.x.meets b.x && a.y.meets b.y
  | _, _ => false

/-- Elements and calls that show the same of a shape: the same marks in the same order, bodies
that are left unfilled in both or in none. -/
structure Agree (s : Shape) (elements : List Svg.Element) (calls : List Raster.Call) : Prop where
  marks : calls.map (·.mark?) = (elements.flatMap (·.marks (! s.endsMeet))).map some
  unfilled : s.style.color ≠ some "none" →
    calls.filterMap (·.unfilled?) = elements.filterMap (·.unfilled?)

namespace Agree
variable {s : Shape} {elements elements' : List Svg.Element} {calls calls' : List Raster.Call}

theorem nil (s : Shape) : Agree s [] [] := ⟨rfl, fun _ => rfl⟩

theorem append (h : Agree s elements calls) (h' : Agree s elements' calls') :
    Agree s (elements ++ elements') (calls ++ calls') := by
  refine ⟨?_, fun hcolor => ?_⟩
  · rw [List.map_append, List.flatMap_append, List.map_append, h.marks, h'.marks]
  · rw [List.filterMap_append, List.filterMap_append, h.unfilled hcolor, h'.unfilled hcolor]

end Agree

/-! ## Captions -/

section Captions
variable {s : Shape} {c : Caption} {m : Raster.Mapping}

theorem line_text {first : Bool} {line : String} {e : Svg.Element}
    (h : Svg.line c first line = .ok e) : e.text = line := by
  simp only [Svg.line, Outcome.bind_eq_ok] at h
  obtain ⟨x, -, down, -, h⟩ := h
  cases h
  rfl

theorem captionLines_text {lines : List Svg.Element} (h : Svg.captionLines c = .ok lines) :
    lines.map (·.text) = c.lines := by
  unfold Svg.captionLines at h
  cases hlines : c.lines with
  | nil =>
    simp only [hlines] at h
    cases h
    rfl
  | cons first rest =>
    simp only [hlines, Outcome.bind_eq_ok] at h
    obtain ⟨e, he, es, hes, h⟩ := h
    cases h
    have hrest : es.map (·.text) = rest.map id :=
      Outcome.map_of_mapM_ok hes fun _ _ he => line_text he
    rw [List.map_cons, line_text he, hrest, List.map_id]

theorem captionLine_mark {size : Int} {index : Nat} {line : String} {call : Raster.Call}
    (h : Raster.captionLine m c size index line = .ok call) :
    call.mark? = some (.text line) ∧ call.unfilled? = none := by
  simp only [Raster.captionLine, Outcome.bind_eq_ok] at h
  obtain ⟨down, -, base, -, rise, -, top, -, place, -, h⟩ := h
  split at h
  · simp only [Outcome.bind_eq_ok] at h
    obtain ⟨half, -, left, -, h⟩ := h
    cases h
    exact ⟨rfl, rfl⟩
  · cases h
    exact ⟨rfl, rfl⟩

/-- Both forms show the lines of a caption that are not empty. -/
theorem caption_agrees {e : Svg.Element} {calls : List Raster.Call} (h : Svg.caption c = .ok e)
    (hcalls : Raster.caption m c = .ok calls) : Agree s [e] calls := by
  simp only [Svg.caption, Outcome.bind_eq_ok] at h
  obtain ⟨lines, hlines, h⟩ := h
  cases h
  simp only [Raster.caption, Outcome.bind_eq_ok] at hcalls
  obtain ⟨size, -, hcalls⟩ := hcalls
  have hmarks := Outcome.map_of_mapM_ok (g := (·.mark?)) (k := fun p => some (.text p.1)) hcalls
    fun _ _ hcall => (captionLine_mark hcall).1
  have hshown : (c.lines.zipIdx.filter (! ·.1.isEmpty)).map (·.1) =
      c.lines.filter (! ·.isEmpty) := by
    have hfirst := List.filter_map (f := Prod.fst) (p := (! ·.isEmpty)) (l := c.lines.zipIdx)
    rw [List.zipIdx_map_fst] at hfirst
    exact hfirst.symm
  refine ⟨?_, fun _ => ?_⟩
  · rw [hmarks, List.flatMap_singleton, Svg.Element.group, Svg.Element.marks,
      captionLines_text hlines, ← hshown]
    simp
  · rw [List.filterMap_eq_nil_iff.mpr fun call hcall => ?_]
    · rfl
    · obtain ⟨p, -, hp⟩ := Outcome.mem_of_mapM_ok hcalls hcall
      exact (captionLine_mark hp).2

/-- A body with or without a caption. -/
theorem withCaption_agrees {c : Option Caption} {body : Svg.Element} {elements : List Svg.Element}
    {bodies texts : List Raster.Call} (hbody : Agree s [body] bodies)
    (h : Svg.withCaption body c = .ok elements) (htexts : Raster.caption? m c = .ok texts) :
    Agree s elements (bodies ++ texts) := by
  cases c with
  | none =>
    cases h
    cases htexts
    rwa [List.append_nil]
  | some c =>
    simp only [Svg.withCaption, Outcome.bind_eq_ok] at h
    obtain ⟨text, htext, h⟩ := h
    cases h
    exact hbody.append (caption_agrees htext htexts)

end Captions

/-! ## Bodies -/

section Bodies
variable {s : Shape} {m : Raster.Mapping}

/-- Only the colour of that name is written as no colour. -/
theorem colorValue_eq_none {color : Option String} (h : colorValue color = "none") :
    color = some "none" := by
  have hpalette : ∀ entry ∈ palette, entry.2 ≠ "none" := by decide
  cases color with
  | none => exact absurd h (by decide)
  | some name =>
    change (if name.isEmpty then inkColor else (palette.lookup name).getD name) = "none" at h
    split at h
    · exact absurd h (by decide)
    · cases hname : palette.lookup name with
      | none =>
        rw [hname] at h
        exact congrArg some h
      | some value =>
        rw [hname] at h
        obtain ⟨before, rest, hsplit, -⟩ := List.lookup_eq_some_iff.mp hname
        have hmem : (name, value) ∈ palette := hsplit ▸ List.mem_append_right _ List.mem_cons_self
        exact absurd h (hpalette _ hmem)

/-- Both forms leave the same insides unfilled. -/
theorem mem_fillAttributes {color fill : Option String} (h : color ≠ some "none") :
    ("fill", .text "none") ∈ Svg.fillAttributes color fill ↔ Color.fillOf color fill = none := by
  have hvalue : "none" ≠ colorValue color := fun hnone => h (colorValue_eq_none hnone.symm)
  unfold Svg.fillAttributes Color.fillOf
  cases coverOf fill <;> simp [hvalue]

theorem fill_not_mem_stroke (s : Shape) :
    ("fill", .text "none") ∉ Svg.strokeAttributes s := by
  unfold Svg.strokeAttributes
  cases dashPattern? s.style.dash <;> simp

variable {attributes : List (String × Svg.Attribute)} {fill : Option Rgba}

theorem unfilled_group {name : String} (hname : name = "rect" ∨ name = "ellipse")
    (hfill : ("fill", .text "none") ∈ attributes ↔ fill = none) :
    (Svg.Element.group name attributes []).unfilled? = some fill.isNone := by
  have hkept : (Svg.Attribute.text "none").isEmpty = false := by decide
  rw [Svg.Element.group, Svg.Element.unfilled?, if_pos hname, Option.some.injEq, Bool.eq_iff_iff,
    decide_eq_true_iff, Svg.Element.mem_arrange, hfill, Option.isNone_iff_eq_none]
  exact and_iff_left hkept

theorem rounded_agrees (box : Raster.Edges) (r : Scalar) (outline : Rgba) (width : Int)
    (hfill : s.style.color ≠ some "none" → (("fill", .text "none") ∈ attributes ↔ fill = none)) :
    Agree s [.group "rect" attributes []] [.rounded box r fill outline width] := by
  refine ⟨rfl, fun hcolor => ?_⟩
  rw [List.filterMap_cons, List.filterMap_cons, unfilled_group (.inl rfl) (hfill hcolor)]
  rfl

theorem ellipse_agrees (box : Raster.Edges) (outline : Rgba) (width : Int)
    (hfill : s.style.color ≠ some "none" → (("fill", .text "none") ∈ attributes ↔ fill = none)) :
    Agree s [.group "ellipse" attributes []] [.ellipse box fill outline width] := by
  refine ⟨rfl, fun hcolor => ?_⟩
  rw [List.filterMap_cons, List.filterMap_cons, unfilled_group (.inr rfl) (hfill hcolor)]
  rfl

end Bodies

/-! ## Shapes -/

section Shapes
variable {s : Shape} {m : Raster.Mapping} {elements : List Svg.Element} {calls : List Raster.Call}

theorem rectangle_agrees (h : Svg.rectangle s = .ok elements)
    (hcalls : Raster.rectangle m s = .ok calls) : Agree s elements calls := by
  simp only [Svg.rectangle, Outcome.bind_eq_ok] at h
  obtain ⟨_, -, c, hc, h⟩ := h
  simp only [Raster.rectangle, hc, Outcome.bind_eq_ok, Except.ok.injEq, exists_eq_left'] at hcalls
  obtain ⟨width, -, box, -, r, -, texts, htexts, rfl⟩ := hcalls
  refine withCaption_agrees (rounded_agrees box r _ width fun hcolor => ?_) h htexts
  rw [← mem_fillAttributes hcolor]
  simp [Svg.boxAttributes, Svg.cornerAttributes, fill_not_mem_stroke]

theorem ellipse_shape_agrees (h : Svg.ellipse s = .ok elements)
    (hcalls : Raster.ellipse m s = .ok calls) : Agree s elements calls := by
  simp only [Svg.ellipse, Outcome.bind_eq_ok] at h
  obtain ⟨rx, -, cx, -, ry, -, cy, -, c, hc, h⟩ := h
  simp only [Raster.ellipse, hc, Outcome.bind_eq_ok, Except.ok.injEq, exists_eq_left'] at hcalls
  obtain ⟨width, -, box, -, texts, htexts, rfl⟩ := hcalls
  refine withCaption_agrees (ellipse_agrees box _ width fun hcolor => ?_) h htexts
  rw [← mem_fillAttributes hcolor]
  simp [fill_not_mem_stroke]

theorem text_agrees (h : Svg.text s = .ok elements) (hcalls : Raster.text m s = .ok calls) :
    Agree s elements calls := by
  simp only [Svg.text, Outcome.bind_eq_ok] at h
  obtain ⟨c, hc, text, htext, h⟩ := h
  cases h
  simp only [Raster.text, hc, Outcome.bind_eq_ok, Except.ok.injEq, exists_eq_left'] at hcalls
  exact caption_agrees htext hcalls

theorem note_agrees (h : Svg.note s = .ok elements) (hcalls : Raster.note m s = .ok calls) :
    Agree s elements calls := by
  simp only [Svg.note, Outcome.bind_eq_ok] at h
  obtain ⟨c, hc, h⟩ := h
  simp only [Raster.note, hc, Outcome.bind_eq_ok, Except.ok.injEq, exists_eq_left'] at hcalls
  obtain ⟨box, -, r, -, width, -, texts, htexts, rfl⟩ := hcalls
  refine withCaption_agrees (rounded_agrees box r _ width fun hcolor => ?_) h htexts
  rw [← mem_fillAttributes hcolor]
  simp [Svg.boxAttributes, Svg.cornerAttributes, Svg.thinStroke]

theorem frame_agrees (h : Svg.frame s = .ok elements) (hcalls : Raster.frame m s = .ok calls) :
    Agree s elements calls := by
  simp only [Svg.frame, Outcome.bind_eq_ok] at h
  obtain ⟨c, hc, h⟩ := h
  simp only [Raster.frame, hc, Outcome.bind_eq_ok, Except.ok.injEq, exists_eq_left'] at hcalls
  obtain ⟨box, -, r, -, width, -, texts, htexts, rfl⟩ := hcalls
  refine withCaption_agrees (rounded_agrees box r _ width fun _ => ?_) h htexts
  exact iff_of_true List.mem_cons_self rfl

/-- A connector has a tip unless its length is zero. -/
theorem arrowhead_eq_ok {a b : Point} {stroke : Scalar} {color : Rgba} {head : List Raster.Call}
    (h : Raster.arrowhead m a b stroke color = .ok head) :
    ∃ dx dy, b.x.sub a.x = .ok dx ∧ b.y.sub a.y = .ok dy ∧
      if dx.isZero && dy.isZero then head = [] else ∃ points, head = [.polygon points color] := by
  simp only [Raster.arrowhead, Outcome.bind_eq_ok] at h
  obtain ⟨dx, hdx, dy, hdy, length, hlength, h⟩ := h
  refine ⟨dx, dy, hdx, hdy, ?_⟩
  rw [Scalar.hypot_isZero hlength] at h
  split at h
  · rename_i hzero
    cases h
    rw [if_pos hzero]
  · rename_i hzero
    rw [if_neg hzero]
    simp only [Outcome.bind_eq_ok] at h
    obtain ⟨_, -, _, -, _, -, _, -, _, -, _, -, _, -, _, -, _, -, _, -, _, -, tip, -, _, -, _, -,
      _, -, _, -, left, -, _, -, _, -, right, -, h⟩ := h
    exact ⟨[tip, left, right], (Except.ok.inj h).symm⟩

theorem isFlag_absolute? {offset : Option Point} {a : Point}
    (h : s.absolute? offset = .ok (some a)) : a.x.isFlag = false ∧ a.y.isFlag = false := by
  cases offset with
  | none => cases h
  | some p =>
    obtain ⟨b, hb, hab⟩ := Outcome.map_eq_ok.mp h
    simp only [Shape.absolute, Outcome.bind_eq_ok] at hb
    obtain ⟨x, hx, y, hy, hb⟩ := hb
    cases hb
    cases hab
    exact ⟨Scalar.isFlag_add hx, Scalar.isFlag_add hy⟩

theorem connector_agrees {shapes : List Shape} {padding : Scalar} {v : Viewport}
    (hv : Viewport.ofShapes shapes padding = .ok v) (hs : s ∈ shapes)
    (hkind : s.kind = .known .connector) (h : Svg.connector s = .ok elements)
    (hcalls : Raster.connector m s = .ok calls) : Agree s elements calls := by
  simp only [Svg.connector, Outcome.bind_eq_ok] at h
  obtain ⟨start, hstart, finish, hfinish, h⟩ := h
  simp only [Raster.connector, hstart, hfinish, Outcome.bind_eq_ok, Except.ok.injEq,
    exists_eq_left'] at hcalls
  cases start with
  | none =>
    cases h
    cases hcalls
    exact .nil s
  | some a =>
    cases finish with
    | none =>
      cases h
      cases hcalls
      exact .nil s
    | some b =>
      simp only [Outcome.bind_eq_ok] at h hcalls
      obtain ⟨c, hc, h⟩ := h
      obtain ⟨first, -, last, -, width, -, head, hhead, c', hc', texts, htexts, hcalls⟩ := hcalls
      cases hcalls
      rw [hc, Except.ok.injEq] at hc'
      subst hc'
      -- In a viewport the ends never lie at the same infinity, so they differ by zero only where
      -- they meet, and only there the arrowhead is left out.
      obtain ⟨hx, hy⟩ := Viewport.ends_apart hv hs hkind hstart hfinish
      obtain ⟨hax, hay⟩ := isFlag_absolute? hstart
      obtain ⟨hbx, hby⟩ := isFlag_absolute? hfinish
      obtain ⟨dx, dy, hdx, hdy, hhead⟩ := arrowhead_eq_ok hhead
      rw [Scalar.sub_isZero hdx hax hbx hx, Scalar.sub_isZero hdy hay hby hy] at hhead
      have hmeet : s.endsMeet = (a.x.meets b.x && a.y.meets b.y) := by
        rw [Shape.endsMeet, hstart, hfinish]
      rw [← hmeet] at hhead
      refine withCaption_agrees (?_ : Agree s _ (_ :: head)) h htexts
      split at hhead
      · rename_i hmeets
        subst hhead
        exact ⟨by rw [hmeets]; rfl, fun _ => rfl⟩
      · rename_i hmeets
        obtain ⟨points, rfl⟩ := hhead
        rw [Bool.not_eq_true] at hmeets
        exact ⟨by rw [hmeets]; rfl, fun _ => rfl⟩

/-- What both forms show of a shape is the same. -/
theorem shape_agrees {shapes : List Shape} {padding : Scalar} {v : Viewport}
    (hv : Viewport.ofShapes shapes padding = .ok v) (hs : s ∈ shapes)
    (h : Svg.shape s = .ok elements) (hcalls : Raster.shape m s = .ok calls) :
    Agree s elements calls := by
  unfold Svg.shape at h
  unfold Raster.shape at hcalls
  cases hkind : s.kind with
  | foreign name =>
    rw [hkind] at h hcalls
    cases h
    cases hcalls
    exact .nil s
  | known kind =>
    rw [hkind] at h hcalls
    cases kind with
    | rectangle => exact rectangle_agrees h hcalls
    | ellipse => exact ellipse_shape_agrees h hcalls
    | text => exact text_agrees h hcalls
    | note => exact note_agrees h hcalls
    | frame => exact frame_agrees h hcalls
    | connector => exact connector_agrees hv hs hkind h hcalls

end Shapes

/-! ## Whole drawings -/

/-- A drawing and an image that show the same viewport, and of each shape the same. -/
structure SamePicture (shapes : List Shape) (background : Value) (padding scale : Scalar)
    (v : Viewport) (parts : List (List Svg.Element × List Raster.Call)) (text : String)
    (calls : List Raster.Call) : Prop where
  viewport : Viewport.ofShapes shapes padding = .ok v
  drawing : ∃ box, Svg.viewBox v = .ok box ∧
    text = String.ofList (Svg.Element.group "svg" (Svg.documentAttributes v box)
      [.group "defs" [] [Svg.arrowhead],
        .group "rect" (("fill", .text (Settings.backgroundText background)) ::
          Svg.boxAttributes v.x v.y v.width v.height) [],
        .group "g" [("color", inkColor)] (parts.flatMap (·.1))]).write
  image : ∃ width height color, Raster.side v.width scale = .ok width ∧
    Raster.side v.height scale = .ok height ∧ Settings.backgroundColor background = .ok color ∧
    calls = .newImage width height (Color.ofText color) :: .beginDrawing :: parts.flatMap (·.2)
  each : List.Forall₂ (fun s p => Svg.shape s = .ok p.1 ∧ Raster.shape ⟨v, scale⟩ s = .ok p.2 ∧
    Agree s p.1 p.2) shapes parts
  unsupported : Raster.unsupported shapes = Svg.unsupported shapes

theorem unsupported_eq (shapes : List Shape) :
    Raster.unsupported shapes = Svg.unsupported shapes := by
  refine List.filter_congr fun s _ => ?_
  cases s.kind with
  | foreign name => rfl
  | known kind => cases kind <;> rfl

/-- Both forms of drawing show the same picture: where both succeed, they lay the same viewport
under the shapes, show the same marks of each shape in the order of the shapes, and leave out the
same shapes. A connector lacks its tip in an image only where its ends meet. -/
theorem drawn_alike {look : Raster.Call → Except Fault Unit} {shapes : List Shape}
    {background : Value} {padding scale : Scalar} {text : String} {calls : List Raster.Call}
    (htext : Svg.render shapes (Settings.backgroundText background) padding = .ok text)
    (hcalls : Raster.callsWith look shapes background padding scale = .ok calls) :
    ∃ v parts, SamePicture shapes background padding scale v parts text calls := by
  simp only [Svg.render, Svg.document, Outcome.bind_eq_ok] at htext
  obtain ⟨tree, ⟨v, hv, box, hbox, groups, hgroups, htree⟩, htext⟩ := htext
  simp only [Raster.callsWith, hv, Outcome.bind_eq_ok, Except.ok.injEq, exists_eq_left'] at hcalls
  obtain ⟨width, hwidth, height, hheight, color, hcolor, _, -, drawn, hdrawn, rfl⟩ := hcalls
  obtain ⟨parts, rfl, rfl, hparts⟩ := Outcome.pairs_of_mapM_ok hgroups hdrawn
  refine ⟨v, parts, hv, ⟨box, hbox, ?_⟩, ?_, ?_, unsupported_eq shapes⟩
  · obtain rfl := Except.ok.inj htree
    split at htext
    · rw [← Except.ok.inj htext, List.flatMap_def]
    · cases htext
  · exact ⟨width, height, color, hwidth, hheight, hcolor, by rw [List.flatMap_def]⟩
  · refine List.forall₂_iff_zip.mpr ⟨hparts.length_eq, fun {s p} hmem => ?_⟩
    obtain ⟨hs, -⟩ := List.of_mem_zip hmem
    obtain ⟨helements, hlooked⟩ := List.forall₂_zip hparts hmem
    simp only [Outcome.bind_eq_ok, Except.ok.injEq] at hlooked
    obtain ⟨drawn, hdrawn, _, -, rfl⟩ := hlooked
    exact ⟨helements, hdrawn, shape_agrees hv hs helements hdrawn⟩

/-- A box, a text with an empty line, a connector with a tip, one that lacks an end, and a shape of
a foreign kind. -/
theorem drawn_alike_mixed :
    let shapes : List Shape := [
      { id := "shape:1", kind := .known .rectangle, w := 80, h := 40, label := " A "
        style := { fill := some "solid" } },
      { id := "shape:2", kind := .known .text, x := 5, label := "one\n\ntwo" },
      { id := "shape:3", kind := .known .connector, label := "a < b", start := some ⟨0, 0⟩
        finish := some ⟨30, 40⟩ },
      { id := "shape:4", kind := .known .connector, start := some ⟨0, 0⟩ },
      { id := "shape:5", kind := .foreign "star" }]
    ∃ text calls v parts,
      Svg.render shapes (Settings.backgroundText (.text "white")) 24 = .ok text ∧
        Raster.calls shapes (.text "white") 24 2 = .ok calls ∧
          SamePicture shapes (.text "white") 24 2 v parts text calls := by
  intro shapes
  obtain ⟨text, htext, -⟩ := Outcome.exists_of_any (p := fun _ => true)
    (x := Svg.render shapes (Settings.backgroundText (.text "white")) 24) (by decide +kernel)
  obtain ⟨calls, hcalls, -⟩ := Outcome.exists_of_any (p := fun _ => true)
    (x := Raster.calls shapes (.text "white") 24 2) (by decide +kernel)
  obtain ⟨v, parts, hpicture⟩ := drawn_alike htext hcalls
  exact ⟨text, calls, v, parts, htext, hcalls, hpicture⟩

/-- Ends that differ by less than floating-point numbers tell apart: the line of the connector has
no tip in the image. -/
theorem tipless_line :
    let a : Point := ⟨9007199254740993, 0⟩
    let b : Point := ⟨.ofPlaces 9007199254740992 0, 0⟩
    let s : Shape :=
      { id := "shape:1", kind := .known .connector, start := some a, finish := some b }
    s.absolute? s.start = .ok (some a) ∧ s.absolute? s.finish = .ok (some b) ∧
      a.x.same b.x = false ∧ ∃ text calls,
        Svg.render [s] "white" 24 = .ok text ∧ Raster.calls [s] (.text "white") 24 2 = .ok calls ∧
          calls.filterMap (·.mark?) = [.line] := by
  intro a b s
  obtain ⟨text, htext, -⟩ := Outcome.exists_of_any (p := fun _ => true)
    (x := Svg.render [s] "white" 24) (by decide +kernel)
  obtain ⟨calls, hcalls, hmarks⟩ := Outcome.exists_of_any
    (p := fun calls => calls.filterMap (·.mark?) == [.line])
    (x := Raster.calls [s] (.text "white") 24 2) (by decide +kernel)
  exact ⟨rfl, by decide +kernel, by decide +kernel, text, calls, htext, hcalls, eq_of_beq hmarks⟩

end DiagramScript
