import DiagramScript.Proofs.Markup.Written
import DiagramScript.Proofs.Outcome
import DiagramScript.Proofs.Svg.Element

/-
  Drawings as markup.

  A drawing is read as the tree that was built for it. What is written in it, labels, colours and
  the background, cannot be taken for markup: shapes that differ in their colours and in the
  characters of their labels only have the same elements (`shape_alike`), so their drawings are
  read as trees with the same names (`read_render`). How many elements there are depends on the
  lines of the labels, and on whether a label is left where the blanks around it are not counted.
-/

namespace DiagramScript

open Outcome (Follows)

/-- Labels that take as many lines, with and without the blanks around them, and are both blank
or both not. -/
structure Label.Alike (a b : String) : Prop where
  lines : Text.lineCount b = Text.lineCount a
  stripped : Text.lineCount (Text.strip b) = Text.lineCount (Text.strip a)
  blank : (Text.strip b).isEmpty = (Text.strip a).isEmpty

namespace Shape
variable {s : Shape} {shapes shapes' : List Shape}

/-- The shape with another label and in another colour. -/
def redress (s : Shape) (label : String) (color : Option String) : Shape :=
  { s with label, style := { s.style with color } }

/-- Shapes that differ in their colours and in the characters of their labels only. -/
def Alike (s s' : Shape) : Prop :=
  ∃ label color, Label.Alike s.label label ∧ s' = s.redress label color

theorem Alike.refl (s : Shape) : s.Alike s := ⟨s.label, s.style.color, ⟨rfl, rfl, rfl⟩, rfl⟩

theorem bounds_redress {label : String} (h : Label.Alike s.label label) (color : Option String) :
    (s.redress label color).bounds = s.bounds := by
  unfold bounds redress
  simp only [h.lines]
  rfl

theorem mapM_bounds (h : List.Forall₂ Alike shapes shapes') :
    shapes'.mapM bounds = shapes.mapM bounds := by
  induction h with
  | nil => rfl
  | cons hs _ ih =>
    obtain ⟨label, color, hlabel, rfl⟩ := hs
    rw [List.mapM_cons, List.mapM_cons, bounds_redress hlabel, ih]

end Shape

/-! ## Elements -/

namespace Svg.Element

/-- Elements with plain names, and other elements of the same names in the same order that can be
written where these can. -/
structure Alike (es es' : List Element) : Prop where
  plain : es.all hasPlainNames = true
  names : es'.flatMap (·.seen.names) = es.flatMap (·.seen.names)
  writable : es'.all isWritable = es.all isWritable

namespace Alike
variable {es es' fs fs' : List Element} {name text text' : String}
  {attributes attributes' : List (String × Attribute)}

theorem nil : Alike [] [] := ⟨rfl, rfl, rfl⟩

theorem append (h : Alike es es') (h' : Alike fs fs') : Alike (es ++ fs) (es' ++ fs') := by
  refine ⟨?_, ?_, ?_⟩
  · rw [List.all_append, h.plain, h'.plain]; rfl
  · rw [List.flatMap_append, List.flatMap_append, h.names, h'.names]
  · rw [List.all_append, List.all_append, h.writable, h'.writable]

theorem flatten {groups groups' : List (List Element)} (h : List.Forall₂ Alike groups groups') :
    Alike groups.flatten groups'.flatten := by
  induction h with
  | nil => exact nil
  | cons hes _ ih =>
    rw [List.flatten_cons, List.flatten_cons]
    exact hes.append ih

/-- Elements that are alike one by one. -/
theorem of_forall₂ (h : List.Forall₂ (fun e e' => Alike [e] [e']) es es') : Alike es es' := by
  induction h with
  | nil => exact nil
  | cons he _ ih => exact he.append ih

theorem node (hname : isPlain name = true) (hplain : attributes.all (isPlain ·.1) = true)
    (hwritable : attributes'.all (·.2.isWritable) = attributes.all (·.2.isWritable))
    (h : Alike es es') : Alike [.node name (arrange attributes) text es]
      [.node name (arrange attributes') text' es'] := by
  have hkeys : ((arrange attributes).map (·.1)).all isPlain = true := by
    rw [List.all_map, List.all_eq_true]
    exact fun a ha => List.all_eq_true.mp hplain a (mem_arrange.mp ha).1
  have hnames (attributes : List (String × Attribute)) (text : String) (es : List Element) :
      (seen (.node name attributes text es)).names = name :: es.flatMap (·.seen.names) := by
    rw [seen, Markup.names, Markup.allNames_eq, List.flatMap_append, allSeen_eq,
      List.flatMap_map]
    split <;> rfl
  refine ⟨?_, ?_, ?_⟩
  · simp [hasPlainNames, hname, hkeys, havePlainNames_eq, h.plain]
  · rw [List.flatMap_singleton, List.flatMap_singleton, hnames, hnames, h.names]
  · simp [isWritable, all_arrange, hwritable, areWritable_eq, h.writable]

end Alike

end Svg.Element

/-! ## Captions -/

/-- Captions that differ in their colour and in the characters of their lines only. -/
def Caption.Alike (c c' : Caption) : Prop :=
  ∃ text color, Text.lineCount text = Text.lineCount c.text ∧ c' = { c with text, color }

namespace Caption
variable {s : Shape} {label : String} {color : Option String}

theorem label_alike (h : Label.Alike s.label label) (x y : Scalar) :
    Follows Alike (Caption.label s x y) (Caption.label (s.redress label color) x y) :=
  .same fun _ => .ok ⟨_, _, h.stripped, rfl⟩

theorem inside_alike (h : Label.Alike s.label label) :
    Follows Alike (inside s) (inside (s.redress label color)) :=
  .same fun _ => .same fun x => .same fun _ => .same fun _ => .same fun _ => .same fun y =>
    label_alike h x y

theorem body_alike (h : Label.Alike s.label label) :
    Follows Alike (body s) (body (s.redress label color)) :=
  .same fun _ => .same fun _ => .ok ⟨_, _, h.lines, rfl⟩

theorem note_alike (h : Label.Alike s.label label) :
    Follows Alike (note s) (note (s.redress label color)) :=
  .same fun _ => .same fun _ => .same fun _ => .same fun _ => .same fun _ =>
    .ok ⟨_, _, h.lines, rfl⟩

theorem frame_alike (h : Label.Alike s.label label) :
    Follows Alike (frame s) (frame (s.redress label color)) :=
  .same fun _ => .same fun _ => .ok ⟨_, _, h.stripped, rfl⟩

theorem along_alike (h : Label.Alike s.label label) (a b : Point) :
    Follows Alike (along s a b) (along (s.redress label color) a b) :=
  .same fun _ => .same fun x => .same fun _ => .same fun _ => .same fun y => label_alike h x y

/-- A title is left out in both captions or in none. -/
theorem titled_alike (h : Label.Alike s.label label) {c c' : Except Fault Caption}
    (hc : Follows Alike c c') :
    Follows (Option.Rel Alike) (titled s c) (titled (s.redress label color) c') := by
  have hblank : (s.redress label color).title.isEmpty = s.title.isEmpty := h.blank
  unfold titled
  rw [hblank]
  split
  · exact .ok .none
  · exact hc.map fun _ _ h => .some h

end Caption

namespace Svg

open Element (isPlain)

section Captions
variable {c c' : Caption}

theorem line_alike (h : c.Alike c') (first : Bool) (text text' : String) :
    Follows (fun e e' => Element.Alike [e] [e']) (line c first text) (line c' first text') := by
  obtain ⟨shown, color, -, rfl⟩ := h
  refine .same fun x => .same fun down => .ok (.node (by decide) ?_ rfl .nil)
  cases first <;> simp +decide

/-- A caption has an element for each of its lines. -/
theorem captionLines_alike (h : c.Alike c') :
    Follows Element.Alike (captionLines c) (captionLines c') := by
  -- Alike captions have as many lines, whatever stands on them.
  have hcount : c'.lines.length = c.lines.length := by
    obtain ⟨text, color, hcount, rfl⟩ := h
    rw [Caption.lines, Caption.lines, Text.length_displayLines, Text.length_displayLines, hcount]
  unfold captionLines
  cases hlines : c.lines with
  | nil =>
    rw [hlines, List.length_nil, List.length_eq_zero_iff] at hcount
    rw [hcount]
    exact .ok .nil
  | cons first rest =>
    rw [hlines, List.length_cons] at hcount
    obtain ⟨first', rest', hlines'⟩ := List.exists_cons_of_length_eq_add_one hcount
    rw [hlines', List.length_cons, Nat.add_right_cancel_iff] at hcount
    rw [hlines']
    refine (line_alike h true first first').bind fun e e' he => ?_
    have hrest : List.Forall₂ (fun _ _ => True) rest rest' :=
      List.forall₂_iff_get.mpr ⟨hcount.symm, fun _ _ _ => trivial⟩
    refine (Follows.mapM hrest fun text text' _ => line_alike h false text text').bind
      fun es es' hes => .ok ?_
    exact he.append (.of_forall₂ hes)

theorem caption_alike (h : c.Alike c') :
    Follows (fun e e' => Element.Alike [e] [e']) (caption c) (caption c') := by
  refine (captionLines_alike h).bind fun lines lines' hlines => ?_
  obtain ⟨text, color, -, rfl⟩ := h
  refine .ok (.node (by decide) ?_ rfl hlines)
  simp +decide

theorem withCaption_alike {body body' : Element} (hbody : Element.Alike [body] [body'])
    {c c' : Option Caption} (h : Option.Rel Caption.Alike c c') :
    Follows Element.Alike (withCaption body c) (withCaption body' c') := by
  cases h with
  | none => exact .ok hbody
  | some h => exact (caption_alike h).bind fun e e' he => .ok (hbody.append he)

end Captions

/-! ## Shapes -/

section Shapes
variable {s : Shape} {label : String} {color : Option String}

@[simp] theorem plain_boxAttributes (x y w h : Scalar) :
    (boxAttributes x y w h).all (isPlain ·.1) = true := by
  simp +decide [boxAttributes]

@[simp] theorem plain_cornerAttributes (radius : ℕ) :
    (cornerAttributes radius).all (isPlain ·.1) = true := by
  simp +decide [cornerAttributes]

@[simp] theorem plain_strokeAttributes (s : Shape) :
    (strokeAttributes s).all (isPlain ·.1) = true := by
  unfold strokeAttributes
  cases dashPattern? s.style.dash <;> simp +decide

@[simp] theorem plain_fillAttributes (color fill : Option String) :
    (fillAttributes color fill).all (isPlain ·.1) = true := by
  unfold fillAttributes
  cases coverOf fill <;> simp +decide

@[simp] theorem plain_thinStroke (s : Shape) : (thinStroke s).all (isPlain ·.1) = true := by
  simp +decide [thinStroke]

theorem rectangle_alike (h : Label.Alike s.label label) :
    Follows Element.Alike (rectangle s) (rectangle (s.redress label color)) := by
  refine (Caption.inside_alike h).bind fun _ _ _ => ?_
  refine (Caption.titled_alike h (Caption.inside_alike h)).bind fun c c' hc => ?_
  refine withCaption_alike (.node (by decide) ?_ ?_ .nil) hc
  · simp
  · simp [Shape.redress]

theorem ellipse_alike (h : Label.Alike s.label label) :
    Follows Element.Alike (ellipse s) (ellipse (s.redress label color)) := by
  refine .same fun rx => .same fun cx => .same fun ry => .same fun cy => ?_
  refine (Caption.titled_alike h (Caption.inside_alike h)).bind fun c c' hc => ?_
  refine withCaption_alike (.node (by decide) ?_ ?_ .nil) hc
  · simp +decide
  · simp

theorem text_alike (h : Label.Alike s.label label) :
    Follows Element.Alike (text s) (text (s.redress label color)) :=
  (Caption.body_alike h).bind fun _ _ hc => (caption_alike hc).bind fun _ _ he => .ok he

theorem note_alike (h : Label.Alike s.label label) :
    Follows Element.Alike (note s) (note (s.redress label color)) := by
  refine (Caption.note_alike h).bind fun c c' hc => ?_
  refine withCaption_alike (.node (by decide) ?_ ?_ .nil) (.some hc)
  · simp
  · simp [Shape.redress]

theorem frame_alike (h : Label.Alike s.label label) :
    Follows Element.Alike (frame s) (frame (s.redress label color)) := by
  refine (Caption.titled_alike h (Caption.frame_alike h)).bind fun c c' hc => ?_
  refine withCaption_alike (.node (by decide) ?_ ?_ .nil) hc
  · simp +decide
  · simp [Shape.redress]

theorem connector_alike (h : Label.Alike s.label label) :
    Follows Element.Alike (connector s) (connector (s.redress label color)) := by
  refine .same fun start => .same fun finish => ?_
  cases start with
  | none => exact .ok .nil
  | some a =>
    cases finish with
    | none => exact .ok .nil
    | some b =>
      refine (Caption.titled_alike h (Caption.along_alike h a b)).bind fun c c' hc => ?_
      refine withCaption_alike (.node (by decide) ?_ ?_ .nil) hc
      · simp +decide
      · simp

/-- Shapes that are alike have elements that are alike. -/
theorem shape_alike {s s' : Shape} (h : s.Alike s') :
    Follows Element.Alike (shape s) (shape s') := by
  obtain ⟨label, color, hlabel, rfl⟩ := h
  have hkind : (s.redress label color).kind = s.kind := rfl
  unfold shape
  rw [hkind]
  cases s.kind with
  | foreign _ => exact .ok .nil
  | known kind =>
    cases kind with
    | rectangle => exact rectangle_alike hlabel
    | ellipse => exact ellipse_alike hlabel
    | text => exact text_alike hlabel
    | note => exact note_alike hlabel
    | frame => exact frame_alike hlabel
    | connector => exact connector_alike hlabel

end Shapes

/-! ## Documents -/

variable {shapes shapes' : List Shape} {background : String} {padding : Scalar}

theorem document_alike (h : List.Forall₂ Shape.Alike shapes shapes')
    (background background' : String) (padding : Scalar) :
    Follows (fun tree tree' => Element.Alike [tree] [tree'])
      (document shapes background padding) (document shapes' background' padding) := by
  -- Labels of as many lines leave the bounds alone, and with them the viewport.
  have hview : Viewport.ofShapes shapes' padding = Viewport.ofShapes shapes padding := by
    rw [Viewport.ofShapes, Viewport.extent?, Shape.mapM_bounds h]
    rfl
  rw [document, document, hview]
  refine .same fun v => .same fun box => ?_
  refine (Follows.mapM h fun s s' hs => shape_alike hs).bind fun groups groups' hgroups => .ok ?_
  refine .node (by decide) ?_ rfl ?_
  · simp +decide [documentAttributes]
  have hpath : Element.Alike [arrowhead] [arrowhead] :=
    .node (by decide) (by simp +decide) rfl (.node (by decide) (by simp +decide) rfl .nil)
  have hdefs : Element.Alike [.group "defs" [] [arrowhead]] [.group "defs" [] [arrowhead]] :=
    .node (by decide) rfl rfl hpath
  have hbackground : Element.Alike
      [.group "rect" (("fill", background) :: boxAttributes v.x v.y v.width v.height) []]
      [.group "rect" (("fill", background') :: boxAttributes v.x v.y v.width v.height) []] :=
    .node (by decide) (by simp +decide) rfl .nil
  have hshapes : Element.Alike [.group "g" [("color", inkColor)] groups.flatten]
      [.group "g" [("color", inkColor)] groups'.flatten] :=
    .node (by decide) (by simp +decide) rfl (.flatten hgroups)
  exact hdefs.append (hbackground.append hshapes)

theorem document_plain {tree : Element} (h : document shapes background padding = .ok tree) :
    tree.hasPlainNames = true := by
  have hself : List.Forall₂ Shape.Alike shapes shapes :=
    List.forall₂_same.mpr fun s _ => Shape.Alike.refl s
  obtain ⟨tree', -, htree⟩ := document_alike hself background background padding tree h
  exact List.all_eq_true.mp htree.plain tree List.mem_cons_self

theorem render_eq_ok {out : String} : render shapes background padding = .ok out ↔
    ∃ tree, document shapes background padding = .ok tree ∧ tree.isWritable = true ∧
      String.ofList tree.write = out := by
  rw [render, Outcome.bind_eq_ok]
  refine exists_congr fun tree => and_congr_right fun _ => ?_
  split <;> simp_all [ArithmeticProblem.fail]

/-- A drawing is read as the tree that was built for it, whatever its labels, its colours and its
background hold. Other labels that take the same lines, other colours and another background give
a drawing that is read as elements of the same names. -/
theorem read_render {out : String} (h : render shapes background padding = .ok out) :
    ∃ tree, document shapes background padding = .ok tree ∧
      Markup.read out = some [tree.seen] ∧
      ∀ (shapes' : List Shape) (background' : String), List.Forall₂ Shape.Alike shapes shapes' →
        ∃ out', render shapes' background' padding = .ok out' ∧
          (Markup.read out').map (·.flatMap Markup.names) = some tree.seen.names := by
  obtain ⟨tree, htree, hwritable, rfl⟩ := render_eq_ok.mp h
  refine ⟨tree, htree, Markup.read_write (document_plain htree), fun shapes' background' hs => ?_⟩
  obtain ⟨tree', htree', halike⟩ := document_alike hs background background' padding tree htree
  have hwritable' : tree'.isWritable = true := by
    have hsame := halike.writable
    rwa [List.all_cons, List.all_cons, List.all_nil, Bool.and_true, Bool.and_true,
      hwritable] at hsame
  refine ⟨_, render_eq_ok.mpr ⟨tree', htree', hwritable', rfl⟩, ?_⟩
  have hnames := halike.names
  rw [List.flatMap_singleton, List.flatMap_singleton] at hnames
  rw [Markup.read_write (document_plain htree'), Option.map_some, List.flatMap_singleton, hnames]

/-- A frame with markup for its label and its colour on a background of markup, and the same frame
with other texts. -/
theorem read_render_hostile :
    let frame : Shape :=
      { id := "f", kind := .known .frame, w := 300, h := 200, label := "</svg>\n<b a=\"1\">&amp;"
        style := { color := some "\"/><script>" } }
    let plain : Shape := { frame with label := "one\ntwo", style := { color := some "red" } }
    ∃ out tree, render [frame] "\" onload=\"x" 24 = .ok out ∧
      document [frame] "\" onload=\"x" 24 = .ok tree ∧ Markup.read out = some [tree.seen] ∧
      ∃ out', render [plain] "white" 24 = .ok out' ∧
        (Markup.read out').map (·.flatMap Markup.names) = some tree.seen.names ∧
        tree.seen.names = ["svg", "defs", "marker", "path", "rect", "g", "rect", "text", "tspan",
          "tspan"] := by
  intro frame plain
  have hrender : (render [frame] "\" onload=\"x" 24).toOption.any (fun _ => true) = true := by
    decide +kernel
  obtain ⟨out, hout, -⟩ := Outcome.exists_of_any hrender
  obtain ⟨tree, htree, hread, hother⟩ := read_render hout
  have halike : Shape.Alike frame plain :=
    ⟨"one\ntwo", some "red", ⟨by decide, by decide, by decide⟩, rfl⟩
  obtain ⟨out', hout', hnames⟩ := hother [plain] "white" (.cons halike .nil)
  have hcomputed : (document [frame] "\" onload=\"x" 24).toOption.map (·.seen.names) =
      some ["svg", "defs", "marker", "path", "rect", "g", "rect", "text", "tspan", "tspan"] := by
    decide +kernel
  rw [htree] at hcomputed
  exact ⟨out, tree, hout, htree, hread, out', hout', hnames, Option.some.inj hcomputed⟩

end Svg

end DiagramScript
