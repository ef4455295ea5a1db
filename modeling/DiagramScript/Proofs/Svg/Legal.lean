import DiagramScript.Svg
import DiagramScript.Proofs.Settles
import DiagramScript.Proofs.Markup.Legal

/-
  Drawings that XML allows.

  What a drawing shows of a shape is its label, or what is left of it without the blanks around it
  (`Shape.shown`). A drawing in colours that XML allows carries exactly those characters that are
  not allowed and stand in what it shows (`Svg.render_carries`).
-/

namespace DiagramScript

open Text (Letter isClean isBare)

/-! ## Lines -/

namespace Text

theorem letters_cons {d : Char} (hd : d ≠ mark) (cs : List Char) :
    letters (d :: cs) = .char d :: letters cs := by
  have hplain : mark ∉ [d] := fun h => hd (List.mem_singleton.mp h).symm
  exact letters_append_of_plain hplain cs

theorem splitOn_cons_of_ne {sep d : Char} (hd : d ≠ sep) (cs : List Char) :
    ∃ piece pieces, splitOn sep cs = piece :: pieces ∧
      splitOn sep (d :: cs) = (d :: piece) :: pieces := by
  obtain ⟨piece, pieces, hcs⟩ := List.exists_cons_of_ne_nil (splitOn_ne_nil sep cs)
  refine ⟨piece, pieces, hcs, ?_⟩
  rw [splitOn, if_neg hd, hcs]

/-- A character stands in a text where it stands in one of the pieces between other characters. A
mark that is cut off its second character marks no half of a pair. -/
theorem char_mem_splitOn {c sep : Char} (hsep : c ≠ sep) (hmark : c ≠ mark) (hcut : mark ≠ sep)
    (cs : List Char) : (∃ piece ∈ splitOn sep cs, .char c ∈ letters piece) ↔
      .char c ∈ letters cs := by
  have hchar {d : Char} : Letter.char c = .char d ↔ c = d := by rw [Letter.char.injEq]
  have hmarked {d : Char} : Letter.char c ≠ .marked d := by
    rw [Letter.marked]
    split
    · exact fun h => hmark (Letter.char.inj h)
    · exact Letter.noConfusion
  -- A mark and its second character are one letter, so the induction is on the letters and not
  -- on the characters that the pieces are cut at.
  fun_induction letters cs with
  | case1 => simp [splitOn, letters]
  | case2 d =>
    by_cases hd : d = sep
    · subst hd
      simp [splitOn, letters, hsep]
    · simp [splitOn, letters, hd]
  | case3 d rest ih =>
    rw [List.mem_cons, or_iff_right hmarked]
    refine Iff.trans ?_ ih
    by_cases hd : d = sep
    · -- The mark stays alone at the end of its piece.
      subst hd
      simp [splitOn, letters, hcut, hmark]
    · obtain ⟨piece, pieces, hrest, hpieces⟩ := splitOn_cons_of_ne hd rest
      obtain ⟨piece', pieces', hcons, hall⟩ := splitOn_cons_of_ne hcut (d :: rest)
      rw [hpieces, List.cons.injEq] at hcons
      obtain ⟨rfl, rfl⟩ := hcons
      rw [hall, hrest, List.exists_mem_cons_iff, List.exists_mem_cons_iff, letters, if_pos rfl,
        List.mem_cons, or_iff_right hmarked]
  | case4 d e rest hd ih =>
    rw [List.mem_cons, hchar]
    by_cases hsep' : d = sep
    · subst hsep'
      rw [splitOn, if_pos rfl, List.exists_mem_cons_iff, or_iff_right hsep]
      exact (or_iff_right List.not_mem_nil).trans ih
    · obtain ⟨piece, pieces, hrest, hpieces⟩ := splitOn_cons_of_ne hsep' (e :: rest)
      rw [hpieces, List.exists_mem_cons_iff, letters_cons hd, List.mem_cons, hchar, or_assoc]
      refine or_congr_right (Iff.trans ?_ ih)
      rw [hrest, List.exists_mem_cons_iff]

end Text

/-- The lines of a text carry what the text carries. -/
theorem Markup.Carries.of_lines {cs : List Char} {t : String}
    (h : Markup.Carries cs (Text.displayLines t)) : Markup.Carries cs [t] := by
  obtain ⟨ks, hwritten, hks⟩ := h
  refine ⟨ks, hwritten, fun c hc => (hks c hc).trans ?_⟩
  have hne {d : Char} (hd : (Letter.char d).isLegal = true) : c ≠ d := by
    rintro rfl
    rw [hd] at hc
    cases hc
  have hlines := Text.char_mem_splitOn (c := c) (hne (d := '\n') (by decide))
    (hne (d := Text.mark) (by decide)) (by decide) t.toList
  simpa [Text.displayLines] using hlines

/-! ## Captions -/

theorem isClean_inkColor : isClean inkColor = true := by decide

namespace Caption

/-- A caption in a colour that XML allows shows a text. -/
structure Shows (text : String) (c : Caption) : Prop where
  text_eq : c.text = text
  color : isClean c.color = true

/-- Only where there is no text, there may be no caption. -/
def Captioned (text : String) (c : Option Caption) : Prop :=
  (∀ c' ∈ c, c'.Shows text) ∧ (c = none → text = "")

variable {s : Shape}

theorem label_shows (x y : Scalar) : Yields (Shows s.title) (label s x y) :=
  .after fun _ => .ok ⟨rfl, isClean_inkColor⟩

theorem inside_shows : Yields (Shows s.title) (inside s) :=
  .after fun _ => .after fun _ => .after fun _ => .after fun _ => .after fun _ => .after fun _ =>
    label_shows _ _

theorem body_shows (hcolor : isClean s.color = true) : Yields (Shows s.label) (body s) :=
  .after fun _ => .after fun _ => .ok ⟨rfl, hcolor⟩

theorem note_shows : Yields (Shows s.label) (note s) :=
  .after fun _ => .after fun _ => .after fun _ => .after fun _ => .after fun _ =>
    .ok ⟨rfl, isClean_inkColor⟩

theorem frame_shows (hcolor : isClean s.color = true) : Yields (Shows s.title) (frame s) :=
  .after fun _ => .after fun _ => .ok ⟨rfl, hcolor⟩

theorem along_shows (a b : Point) : Yields (Shows s.title) (along s a b) :=
  .after fun _ => .after fun _ => .after fun _ => .after fun _ => .after fun _ => label_shows _ _

theorem Shows.captioned {text : String} {c : Caption} (h : c.Shows text) :
    Captioned text (some c) :=
  ⟨fun _ hc => Option.some.inj hc ▸ h, fun hnone => (Option.some_ne_none c hnone).elim⟩

theorem titled_captioned {c : Except Fault Caption} (h : Yields (Shows s.title) c) :
    Yields (Captioned s.title) (titled s c) :=
  .ite
    (fun hempty => .ok ⟨fun _ hc => (Option.some_ne_none _ hc.symm).elim,
      fun _ => String.isEmpty_iff.mp hempty⟩)
    fun _ => h.map fun _ hc => hc.captioned

end Caption

namespace Svg
open Markup (Carries)
open Element (areClean writeAll)

theorem nothing_carries : Carries (writeAll []) [""] :=
  (Carries.cons_iff Text.isClean_empty).mpr (.bare rfl)

/-- A number is written in characters that XML allows. -/
theorem number_legible (v : Scalar) : Yields (fun t => Text.Legible t.toList) (number v) :=
  .ite (fun _ => .ok v.simplify.legible_write) fun _ => .fails _

section Captions
variable {c : Caption} {t : String}

theorem line_carries (c : Caption) (first : Bool) (t : String) :
    Yields (fun e => Carries e.write [t]) (line c first t) := by
  refine (number_legible _).bind fun x hx => (number_legible _).bind fun down hdown => .ok ?_
  refine Element.carries_leaf (by decide) ?_
  cases first <;> simp +decide [Text.isClean_of_legible hx, Text.isClean_of_legible hdown]

theorem captionLines_carries (c : Caption) :
    Yields (fun es => Carries (writeAll es) c.lines) (captionLines c) := by
  unfold captionLines
  split
  · rename_i hlines
    rw [hlines]
    exact .ok (.bare rfl)
  · rename_i first rest hlines
    rw [hlines]
    have hrest : List.Forall₂ (fun t t' => Yields (fun e => Carries e.write [t']) (line c false t))
        rest rest := List.forall₂_same.mpr fun t _ => line_carries c false t
    exact (line_carries c true first).bind fun e he =>
      (Settles.mapM_of_forall₂ hrest).bind fun es hes => .ok (he.append (Element.carries_all hes))

theorem caption_carries (h : c.Shows t) : Yields (fun e => Carries e.write [t]) (caption c) := by
  refine (captionLines_carries c).bind fun es hes => .ok ?_
  rw [Caption.lines, h.text_eq] at hes
  refine Element.carries_group (by decide) ?_ hes.of_lines
  have hfamily : ∀ f : Font, isClean f.family = true := fun f => by cases f <;> decide
  cases c.centered <;> simp +decide [h.color, hfamily]

theorem withCaption_carries {body : Element} (hbody : Carries body.write []) {c : Option Caption}
    (h : Caption.Captioned t c) :
    Yields (fun es => Carries (writeAll es) [t]) (withCaption body c) := by
  cases c with
  | none =>
    rw [h.2 rfl]
    exact .ok ((Carries.cons_iff Text.isClean_empty).mpr (Element.carries_singleton hbody))
  | some c =>
    exact (caption_carries (h.1 c rfl)).bind fun e he =>
      .ok (hbody.append (Element.carries_singleton he))

end Captions

end Svg

/-! ## Shapes -/

/-- What a drawing shows of the label of a shape. Texts and notes keep the blanks around it, and a
shape that is not drawn shows nothing. -/
def Shape.shown (s : Shape) : String :=
  match s.kind with
  | .known .text | .known .note => s.label
  | .known .connector => if s.start.isSome && s.finish.isSome then s.title else ""
  | .known _ => s.title
  | .foreign _ => ""

theorem Shape.absolute?_isSome (s : Shape) (offset : Option Point) :
    Yields (fun p => p.isSome = offset.isSome) (s.absolute? offset) := by
  cases offset with
  | none => exact .ok rfl
  | some p => exact (Settles.any _).map fun _ _ => rfl

namespace Svg
open Markup (Carries)
open Element (areClean writeAll)

section Shapes
variable {s : Shape}

@[simp] theorem areClean_boxAttributes (x y w h : Scalar) :
    areClean (boxAttributes x y w h) = true := by
  simp +decide [boxAttributes]

@[simp] theorem areClean_cornerAttributes (radius : Nat) :
    areClean (cornerAttributes radius) = true := by
  simp +decide [cornerAttributes]

theorem areClean_strokeAttributes (hcolor : isClean s.color = true) :
    areClean (strokeAttributes s) = true := by
  have hwidth : isClean s.strokeWidth.write = true :=
    Text.isClean_of_legible s.strokeWidth.legible_write
  have hdash : ∀ pattern ∈ dashPattern? s.style.dash, isClean pattern = true := by
    unfold dashPattern?
    split <;> rintro pattern ⟨⟩ <;> decide
  unfold strokeAttributes
  cases hpattern : dashPattern? s.style.dash with
  | none => simp +decide [hcolor, hwidth]
  | some pattern => simp +decide [hcolor, hwidth, hdash pattern hpattern]

theorem areClean_fillAttributes (hcolor : isClean s.color = true) (fill : Option String) :
    areClean (fillAttributes s.style.color fill) = true := by
  have hvalue : isClean (colorValue s.style.color) = true := hcolor
  unfold fillAttributes
  cases coverOf fill <;> simp +decide [hvalue]

theorem areClean_thinStroke (hcolor : isClean s.color = true) : areClean (thinStroke s) = true := by
  simp +decide [thinStroke, hcolor]

theorem rectangle_carries (hcolor : isClean s.color = true) :
    Yields (fun es => Carries (writeAll es) [s.title]) (rectangle s) := by
  refine .after fun _ => (Caption.titled_captioned Caption.inside_shows).bind fun c hc => ?_
  refine withCaption_carries (Element.carries_group (by decide) ?_ (.bare rfl)) hc
  simp [areClean_strokeAttributes hcolor, areClean_fillAttributes hcolor]

theorem ellipse_carries (hcolor : isClean s.color = true) :
    Yields (fun es => Carries (writeAll es) [s.title]) (ellipse s) := by
  refine .after fun rx => .after fun cx => .after fun ry => .after fun cy => ?_
  refine (Caption.titled_captioned Caption.inside_shows).bind fun c hc => ?_
  refine withCaption_carries (Element.carries_group (by decide) ?_ (.bare rfl)) hc
  simp +decide [areClean_strokeAttributes hcolor, areClean_fillAttributes hcolor]

theorem text_carries (hcolor : isClean s.color = true) :
    Yields (fun es => Carries (writeAll es) [s.label]) (text s) :=
  (Caption.body_shows hcolor).bind fun _ hc =>
    (caption_carries hc).bind fun _ he => .ok (Element.carries_singleton he)

theorem note_carries (hcolor : isClean s.color = true) :
    Yields (fun es => Carries (writeAll es) [s.label]) (note s) := by
  refine Caption.note_shows.bind fun c hc => ?_
  refine withCaption_carries (Element.carries_group (by decide) ?_ (.bare rfl)) hc.captioned
  simp [areClean_thinStroke hcolor, areClean_fillAttributes hcolor]

theorem frame_carries (hcolor : isClean s.color = true) :
    Yields (fun es => Carries (writeAll es) [s.title]) (frame s) := by
  refine (Caption.titled_captioned (Caption.frame_shows hcolor)).bind fun c hc => ?_
  refine withCaption_carries (Element.carries_group (by decide) ?_ (.bare rfl)) hc
  simp +decide [areClean_thinStroke hcolor]

theorem connector_carries (hcolor : isClean s.color = true) :
    Yields (fun es => Carries (writeAll es)
      [if s.start.isSome && s.finish.isSome then s.title else ""]) (connector s) := by
  refine (s.absolute?_isSome s.start).bind fun start hstart => ?_
  refine (s.absolute?_isSome s.finish).bind fun finish hfinish => ?_
  rw [← hstart, ← hfinish]
  cases start with
  | none => exact .ok nothing_carries
  | some a =>
    cases finish with
    | none => exact .ok nothing_carries
    | some b =>
      refine (Caption.titled_captioned (Caption.along_shows a b)).bind fun c hc => ?_
      refine withCaption_carries (Element.carries_group (by decide) ?_ (.bare rfl)) hc
      simp +decide [areClean_strokeAttributes hcolor, hcolor]

/-- The elements of a shape hold nothing that XML does not allow but what stands in its label. -/
theorem shape_carries (hcolor : isClean s.color = true) :
    Yields (fun es => Carries (writeAll es) [s.shown]) (shape s) := by
  unfold shape Shape.shown
  cases s.kind with
  | foreign _ => exact .ok nothing_carries
  | known kind =>
    cases kind with
    | rectangle => exact rectangle_carries hcolor
    | ellipse => exact ellipse_carries hcolor
    | text => exact text_carries hcolor
    | note => exact note_carries hcolor
    | frame => exact frame_carries hcolor
    | connector => exact connector_carries hcolor

end Shapes

/-! ## Documents -/

theorem viewBox_legible (v : Viewport) : Yields (fun t => Text.Legible t.toList) (viewBox v) := by
  refine (Settles.mapM fun x _ => number_legible x).bind fun ts hts => .ok ?_
  rw [String.toList_intercalate]
  refine Text.Legible.intercalate (by decide) fun d hd => ?_
  obtain ⟨t, ht, rfl⟩ := List.mem_map.mp hd
  exact hts t ht

/-- A drawing in colours that XML allows holds nothing that XML does not allow but what stands in
the labels that it shows. -/
theorem render_carries {shapes : List Shape} {background : String}
    (hbackground : isClean background = true) (hcolors : ∀ s ∈ shapes, isClean s.color = true)
    (padding : Scalar) : Yields (fun out => Carries out.toList (shapes.map Shape.shown))
      (render shapes background padding) := by
  have hshapes : List.Forall₂ (fun s t => Yields (fun es => Carries (writeAll es) [t]) (shape s))
      shapes (shapes.map Shape.shown) := by
    rw [List.forall₂_map_right_iff, List.forall₂_same]
    exact fun s hs => shape_carries (hcolors s hs)
  have htree : Yields (fun tree => Carries tree.write (shapes.map Shape.shown))
      (document shapes background padding) := by
    -- The numbers of the viewport are legible wherever it lies.
    refine .after fun v => (viewBox_legible v).bind fun box hbox => ?_
    refine (Settles.mapM_of_forall₂ hshapes).bind fun groups hgroups => .ok ?_
    have hmarker : Carries arrowhead.write [] := by
      refine Element.carries_group (by decide) (by simp +decide) (Element.carries_singleton ?_)
      exact Element.carries_group (by decide) (by simp +decide) (.bare rfl)
    have hdefs : Carries (Element.group "defs" [] [arrowhead]).write [] :=
      Element.carries_group (by decide) rfl (Element.carries_singleton hmarker)
    have hpaper : Carries (Element.group "rect"
        (("fill", background) :: boxAttributes v.x v.y v.width v.height) []).write [] :=
      Element.carries_group (by decide) (by simp +decide [hbackground]) (.bare rfl)
    have hgroup : Carries (Element.group "g" [("color", inkColor)] groups.flatten).write
        (shapes.map Shape.shown) :=
      Element.carries_group (by decide) (by simp +decide) (Element.carries_flatten hgroups)
    refine Element.carries_group (by decide) ?_
      (hdefs.append (hpaper.append (Element.carries_singleton hgroup)))
    simp +decide [documentAttributes, Text.isClean_of_legible hbox]
  exact htree.bind fun tree htree => .ite (fun _ => .ok (by rwa [String.toList_ofList]))
    fun _ => .fails _

end Svg

end DiagramScript
