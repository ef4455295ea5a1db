import DiagramScript.Proofs.Generator
import DiagramScript.Proofs.Source.Stems
import DiagramScript.Proofs.Svg.Legal

/-
  Drawings of sources that XML allows.

  A shape on the page of a source is in a colour of the palette, and its label stems from the source
  (`Shape.Stems`, kept by every batch). A drawing escapes the signs of the markup and halves of
  pairs, and nothing else. So a character that XML does not allow stands in the drawing of a source
  exactly where it stands in a label that is shown, and then it stands in the source
  (`Generator.renderSvg_legal`). A form feed is such a character (`Generator.renderSvg_formFeed`).
-/

namespace DiagramScript

open Text (isClean StemFrom)

variable {source : List Char}

/-! ## Labels and colours of a page -/

/-- A shape in a colour that XML allows, with a label that stems from a source. -/
structure Shape.Stems (source : List Char) (s : Shape) : Prop where
  label : StemFrom source s.label.toList
  color : isClean s.color = true

theorem isClean_colorValue {name : String} (h : name ∈ colorNames) :
    isClean (colorValue (some name)) = true := by
  have hall : ∀ name ∈ colorNames, isClean (colorValue (some name)) = true := by decide
  exact hall name h

namespace Page

theorem orElseText_of {P : String → Prop} {text : Option String} {other : String}
    (h : ∀ t ∈ text, P t) (hother : P other) : P (orElseText text other) := by
  unfold orElseText
  cases htext : Content.filled text with
  | none => exact hother
  | some t => exact h t (Option.filter_eq_some_iff.mp htext).1

theorem isClean_fullStyle {style : Style} (h : style.WellFormed) (kind : Kind) :
    isClean (colorValue (fullStyle style kind).color) = true :=
  isClean_colorValue (orElseText_of h.color (by split <;> decide))

theorem newShape_stems {p : Page} {i : ShapeInstruction} {s : Shape} (h : p.newShape i = .ok s)
    (hi : i.WellFormed) (hstems : Instruction.Stems source (.shape i)) : s.Stems source := by
  obtain ⟨hcontent, hlabel⟩ := hstems
  simp only [newShape, Outcome.bind_eq_ok] at h
  obtain ⟨_, -, _, -, _, -, h⟩ := h
  cases h
  refine ⟨?_, isClean_fullStyle hi.style i.kind⟩
  -- A frame takes its label, and every other kind the text that it shows.
  have hframe : StemFrom source "Frame".toList := Text.stemFrom_of_legible (by decide)
  have hempty : StemFrom source "".toList := Text.stemFrom_of_legible (by decide)
  show StemFrom source (if i.kind = .frame then _ else _ : String).toList
  unfold ShapeInstruction.text
  split
  · exact orElseText_of (P := fun t => StemFrom source t.toList) hlabel hframe
  · split
    · exact orElseText_of (P := fun t => StemFrom source t.toList) hcontent hempty
    · exact orElseText_of (P := fun t => StemFrom source t.toList) hlabel hempty

theorem newConnector_stems {p : Page} {padding : Scalar} {i : ConnectorInstruction} {s : Shape}
    {a b : Option Shape} (h : p.newConnector padding i = .ok (s, a, b)) (hi : i.WellFormed)
    (hstems : Instruction.Stems source (.connector i)) : s.Stems source := by
  have hlabel : Stemming source i.label := hstems
  simp only [newConnector, connectorShape, Outcome.bind_eq_ok] at h
  obtain ⟨_, -, _, -, _, -, _, -, _, -, t, ⟨_, -, _, -, _, -, _, -, ht⟩, h⟩ := h
  cases h
  cases ht
  refine ⟨?_, isClean_fullStyle hi.style .connector⟩
  show StemFrom source (i.label.getD "").toList
  cases htext : i.label with
  | none => exact Text.stemFrom_of_legible (by decide)
  | some t => exact hlabel t htext

theorem lasting_stems {is : List Instruction} (h : ∀ i ∈ is, i.WellFormed ∧ i.Stems source) :
    Lasting is (Shape.Stems source) where
  shape hi hs := newShape_stems hs (h _ hi).1 (h _ hi).2
  connector hi hs := newConnector_stems hs (h _ hi).1 (h _ hi).2
  box _ _ _ _ hs := ⟨hs.label, hs.color⟩

end Page

/-! ## Drawings -/

theorem Shape.shown_subset (s : Shape) : s.shown.toList ⊆ s.label.toList := by
  have htitle : s.title.toList ⊆ s.label.toList := by
    rw [title, Text.strip, String.toList_ofList]
    exact Text.stripChars_subset _
  unfold shown
  split
  · exact List.Subset.refl _
  · exact List.Subset.refl _
  · split
    · exact htitle
    · exact List.nil_subset _
  · exact htitle
  · exact List.nil_subset _

namespace Generator

theorem compile_stems {g : Generator} {text : String} {p : Page}
    (h : (g.compile Page.empty text).result = .ok p) : ∀ s ∈ p.shapes, s.Stems text.toList := by
  simp only [compile, place, Report.result_bind, Report.result_liftM, Report.result_pure,
    Outcome.bind_eq_ok] at h
  obtain ⟨is, his, ⟨q, ids⟩, hq, h⟩ := h
  cases h
  exact (Page.lasting_stems (Source.instructions_stem his)).apply hq fun s hs => by cases hs

/-- The drawing of a source carries what its labels carry, and these stem from the source. -/
theorem renderSvg_carries {g : Generator} {source out : String} (hg : standard = .ok g)
    (h : (g.renderSvg source).result = .ok out) :
    ∃ p, (g.compile Page.empty source).result = .ok p ∧
      (∀ s ∈ p.shapes, s.Stems source.toList) ∧
        Markup.Carries out.toList (p.shapes.map Shape.shown) := by
  rw [standard_eq, Except.ok.injEq] at hg
  subst hg
  simp only [renderSvg, Report.result_bind, Report.result_liftM, Outcome.bind_eq_ok] at h
  obtain ⟨p, hp, hout⟩ := h
  have hstems := compile_stems hp
  exact ⟨p, hp, hstems,
    (Svg.render_carries (by decide) (fun s hs => (hstems s hs).color) 24).of_ok hout⟩

/-- Whether a drawing is a text that XML allows depends on the labels that are shown: it is one
exactly where these hold nothing but characters that XML allows and halves of pairs. A letter of a
drawing that XML does not allow is a character of the source. -/
theorem renderSvg_legal {g : Generator} {source out : String} (hg : standard = .ok g)
    (h : (g.renderSvg source).result = .ok out) :
    ∃ p, (g.compile Page.empty source).result = .ok p ∧
      (Markup.IsLegal out ↔ ∀ s ∈ p.shapes, isClean s.shown = true) ∧
        ∀ l ∈ Text.letters out.toList, l.isLegal = false → ∃ c ∈ source.toList, l = .char c := by
  obtain ⟨p, hp, hstems, hcarries⟩ := renderSvg_carries hg h
  refine ⟨p, hp, ?_, fun l hl hillegal => ?_⟩
  · rw [hcarries.isLegal_iff, List.forall_mem_map]
  · obtain ⟨c, t, ht, hc, rfl⟩ := hcarries.mem_of_illegal hl hillegal
    obtain ⟨s, hs, rfl⟩ := List.mem_map.mp ht
    have hshown := s.shown_subset (Text.mem_of_char_mem_letters hc)
    rcases (hstems s hs).label c hshown with hlegal | hsource
    · rw [hlegal] at hillegal
      cases hillegal
    · exact ⟨c, hsource, rfl⟩

/-- A label with signs of the markup, a tab, a line feed and half of a pair. -/
def unusualText : String :=
  "rect 0,0 \"<a> & b\\t\\n" ++ String.ofList (Text.Letter.half 0).chars ++ "\"\n"

theorem renderSvg_legal_unusual : ∃ g out, standard = .ok g ∧
    (g.renderSvg unusualText).result = .ok out ∧ Markup.IsLegal out := by
  have hstart : (standard.bind fun g => (g.renderSvg unusualText).result).toOption.any
      (fun _ => true) = true := by
    rw [standard_eq]
    decide +kernel
  obtain ⟨out, hout, -⟩ := Outcome.exists_of_any hstart
  obtain ⟨g, hg, hout⟩ := Outcome.bind_eq_ok.mp hout
  obtain ⟨p, hp, -, hletters⟩ := renderSvg_legal hg hout
  refine ⟨g, out, hg, hout, fun l hl => ?_⟩
  by_contra hillegal
  rw [Bool.not_eq_true] at hillegal
  obtain ⟨c, hc, rfl⟩ := hletters l hl hillegal
  have hsource : Text.Legible unusualText.toList := by decide +kernel
  rw [hsource c hc] at hillegal
  cases hillegal

/-- A form feed in a label stands in the drawing. -/
theorem renderSvg_formFeed : ∃ g out, standard = .ok g ∧
    (g.renderSvg "rect 0,0 \"A\x0cB\"").result = .ok out ∧ ¬ Markup.IsLegal out := by
  let source := "rect 0,0 \"A\x0cB\""
  have hdrawn : (standard.bind fun g => (g.renderSvg source).result).toOption.any
      (fun _ => true) = true := by
    rw [standard_eq]
    decide +kernel
  -- The drawing itself is not looked at: whether it is legal can be told from the page.
  have hpage : (standard.bind fun g => (g.compile Page.empty source).result).toOption.any
      (fun p => p.shapes.any fun s => ! isClean s.shown) = true := by
    rw [standard_eq]
    decide +kernel
  obtain ⟨out, hout, -⟩ := Outcome.exists_of_any hdrawn
  obtain ⟨g, hg, hout⟩ := Outcome.bind_eq_ok.mp hout
  obtain ⟨p, hp, -, hcarries⟩ := renderSvg_carries hg hout
  rw [hg] at hpage
  obtain ⟨q, hq, hshown⟩ := Outcome.exists_of_any (x := (g.compile Page.empty source).result) hpage
  obtain rfl := Except.ok.inj (hp.symm.trans hq)
  obtain ⟨s, hs, hunclean⟩ := List.any_eq_true.mp hshown
  refine ⟨g, out, hg, hout, fun hlegal => ?_⟩
  rw [hcarries.isLegal_iff, List.forall_mem_map] at hlegal
  rw [hlegal s hs] at hunclean
  cases hunclean

end Generator

end DiagramScript
