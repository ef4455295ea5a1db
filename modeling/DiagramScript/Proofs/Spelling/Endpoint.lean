import DiagramScript.Page.Batch
import DiagramScript.Proofs.Page.Extends
import DiagramScript.Proofs.Spelling.Words

/-
  Connector ends that are written as labels.

  A text that no shape has as its id refers to the lowest shape with that label
  (`Page.find?_of_label`). Written in quotes, every such text comes back from its line as it is,
  whatever signs of the grammar are in it (`instructions_arrowFrom`), so a line can name the shape
  as the source of a connector (`anchor_label`).
-/

namespace DiagramScript

namespace Page
variable {p : Page}

theorem find?_of_no_id {text : String}
    (h : ∀ t ∈ p.shapes, t.id ≠ text ∧ t.id ≠ idStart ++ text) :
    p.find? text = p.labelled? text := by
  have hfull : p.get? (fullId text) = none := by
    rw [get?_eq_none]
    intro t ht
    unfold fullId
    split
    · exact (h t ht).1
    · exact (h t ht).2
  rw [find?, get?_eq_none.mpr fun t ht => (h t ht).1, hfull]
  rfl

theorem find?_of_label {below above : List Shape} {s : Shape} (hs : p.shapes = below ++ s :: above)
    (hne : s.title ≠ "") (hid : ∀ t ∈ p.shapes, t.id ≠ s.title ∧ t.id ≠ idStart ++ s.title)
    (hbelow : ∀ t ∈ below, t.title ≠ s.title) : p.find? s.title = some s := by
  have hnone : below.find? (fun t => !t.title.isEmpty && t.title == s.title) = none := by
    rw [List.find?_eq_none]
    intro t ht
    simp [hbelow t ht]
  rw [find?_of_no_id hid, labelled?, hs, List.find?_append, hnone, Option.none_or,
    List.find?_cons_of_pos]
  simpa using hne

end Page

namespace Spelling

/-- The line of a connector from a text to the origin. -/
def arrowFrom (source : String) : String :=
  "arrow " ++ String.ofList (quote source.toList) ++ " -> 0,0"

theorem arrowFrom_words (source : String) : arrowFrom source = String.ofList
    (Text.joinOn ' ' ["arrow".toList, quote source.toList, "->".toList, "0,0".toList]) := by
  apply String.toList_injective
  simp [arrowFrom, Text.joinOn]

theorem instructions_arrowFrom {source : String} (hne : source ≠ "")
    (hstrip : Text.strip source = source) : Source.instructions (arrowFrom source) =
      .ok [.connector { source, target := "0,0", line := some 1 }] := by
  have hwords : List.Forall₂ Spells [quote source.toList, "->".toList, "0,0".toList]
      [⟨source, true⟩, ⟨"->", false⟩, ⟨"0,0", false⟩] :=
    .cons (spells_text hne) (.cons (spells_plain (List.all_eq_true.mp (by decide)) (by decide))
      (.cons (spells_plain (List.all_eq_true.mp (by decide)) (by decide)) .nil))
  rw [arrowFrom_words]
  refine instructions_spell (List.all_eq_true.mp (by decide)) (by decide) (by decide) hwords ?_
  -- A quoted token is neither the marker nor an option, whatever it says.
  have hmarker : Statement.isMarker ⟨source, true⟩ = false := Bool.and_false _
  have hfilled : source.isEmpty = false := by
    rw [Bool.eq_false_iff, Ne, String.isEmpty_iff]
    exact hne
  have hphrase : Statement.phrase [⟨source, true⟩] = source := hstrip
  show Statement.connector [⟨source, true⟩, ⟨"->", false⟩, ⟨"0,0", false⟩] (some 1) = _
  have hsource : [(⟨source, true⟩ : Token), ⟨"->", false⟩, ⟨"0,0", false⟩].takeWhile
      (! Statement.isMarker ·) = [⟨source, true⟩] := by
    rw [List.takeWhile_cons_of_pos (by rw [hmarker]; rfl), List.takeWhile_cons_of_neg (by decide)]
  have hrest : [(⟨source, true⟩ : Token), ⟨"->", false⟩, ⟨"0,0", false⟩].dropWhile
      (! Statement.isMarker ·) = [⟨"->", false⟩, ⟨"0,0", false⟩] := by
    rw [List.dropWhile_cons_of_pos (by rw [hmarker]; rfl), List.dropWhile_cons_of_neg (by decide)]
  rw [Statement.connector, hsource, hrest]
  simp only [hphrase, hfilled]
  rfl

/-- A line names every shape by its label that is not empty, is no position and is neither an id
nor the label of a lower shape: it holds one connector, which starts at this shape. -/
theorem anchor_label {p : Page} {below above : List Shape} {s : Shape}
    (hs : p.shapes = below ++ s :: above) (hne : s.title ≠ "")
    (hposition : Measure.isPosition s.title.toList = false)
    (hid : ∀ t ∈ p.shapes, t.id ≠ s.title ∧ t.id ≠ idStart ++ s.title)
    (hbelow : ∀ t ∈ below, t.title ≠ s.title) :
    ∃ i : ConnectorInstruction, Source.instructions (arrowFrom s.title) = .ok [.connector i] ∧
      p.find? i.source = some s ∧
        p.anchor i.source i.line = (fun point => ⟨point, some s⟩) <$> s.center := by
  have hfind := Page.find?_of_label hs hne hid hbelow
  refine ⟨_, instructions_arrowFrom hne (Text.strip_strip s.label), hfind, ?_⟩
  rw [Page.anchor, if_neg (Bool.eq_false_iff.mp hposition), hfind]
  rfl

/-- A label with signs of the grammar in it, and a higher shape that has it, too. -/
theorem anchor_label_signs :
    let text : Shape := { id := "shape:1", kind := .known .text, label := "a" }
    let s : Shape :=
      { id := "shape:2", kind := .known .rectangle, label := " a -> \"b\" #c=d\n\te\\ " }
    let p : Page :=
      { layers := [⟨0, text⟩, ⟨1, s⟩, ⟨2, { s with id := "shape:3" }⟩]
        ids := ["shape:1", "shape:2", "shape:3"] }
    s.title = "a -> \"b\" #c=d\n\te\\" ∧
      ∃ i : ConnectorInstruction,
        Source.instructions "arrow \"a -> \\\"b\\\" #c=d\\n\\te\\\\\" -> 0,0" =
          .ok [.connector i] ∧ p.find? i.source = some s ∧
            p.anchor i.source i.line = (fun point => ⟨point, some s⟩) <$> s.center := by
  intro text s p
  have hline : "arrow \"a -> \\\"b\\\" #c=d\\n\\te\\\\\" -> 0,0" = arrowFrom s.title := by
    decide +kernel
  rw [hline]
  have hs : p.shapes = [text] ++ s :: [{ s with id := "shape:3" }] := rfl
  exact ⟨by decide +kernel, anchor_label hs (by decide +kernel) (by decide +kernel)
    (by decide +kernel) (by decide +kernel)⟩

end Spelling

end DiagramScript
