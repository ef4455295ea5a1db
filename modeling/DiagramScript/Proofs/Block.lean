import DiagramScript.Proofs.Layout
import DiagramScript.Block

/-
  What blocks do with their lines and their shapes.

  A line inside a block is blank, the closing line, or a shape statement without a position
  (`bodyLine_cases`). Expanding a block gives each of its shapes, in their order, the corner
  that the layout assigns to the box of the shape (`expand_eq_ok`).
-/

namespace DiagramScript

/-- A shape instruction at another place. -/
def ShapeInstruction.moveTo (i : ShapeInstruction) (p : Point) : ShapeInstruction :=
  { i with position := some p }

namespace Block

theorem ne_nil_of_mode? {text : List Char} (h : (mode? text).isSome) : text ≠ [] := by
  rintro rfl
  revert h
  decide

/-- What an accepted line inside a block is. -/
theorem bodyLine_cases {b : Block} {line : String} {number : LineNumber} {body : BodyLine}
    (h : b.bodyLine line number = .ok body) :
    (statementText line = [] ∧ body = .blank) ∨
      (statementText line = [']'] ∧ body = .close) ∨
        ∃ i, statementText line ≠ [] ∧ statementText line ≠ [']'] ∧
          (mode? (statementText line)).isSome = false ∧
            Statement.ofText (statementText line) number false = .ok (.shape i) ∧
              body = .nested i := by
  unfold bodyLine at h
  dsimp only at h
  split at h
  · rename_i hblank
    cases h
    exact .inl ⟨List.isEmpty_iff.mp hblank, rfl⟩
  · rename_i hblank
    split at h
    · rename_i hclose
      cases h
      exact .inr (.inl ⟨hclose, rfl⟩)
    · rename_i hclose
      split at h
      · cases h
      · rename_i hmode
        obtain ⟨j, hj, h⟩ := Outcome.bind_eq_ok.mp h
        cases j with
        | connector j => cases h
        | shape j =>
          cases h
          refine .inr (.inr ⟨j, fun hnil => ?_, hclose, Bool.eq_false_iff.mpr hmode, hj, rfl⟩)
          exact hblank (List.isEmpty_iff.mpr hnil)

theorem payload_of_boxOf {i : ShapeInstruction} {box : Box ShapeInstruction}
    (h : boxOf i = .ok box) : box.payload = i := by
  obtain ⟨s, -, h⟩ := Outcome.bind_eq_ok.mp h
  cases h
  rfl

theorem payloads_of_boxes {is : List ShapeInstruction} {boxes : List (Box ShapeInstruction)}
    (h : is.mapM boxOf = .ok boxes) : boxes.map (·.payload) = is := by
  induction is generalizing boxes with
  | nil =>
    cases h
    rfl
  | cons i is ih =>
    rw [List.mapM_cons] at h
    obtain ⟨box, hbox, h⟩ := Outcome.bind_eq_ok.mp h
    obtain ⟨rest, hrest, h⟩ := Outcome.bind_eq_ok.mp h
    cases h
    rw [List.map_cons, payload_of_boxOf hbox, ih hrest]

/-- The layout of a block keeps its boxes and their order. -/
theorem place_ends (b : Block) (boxes : List (Box ShapeInstruction)) :
    Outcome.Ends Layout.Failure (fun placed => placed.map (·.box) = boxes) (b.place boxes) := by
  unfold place
  split
  · exact Layout.stack_ends _ _ _ _ _
  · exact Layout.grid_ends _ _ _ _ _

theorem blame_eq_ok {α : Type} {line : LineNumber} {r : Except Fault α} {a : α} :
    blame line r = .ok a ↔ r = .ok a := by
  unfold blame
  split <;> simp

theorem expand_eq_ok {b : Block} {shapes : List ShapeInstruction} (h : b.expand = .ok shapes) :
    ∃ boxes placed, b.nested.mapM boxOf = .ok boxes ∧ b.place boxes = .ok placed ∧
      boxes.map (·.payload) = b.nested ∧ placed.map (·.box) = boxes ∧
        shapes = placed.map fun p => p.box.payload.moveTo p.corner := by
  obtain ⟨boxes, hboxes, h⟩ := Outcome.bind_eq_ok.mp h
  obtain ⟨placed, hplaced, h⟩ := Outcome.bind_eq_ok.mp h
  cases h
  rw [blame_eq_ok] at hplaced
  exact ⟨boxes, placed, hboxes, hplaced, payloads_of_boxes hboxes,
    (b.place_ends boxes).of_ok hplaced, rfl⟩

end Block

end DiagramScript
