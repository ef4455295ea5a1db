import DiagramScript.Proofs.Record.WellFormed
import DiagramScript.Proofs.Source.Passages

/-
  Well-formed instructions from sources.

  A statement outside blocks is well formed as it is read. A block moves its shapes and
  changes nothing else about them, so they stay well formed, and each of them has a place
  (`Passage.Reads.wellFormed`).
-/

namespace DiagramScript

/-- An instruction whose shape, if it is one, has a finite size above zero. -/
def Instruction.IsSized : Instruction → Prop
  | .shape i => Gives Size.IsPositive (Block.sizeOf i)
  | .connector _ => True

theorem Instruction.WellFormed.isSized {i : Instruction} (h : i.WellFormed) : i.IsSized := by
  cases i with
  | shape i => exact Block.sizeOf_positive h
  | connector i => trivial

theorem ShapeInstruction.moveTo_wellFormed {i : ShapeInstruction} (h : i.WellFormed)
    (p : Point) : (i.moveTo p).WellFormed :=
  ⟨h.kind, h.size, h.dimensions, h.content, h.label, h.body, h.style, h.id⟩

namespace Source

/-- What a passage says about the place of an instruction: a statement may name a finite
place, and a block gives a place to every shape. -/
def Passage.Places : Passage → Instruction → Prop
  | .statement _, i => i.IsExplicit
  | .block _ _, i => ∃ s : ShapeInstruction, i = .shape s ∧ s.position.isSome

theorem nested_wellFormed {body : List Line} {nested : List ShapeInstruction}
    (h : List.Forall₂ Nested body nested) : ∀ i ∈ nested, i.WellFormed := by
  induction h with
  | nil => exact fun i hi => by cases hi
  | cons hi _ ih =>
    exact List.forall_mem_cons.mpr ⟨((Statement.ofText_wellFormed _ _ _).of_ok hi).1, ih⟩

theorem Passage.Reads.wellFormed {p : Passage} {part : List Instruction} (h : p.Reads part) :
    ∀ i ∈ part, i.WellFormed ∧ p.Places i := by
  cases h with
  | statement h =>
    intro i hi
    rw [List.mem_singleton.mp hi]
    exact (Statement.ofText_wellFormed _ _ _).of_ok h
  | @block _ _ _ nested boxes placed _ hbody _ hpayload _ hbox =>
    intro i hi
    obtain ⟨q, hq, rfl⟩ := List.mem_map.mp hi
    have hnested : q.box.payload ∈ nested := payload_mem hpayload hbox hq
    exact ⟨ShapeInstruction.moveTo_wellFormed (nested_wellFormed hbody _ hnested) _, _, rfl, rfl⟩

/-- Every instruction that is read, from a source or from records, is well formed and has a
size; outside blocks its place is finite or left out, and in a block it has one. -/
theorem instructions_wellFormed :
    (∀ text is, instructions text = .ok is →
      ∃ parts, is = parts.flatten ∧
        List.Forall₂ (fun p part => p.Reads part ∧
          ∀ i ∈ part, i.WellFormed ∧ i.IsSized ∧ p.Places i)
          (passages none (lines text)) parts) ∧
    ∀ v is, Record.instructions v = .ok is →
      ∀ i ∈ is, i.WellFormed ∧ i.IsSized ∧ i.IsExplicit := by
  constructor
  · intro text is h
    have hreads : Reads none (lines text) is := reads_of_readLines h
    obtain ⟨parts, hparts, rfl⟩ := hreads.passages .outside
    refine ⟨parts, rfl, hparts.imp fun p part hpart => ⟨hpart, fun i hi => ?_⟩⟩
    obtain ⟨hi, hplace⟩ := hpart.wellFormed i hi
    exact ⟨hi, hi.isSized, hplace⟩
  · intro v is h i hi
    obtain ⟨hi, hplace⟩ := (Record.records_wellFormed v).of_ok h i hi
    exact ⟨hi, hi.isSized, hplace⟩

/-- A source with a size option, a block and a connector, and a record of a connector. -/
theorem instructions_wellFormed_mixed :
    let text := "rect 0,0 \"A\" size=l id=a\nstack vertical 5,90 gap=2 [\nnote \"B\" size=80x20\n]\n" ++
      "arrow a -> 1,2"
    let records := Value.list [.object [("shape", .text "arrow"), ("from", .text " a "),
      ("to", .list [.number 1, .number (.ofPlaces 25 1)])]]
    (∃ is, instructions text = .ok is ∧ is.length = 3 ∧ ∃ parts, is = parts.flatten ∧
      List.Forall₂ (fun p part => ∀ i ∈ part, i.WellFormed ∧ i.IsSized ∧ p.Places i)
        (passages none (lines text)) parts) ∧
      ∃ is, Record.instructions records = .ok is ∧ is.length = 1 ∧
        ∀ i ∈ is, i.WellFormed ∧ i.IsSized ∧ i.IsExplicit := by
  intro text records
  constructor
  · have hlength : (instructions text).toOption.map List.length = some 3 := by decide +kernel
    cases h : instructions text with
    | error e =>
      rw [h] at hlength
      cases hlength
    | ok is =>
      rw [h] at hlength
      obtain ⟨parts, his, hparts⟩ := instructions_wellFormed.1 text is h
      exact ⟨is, rfl, Option.some.inj hlength, parts, his, hparts.imp fun _ _ hpart => hpart.2⟩
  · have hlength : (Record.instructions records).toOption.map List.length = some 1 := by
      decide +kernel
    cases h : Record.instructions records with
    | error e =>
      rw [h] at hlength
      cases hlength
    | ok is =>
      rw [h] at hlength
      exact ⟨is, rfl, Option.some.inj hlength, instructions_wellFormed.2 records is h⟩

end Source

end DiagramScript
