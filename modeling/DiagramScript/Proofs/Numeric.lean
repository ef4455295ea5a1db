import DiagramScript.Proofs.Scalar
import DiagramScript.Proofs.Source.Lines
import DiagramScript.Record

/-
  Instructions without truth values.

  A truth value can stand where a number is asked for, but no reader of diagrams lets one
  through: places and sizes of the instructions of a source or of records are numbers
  (`numeric_of_source`, `numeric_of_records`). Nothing that is computed from them is a truth
  value either.
-/

namespace DiagramScript

def Point.Numeric (p : Point) : Prop := p.x.isFlag = false ∧ p.y.isFlag = false

def Size.Numeric (s : Size) : Prop := s.w.isFlag = false ∧ s.h.isFlag = false

/-- A point with floating-point numbers as its coordinates. -/
def Point.IsReal (p : Point) : Prop := p.x.IsReal ∧ p.y.IsReal

theorem Point.IsReal.numeric {p : Point} (h : p.IsReal) : p.Numeric :=
  ⟨h.1.isFlag_eq, h.2.isFlag_eq⟩

/-- A shape instruction whose place and sizes are no truth values. -/
structure ShapeInstruction.Numeric (i : ShapeInstruction) : Prop where
  position : ∀ p ∈ i.position, p.Numeric
  size : ∀ s ∈ i.size, s.Numeric
  dimensions : ∀ s ∈ i.dimensions, s.Numeric

/-- An instruction whose numbers are no truth values. A connector instruction has none. -/
def Instruction.Numeric : Instruction → Prop
  | .shape i => i.Numeric
  | .connector _ => True

/-! ## Statements -/

namespace Measure

theorem isReal_number {what : String} {cs : List Char} {line : LineNumber} {n : Scalar}
    (h : number what cs line = .ok n) : n.IsReal := by
  unfold number at h
  split at h
  · split at h
    · cases h
      exact ⟨_, rfl⟩
    · cases h
  · cases h

theorem isReal_position {text : String} {line : LineNumber} {p : Point}
    (h : position text line = .ok p) : p.IsReal := by
  unfold position at h
  split at h
  · cases h
  · simp only [Outcome.bind_eq_ok] at h
    obtain ⟨x, hx, y, hy, h⟩ := h
    cases h
    exact ⟨isReal_number hx, isReal_number hy⟩

theorem size_numeric {text : String} {line : LineNumber} {s : Size}
    (h : size text line = .ok s) : s.Numeric := by
  unfold size at h
  split at h
  · cases h
  · simp only [Outcome.bind_eq_ok] at h
    obtain ⟨w, hw, height, hh, h⟩ := h
    split at h
    · cases h
    · cases h
      exact ⟨(isReal_number hw).isFlag_eq, (isReal_number hh).isFlag_eq⟩

end Measure

theorem SizeOption.read_numeric {value : String} {line : LineNumber} {allowBox : Bool}
    {o : SizeOption} (h : read value line allowBox = .ok o) : ∀ s ∈ o.box?, s.Numeric := by
  intro s hs
  unfold read at h
  split at h
  · cases h
    cases hs
  · split at h
    · split at h
      · obtain ⟨size, hsize, rfl⟩ := Outcome.map_eq_ok.mp h
        cases hs
        exact Measure.size_numeric hsize
      · cases h
    · split at h <;> cases h

namespace Statement

theorem leadingPosition_numeric {words rest : List Token} {line : LineNumber}
    {allowPosition : Bool} {position : Option Point}
    (h : leadingPosition words line allowPosition = .ok (position, rest)) :
    ∀ p ∈ position, p.Numeric := by
  intro p hp
  unfold leadingPosition at h
  split at h
  · split at h
    · split at h
      · simp only [Outcome.bind_eq_ok] at h
        obtain ⟨q, hq, h⟩ := h
        cases h
        cases hp
        exact (Measure.isReal_position hq).numeric
      · cases h
    · cases h
      cases hp
  · cases h
    cases hp

theorem leadingSize_numeric {words rest : List Token} {line : LineNumber} {size : Option Size}
    (h : leadingSize words line = .ok (size, rest)) : ∀ s ∈ size, s.Numeric := by
  intro s hs
  unfold leadingSize at h
  split at h
  · split at h
    · simp only [Outcome.bind_eq_ok] at h
      obtain ⟨t, ht, h⟩ := h
      cases h
      cases hs
      exact Measure.size_numeric ht
    · cases h
      cases hs
  · cases h
    cases hs

theorem positionOption_numeric {options : Options} {line : LineNumber} {allowPosition : Bool}
    {positional position : Option Point}
    (h : positionOption options line allowPosition positional = .ok position)
    (hp : ∀ p ∈ positional, p.Numeric) : ∀ p ∈ position, p.Numeric := by
  unfold positionOption at h
  split at h
  · cases h
    exact hp
  · split at h
    · obtain ⟨q, hq, rfl⟩ := Outcome.map_eq_ok.mp h
      intro p hp
      cases hp
      exact (Measure.isReal_position hq).numeric
    · cases h

theorem sizeOption_numeric {options : Options} {line : LineNumber} {style style' : Style}
    {positional size : Option Size}
    (h : sizeOption options line style positional = .ok (style', size))
    (hp : ∀ s ∈ positional, s.Numeric) : ∀ s ∈ size, s.Numeric := by
  unfold sizeOption at h
  split at h
  · cases h
    exact hp
  · simp only [Outcome.bind_eq_ok] at h
    obtain ⟨o, ho, h⟩ := h
    cases h
    intro s hs
    cases hbox : o.box? with
    | none =>
      rw [hbox] at hs
      exact hp s hs
    | some t => exact SizeOption.read_numeric ho s (by rw [hbox] at hs ⊢; exact hs)

theorem dimensionsOption_numeric {options : Options} {line : LineNumber} {size : Option Size}
    (h : dimensionsOption options line = .ok size) : ∀ s ∈ size, s.Numeric := by
  unfold dimensionsOption at h
  split at h
  · cases h
    intro s hs
    cases hs
  · obtain ⟨t, ht, rfl⟩ := Outcome.map_eq_ok.mp h
    intro s hs
    cases hs
    exact Measure.size_numeric ht

theorem withText_numeric {i : ShapeInstruction} (h : i.Numeric) (text : Option String) :
    (i.withText text).Numeric := by
  unfold ShapeInstruction.withText
  split <;> exact ⟨h.position, h.size, h.dimensions⟩

theorem shape_numeric {kind : Kind} {words : List Token} {line : LineNumber}
    {allowPosition : Bool} {i : Instruction}
    (h : shape kind words line allowPosition = .ok i) : i.Numeric := by
  simp only [shape, Outcome.bind_eq_ok] at h
  obtain ⟨⟨positional, rest⟩, hpositional, ⟨leading, rest'⟩, hleading, options, -, style, -,
    position, hposition, ⟨style', size⟩, hsize, dimensions, hdimensions, h⟩ := h
  have hp := positionOption_numeric hposition (leadingPosition_numeric hpositional)
  have hs := sizeOption_numeric hsize (leadingSize_numeric hleading)
  have hd := dimensionsOption_numeric hdimensions
  split at h
  · cases h
  · cases h
    exact withText_numeric ⟨hp, hs, hd⟩ _

theorem connector_numeric {words : List Token} {line : LineNumber} {i : Instruction}
    (h : connector words line = .ok i) : i.Numeric := by
  simp only [connector] at h
  split at h
  · cases h
  · split at h
    · cases h
    · simp only [Outcome.bind_eq_ok] at h
      obtain ⟨options, -, style, -, h⟩ := h
      split at h
      · cases h
        trivial
      · simp only [Outcome.bind_eq_ok] at h
        obtain ⟨o, -, style', -, h⟩ := h
        cases h
        trivial

theorem ofText_numeric {text : List Char} {line : LineNumber} {allowPosition : Bool}
    {i : Instruction} (h : ofText text line allowPosition = .ok i) : i.Numeric := by
  rw [ofText, Outcome.bind_eq_ok] at h
  obtain ⟨tokens, -, h⟩ := h
  unfold ofTokens at h
  split at h
  · cases h
  · split at h
    · exact connector_numeric h
    · split at h
      · cases h
      · cases h
      · exact shape_numeric h

end Statement

/-! ## Layouts and blocks -/

namespace Layout
variable {α : Type}

/-- The next corner moves along the axis only. -/
theorem advance_numeric {axis : Axis} {gap : Scalar} {p next : Point} {b : Box α}
    (h : advance axis gap p b = .ok next) (hp : p.Numeric) : next.Numeric := by
  cases axis with
  | vertical =>
    simp only [advance, Outcome.bind_eq_ok] at h
    obtain ⟨step, -, y, hy, h⟩ := h
    cases h
    exact ⟨hp.1, Scalar.isFlag_add hy⟩
  | horizontal =>
    simp only [advance, Outcome.bind_eq_ok] at h
    obtain ⟨step, -, x, hx, h⟩ := h
    cases h
    exact ⟨Scalar.isFlag_add hx, hp.2⟩

theorem stackFrom_numeric {axis : Axis} {gap : Scalar} {p : Point} {boxes : List (Box α)}
    {placed : List (Placed α)} (h : stackFrom axis gap p boxes = .ok placed)
    (hp : p.Numeric) : ∀ q ∈ placed, q.corner.Numeric := by
  -- By induction on the boxes, with the corner of the next one.
  induction boxes generalizing p placed with
  | nil =>
    cases h
    intro b hb
    cases hb
  | cons b boxes ih =>
    simp only [stackFrom, Outcome.bind_eq_ok] at h
    obtain ⟨-, -, next, hnext, rest, hrest, h⟩ := h
    cases h
    exact List.forall_mem_cons.mpr ⟨hp, ih hrest (advance_numeric hnext hp)⟩

theorem offsets_numeric {gap start : Scalar} {extents starts : List Scalar}
    (h : offsets gap start extents = .ok starts) (hs : start.isFlag = false) :
    ∀ n ∈ starts, n.isFlag = false := by
  induction extents generalizing start starts with
  | nil =>
    cases h
    intro n hn
    cases hn
  | cons e es ih =>
    -- The last line has no start behind it.
    cases es with
    | nil =>
      cases h
      intro n hn
      rw [List.mem_singleton] at hn
      exact hn ▸ hs
    | cons e' es =>
      simp only [offsets, Outcome.bind_eq_ok] at h
      obtain ⟨edge, -, next, hnext, rest, hrest, h⟩ := h
      cases h
      intro n hn
      rcases List.mem_cons.mp hn with rfl | hn
      · exact hs
      · exact ih hrest (Scalar.isFlag_add hnext) n hn

theorem cell_numeric {columns : Nat} {xs ys : List Scalar} {b : Box α × Nat} {q : Placed α}
    (h : cell columns xs ys b = .ok q) (hx : ∀ n ∈ xs, n.isFlag = false)
    (hy : ∀ n ∈ ys, n.isFlag = false) : q.corner.Numeric := by
  unfold cell at h
  split at h
  · rename_i x y hxs hys
    cases h
    exact ⟨hx x (List.mem_of_getElem? hxs), hy y (List.mem_of_getElem? hys)⟩
  · cases h

theorem grid_numeric {boxes : List (Box α)} {origin : Point} {columns : Option Nat}
    {shown : String} {gap : Scalar} {placed : List (Placed α)}
    (h : grid boxes origin columns shown gap = .ok placed) (hp : origin.Numeric) :
    ∀ q ∈ placed, q.corner.Numeric := by
  simp only [grid, Outcome.bind_eq_ok] at h
  obtain ⟨-, -, -, -, h⟩ := h
  split at h
  · unfold gridOf at h
    split at h
    · cases h
      intro b hb
      cases hb
    · simp only [Outcome.bind_eq_ok] at h
      obtain ⟨rows, -, -, -, xs, hxs, ys, hys, h⟩ := h
      intro q hq
      obtain ⟨b, -, hcell⟩ := Outcome.mem_of_mapM_ok h hq
      exact cell_numeric hcell (offsets_numeric hxs hp.1) (offsets_numeric hys hp.2)
  · cases h

theorem stack_numeric {boxes : List (Box α)} {axis : Option Axis} {shown : String}
    {origin : Point} {gap : Scalar} {placed : List (Placed α)}
    (h : stack boxes axis shown origin gap = .ok placed) (hp : origin.Numeric) :
    ∀ q ∈ placed, q.corner.Numeric := by
  unfold stack at h
  split at h
  · cases h
  · simp only [Outcome.bind_eq_ok] at h
    obtain ⟨-, -, -, -, h⟩ := h
    exact stackFrom_numeric h hp

end Layout

namespace Block

/-- A block whose origin and shapes have no truth values. -/
structure Numeric (b : Block) : Prop where
  origin : b.origin.Numeric
  nested : ∀ i ∈ b.nested, i.Numeric

theorem header_numeric {text : List Char} {line : LineNumber} {b : Block}
    (h : header text line = .ok b) : b.Numeric := by
  unfold header at h
  simp only [] at h
  split at h
  · split at h
    · cases h
    · simp only [Outcome.bind_eq_ok] at h
      obtain ⟨origin, horigin, h⟩ := h
      cases h
      exact ⟨(Measure.isReal_position horigin).numeric, fun i hi => by cases hi⟩
  · split at h
    · cases h
    · simp only [Outcome.bind_eq_ok] at h
      obtain ⟨columns, -, h⟩ := h
      split at h
      · cases h
      · simp only [Outcome.bind_eq_ok] at h
        obtain ⟨origin, horigin, h⟩ := h
        cases h
        exact ⟨(Measure.isReal_position horigin).numeric, fun i hi => by cases hi⟩

theorem push_numeric {b : Block} {i : ShapeInstruction} (hb : b.Numeric) (hi : i.Numeric) :
    (b.push i).Numeric := by
  refine ⟨hb.origin, fun j hj => ?_⟩
  rcases List.mem_append.mp hj with hj | hj
  · exact hb.nested j hj
  · exact List.mem_singleton.mp hj ▸ hi

theorem place_numeric {b : Block} {boxes : List (Box ShapeInstruction)}
    {placed : List (Placed ShapeInstruction)} (h : b.place boxes = .ok placed)
    (hb : b.Numeric) : ∀ q ∈ placed, q.corner.Numeric := by
  unfold place at h
  split at h
  · exact Layout.stack_numeric h hb.origin
  · exact Layout.grid_numeric h hb.origin

/-- The shapes of a block have its numbers, and those of the corners of their boxes. -/
theorem expand_numeric {b : Block} {is : List ShapeInstruction} (h : b.expand = .ok is)
    (hb : b.Numeric) : ∀ i ∈ is, i.Numeric := by
  obtain ⟨boxes, placed, -, hplaced, hpayload, hbox, rfl⟩ := expand_eq_ok h
  intro i hi
  obtain ⟨q, hq, rfl⟩ := List.mem_map.mp hi
  have hnested : q.box.payload ∈ b.nested := by
    rw [← hpayload, ← hbox]
    exact List.mem_map_of_mem (List.mem_map_of_mem hq)
  have hnumeric := hb.nested _ hnested
  refine ⟨fun p hp => ?_, hnumeric.size, hnumeric.dimensions⟩
  cases hp
  exact place_numeric hplaced hb q hq

end Block

/-! ## Sources and records -/

/-- A line gives numbers, and leaves a block of numbers open. -/
theorem Source.readLine_numeric {line : String} {b c : Option Block} {n : Int}
    {is : List Instruction} (h : readLine b n line = .ok (is, c)) (hb : ∀ d ∈ b, d.Numeric) :
    (∀ i ∈ is, i.Numeric) ∧ ∀ d ∈ c, d.Numeric := by
  cases lineStep_of_readLine h with
  | blank hblank => exact ⟨List.forall_mem_nil _, hb⟩
  | header hmode hd =>
    refine ⟨List.forall_mem_nil _, fun d hmem => ?_⟩
    cases hmem
    exact Block.header_numeric hd
  | statement hblank hmode hi =>
    refine ⟨List.forall_mem_singleton.mpr (Statement.ofText_numeric hi), fun d hmem => ?_⟩
    cases hmem
  | nested hblank hclose hmode hi =>
    refine ⟨List.forall_mem_nil _, fun d hmem => ?_⟩
    cases hmem
    exact Block.push_numeric (hb _ rfl) (Statement.ofText_numeric hi)
  | close hclose hshapes =>
    refine ⟨fun i hi => ?_, fun d hmem => by cases hmem⟩
    obtain ⟨j, hj, rfl⟩ := List.mem_map.mp hi
    exact Block.expand_numeric hshapes (hb _ rfl) j hj

theorem Source.readLines_numeric {lines : List String} {b : Option Block} {n : Int}
    {is : List Instruction} (h : readLines b n lines = .ok is) (hb : ∀ c ∈ b, c.Numeric) :
    ∀ i ∈ is, i.Numeric := by
  induction lines generalizing b n is with
  | nil =>
    cases b with
    | none =>
      cases h
      intro i hi
      cases hi
    | some b => cases h
  | cons line lines ih =>
    obtain ⟨js, c, ks, hline, hrest, rfl⟩ := readLines_cons_eq_ok.mp h
    obtain ⟨hjs, hc⟩ := readLine_numeric hline hb
    exact List.forall_mem_append.mpr ⟨hjs, ih hrest hc⟩

theorem Source.numeric_of_source {text : String} {is : List Instruction}
    (h : instructions text = .ok is) : ∀ i ∈ is, i.Numeric :=
  readLines_numeric h fun c hc => by cases hc

namespace Record

theorem number_numeric {v : Value} {path : String} {n : Scalar}
    (h : number v path = .ok n) : n.isFlag = false := by
  unfold number at h
  split at h
  · rename_i m
    simp only [Outcome.bind_eq_ok] at h
    obtain ⟨finite, -, h⟩ := h
    split at h
    · rename_i hm
      cases h
      simp only [Bool.and_eq_true, Bool.not_eq_eq_eq_not, Bool.not_true] at hm
      exact hm.2
    · cases h
  · cases h

theorem pair_numeric {r : Fields} {a b : String} {index : Nat} {apart : ParseProblem}
    {p : Option (Scalar × Scalar)} (h : pair r a b index apart = .ok p) :
    ∀ q ∈ p, q.1.isFlag = false ∧ q.2.isFlag = false := by
  unfold pair at h
  split at h
  · cases h
  · split at h
    · cases h
      intro q hq
      cases hq
    · simp only [Outcome.bind_eq_ok] at h
      obtain ⟨x, hx, y, hy, h⟩ := h
      cases h
      intro q hq
      cases hq
      exact ⟨number_numeric hx, number_numeric hy⟩

theorem position_numeric {r : Fields} {index : Nat} {p : Option Point}
    (h : position r index = .ok p) : ∀ q ∈ p, q.Numeric := by
  simp only [position, Outcome.bind_eq_ok] at h
  obtain ⟨q, hq, h⟩ := h
  cases h
  intro q' hq'
  obtain ⟨xy, hxy, rfl⟩ := Option.map_eq_some_iff.mp hq'
  exact pair_numeric hq xy hxy

theorem size_numeric {r : Fields} {index : Nat} {s : Option Size}
    (h : size r index = .ok s) : ∀ t ∈ s, t.Numeric := by
  simp only [size, Outcome.bind_eq_ok] at h
  obtain ⟨p, hp, h⟩ := h
  split at h
  · cases h
    intro t ht
    cases ht
  · split at h
    · cases h
    · cases h
      intro t ht
      cases ht
      exact pair_numeric hp _ rfl

theorem ofFields_numeric {r : Fields} {index : Nat} {i : Instruction}
    (h : ofFields r index = .ok i) : i.Numeric := by
  -- A size option may give a box, which counts where the record gives no size.
  simp only [ofFields, Outcome.bind_eq_ok] at h
  obtain ⟨kind, -, style, -, option, hoption, h⟩ := h
  have hbox : ∀ s ∈ option.bind SizeOption.box?, s.Numeric := by
    intro s hs
    obtain ⟨o, ho, hs⟩ := Option.bind_eq_some_iff.mp hs
    subst ho
    unfold sizeOption at hoption
    split at hoption
    · cases hoption
    · obtain ⟨o', ho', heq⟩ := Outcome.map_eq_ok.mp hoption
      cases heq
      exact SizeOption.read_numeric ho' s hs
  split at h
  · split at h
    · cases h
    · simp only [Outcome.bind_eq_ok] at h
      obtain ⟨source, -, target, -, h⟩ := h
      cases h
      trivial
  · simp only [Outcome.bind_eq_ok] at h
    obtain ⟨place, hplace, given, hgiven, h⟩ := h
    split at h
    · cases h
    · cases h
      refine Statement.withText_numeric ⟨position_numeric hplace, fun s hs => ?_, ?_⟩ _
      · cases given with
        | none => exact hbox s hs
        | some t => exact size_numeric hgiven s hs
      · intro s hs
        cases hs

theorem instruction_numeric {v : Value} {index : Nat} {i : Instruction}
    (h : instruction v index = .ok i) : i.Numeric := by
  have hblame {r : Except Fault Instruction} (hr : blame index r = .ok i) : r = .ok i := by
    unfold blame at hr
    split at hr
    · split at hr <;> cases hr
    · exact hr
  have hv := hblame h
  split at hv
  · exact ofFields_numeric hv
  · cases hv

theorem instructionsFrom_numeric {n : Nat} {vs : List Value} {is : List Instruction}
    (h : instructionsFrom n vs = .ok is) : ∀ i ∈ is, i.Numeric := by
  induction vs generalizing n is with
  | nil =>
    cases h
    intro i hi
    cases hi
  | cons v vs ih =>
    simp only [instructionsFrom, Outcome.bind_eq_ok] at h
    obtain ⟨j, hj, rest, hrest, h⟩ := h
    cases h
    intro i hi
    rcases List.mem_cons.mp hi with rfl | hi
    · exact instruction_numeric hj
    · exact ih hrest i hi

/-- The instructions of records have no truth values for places and sizes. -/
theorem numeric_of_records {v : Value} {is : List Instruction}
    (h : instructions v = .ok is) : ∀ i ∈ is, i.Numeric := by
  unfold instructions at h
  split at h
  · exact instructionsFrom_numeric h
  · exact instructionsFrom_numeric h
  · cases h

end Record

end DiagramScript
