import Mathlib.Logic.Relation
import DiagramScript.Page.Batch
import DiagramScript.Page.Record
import DiagramScript.Proofs.Outcome

/-
  What one step on a page does, where it succeeds.

  Each statement says what a step checks and everything that it changes. A batch is a chain
  of five kinds of changes (`BatchChange`, `apply_changes`), so whatever a copy starts with
  and each of the five keeps holds of the page after every batch.
-/

namespace DiagramScript

/-- The id that an instruction wants for its shape. -/
def Instruction.wantedId : Instruction → Option String
  | .shape i => i.id
  | .connector i => i.id

namespace Page

/-! ## Single changes -/

theorem add_eq_ok {p q : Page} {s : Shape} :
    p.add s = .ok q ↔ s.id ∉ p.ids ∧
      q = { p with layers := p.layers ++ [⟨p.ids.length, s⟩], ids := p.ids ++ [s.id] } := by
  by_cases h : s.id ∈ p.ids
  · simp [add, h]
  · simp [add, h, eq_comm]

theorem checkId_eq_ok {p : Page} {id : String} {u : Unit} :
    p.checkId id = .ok u ↔ id ∈ p.ids := by
  by_cases h : id ∈ p.ids <;> simp [checkId, h]

theorem bind_eq_ok {p q : Page} {b : Binding} :
    p.bind b = .ok q ↔ b.connector ∈ p.ids ∧ b.shape ∈ p.ids ∧
      q = { p with links := Link.make p.links b } := by
  simp only [bind, Outcome.bind_eq_ok, checkId_eq_ok, Except.ok.injEq, exists_and_left,
    exists_const]
  simp only [eq_comm]

theorem reorder_eq_ok {p q : Page} {layers : List Layer} :
    p.reorder layers = .ok q ↔
      (layers.map (·.shape.id)).Perm (p.layers.map (·.shape.id)) ∧ q = { p with layers } := by
  unfold reorder
  split
  · rename_i h
    simp [List.isPerm_iff.mp h, eq_comm]
  · rename_i h
    simp [mt List.isPerm_iff.mpr h]

/-- The same layers in any order are a drawing order. -/
theorem reorder_of_perm {p : Page} {layers : List Layer} (h : layers.Perm p.layers) :
    p.reorder layers = .ok { p with layers } :=
  reorder_eq_ok.mpr ⟨h.map _, rfl⟩

/-! ## Bindings and shapes from records -/

theorem boundId_eq_ok {p : Page} {v : Value} {id : String} :
    p.boundId v = .ok id ↔ v = .text id ∧ id ∈ p.ids := by
  cases v with
  | text s =>
    simp only [boundId, Outcome.bind_eq_ok, checkId_eq_ok, Value.text.injEq, exists_const,
      Except.ok.injEq]
    constructor
    · rintro ⟨hs, rfl⟩
      exact ⟨rfl, hs⟩
    · rintro ⟨rfl, hs⟩
      exact ⟨hs, rfl⟩
  | _ => simp [boundId, refuse]

/-- The binding of two ids and a terminal. -/
def bindingOf? (connector shape terminal : Value) : Option Binding :=
  match connector, shape, Terminal.ofValue? terminal with
  | .text connector, .text shape, some terminal => some { connector, shape, terminal }
  | _, _, _ => none

theorem bindingOf?_eq_some {connector shape terminal : Value} {b : Binding} :
    bindingOf? connector shape terminal = some b ↔ connector = .text b.connector ∧
      shape = .text b.shape ∧ Terminal.ofValue? terminal = some b.terminal := by
  unfold bindingOf?
  split
  · rename_i c s t ht
    rw [ht, Option.some.injEq, Value.text.injEq, Value.text.injEq, Option.some.injEq]
    constructor
    · rintro rfl
      exact ⟨rfl, rfl, rfl⟩
    · rintro ⟨rfl, rfl, rfl⟩
      rfl
  · rename_i hnone
    refine iff_of_false (by simp) ?_
    rintro ⟨rfl, rfl, ht⟩
    exact hnone _ _ _ rfl rfl ht

theorem bindValues_eq_ok {p q : Page} {connector shape terminal : Value} :
    p.bindValues connector shape terminal = .ok q ↔
      ∃ b, bindingOf? connector shape terminal = some b ∧ p.bind b = .ok q := by
  simp only [bindValues, Outcome.bind_eq_ok, boundId_eq_ok, bindingOf?_eq_some]
  constructor
  · rintro ⟨c, ⟨rfl, hc⟩, s, ⟨rfl, hs⟩, h⟩
    split at h
    · rename_i t ht
      exact ⟨⟨c, s, t⟩, ⟨rfl, rfl, ht⟩, h⟩
    · cases h
  · rintro ⟨b, ⟨rfl, rfl, ht⟩, h⟩
    obtain ⟨hc, hs, -⟩ := bind_eq_ok.mp h
    refine ⟨_, ⟨rfl, hc⟩, _, ⟨rfl, hs⟩, ?_⟩
    rw [ht]
    exact h

theorem addRecord_eq_ok {p q : Page} {v : Value} {index : Nat} :
    p.addRecord v index = .ok q ↔
      ∃ r s, v = .object r ∧ p.shapeOfFields r index = .ok s ∧ p.add s = .ok q := by
  cases v with
  | object r => simp [addRecord, Outcome.bind_eq_ok]
  | _ => simp [addRecord, refuse]

theorem bindingField_eq_ok {r : Fields} {key : String} {v : Value} :
    bindingField r key = .ok v ↔ r.lookup key = some v := by
  unfold bindingField
  cases r.lookup key <;> simp [refuse]

/-- The binding that a record asks for. -/
def recordedBinding? : Value → Option Binding
  | .object r => do
    bindingOf? (← r.lookup "fromId") (← r.lookup "toId") (← r.lookup "terminal")
  | _ => none

theorem bindRecord_eq_ok {p q : Page} {v : Value} :
    p.bindRecord v = .ok q ↔ ∃ b, recordedBinding? v = some b ∧ p.bind b = .ok q := by
  cases v with
  | object r =>
    simp only [bindRecord, recordedBinding?, Outcome.bind_eq_ok, bindingField_eq_ok,
      bindValues_eq_ok, Option.bind_eq_bind, Option.bind_eq_some_iff]
    constructor
    · rintro ⟨c, hc, s, hs, t, ht, b, hb, hq⟩
      exact ⟨b, ⟨c, hc, s, hs, t, ht, hb⟩, hq⟩
    · rintro ⟨b, ⟨c, hc, s, hs, t, ht, hb⟩, hq⟩
      exact ⟨c, hc, s, hs, t, ht, b, hb, hq⟩
  | _ => simp [bindRecord, recordedBinding?]

/-- What adding a shape of a record keeps, adding those of all records keeps. -/
theorem addRecords_induction {P : Page → Prop} {vs : List Value} {index : Nat} {p q : Page}
    (h : p.addRecords index vs = .ok q) (hp : P p)
    (hshape : ∀ {p q : Page} {r : Fields} {index : Nat} {s : Shape}, P p →
      p.shapeOfFields r index = .ok s → p.add s = .ok q → P q) : P q := by
  induction vs generalizing p index with
  | nil =>
    cases h
    exact hp
  | cons v vs ih =>
    rw [addRecords, Outcome.bind_eq_ok] at h
    obtain ⟨m, hm, h⟩ := h
    obtain ⟨r, s, -, hs, hadd⟩ := addRecord_eq_ok.mp hm
    exact ih h (hshape hp hs hadd)

/-- What the empty page has and what adding a shape of a record and binding keep, every page
of records has. -/
theorem ofRecords_induction {P : Page → Prop} {shapes bindings : Value} {p : Page}
    (h : ofRecords shapes bindings = .ok p) (hempty : P empty)
    (hshape : ∀ {p q : Page} {r : Fields} {index : Nat} {s : Shape}, P p →
      p.shapeOfFields r index = .ok s → p.add s = .ok q → P q)
    (hbind : ∀ {p q : Page} {b : Binding}, P p → p.bind b = .ok q → P q) : P p := by
  -- The shapes come first; then the bindings, which are a fold.
  simp only [ofRecords, Outcome.bind_eq_ok] at h
  obtain ⟨vs, -, m, hm, bs, -, hp⟩ := h
  refine Outcome.foldlM_ok_induction (fun p v _ q hp hq => ?_)
    (addRecords_induction hm hempty hshape) hp
  obtain ⟨b, -, hb⟩ := bindRecord_eq_ok.mp hq
  exact hbind hp hb

/-! ## Shapes and connectors of a batch -/

theorem orElseText_of_ne {text : String} (h : text ≠ "") (other : String) :
    orElseText (some text) other = text := by
  have hfilled : Content.filled (some text) = some text := by
    simp [Content.filled, Option.filter, h]
  rw [orElseText, hfilled]
  rfl

theorem orElseText_empty (text : Option String) : orElseText text "" = text.getD "" := by
  cases text with
  | none => rfl
  | some t =>
    by_cases hempty : t = ""
    · rw [hempty]
      rfl
    · exact orElseText_of_ne hempty ""

theorem newId_eq_ok {p : Page} {custom : Option String} {line : LineNumber} {id : String} :
    p.newId custom line = .ok id ↔
      (Content.filled custom = none ∧ id = p.nextId) ∨
        ∃ c, Content.filled custom = some c ∧ p.get? (fullId c) = none ∧ id = fullId c := by
  unfold newId
  cases Content.filled custom with
  | none => simp [eq_comm]
  | some c => cases h : p.get? (fullId c) <;> simp [h, eq_comm]

/-- The shape of an instruction is of its kind, has every style option and no ends. -/
theorem newShape_eq_ok {p : Page} {i : ShapeInstruction} {s : Shape}
    (h : p.newShape i = .ok s) :
    p.newId i.id i.line = .ok s.id ∧ s.kind = .known i.kind ∧
      s.style = fullStyle i.style i.kind ∧ s.start = none ∧ s.finish = none := by
  simp only [newShape, Outcome.bind_eq_ok] at h
  obtain ⟨position, -, size, -, id, hid, h⟩ := h
  cases h
  exact ⟨hid, rfl, rfl, rfl, rfl⟩

theorem connectorShape_eq_ok {id : String} {i : ConnectorInstruction} {a b : Point} {s : Shape}
    (h : connectorShape id i a b = .ok s) :
    s.id = id ∧ s.kind = .known .connector ∧ s.style = fullStyle i.style .connector ∧
      s.start.isSome ∧ s.finish.isSome := by
  simp only [connectorShape, Outcome.bind_eq_ok] at h
  obtain ⟨sx, -, sy, -, ex, -, ey, -, h⟩ := h
  cases h
  exact ⟨rfl, rfl, rfl, rfl, rfl⟩

/-- The connector of an instruction has every style option and both ends. -/
theorem newConnector_eq_ok {p : Page} {padding : Scalar} {i : ConnectorInstruction}
    {s : Shape} {a b : Option Shape} (h : p.newConnector padding i = .ok (s, a, b)) :
    p.newId i.id i.line = .ok s.id ∧ s.kind = .known .connector ∧
      s.style = fullStyle i.style .connector ∧ s.start.isSome ∧ s.finish.isSome := by
  simp only [newConnector, Outcome.bind_eq_ok] at h
  obtain ⟨source, -, target, -, first, -, last, -, id, hid, s', hs, h⟩ := h
  cases h
  obtain ⟨rfl, hrest⟩ := connectorShape_eq_ok hs
  exact ⟨hid, hrest⟩

theorem createShape_eq_ok {p q : Page} {i : ShapeInstruction} {id : String} :
    (p.createShape i).result = .ok (q, id) ↔
      ∃ s, p.newShape i = .ok s ∧ p.add s = .ok q ∧ s.id = id := by
  simp only [createShape, Report.result_bind, Report.result_liftM, Report.result_tell,
    Report.result_pure, Outcome.bind_eq_ok, Except.ok.injEq, Prod.mk.injEq, exists_const]
  constructor
  · rintro ⟨s, hs, r, hr, -, rfl, hid⟩
    exact ⟨s, hs, hr, hid⟩
  · rintro ⟨s, hs, hq, hid⟩
    exact ⟨s, hs, q, hq, trivial, rfl, hid⟩

theorem bindEnd_eq_ok {p q : Page} {connector terminal : String} {target : Option Shape} :
    (p.bindEnd connector terminal target).result = .ok q ↔
      (target = none ∧ q = p) ∨
        ∃ t, target = some t ∧ p.bind ⟨connector, t.id, .text terminal⟩ = .ok q := by
  cases target with
  | none => simp [bindEnd, eq_comm]
  | some t =>
    simp only [bindEnd, Report.result_bind, Report.result_liftM, Report.result_tell,
      Report.result_pure, Outcome.bind_eq_ok, Except.ok.injEq, reduceCtorEq, false_and,
      Option.some.injEq, exists_eq_left', false_or, exists_const]
    constructor
    · rintro ⟨r, hr, -, rfl⟩
      exact hr
    · exact fun h => ⟨q, h, trivial, rfl⟩

theorem createConnector_eq_ok {p q : Page} {padding : Scalar} {i : ConnectorInstruction}
    {id : String} :
    (p.createConnector padding i).result = .ok (q, id) ↔
      ∃ s a b p₁ p₂, p.newConnector padding i = .ok (s, a, b) ∧ p.add s = .ok p₁ ∧
        (p₁.bindEnd s.id "start" a).result = .ok p₂ ∧
          (p₂.bindEnd s.id "end" b).result = .ok q ∧ s.id = id := by
  simp only [createConnector, Report.result_bind, Report.result_liftM, Report.result_pure,
    Outcome.bind_eq_ok, Except.ok.injEq, Prod.mk.injEq]
  constructor
  · rintro ⟨⟨s, a, b⟩, hs, p₁, hp₁, p₂, hp₂, r, hr, rfl, hid⟩
    exact ⟨s, a, b, p₁, p₂, hs, hp₁, hp₂, hr, hid⟩
  · rintro ⟨s, a, b, p₁, p₂, hs, hp₁, hp₂, hq, hid⟩
    exact ⟨(s, a, b), hs, p₁, hp₁, p₂, hp₂, q, hq, rfl, hid⟩

/-! ## Frames of a batch -/

/-- A frame stays as it is, or it gets the box around the shapes near it. -/
theorem growFrame_cases {others : List Shape} {frame s : Shape}
    (h : (growFrame others frame).result = .ok s) :
    s = frame ∨ ∃ b bs box, boundsNear frame others = .ok (b :: bs) ∧
      enclosing frame b bs = .ok box ∧
        s = { frame with x := box.x, y := box.y, w := box.w, h := box.h } := by
  simp only [growFrame, Report.result_bind, Report.result_liftM, Outcome.bind_eq_ok] at h
  obtain ⟨bs, hbs, h⟩ := h
  cases bs with
  | nil =>
    cases h
    exact .inl rfl
  | cons b bs =>
    simp only [Report.result_bind, Report.result_liftM, Outcome.bind_eq_ok] at h
    obtain ⟨box, hbox, h⟩ := h
    split at h
    · cases h
      exact .inl rfl
    · cases h
      exact .inr ⟨b, bs, box, hbs, hbox, rfl⟩

/-- A grown frame keeps everything but its box. -/
theorem growFrame_eq_ok {others : List Shape} {frame s : Shape}
    (h : (growFrame others frame).result = .ok s) :
    ∃ x y w h, s = { frame with x := x, y := y, w := w, h := h } := by
  rcases growFrame_cases h with rfl | ⟨b, bs, box, -, -, rfl⟩
  · exact ⟨s.x, s.y, s.w, s.h, rfl⟩
  · exact ⟨box.x, box.y, box.w, box.h, rfl⟩

/-- Moving frames to the bottom never fails. -/
theorem framesToBottom_eq (p : Page) :
    p.framesToBottom = .ok { p with
      layers := p.layers.filter (isFrame ·.shape) ++ p.layers.filter (! isFrame ·.shape) } :=
  reorder_of_perm (List.filter_append_perm _ _)

/-! ## One instruction, or one frame, after the other -/

theorem result_createAll_cons (padding : Scalar) (p : Page) (i : Instruction)
    (is : List Instruction) :
    (createAll padding p (i :: is)).result = (do
      let first ← (create padding p i).result
      let rest ← (createAll padding first.1 is).result
      .ok (rest.1, first.2 :: rest.2)) := by
  simp only [createAll, Report.result_bind, Report.result_pure]

theorem createAll_cons_eq_ok {padding : Scalar} {p q : Page} {i : Instruction}
    {is : List Instruction} {ids : List String} :
    (createAll padding p (i :: is)).result = .ok (q, ids) ↔
      ∃ m id ids', (create padding p i).result = .ok (m, id) ∧
        (createAll padding m is).result = .ok (q, ids') ∧ ids = id :: ids' := by
  simp only [result_createAll_cons, Outcome.bind_eq_ok, Prod.exists, Except.ok.injEq,
    Prod.mk.injEq]
  constructor
  · rintro ⟨m, id, hfirst, q', ids', hrest, rfl, rfl⟩
    exact ⟨m, id, ids', hfirst, hrest, rfl⟩
  · rintro ⟨m, id, ids', hfirst, hrest, rfl⟩
    exact ⟨m, id, hfirst, q, ids', hrest, rfl, rfl⟩

/-- What every instruction keeps, all of them keep. -/
theorem createAll_induction {P : Page → Prop} {padding : Scalar} {is : List Instruction}
    {p q : Page} {ids : List String} (h : (createAll padding p is).result = .ok (q, ids))
    (hp : P p) (hstep : ∀ {p q : Page} {i : Instruction} {id : String}, i ∈ is → P p →
      (create padding p i).result = .ok (q, id) → P q) : P q := by
  induction is generalizing p ids with
  | nil =>
    cases h
    exact hp
  | cons i is ih =>
    obtain ⟨m, id, ids', hfirst, hrest, rfl⟩ := createAll_cons_eq_ok.mp h
    exact ih hrest (hstep List.mem_cons_self hp hfirst) fun hj =>
      hstep (List.mem_cons_of_mem i hj)

/-- What every growth of a frame keeps, the growth of all of them keeps. -/
theorem growFrames_induction {P : Page → Prop} {others : List Shape} {numbers : List Nat}
    {p q : Page} (h : (growFrames others p numbers).result = .ok q) (hp : P p)
    (hgrow : ∀ {p : Page} {l : Layer} {s : Shape}, P p → l ∈ p.layers → l.number ∈ numbers →
      (growFrame others l.shape).result = .ok s → P (p.replace l.number s)) : P q := by
  induction numbers generalizing p with
  | nil =>
    cases h
    exact hp
  | cons n numbers ih =>
    have hlater {p : Page} {l : Layer} {s : Shape} (hp : P p) (hl : l ∈ p.layers)
        (hn : l.number ∈ numbers) (hs : (growFrame others l.shape).result = .ok s) :
        P (p.replace l.number s) := hgrow hp hl (List.mem_cons_of_mem n hn) hs
    rw [growFrames] at h
    split at h
    · exact ih h hp hlater
    · rename_i l hfind
      rw [Report.result_bind, Outcome.bind_eq_ok] at h
      obtain ⟨s, hs, h⟩ := h
      have hl : l ∈ p.layers := List.mem_of_find?_eq_some hfind
      obtain rfl : l.number = n := by simpa using List.find?_some hfind
      exact ih h (hgrow hp hl List.mem_cons_self hs) hlater

theorem settleFrames_iff_growFrames {p q : Page} :
    p.settleFrames.result = .ok q ↔ ∃ r, p.framesToBottom = .ok r ∧
      (growFrames (r.shapes.filter (! isFrame ·)) r
        ((r.layers.filter (isFrame ·.shape)).map (·.number))).result = .ok q := by
  simp only [settleFrames, Report.result_bind, Report.result_liftM, Outcome.bind_eq_ok]

theorem result_apply (p : Page) (padding : Scalar) (is : List Instruction) :
    (p.apply padding is).result = (do
      let created ← (createAll padding p.copy is).result
      let settled ← created.1.settleFrames.result
      .ok (settled, created.2)) := by
  simp only [apply, Report.result_bind, Report.result_tell, Report.result_pure]
  rfl

theorem apply_eq_ok {padding : Scalar} {p q : Page} {is : List Instruction} {ids : List String} :
    (p.apply padding is).result = .ok (q, ids) ↔
      ∃ m, (createAll padding p.copy is).result = .ok (m, ids) ∧ m.settleFrames.result = .ok q := by
  simp only [result_apply, Outcome.bind_eq_ok, Except.ok.injEq, Prod.mk.injEq]
  constructor
  · rintro ⟨⟨m, ids'⟩, hm, q', hq, rfl, rfl⟩
    exact ⟨m, hm, hq⟩
  · rintro ⟨m, hm, hq⟩
    exact ⟨(m, ids), hm, q, hq, rfl, rfl⟩

/-! ## Whole batches -/

/-- A single change in a batch of instructions. A connector is bound only once it is on the
page. -/
inductive BatchChange (is : List Instruction) : Page → Page → Prop
  | shape {p q : Page} {i : ShapeInstruction} {s : Shape} :
    .shape i ∈ is → p.newShape i = .ok s → p.add s = .ok q → BatchChange is p q
  | connector {p q : Page} {padding : Scalar} {i : ConnectorInstruction} {s : Shape}
    {a b : Option Shape} :
    .connector i ∈ is → p.newConnector padding i = .ok (s, a, b) → p.add s = .ok q →
      BatchChange is p q
  | bind {p q : Page} {s : Shape} {shape terminal : String} :
    s ∈ p.shapes → s.kind = .known .connector →
      p.bind ⟨s.id, shape, .text terminal⟩ = .ok q → BatchChange is p q
  | framesToBottom {p q : Page} : p.framesToBottom = .ok q → BatchChange is p q
  | grow {p : Page} {others : List Shape} {l : Layer} {s : Shape} :
    l ∈ p.layers → (growFrame others l.shape).result = .ok s →
      BatchChange is p (p.replace l.number s)

open Relation (ReflTransGen)

section Batch
variable {is : List Instruction} {p q : Page}

theorem bindEnd_changes {s : Shape} {terminal : String} {target : Option Shape}
    (hs : s ∈ p.shapes) (hk : s.kind = .known .connector)
    (h : (p.bindEnd s.id terminal target).result = .ok q) :
    ReflTransGen (BatchChange is) p q ∧ s ∈ q.shapes := by
  rcases bindEnd_eq_ok.mp h with ⟨-, rfl⟩ | ⟨t, -, h⟩
  · exact ⟨.refl, hs⟩
  · refine ⟨.single (.bind hs hk h), ?_⟩
    obtain ⟨-, -, rfl⟩ := bind_eq_ok.mp h
    exact hs

theorem create_changes {padding : Scalar} {i : Instruction} {id : String} (hi : i ∈ is)
    (h : (create padding p i).result = .ok (q, id)) : ReflTransGen (BatchChange is) p q := by
  cases i with
  | shape i =>
    obtain ⟨s, hs, hq, -⟩ := createShape_eq_ok.mp h
    exact .single (.shape hi hs hq)
  | connector i =>
    obtain ⟨s, a, b, p₁, p₂, hs, hp₁, hp₂, hq, -⟩ := createConnector_eq_ok.mp h
    have hk := (newConnector_eq_ok hs).2.1
    have hon : s ∈ p₁.shapes := by
      obtain ⟨-, rfl⟩ := add_eq_ok.mp hp₁
      simp [shapes]
    -- The connector is still there when its other end is bound.
    obtain ⟨h₁, hon⟩ := bindEnd_changes hon hk hp₂
    obtain ⟨h₂, -⟩ := bindEnd_changes hon hk hq
    exact (ReflTransGen.head (.connector hi hs hp₁) h₁).trans h₂

theorem createAll_changes {padding : Scalar} {ids : List String}
    (h : (createAll padding p is).result = .ok (q, ids)) : ReflTransGen (BatchChange is) p q :=
  createAll_induction h .refl fun hi hr hs => hr.trans (create_changes hi hs)

/-- A batch works on a copy, and its changes are of the five kinds. -/
theorem apply_changes {padding : Scalar} {ids : List String}
    (h : (p.apply padding is).result = .ok (q, ids)) :
    ReflTransGen (BatchChange is) p.copy q := by
  obtain ⟨m, hm, hq⟩ := apply_eq_ok.mp h
  obtain ⟨r, hr, hq⟩ := settleFrames_iff_growFrames.mp hq
  have hgrown : ReflTransGen (BatchChange is) r q :=
    growFrames_induction hq .refl fun hr hl _ hs => hr.tail (.grow hl hs)
  exact (createAll_changes hm).trans (.head (.framesToBottom hr) hgrown)

/-- What the new shapes of a batch have and a shape keeps in another box. -/
structure Lasting (is : List Instruction) (P : Shape → Prop) : Prop where
  shape : ∀ {p : Page} {i : ShapeInstruction} {s : Shape}, .shape i ∈ is → p.newShape i = .ok s →
    P s
  connector : ∀ {p : Page} {padding : Scalar} {i : ConnectorInstruction} {s : Shape}
    {a b : Option Shape}, .connector i ∈ is → p.newConnector padding i = .ok (s, a, b) → P s
  box : ∀ {s : Shape} (x y w h : Scalar), P s → P { s with x, y, w, h }

theorem Lasting.change {P : Shape → Prop} (hP : Lasting is P) (hc : BatchChange is p q)
    (hp : ∀ s ∈ p.shapes, P s) : ∀ s ∈ q.shapes, P s := by
  -- Three of the changes bring a shape, the others only reorder or link.
  have hadd {s : Shape} (hs : P s) (hq : p.add s = .ok q) : ∀ s ∈ q.shapes, P s := by
    obtain ⟨-, rfl⟩ := add_eq_ok.mp hq
    simpa [shapes, or_imp, forall_and] using And.intro hp hs
  cases hc with
  | shape hi hs hq => exact hadd (hP.shape hi hs) hq
  | connector hi hs hq => exact hadd (hP.connector hi hs) hq
  | bind _ _ hq =>
    obtain ⟨-, -, rfl⟩ := bind_eq_ok.mp hq
    exact hp
  | framesToBottom hq =>
    rw [framesToBottom_eq] at hq
    cases hq
    intro s hs
    obtain ⟨l, hl, rfl⟩ := List.mem_map.mp hs
    exact hp _ (List.mem_map_of_mem ((List.filter_append_perm (isFrame ·.shape) _).subset hl))
  | grow hl hs =>
    obtain ⟨x, y, w, h, rfl⟩ := growFrame_eq_ok hs
    have hgrown := hP.box x y w h (hp _ (List.mem_map_of_mem hl))
    intro t ht
    obtain ⟨m, hm, rfl⟩ := List.mem_map.mp ht
    rcases layers_replace hm with ⟨-, hshape⟩ | ⟨-, hm⟩
    · rw [hshape]
      exact hgrown
    · exact hp _ (List.mem_map_of_mem hm)

theorem Lasting.apply {P : Shape → Prop} (hP : Lasting is P) {padding : Scalar}
    {ids : List String} (h : (p.apply padding is).result = .ok (q, ids))
    (hp : ∀ s ∈ p.shapes, P s) : ∀ s ∈ q.shapes, P s := by
  have hsteps := apply_changes h
  clear h
  induction hsteps with
  | refl => exact hp
  | tail _ hc ih => exact hP.change hc ih

end Batch

end Page

end DiagramScript
