import DiagramScript.Proofs.Page.Batches
import DiagramScript.Proofs.Page.Succession

/-
  What a batch does to a page.

  Every instruction adds one shape on top, under a new id, and binds the ends of a connector that
  name a shape (`Creates`); what earlier instructions did stays as it is. In the end the frames go
  below all other shapes and may get other boxes (`settleFrames_kept`). So all that can be told of
  the page after a batch, but for the fields of the new shapes and the boxes of its frames, can be
  told from the page before it, the instructions and the new ids (`apply_effect`).
-/

namespace DiagramScript

/-- The ends that an instruction wants bound: those of a connector that name no coordinate. -/
def Instruction.boundEnds : Instruction → List End
  | .shape _ => []
  | .connector i =>
    [End.start, End.finish].filter fun e => ! Measure.isPosition (e.text i).toList

/-- What becomes of a shape in a batch: a frame may get another box, and any other shape stays as
it is. -/
structure Shape.Kept (s t : Shape) : Prop where
  box : ∃ x y w h, t = { s with x := x, y := y, w := w, h := h }
  other : Page.isFrame s = false → t = s

namespace Shape.Kept
variable {s t u : Shape}

theorem refl (s : Shape) : s.Kept s := ⟨⟨_, _, _, _, rfl⟩, fun _ => rfl⟩

theorem id_eq (h : s.Kept t) : t.id = s.id := by
  obtain ⟨_, _, _, _, rfl⟩ := h.box
  rfl

theorem trans (h : s.Kept t) (h' : t.Kept u) : s.Kept u := by
  refine ⟨?_, fun hframe => ?_⟩
  · obtain ⟨_, _, _, _, rfl⟩ := h.box
    obtain ⟨x, y, w, height, rfl⟩ := h'.box
    exact ⟨x, y, w, height, rfl⟩
  · obtain rfl := h.other hframe
    exact h'.other hframe

theorem isFrame_eq (h : s.Kept t) : Page.isFrame t = Page.isFrame s := by
  obtain ⟨_, _, _, _, rfl⟩ := h.box
  rfl

theorem refl_all (shapes : List Shape) : List.Forall₂ Kept shapes shapes :=
  List.forall₂_same.mpr fun s _ => .refl s

theorem trans_all {shapes shapes' shapes'' : List Shape} (h : List.Forall₂ Kept shapes shapes')
    (h' : List.Forall₂ Kept shapes' shapes'') : List.Forall₂ Kept shapes shapes'' := by
  induction h generalizing shapes'' with
  | nil => exact h'
  | cons hs _ ih =>
    cases h' with
    | cons hs' h' => exact .cons (hs.trans hs') (ih h')

end Shape.Kept

namespace Page
variable {p q r : Page} {padding : Scalar}

/-! ## Single instructions -/

/-- An end refers to a shape exactly where it names no coordinate. -/
theorem anchor_isSome {text : String} {line : LineNumber} {a : Anchor}
    (h : p.anchor text line = .ok a) : a.shape.isSome = ! Measure.isPosition text.toList := by
  unfold anchor at h
  split at h
  · rename_i hposition
    obtain ⟨point, -, h⟩ := Outcome.bind_eq_ok.mp h
    cases h
    rw [hposition]
    rfl
  · rename_i hposition
    rw [Bool.eq_false_iff.mpr hposition]
    split at h
    · cases h
    · obtain ⟨point, -, h⟩ := Outcome.bind_eq_ok.mp h
      cases h
      rfl

theorem newConnector_isSome {i : ConnectorInstruction} {s : Shape} {a b : Option Shape}
    (h : p.newConnector padding i = .ok (s, a, b)) (e : End) :
    (End.both a b e).isSome = ! Measure.isPosition (e.text i).toList := by
  simp only [newConnector, Outcome.bind_eq_ok] at h
  obtain ⟨source, hsource, target, htarget, _, -, _, -, _, -, _, -, h⟩ := h
  cases h
  cases e with
  | start => exact anchor_isSome hsource
  | finish => exact anchor_isSome htarget

/-- The links of a connector are those of the ends that name a shape. -/
theorem terminals_linksOfEnds {i : ConnectorInstruction} {connector : String} {a b : Option Shape}
    (h : ∀ e, (End.both a b e).isSome = ! Measure.isPosition (e.text i).toList) :
    (linksOfEnds connector a b).map (·.terminal) =
      (Instruction.connector i).boundEnds.map fun e => .text e.name := by
  have hstart : a.isSome = ! Measure.isPosition (End.start.text i).toList := h .start
  have hfinish : b.isSome = ! Measure.isPosition (End.finish.text i).toList := h .finish
  cases a <;> cases b <;>
    simp [Instruction.boundEnds, linksOfEnds, linkOf, End.name, ← hstart, ← hfinish]

/-- What an instruction does to a page: it adds a shape on top, and binds what it wants bound. -/
structure Creates (p : Page) (i : Instruction) (q : Page) (s : Shape) : Prop where
  shapes : q.shapes = p.shapes ++ [s]
  ids : q.ids = p.ids ++ [s.id]
  kind : s.kind = .known i.kind
  ends : (q.bindingsOf s.id).map (·.terminal) = i.boundEnds.map fun e => .text e.name

theorem bindingsOf_eq (p : Page) (id : String) :
    p.bindingsOf id = (Link.grouped (·.shape) (p.madeFor id)).map (·.toBinding) := rfl

theorem create_creates (hp : p.WellFormed) {i : Instruction} {id : String}
    (h : (create padding p i).result = .ok (q, id)) : ∃ s, s.id = id ∧ p.Creates i q s := by
  cases i with
  | shape i =>
    obtain ⟨s, hs, hadd, rfl⟩ := createShape_eq_ok.mp h
    obtain ⟨hid, rfl⟩ := add_eq_ok.mp hadd
    refine ⟨s, rfl, by simp [Page.shapes], rfl, (newShape_eq_ok hs).2.1, ?_⟩
    rw [bindingsOf_eq]
    show ((Link.grouped _ (p.madeFor s.id)).map _).map _ = _
    rw [madeFor_eq_nil hp.connector_mem hid]
    rfl
  | connector i =>
    obtain ⟨s, a, b, p₁, p₂, hs, hadd, hstart, hend, rfl⟩ := createConnector_eq_ok.mp h
    obtain ⟨-, hp₁⟩ := add_eq_ok.mp hadd
    have hnew : p₁.madeFor s.id = [] := madeFor_of_add hp.connector_mem hadd
    obtain rfl : q = { p₁ with links := p₁.links ++ linksOfEnds s.id a b } :=
      bindEnds_links hnew hstart hend
    refine ⟨s, rfl, by simp [Page.shapes, hp₁], by rw [hp₁], (newConnector_eq_ok hs).2.1, ?_⟩
    rw [bindingsOf_eq, madeFor_append linksOfEnds_connector, if_pos rfl, hnew, List.nil_append,
      grouped_linksOfEnds, List.map_map]
    exact terminals_linksOfEnds (newConnector_isSome hs)

/-! ## All instructions -/

theorem Extends.bindingsOf_eq (h : Extends p q) {id : String} (hid : id ∈ p.ids) :
    q.bindingsOf id = p.bindingsOf id := by
  rw [Page.bindingsOf_eq, Page.bindingsOf_eq, h.links id hid]

/-- A shape on a page, as an instruction wants it to be bound. -/
def IsCreated (p : Page) (i : Instruction) (s : Shape) : Prop :=
  s.kind = .known i.kind ∧
    (p.bindingsOf s.id).map (·.terminal) = i.boundEnds.map fun e => .text e.name

theorem createAll_creates (hp : p.WellFormed) {is : List Instruction} {ids : List String}
    (h : (createAll padding p is).result = .ok (q, ids)) :
    ∃ news : List Shape, news.map (·.id) = ids ∧ q.shapes = p.shapes ++ news ∧
      q.ids = p.ids ++ ids ∧ List.Forall₂ q.IsCreated is news := by
  -- By induction on the instructions: each one adds its shape behind those before, and leaves the
  -- bindings of these as they are.
  induction is generalizing p ids with
  | nil =>
    cases h
    exact ⟨[], rfl, (List.append_nil _).symm, (List.append_nil _).symm, .nil⟩
  | cons i is ih =>
    obtain ⟨p₁, id, ids, hfirst, hrest, rfl⟩ := createAll_cons_eq_ok.mp h
    obtain ⟨s, rfl, hs⟩ := create_creates hp hfirst
    have hp₁ := (create_drawn hp hfirst).1
    have hextends := (createAll_drawn hp₁ hrest).2.1
    obtain ⟨news, rfl, hshapes, hids, hnews⟩ := ih hp₁ hrest
    refine ⟨s :: news, rfl, ?_, ?_, .cons ⟨hs.kind, ?_⟩ hnews⟩
    · rw [hshapes, hs.shapes, List.append_assoc]
      rfl
    · rw [hids, hs.ids, List.append_assoc]
      rfl
    · have hmem : s.id ∈ p₁.ids := by
        rw [hs.ids]
        exact List.mem_append_right _ List.mem_cons_self
      rw [hextends.bindingsOf_eq hmem, hs.ends]

/-! ## Frames -/

theorem growFrame_kept {others : List Shape} {s t : Shape} (hframe : isFrame s = true)
    (h : (growFrame others s).result = .ok t) : s.Kept t :=
  ⟨growFrame_eq_ok h, fun hother => by rw [hframe] at hother; cases hother⟩

theorem replace_kept (hp : p.WellFormed) {l : Layer} {s : Shape} (hl : l ∈ p.layers)
    (hs : l.shape.Kept s) :
    List.Forall₂ Shape.Kept p.shapes (p.replace l.number s).shapes := by
  simp only [Page.shapes, Page.replace, List.map_map, List.forall₂_map_left_iff,
    List.forall₂_map_right_iff, List.forall₂_same]
  intro m hm
  by_cases hn : m.number = l.number
  · -- Only one layer has this number.
    obtain rfl : m = l := List.inj_on_of_nodup_map hp.numbers_nodup hm hl hn
    simpa using hs
  · simpa [hn] using Shape.Kept.refl m.shape

/-- Frames go to the bottom, and no shape loses its place among its like. -/
theorem settleFrames_kept (hp : p.WellFormed) (h : p.settleFrames.result = .ok q) :
    List.Forall₂ Shape.Kept (p.shapes.filter isFrame ++ p.shapes.filter (! isFrame ·)) q.shapes ∧
      q.ids = p.ids := by
  let bottom := p.shapes.filter isFrame ++ p.shapes.filter (! isFrame ·)
  let KeptFrom (q : Page) : Prop := List.Forall₂ Shape.Kept bottom q.shapes ∧ q.ids = p.ids
  refine (settleFrames_induction (P := KeptFrom) hp h (fun hr => ?_)
    fun hr hkept hl hframe hs => ?_).2
  · rw [framesToBottom_eq] at hr
    cases hr
    have hshapes : bottom = (p.layers.filter (isFrame ·.shape) ++
        p.layers.filter (! isFrame ·.shape)).map (·.shape) := by
      simp [bottom, Page.shapes, List.filter_map, Function.comp_def]
    refine ⟨?_, rfl⟩
    rw [hshapes]
    exact Shape.Kept.refl_all _
  · obtain ⟨hkept, hids⟩ := hkept
    exact ⟨Shape.Kept.trans_all hkept (replace_kept hr hl (growFrame_kept hframe hs)), hids⟩

/-! ## Batches -/

/-- What a page after a batch is, given the page before it, the instructions and the new ids. -/
structure BatchEffect (p : Page) (is : List Instruction) (q : Page) (ids : List String) : Prop where
  one_each : ids.length = is.length
  distinct : ids.Nodup
  unused : ∀ id ∈ ids, id ∉ p.shapes.map (·.id)
  present : (q.shapes.map (·.id)).Perm (p.shapes.map (·.id) ++ ids)
  once : (q.shapes.map (·.id)).Nodup
  kept : ∀ s ∈ p.shapes, ∃ t ∈ q.shapes, t.id = s.id ∧ s.Kept t
  /-- The frames lie below all other shapes, the old ones of either below the new ones in the
  order of their instructions. -/
  order : ∃ news : List Shape, news.map (·.id) = ids ∧
    List.Forall₂ (fun i s => s.kind = .known i.kind) is news ∧
      List.Forall₂ Shape.Kept
        (p.shapes.filter isFrame ++ news.filter isFrame ++
          (p.shapes.filter (! isFrame ·) ++ news.filter (! isFrame ·))) q.shapes
  /-- The new bindings are those of the new shapes. -/
  bindings : q.bindings = p.bindings ++ ids.flatMap q.bindingsOf
  ends : List.Forall₂ (fun i id =>
    (q.bindingsOf id).map (·.terminal) = i.boundEnds.map fun e => .text e.name) is ids

theorem bindings_eq (p : Page) : p.bindings = p.ids.flatMap p.bindingsOf := by
  rw [bindings, listed, List.map_flatMap]
  rfl

theorem bindings_copy (h : p.ids.Nodup) : p.copy.bindings = p.bindings :=
  congrArg (List.map Link.toBinding) (ordered_copy h).listed

/-- A batch adds one shape for each instruction, on top of those of its like and under an id of
its own, binds each end of a connector that is not a coordinate, and beyond that only moves the
frames below all other shapes and gives them other boxes. -/
theorem apply_effect (hp : p.WellFormed) {is : List Instruction} {ids : List String}
    (h : (p.apply padding is).result = .ok (q, ids)) : p.BatchEffect is q ids := by
  have hq : q.WellFormed := hp.apply h
  obtain ⟨m, hm, hsettle⟩ := apply_eq_ok.mp h
  obtain ⟨news, hnews, hshapes, hids, hcreated⟩ := createAll_creates hp.copy hm
  obtain ⟨hmWell, hextends, -⟩ := createAll_drawn hp.copy hm
  obtain ⟨hkept, hsettled⟩ := settleFrames_kept hmWell hsettle
  have hlinks : q.links = m.links := (settleFrames_reframes hmWell hsettle).links
  have hbindings : q.bindingsOf = m.bindingsOf := by
    funext id
    rw [bindingsOf_eq, bindingsOf_eq, madeFor, hlinks, madeFor]
  have hqids : q.ids = p.ids ++ ids := by rw [hsettled, hids, copy]
  have hon : (p.shapes.map (·.id)).Perm p.ids := shapes_ids p ▸ hp.ids_perm
  have honq : (q.shapes.map (·.id)).Perm (p.ids ++ ids) := by
    rw [← hqids, shapes_ids]
    exact hq.ids_perm
  have hnodup : (p.ids ++ ids).Nodup := hqids ▸ hq.ids_nodup
  -- From here on each part of the effect is that of the steps: what was created, and what was
  -- kept while the frames settled.
  obtain ⟨-, hdistinct, hdisjoint⟩ := List.nodup_append.mp hnodup
  refine ⟨?_, hdistinct, ?_, ?_, ?_, ?_, ⟨news, hnews, ?_, ?_⟩, ?_, ?_⟩
  · rw [← hnews, List.length_map, hcreated.length_eq]
  · exact fun id hid hold => hdisjoint id (hon.mem_iff.mp hold) id hid rfl
  · exact honq.trans (hon.symm.append_right ids)
  · exact honq.nodup_iff.mpr hnodup
  · intro s hs
    have hs : s ∈ m.shapes.filter isFrame ++ m.shapes.filter (! isFrame ·) := by
      rw [(List.filter_append_perm isFrame m.shapes).mem_iff, hshapes]
      exact List.mem_append_left _ hs
    obtain ⟨t, ht, hkept⟩ := Outcome.exists_of_forall₂ hkept hs
    exact ⟨t, ht, hkept.id_eq, hkept⟩
  · exact hcreated.imp fun _ _ h => h.1
  · rw [hshapes, List.filter_append, List.filter_append] at hkept
    exact hkept
  · rw [bindings_eq, hqids, List.flatMap_append, hbindings, ← bindings_copy hp.ids_nodup,
      bindings_eq]
    refine congrArg (· ++ _) (List.flatMap_congr fun id hid => ?_)
    exact hextends.bindingsOf_eq hid
  · rw [← hnews, List.forall₂_map_right_iff, hbindings]
    exact hcreated.imp fun _ _ h => h.2

/-- A box and a frame, and a connector between a coordinate and the box, on a page with a frame on
top of a box that a connector is bound to. -/
theorem apply_effect_framed :
    let old : Shape := { id := "shape:old", kind := .known .rectangle, w := 10, h := 10 }
    let arrow : Shape :=
      { id := "shape:arrow", kind := .known .connector, start := some ⟨5, 5⟩
        finish := some ⟨90, 90⟩ }
    let frame : Shape := { id := "shape:frame", kind := .known .frame, w := 50, h := 50 }
    let p : Page :=
      { layers := [⟨0, old⟩, ⟨1, arrow⟩, ⟨2, frame⟩]
        ids := ["shape:old", "shape:arrow", "shape:frame"]
        links := [{ connector := "shape:arrow", shape := "shape:old", terminal := .text "start"
                    key := .text "start" }] }
    let is : List Instruction := [
      .shape { kind := .rectangle, position := some ⟨60, 60⟩, label := some "A" },
      .shape { kind := .frame, position := some ⟨50, 50⟩ },
      .connector { source := "300,50", target := "A" }]
    p.WellFormed ∧ ∃ q, (p.apply 8 is).result = .ok (q, ["shape:4", "shape:5", "shape:6"]) ∧
      p.BatchEffect is q ["shape:4", "shape:5", "shape:6"] := by
  intro old arrow frame p is
  have hp : p.WellFormed := ⟨by decide, by decide, by decide, by decide, by decide⟩
  obtain ⟨⟨q, ids⟩, hq, hids⟩ := Outcome.exists_of_any (x := (p.apply 8 is).result)
    (p := fun r => r.2 == ["shape:4", "shape:5", "shape:6"]) (by decide +kernel)
  obtain rfl := eq_of_beq hids
  exact ⟨hp, q, hq, apply_effect hp hq⟩

end Page

end DiagramScript
