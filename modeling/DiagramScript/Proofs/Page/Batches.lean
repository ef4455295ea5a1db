import DiagramScript.Proofs.Page.Numeric
import DiagramScript.Proofs.Page.Reload

/-
  Pages that batches made.

  On a page that only batches have changed every shape has a full id, a known kind and both
  ends or none; connectors are no frames, and shapes that are no frames are drawn in the
  order in which they were added (`Built`, kept by each change of a batch). So moving frames
  to the bottom never changes the order in which bindings are listed, and such a page is read
  back from its own records as it is (`reload_batched`).
-/

namespace DiagramScript

namespace Shape

/-- What every shape has that an instruction made. -/
structure Made (s : Shape) : Prop where
  id_full : fullId s.id = s.id
  kind_known : ∃ k, s.kind = .known k
  ends_paired : s.start.isSome = s.finish.isSome
  numeric : s.Numeric

/-- A shape without its box, which is all that a frame changes. -/
def unboxed (s : Shape) : Shape := { s with x := 0, y := 0, w := 0, h := 0 }

theorem Made.storable {s : Shape} (h : s.Made)
    (hn : ∀ n ∈ s.numbers, n.isFinite = .ok true) : s.Storable := by
  obtain ⟨k, hk⟩ := h.kind_known
  refine ⟨h.id_full, ?_, fun n hmem => Scalar.isNumber_iff.mpr ⟨hn n hmem, h.numeric n hmem⟩⟩
  rw [hk]
  refine ⟨?_, ?_, ShapeKind.ofName_name_known k⟩ <;> cases k <;> decide

end Shape

namespace Page
open Link (Keyed)

/-- Instructions that a source holds, or that records hold. -/
def Parsed (is : List Instruction) : Prop :=
  (∃ text, Source.instructions text = .ok is) ∨ ∃ records, Record.instructions records = .ok is

/-- The pages that batches of such instructions make of the empty page. -/
inductive Batched : Page → Prop
  | empty : Batched Page.empty
  | apply {p q : Page} {padding : Scalar} {is : List Instruction} {ids : List String} :
    Batched p → Parsed is → (p.apply padding is).result = .ok (q, ids) → Batched q

structure Built (p : Page) : Prop where
  well_formed : p.WellFormed
  keyed : Keyed p.links
  made : ∀ s ∈ p.shapes, s.Made
  /-- Shapes that are no frames are drawn in the order in which they were added. -/
  in_order : ((p.shapes.filter (! isFrame ·)).map (·.id)).Sublist p.ids
  /-- Bindings belong to connectors. -/
  bound : ∀ l ∈ p.links, ∃ s ∈ p.shapes, s.id = l.connector ∧ isFrame s = false

namespace Built
variable {p q : Page}

theorem empty : Built Page.empty where
  well_formed := .empty
  keyed := .nil
  made := fun s hs => by simp [Page.empty, shapes] at hs
  in_order := .slnil
  bound := fun l hl => by simp [Page.empty] at hl

theorem copy (h : p.Built) : p.copy.Built :=
  { h with
    well_formed := h.well_formed.copy
    keyed := h.well_formed.keyed_listed h.keyed
    bound := fun l hl => h.bound l ((h.well_formed.linksOf_perm (.refl _)).subset hl) }

theorem add {s : Shape} (h : p.Built) (hs : s.Made) (hq : p.add s = .ok q) : q.Built := by
  have hwf := h.well_formed.add hq
  obtain ⟨-, rfl⟩ := add_eq_ok.mp hq
  have hshapes : shapes { p with
      layers := p.layers ++ [⟨p.ids.length, s⟩], ids := p.ids ++ [s.id] } = p.shapes ++ [s] := by
    simp [shapes]
  refine ⟨hwf, h.keyed, ?_, ?_, ?_⟩
  · intro t ht
    rw [hshapes] at ht
    rcases List.mem_append.mp ht with ht | ht
    · exact h.made t ht
    · rw [List.mem_singleton.mp ht]
      exact hs
  · rw [hshapes, List.filter_append, List.map_append]
    refine h.in_order.append ?_
    exact (List.filter_sublist (l := [s])).map _
  · intro l hl
    rw [hshapes]
    obtain ⟨t, ht, hid⟩ := h.bound l hl
    exact ⟨t, List.mem_append_left _ ht, hid⟩

theorem bind {s : Shape} {shape : String} {terminal : Terminal} (h : p.Built)
    (hs : s ∈ p.shapes) (hk : s.kind = .known .connector)
    (hq : p.bind ⟨s.id, shape, terminal⟩ = .ok q) : q.Built := by
  have hwf := h.well_formed.bind hq
  obtain ⟨-, -, rfl⟩ := bind_eq_ok.mp hq
  refine ⟨hwf, h.keyed.make _, h.made, h.in_order, fun l hl => ?_⟩
  rcases Link.mem_make hl with ⟨l', hl', hc, -⟩ | ⟨hc, -⟩
  · rw [hc]
    exact h.bound l' hl'
  · refine ⟨s, hs, hc.symm, ?_⟩
    rw [isFrame, hk]
    rfl

theorem framesToBottom (h : p.Built) (hq : p.framesToBottom = .ok q) : q.Built := by
  have hwf := h.well_formed.framesToBottom hq
  rw [framesToBottom_eq] at hq
  cases hq
  let layers := p.layers.filter (isFrame ·.shape) ++ p.layers.filter (! isFrame ·.shape)
  have hperm : (shapes { p with layers }).Perm p.shapes :=
    (List.filter_append_perm (fun l : Layer => isFrame l.shape) p.layers).map Layer.shape
  have hothers : (shapes { p with layers }).filter (! isFrame ·) =
      p.shapes.filter (! isFrame ·) := by
    show (layers.map (·.shape)).filter _ = (p.layers.map (·.shape)).filter _
    rw [List.filter_map, List.filter_map, List.filter_append, List.filter_filter,
      List.filter_filter]
    simp [Function.comp_def]
  refine ⟨hwf, h.keyed, fun s hs => h.made s (hperm.subset hs), ?_, fun l hl => ?_⟩
  · rw [hothers]
    exact h.in_order
  · obtain ⟨s, hs, hid⟩ := h.bound l hl
    exact ⟨s, hperm.symm.subset hs, hid⟩

theorem grow {others : List Shape} {l : Layer} {s : Shape} (h : p.Built) (hl : l ∈ p.layers)
    (hs : (growFrame others l.shape).result = .ok s) : (p.replace l.number s).Built := by
  have hchange : BatchChange [] p (p.replace l.number s) := .grow hl hs
  have hwf := h.well_formed.change hchange
  have hnumeric := growFrame_numeric hs
  obtain ⟨x, y, w, height, rfl⟩ := growFrame_eq_ok hs
  have hunboxed := h.well_formed.replace_map hl Shape.unboxed
    (s := { l.shape with x := x, y := y, w := w, h := height }) rfl
  refine ⟨hwf, h.keyed, fun t ht => ?_, ?_, fun m hm => ?_⟩
  · obtain ⟨m, hm, rfl⟩ := List.mem_map.mp ht
    rcases layers_replace hm with ⟨-, hshape⟩ | ⟨-, hm⟩
    · obtain ⟨hid, hkind, hends, hnum⟩ := h.made l.shape (List.mem_map_of_mem hl)
      rw [hshape]
      -- Only the box is new, and its numbers come out of arithmetic.
      exact ⟨hid, hkind, hends, hnumeric hnum⟩
    · exact h.made m.shape (List.mem_map_of_mem hm)
  · -- Ids and kinds can be read off the shapes without their boxes, which are the same.
    have hothers (ss : List Shape) : (ss.filter (! isFrame ·)).map (·.id) =
        ((ss.map Shape.unboxed).filter (! isFrame ·)).map (·.id) := by
      rw [List.filter_map, List.map_map]
      rfl
    rw [hothers, hunboxed, ← hothers]
    exact h.in_order
  · obtain ⟨t, ht, hid, hframe⟩ := h.bound m hm
    obtain ⟨t', ht', heq⟩ := List.mem_map.mp (hunboxed.symm ▸ List.mem_map_of_mem ht)
    refine ⟨t', ht', ?_, ?_⟩
    · have hsame : t'.unboxed.id = t.unboxed.id := congrArg Shape.id heq
      exact hsame.trans hid
    · have hsame : isFrame t'.unboxed = isFrame t.unboxed := congrArg isFrame heq
      exact hsame.trans hframe

theorem newId_full {custom : Option String} {line : LineNumber} {id : String}
    (h : p.newId custom line = .ok id) : fullId id = id := by
  rcases newId_eq_ok.mp h with ⟨-, rfl⟩ | ⟨c, -, -, rfl⟩
  · exact fullId_append _
  · exact fullId_fullId c

theorem change {is : List Instruction} (h : p.Built) (his : ∀ i ∈ is, i.Numeric)
    (hc : BatchChange is p q) : q.Built := by
  cases hc with
  | shape hi hs hq =>
    obtain ⟨hid, hk, -, hstart, hfinish⟩ := newShape_eq_ok hs
    have hnumeric := newShape_numeric hs (his _ hi)
    exact h.add ⟨newId_full hid, ⟨_, hk⟩, by rw [hstart, hfinish], hnumeric⟩ hq
  | connector _ hs hq =>
    obtain ⟨hid, hk, -, hstart, hfinish⟩ := newConnector_eq_ok hs
    have hnumeric := newConnector_numeric hs
    exact h.add ⟨newId_full hid, ⟨_, hk⟩, by rw [hstart, hfinish], hnumeric⟩ hq
  | bind hs hk hq => exact h.bind hs hk hq
  | framesToBottom hq => exact h.framesToBottom hq
  | grow hl hs => exact h.grow hl hs

end Built

theorem Parsed.numeric {is : List Instruction} (h : Parsed is) : ∀ i ∈ is, i.Numeric := by
  rcases h with ⟨text, h⟩ | ⟨records, h⟩
  · exact Source.numeric_of_source h
  · exact Record.numeric_of_records h

theorem Batched.built {p : Page} (h : Batched p) : p.Built := by
  induction h with
  | empty => exact .empty
  | apply _ his ha ih =>
    have hsteps := apply_changes ha
    clear ha
    induction hsteps with
    | refl => exact ih.copy
    | tail _ hc ih => exact ih.change his.numeric hc

/-! ## Reading back -/

/-- Whether an id is that of a connector with bindings. -/
def isBound (p : Page) (id : String) : Bool := p.links.any (·.connector == id)

/-- Connectors with bindings are drawn in the order in which they were added. -/
theorem Built.connectors_in_order {p : Page} (h : p.Built) :
    (p.shapes.map (·.id)).filter p.isBound = p.ids.filter p.isBound := by
  have hids : (p.shapes.map (·.id)).Perm p.ids := shapes_ids p ▸ h.well_formed.ids_perm
  have hnodup : (p.shapes.map (·.id)).Nodup := hids.nodup_iff.mpr h.well_formed.ids_nodup
  have hnoframe : ∀ s ∈ p.shapes, p.isBound s.id → isFrame s = false := by
    intro s hs hbound
    obtain ⟨l, hl, hid⟩ := List.any_eq_true.mp hbound
    obtain ⟨t, ht, htid, hframe⟩ := h.bound l hl
    have hts : t = s := List.inj_on_of_nodup_map hnodup ht hs (htid.trans (eq_of_beq hid))
    exact hts ▸ hframe
  -- Frames have no bindings, and the other shapes keep their order.
  have hothers : (p.shapes.map (·.id)).filter p.isBound =
      ((p.shapes.filter (! isFrame ·)).map (·.id)).filter p.isBound := by
    rw [List.filter_map, List.filter_map, List.filter_filter]
    congr 1
    refine List.filter_congr fun s hs => ?_
    cases hbound : p.isBound s.id with
    | false => simp [hbound]
    | true => simp [hbound, hnoframe s hs hbound]
  -- A part of the ids in their order that is as long as all of them is all of them.
  have hsub := h.in_order.filter p.isBound
  rw [← hothers] at hsub
  exact hsub.eq_of_length (hids.filter _).length_eq

/-- A page that batches made is read back from its records with the same shapes, in the same
order, and with the same bindings in the same order, if all its numbers are finite. -/
theorem reload_batched {p : Page} (h : Batched p)
    (hn : ∀ s ∈ p.shapes, ∀ n ∈ s.numbers, n.isFinite = .ok true) :
    ∃ q, p.reload = .ok q ∧ q.shapes = p.shapes ∧ q.bindings = p.bindings := by
  have hp := h.built
  obtain ⟨q, hq, hshapes, hids, hlinks⟩ := reload_ok hp.well_formed hp.keyed
    fun s hs => (hp.made s hs).storable (hn s hs)
  refine ⟨q, hq, ?_, ?_⟩
  · have hself : p.shapes.map Shape.recorded = p.shapes.map id :=
      List.map_congr_left fun s hs => recorded_eq_self.mpr (hp.made s hs).ends_paired
    rw [hshapes, hself, List.map_id]
  · have hbound : ∀ b ∈ p.links.map (·.toBinding), p.isBound b.connector := by
      intro b hb
      obtain ⟨l, hl, rfl⟩ := List.mem_map.mp hb
      exact List.any_eq_true.mpr ⟨l, hl, beq_self_eq_true _⟩
    have hon : ∀ k ∈ p.shapes.map (·.id), k ∈ p.ids := fun k hk =>
      hp.well_formed.ids_perm.subset (shapes_ids p ▸ hk)
    -- Ids of the new page are in drawing order; on connectors with bindings both orders agree.
    calc q.bindings
        = listing (·.connector) (·.shape) (p.shapes.map (·.id)) p.bindings := by
          rw [bindings_eq_listing, hlinks, hids]
      _ = listing (·.connector) (·.shape) (p.shapes.map (·.id))
            (p.links.map (·.toBinding)) := by
          rw [bindings_eq_listing]
          exact listing_listing hp.well_formed.ids_nodup hon _
      _ = listing (·.connector) (·.shape) p.ids (p.links.map (·.toBinding)) := by
          rw [← listing_filter (p := p.isBound) hbound, hp.connectors_in_order,
            listing_filter (p := p.isBound) hbound]
      _ = p.bindings := (bindings_eq_listing p).symm

/-- A box with a connector, and then a frame, which goes to the bottom and grows. -/
theorem reload_batched_frame : ∃ p, Batched p ∧
    (∀ s ∈ p.shapes, ∀ n ∈ s.numbers, n.isFinite = .ok true) ∧
    p.ids = ["shape:a", "shape:2", "shape:3"] ∧
    p.shapes.map (·.id) = ["shape:3", "shape:a", "shape:2"] ∧
      ∃ q, p.reload = .ok q ∧ q.shapes = p.shapes ∧ q.bindings = p.bindings := by
  let first : Value := .list [
    .object [("shape", .text "rect"), ("x", .number 20), ("y", .number 20), ("w", .number 40),
      ("h", .number 20), ("id", .text "a")],
    .object [("type", .text "arrow"), ("from", .text "a"), ("to", .text "100,30")]]
  let second : Value := .list [
    .object [("shape", .text "frame"), ("x", .number 0), ("y", .number 0),
      ("w", .number 200), ("h", .number 20)]]
  let a : ShapeInstruction :=
    { kind := .rectangle, position := some ⟨20, 20⟩, size := some ⟨40, 20⟩, id := some "a" }
  let f : ShapeInstruction :=
    { kind := .frame, position := some ⟨0, 0⟩, size := some ⟨200, 20⟩ }
  let box : Shape :=
    { id := "shape:a", kind := .known .rectangle, x := 20, y := 20, w := 40, h := 20
      style := fullStyle {} .rectangle }
  let real (n : Nat) : Scalar := .real (.ofDecimal false n 0)
  let arrow : Shape :=
    { id := "shape:2", kind := .known .connector, x := real 60, y := real 30
      style := fullStyle {} .connector, start := some ⟨real 0, real 0⟩
      finish := some ⟨real 40, real 0⟩ }
  let frame : Shape :=
    { id := "shape:3", kind := .known .frame, w := 200, h := 60, label := "Frame"
      style := fullStyle {} .frame }
  let links : List Link := [⟨⟨"shape:2", "shape:a", .text "start"⟩, .text "start"⟩]
  let p : Page :=
    { layers := [⟨0, box⟩, ⟨1, arrow⟩], ids := ["shape:a", "shape:2"], links }
  let q : Page :=
    { layers := [⟨2, frame⟩, ⟨0, box⟩, ⟨1, arrow⟩], ids := ["shape:a", "shape:2", "shape:3"]
      links }
  let drawn : List Instruction := [.shape a, .connector { source := "a", target := "100,30" }]
  have hfirst : Record.instructions first = .ok drawn := by decide +kernel
  have hsecond : Record.instructions second = .ok [.shape f] := by decide +kernel
  have hp : (Page.empty.apply 0 drawn).result = .ok (p, ["shape:a", "shape:2"]) := by
    decide +kernel
  have hq : (p.apply 0 [.shape f]).result = .ok (q, ["shape:3"]) := by decide +kernel
  have hbatched : Batched q := (Batched.empty.apply (.inr ⟨_, hfirst⟩) hp).apply
    (.inr ⟨_, hsecond⟩) hq
  have hn : ∀ s ∈ q.shapes, ∀ n ∈ s.numbers, n.isFinite = .ok true := by decide +kernel
  exact ⟨q, hbatched, hn, rfl, rfl, reload_batched hbatched hn⟩

end Page

end DiagramScript
