import DiagramScript.Proofs.Page.LinkKeys
import DiagramScript.Proofs.Page.ShapeRecord
import DiagramScript.Proofs.Page.WellFormed

/-
  Pages read back from their own records.

  The bindings of a page are a listing of its links, connectors in the order of the ids. The
  page that is read back has its ids in drawing order and its links in the order of that
  listing (`reload_ok`), so its bindings are listed in the same order wherever the connectors
  are drawn in the order in which they were added. On pages that come from records they are,
  and the page comes back but for ends of connectors that stand alone (`reload_ofRecords`).
-/

namespace DiagramScript.Page
open Link (Keyed)

/-! ## Listings -/

theorem bindings_eq_listing (p : Page) : p.bindings =
    listing (·.connector) (·.shape) p.ids (p.links.map (·.toBinding)) :=
  (listing_map (f := Binding.connector) (g := Binding.shape) Link.toBinding p.links).symm

theorem WellFormed.keyed_listed {p : Page} (h : p.WellFormed) (hk : Keyed p.links) :
    Keyed p.listed :=
  hk.of_between fun _ => filter_filter_listing h.ids_nodup (fun l hl => (h.ends_on l hl).1) _ _

/-! ## Reading shapes -/

theorem addRecord_shapeValue {p : Page} {s : Shape} (hs : s.Storable) (index : Nat) :
    p.addRecord (shapeValue s) index = p.add s.recorded := by
  rw [shapeValue, addRecord, shapeOfFields_shapeFields hs]
  rfl

theorem recorded_id (s : Shape) : s.recorded.id = s.id := by
  unfold Shape.recorded
  split <;> rfl

theorem addRecords_shapeValues {ss : List Shape} (hs : ∀ s ∈ ss, s.Storable)
    (hn : (ss.map (·.id)).Nodup) {p : Page} (hfree : ∀ s ∈ ss, s.id ∉ p.ids) (index : Nat) :
    ∃ q, p.addRecords index (ss.map shapeValue) = .ok q ∧
      q.shapes = p.shapes ++ ss.map Shape.recorded ∧ q.ids = p.ids ++ ss.map (·.id) ∧
        q.links = p.links := by
  induction ss generalizing p index with
  | nil => exact ⟨p, rfl, by simp, by simp, rfl⟩
  | cons s ss ih =>
    rw [List.map_cons, List.nodup_cons] at hn
    obtain ⟨hid, hn⟩ := hn
    -- The id is still free when its turn comes, since all ids are distinct.
    have hadd : p.add s.recorded = .ok { p with
        layers := p.layers ++ [⟨p.ids.length, s.recorded⟩], ids := p.ids ++ [s.id] } :=
      add_eq_ok.mpr ⟨recorded_id s ▸ hfree s List.mem_cons_self, by rw [recorded_id]⟩
    obtain ⟨q, hq, hshapes, hids, hlinks⟩ := ih (fun t ht => hs t (List.mem_cons_of_mem s ht)) hn
      (p := { p with layers := p.layers ++ [⟨p.ids.length, s.recorded⟩], ids := p.ids ++ [s.id] })
      (by
        intro t ht hmem
        rcases List.mem_append.mp hmem with hmem | hmem
        · exact hfree t (List.mem_cons_of_mem s ht) hmem
        · rw [List.mem_singleton] at hmem
          exact hid (hmem ▸ List.mem_map_of_mem ht)) (index + 1)
    refine ⟨q, ?_, ?_, ?_, hlinks⟩
    · rw [List.map_cons, addRecords, addRecord_shapeValue (hs s List.mem_cons_self), hadd]
      exact hq
    · rw [hshapes]
      simp [shapes]
    · rw [hids]
      simp

/-! ## Reading bindings -/

theorem bindRecord_bindingValue (p : Page) (b : Binding) :
    p.bindRecord (bindingValue b) = p.bind b := by
  show p.bindValues (.text b.connector) (.text b.shape) b.terminal.toValue = p.bind b
  rw [bindValues, boundId, boundId, Terminal.ofValue?_toValue]
  -- Both sides are looked for twice.
  cases hc : p.checkId b.connector with
  | error e =>
    rw [bind, hc]
    rfl
  | ok u =>
    cases hs : p.checkId b.shape with
    | error e =>
      rw [bind, hc, hs]
      rfl
    | ok u => rfl

theorem foldlM_bindRecord {p : Page} {bs : List Binding}
    (h : ∀ b ∈ bs, b.connector ∈ p.ids ∧ b.shape ∈ p.ids) :
    (bs.map bindingValue).foldlM bindRecord p =
      .ok { p with links := bs.foldl Link.make p.links } := by
  induction bs generalizing p with
  | nil => rfl
  | cons b bs ih =>
    obtain ⟨hc, hs⟩ := h b List.mem_cons_self
    have hb : p.bind b = .ok { p with links := Link.make p.links b } :=
      bind_eq_ok.mpr ⟨hc, hs, rfl⟩
    rw [List.map_cons, List.foldlM_cons, bindRecord_bindingValue, hb]
    exact ih fun b' hb' => h b' (List.mem_cons_of_mem b hb')

/-! ## Reading back -/

/-- A page whose shapes can be recorded and whose links are keyed is read back from its
records: with its shapes as recorded, and with its bindings as links in their order. -/
theorem reload_ok {p : Page} (h : p.WellFormed) (hk : Keyed p.links)
    (hs : ∀ s ∈ p.shapes, s.Storable) : ∃ q, p.reload = .ok q ∧
      q.shapes = p.shapes.map Shape.recorded ∧ q.ids = p.shapes.map (·.id) ∧
        q.links.map (·.toBinding) = p.bindings := by
  have hids : (p.shapes.map (·.id)).Perm p.ids := shapes_ids p ▸ h.ids_perm
  obtain ⟨q, hq, hshapes, hqids, hlinks⟩ := addRecords_shapeValues hs
    (hids.nodup_iff.mpr h.ids_nodup) (p := empty) (fun _ _ => List.not_mem_nil) 0
  -- Every shape is there when the first binding is read.
  have hon : ∀ b ∈ p.bindings, b.connector ∈ q.ids ∧ b.shape ∈ q.ids := by
    intro b hb
    obtain ⟨hc, hs⟩ := h.mem_bindings hb
    rw [hqids]
    exact ⟨hids.mem_iff.mpr hc, hids.mem_iff.mpr hs⟩
  refine ⟨{ q with links := p.bindings.foldl Link.make q.links }, ?_, hshapes, hqids, ?_⟩
  · rw [reload, ofRecords]
    show (empty.addRecords 0 (p.shapes.map shapeValue) >>= fun page =>
      (p.bindings.map bindingValue).foldlM bindRecord page) = _
    rw [hq]
    exact foldlM_bindRecord hon
  · show (p.bindings.foldl Link.make q.links).map _ = _
    rw [hlinks]
    -- Bindings come in the order of the listing, and no two of them are one.
    exact (h.keyed_listed hk).remake.1

/-! ## Pages that come from records -/

/-- What a page has that was read from records. -/
structure Loaded (p : Page) : Prop where
  well_formed : p.WellFormed
  keyed : Keyed p.links
  storable : ∀ s ∈ p.shapes, s.Storable
  ids_drawn : p.ids = p.shapes.map (·.id)

namespace Loaded
variable {p q : Page}

theorem empty : Loaded Page.empty where
  well_formed := .empty
  keyed := .nil
  storable := fun s hs => by simp [Page.empty, shapes] at hs
  ids_drawn := rfl

theorem add {s : Shape} (h : p.Loaded) (hs : s.Storable) (hq : p.add s = .ok q) :
    q.Loaded := by
  have hwf := h.well_formed.add hq
  obtain ⟨-, rfl⟩ := add_eq_ok.mp hq
  refine ⟨hwf, h.keyed, fun t ht => ?_, ?_⟩
  · simp only [shapes, List.map_append, List.mem_append, List.map_cons, List.map_nil,
      List.mem_singleton] at ht
    rcases ht with ht | rfl
    · exact h.storable t ht
    · exact hs
  · rw [h.ids_drawn]
    simp [shapes]

theorem bind {b : Binding} (h : p.Loaded) (hq : p.bind b = .ok q) : q.Loaded := by
  have hwf := h.well_formed.bind hq
  obtain ⟨-, -, rfl⟩ := bind_eq_ok.mp hq
  exact ⟨hwf, h.keyed.make b, h.storable, h.ids_drawn⟩

theorem ofRecords {shapes bindings : Value} (h : Page.ofRecords shapes bindings = .ok q) :
    q.Loaded :=
  ofRecords_induction h empty (fun hp hs hq => hp.add (storable_of_fields hs) hq)
    fun hp hq => hp.bind hq

end Loaded

/-- Exactly a shape with one end that stands alone is not as it is recorded. -/
theorem recorded_eq_self {s : Shape} : s.recorded = s ↔ s.start.isSome = s.finish.isSome := by
  obtain ⟨id, kind, x, y, w, h, label, style, start, finish⟩ := s
  cases start <;> cases finish <;> simp [Shape.recorded]

/-- A page that was read from records is read back from its own ones: with the same bindings,
and with the same shapes exactly if each of them has both ends or none. -/
theorem reload_ofRecords {shapes bindings : Value} {p : Page}
    (h : ofRecords shapes bindings = .ok p) : ∃ q, p.reload = .ok q ∧
      q.bindings = p.bindings ∧ q.shapes = p.shapes.map Shape.recorded ∧
        (q.shapes = p.shapes ↔ ∀ s ∈ p.shapes, s.start.isSome = s.finish.isSome) := by
  have hp := Loaded.ofRecords h
  obtain ⟨q, hq, hshapes, hids, hlinks⟩ := reload_ok hp.well_formed hp.keyed hp.storable
  refine ⟨q, hq, ?_, hshapes, ?_⟩
  · rw [bindings_eq_listing, hlinks, hids, ← hp.ids_drawn, bindings_eq_listing]
    exact listing_listing hp.well_formed.ids_nodup (fun _ hk => hk) _
  · have hself : p.shapes.map Shape.recorded = p.shapes ↔ ∀ s ∈ p.shapes, s.recorded = s := by
      simpa using List.map_inj_left (f := Shape.recorded) (g := fun s => s) (l := p.shapes)
    rw [hshapes, hself]
    exact forall₂_congr fun s _ => recorded_eq_self

/-- Records that leave most of their fields out, with a binding without terminal. -/
theorem reload_ofRecords_bound : ∃ shapes bindings p,
    ofRecords shapes bindings = .ok p ∧
      ∃ q, p.reload = .ok q ∧ q.bindings = p.bindings ∧
        q.shapes = p.shapes.map Shape.recorded ∧
          (q.shapes = p.shapes ↔ ∀ s ∈ p.shapes, s.start.isSome = s.finish.isSome) := by
  let box : Shape := { id := "shape:a", kind := .known .rectangle, w := 30 }
  let arrow : Shape :=
    { id := "shape:2", kind := .known .connector, start := some ⟨0, 5⟩, finish := some ⟨7, 0⟩ }
  let p : Page :=
    { layers := [⟨0, box⟩, ⟨1, arrow⟩], ids := ["shape:a", "shape:2"]
      links := [⟨⟨"shape:2", "shape:a", .unnamed⟩, .number 0⟩] }
  let shapes : Value := .list [
    .object [("type", .text "geo"), ("id", .text "a"), ("w", .number 30)],
    .object [("kind", .text "arrow"), ("start", .object [("y", .number 5)]),
      ("end", .object [("x", .number 7)])]]
  let bindings : Value := .list [
    .object [("fromId", .text "shape:2"), ("toId", .text "shape:a"), ("terminal", .null)]]
  have h : ofRecords shapes bindings = .ok p := by decide +kernel
  exact ⟨shapes, bindings, p, h, reload_ofRecords h⟩

/-- An end that stands alone is lost. -/
theorem reload_lone_start : ∃ p q,
    ofRecords (.list [.object [("type", .text "arrow"), ("id", .text "a"),
      ("start", .object [("x", .number 1), ("y", .number 2)])]]) (.list []) = .ok p ∧
      p.reload = .ok q ∧ q.shapes ≠ p.shapes := by
  let arrow : Shape := { id := "shape:a", kind := .known .connector, start := some ⟨1, 2⟩ }
  have h : ofRecords (.list [.object [("type", .text "arrow"), ("id", .text "a"),
      ("start", .object [("x", .number 1), ("y", .number 2)])]]) (.list []) =
        .ok { layers := [⟨0, arrow⟩], ids := ["shape:a"] } := by
    decide +kernel
  have hloaded := Loaded.ofRecords h
  obtain ⟨q, hq, hshapes, -, -⟩ :=
    reload_ok hloaded.well_formed hloaded.keyed hloaded.storable
  refine ⟨_, q, h, hq, ?_⟩
  rw [hshapes]
  show [arrow.recorded] ≠ [arrow]
  decide

end DiagramScript.Page
