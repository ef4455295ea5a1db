import DiagramScript.Proofs.Grouping
import DiagramScript.Proofs.Page.Steps

/-
  The stores of a page fit together.

  Layers, ids and links of a page are written by different steps. `WellFormed` says how they
  belong together, and every way to make or change a page keeps it. What a reader of a page
  sees of that is `Consistent`: every shape has its own id, the ids of the binding graph are
  those of the shapes, bindings stay on the page, and the three listings of bindings agree.
-/

namespace DiagramScript.Page

structure WellFormed (p : Page) : Prop where
  ids_nodup : p.ids.Nodup
  ids_perm : (p.layers.map (·.shape.id)).Perm p.ids
  numbers_nodup : (p.layers.map (·.number)).Nodup
  /-- The next shape to be added gets a number of its own. -/
  number_lt : ∀ l ∈ p.layers, l.number < p.ids.length
  ends_on : ∀ l ∈ p.links, l.connector ∈ p.ids ∧ l.shape ∈ p.ids

/-- What the parts of a page say about each other. -/
structure Consistent (p : Page) : Prop where
  ids_distinct : (p.shapes.map (·.id)).Nodup
  nodes : p.ids.Perm (p.shapes.map (·.id))
  ends : ∀ b ∈ p.bindings, b.connector ∈ p.shapes.map (·.id) ∧ b.shape ∈ p.shapes.map (·.id)
  of_connectors : ((p.shapes.map (·.id)).flatMap p.bindingsOf).Perm p.bindings
  for_shapes : ((p.shapes.map (·.id)).flatMap p.bindingsFor).Perm p.bindings

theorem shapes_ids (p : Page) : p.shapes.map (·.id) = p.layers.map (·.shape.id) := by
  simp [shapes]

namespace WellFormed
variable {p q : Page}

theorem empty : WellFormed Page.empty where
  ids_nodup := List.nodup_nil
  ids_perm := .refl _
  numbers_nodup := List.nodup_nil
  number_lt := by simp [Page.empty]
  ends_on := by simp [Page.empty]

theorem add {s : Shape} (h : p.WellFormed) (ha : p.add s = .ok q) : q.WellFormed := by
  obtain ⟨hid, rfl⟩ := add_eq_ok.mp ha
  constructor
  -- The new id is free, and the new number lies above all others.
  · exact List.nodup_append.mpr ⟨h.ids_nodup, List.nodup_singleton _, by
      intro a ha b hb hab
      rw [List.mem_singleton] at hb
      exact hid (hb ▸ hab ▸ ha)⟩
  · simpa using h.ids_perm.append_right [s.id]
  · simp only [List.map_append, List.map_cons, List.map_nil]
    refine List.nodup_append.mpr ⟨h.numbers_nodup, List.nodup_singleton _, ?_⟩
    intro a ha b hb hab
    obtain ⟨l, hl, rfl⟩ := List.mem_map.mp ha
    have := h.number_lt l hl
    rw [List.mem_singleton] at hb
    omega
  · intro l hl
    simp only [List.length_append, List.length_singleton]
    rcases List.mem_append.mp hl with hl | hl
    · have := h.number_lt l hl
      omega
    · rw [List.mem_singleton] at hl
      subst hl
      exact Nat.lt_succ_self _
  · intro l hl
    obtain ⟨hc, hs⟩ := h.ends_on l hl
    exact ⟨List.mem_append_left _ hc, List.mem_append_left _ hs⟩

theorem bind {b : Binding} (h : p.WellFormed) (hb : p.bind b = .ok q) : q.WellFormed := by
  obtain ⟨hc, hs, rfl⟩ := bind_eq_ok.mp hb
  refine { h with ends_on := fun l hl => ?_ }
  rcases Link.mem_make hl with ⟨l', hl', h₁, h₂⟩ | ⟨h₁, h₂⟩
  · rw [h₁, h₂]
    exact h.ends_on l' hl'
  · rw [h₁, h₂]
    exact ⟨hc, hs⟩

/-- A page with other layers of the same ids, each with a number of its own. -/
theorem withLayers {layers : List Layer} (h : p.WellFormed)
    (hids : (layers.map (·.shape.id)).Perm (p.layers.map (·.shape.id)))
    (hnodup : (layers.map (·.number)).Nodup) (hlt : ∀ l ∈ layers, l.number < p.ids.length) :
    { p with layers }.WellFormed :=
  { h with ids_perm := hids.trans h.ids_perm, numbers_nodup := hnodup, number_lt := hlt }

theorem framesToBottom (h : p.WellFormed) (hq : p.framesToBottom = .ok q) :
    q.WellFormed := by
  rw [framesToBottom_eq] at hq
  cases hq
  have hp := List.filter_append_perm (isFrame ·.shape) p.layers
  refine h.withLayers (hp.map _) ((hp.map _).nodup_iff.mpr h.numbers_nodup) fun l hl => ?_
  exact h.number_lt l (hp.subset hl)

/-- What the new shape of a layer has in common with the old one, the page keeps. -/
theorem replace_map {α : Type} {l : Layer} {s : Shape} (h : p.WellFormed) (hl : l ∈ p.layers)
    (f : Shape → α) (hs : f s = f l.shape) :
    (p.replace l.number s).shapes.map f = p.shapes.map f := by
  simp only [Page.replace, shapes, List.map_map]
  refine List.map_congr_left fun m hm => ?_
  by_cases hn : m.number = l.number
  · -- Only one layer has this number.
    have hml : m = l := List.inj_on_of_nodup_map h.numbers_nodup hm hl hn
    simp [hml, hs]
  · simp [hn]

/-- A shape with the id of the shape in a layer may take its place. -/
theorem replace {l : Layer} {s : Shape} (h : p.WellFormed) (hl : l ∈ p.layers)
    (hs : s.id = l.shape.id) : (p.replace l.number s).WellFormed := by
  have hids : (p.replace l.number s).layers.map (·.shape.id) = p.layers.map (·.shape.id) := by
    rw [← shapes_ids, ← shapes_ids]
    exact h.replace_map hl (·.id) hs
  have hnum : (p.replace l.number s).layers.map (·.number) = p.layers.map (·.number) := by
    simp only [Page.replace, List.map_map]
    refine List.map_congr_left fun m _ => ?_
    by_cases hn : m.number = l.number <;> simp [hn]
  refine h.withLayers (hids ▸ .refl _) (hnum ▸ h.numbers_nodup) fun m hm => ?_
  have hmem : m.number ∈ p.layers.map (·.number) := hnum ▸ List.mem_map_of_mem hm
  obtain ⟨m', hm', hnn⟩ := List.mem_map.mp hmem
  exact hnn ▸ h.number_lt m' hm'

theorem linksOf_perm (h : p.WellFormed) {ids : List String} (hids : ids.Perm p.ids) :
    (ids.flatMap p.linksOf).Perm p.links := by
  have hgroup : ∀ id, (p.linksOf id).Perm (p.links.filter (·.connector == id)) :=
    fun id => groupBy_perm _ _
  have hflat : (ids.flatMap p.linksOf).Perm
      (ids.flatMap fun id => p.links.filter (·.connector == id)) :=
    List.Perm.flatMap_left ids fun id _ => hgroup id
  exact hflat.trans (flatMap_filter_perm (hids.nodup_iff.mpr h.ids_nodup)
    fun l hl => hids.mem_iff.mpr (h.ends_on l hl).1)

theorem copy (h : p.WellFormed) : p.copy.WellFormed :=
  { h with ends_on := fun l hl => h.ends_on l ((h.linksOf_perm (.refl _)).subset hl) }

theorem change {is : List Instruction} (h : p.WellFormed) (hc : BatchChange is p q) :
    q.WellFormed := by
  cases hc with
  | shape _ _ hq => exact h.add hq
  | connector _ _ hq => exact h.add hq
  | bind _ _ hq => exact h.bind hq
  | framesToBottom hq => exact h.framesToBottom hq
  | grow hl hs =>
    obtain ⟨x, y, w, h', rfl⟩ := growFrame_eq_ok hs
    exact h.replace hl rfl

theorem apply {padding : Scalar} {is : List Instruction} {ids : List String}
    (h : p.WellFormed) (ha : (p.apply padding is).result = .ok (q, ids)) : q.WellFormed := by
  have hsteps := apply_changes ha
  clear ha
  induction hsteps with
  | refl => exact h.copy
  | tail _ hc ih => exact ih.change hc

/-! ## New pages -/

theorem ofShapes {shapes : List Shape} (h : Page.ofShapes shapes = .ok q) : q.WellFormed :=
  Outcome.foldlM_ok_induction (fun _ _ _ _ hp hq => hp.add hq) empty h

theorem bindValues {connector shape terminal : Value} (h : p.WellFormed)
    (hq : p.bindValues connector shape terminal = .ok q) : q.WellFormed := by
  obtain ⟨b, -, hb⟩ := bindValues_eq_ok.mp hq
  exact h.bind hb

theorem ofRecords {shapes bindings : Value} (h : Page.ofRecords shapes bindings = .ok q) :
    q.WellFormed :=
  ofRecords_induction h empty (fun hp _ hq => hp.add hq) fun hp hq => hp.bind hq

/-! ## What a reader of the page sees -/

theorem mem_bindings (h : p.WellFormed) {b : Binding} (hb : b ∈ p.bindings) :
    b.connector ∈ p.ids ∧ b.shape ∈ p.ids := by
  obtain ⟨l, hl, rfl⟩ := List.mem_map.mp hb
  exact h.ends_on l ((h.linksOf_perm (.refl _)).subset hl)

theorem bindingsFor_perm (h : p.WellFormed) {ids : List String} (hids : ids.Perm p.ids) :
    (ids.flatMap p.bindingsFor).Perm (p.links.map (·.toBinding)) := by
  have hflat : (ids.flatMap p.bindingsFor).Perm
      ((ids.flatMap fun id => p.links.filter (·.shape == id)).map (·.toBinding)) := by
    rw [List.map_flatMap]
    exact List.Perm.flatMap_left ids fun id _ => (groupBy_perm _ _).map _
  exact hflat.trans ((flatMap_filter_perm (hids.nodup_iff.mpr h.ids_nodup)
    fun l hl => hids.mem_iff.mpr (h.ends_on l hl).2).map _)

theorem bindingsOf_perm (h : p.WellFormed) {ids : List String} (hids : ids.Perm p.ids) :
    (ids.flatMap p.bindingsOf).Perm (p.links.map (·.toBinding)) := by
  have hflat : ids.flatMap p.bindingsOf = (ids.flatMap p.linksOf).map (·.toBinding) := by
    rw [List.map_flatMap]
    rfl
  rw [hflat]
  exact (h.linksOf_perm hids).map _

theorem bindings_perm (h : p.WellFormed) : p.bindings.Perm (p.links.map (·.toBinding)) :=
  (h.linksOf_perm (.refl _)).map _

theorem consistent (h : p.WellFormed) : p.Consistent := by
  have hids : (p.shapes.map (·.id)).Perm p.ids := shapes_ids p ▸ h.ids_perm
  refine ⟨hids.nodup_iff.mpr h.ids_nodup, hids.symm, fun b hb => ?_, ?_, ?_⟩
  · obtain ⟨hc, hs⟩ := h.mem_bindings hb
    exact ⟨hids.mem_iff.mpr hc, hids.mem_iff.mpr hs⟩
  · exact (h.bindingsOf_perm hids).trans h.bindings_perm.symm
  · exact (h.bindingsFor_perm hids).trans h.bindings_perm.symm

end WellFormed

end DiagramScript.Page
