import DiagramScript.Proofs.Number.Exact
import DiagramScript.Proofs.Page.Extends

/-
  Connectors on the shapes that they are bound to.

  A connector is created with its ends at the border points of the shapes that it refers to,
  and later instructions leave these shapes alone (`Drawn`, kept by `Extends`). So a connector
  meets its shapes on the page that holds all instructions, and on the final page unless one
  of the shapes is a frame that was grown since (`apply_attached`): a connector is not drawn
  again where a frame grows.
-/

namespace DiagramScript

/-- An end of a connector. -/
inductive End where
  | start
  | finish
  deriving DecidableEq, Repr

namespace End

def other : End → End
  | start => finish
  | finish => start

/-- The terminal of a binding. -/
def name : End → String
  | start => "start"
  | finish => "end"

/-- What an instruction says about the end. -/
def text (e : End) (i : ConnectorInstruction) : String :=
  match e with
  | start => i.source
  | finish => i.target

/-- Where the end is, relative to the place of the connector. -/
def offset (e : End) (s : Shape) : Option Point :=
  match e with
  | start => s.start
  | finish => s.finish

end End

/-- What belongs to both ends. -/
def End.both {α : Type} (a b : α) : End → α
  | .start => a
  | .finish => b

namespace Page

/-! ## On a page -/

/-- An end of a connector is bound to a shape. -/
def Bound (p : Page) (connector : String) (e : End) (t : Shape) : Prop :=
  ⟨connector, t.id, .text e.name⟩ ∈ p.bindingsOf connector ∧ p.get? t.id = some t

/-- What an end of a connector refers to: the middle of the shape to which it is bound, or else
the coordinate in its text. -/
inductive Refers (p : Page) (i : ConnectorInstruction) (connector : String) (e : End) :
    Point → Prop where
  | shape {t : Shape} {r : Point} (h : p.Bound connector e t) (hr : t.center = .ok r) :
    Refers p i connector e r
  | coordinate {r : Point} (h : ∀ t, ¬ p.Bound connector e t)
    (hr : Measure.position (e.text i) i.line = .ok r) : Refers p i connector e r

section
variable {p : Page} {id : String} {t : Shape}

theorem bound_start (h : p.bindingsOf id = [⟨id, t.id, .text "start"⟩])
    (ht : p.get? t.id = some t) : p.Bound id .start t := by
  refine ⟨?_, ht⟩
  rw [h]
  exact List.mem_singleton.mpr rfl

theorem eq_of_bound (h : p.bindingsOf id = [⟨id, t.id, .text "start"⟩]) (ht : p.get? t.id = some t)
    {e : End} {u : Shape} (hu : p.Bound id e u) : e = .start ∧ u = t := by
  obtain ⟨hmem, hget⟩ := hu
  rw [h, List.mem_singleton, Binding.mk.injEq] at hmem
  obtain ⟨-, hid, hname⟩ := hmem
  rw [hid, ht, Option.some.injEq] at hget
  cases e with
  | start => exact ⟨rfl, hget.symm⟩
  | finish => simp [End.name] at hname

theorem refers_finish (h : p.bindingsOf id = [⟨id, t.id, .text "start"⟩])
    (ht : p.get? t.id = some t) {i : ConnectorInstruction} {r : Point}
    (hr : Measure.position i.target i.line = .ok r) : p.Refers i id .finish r := by
  refine .coordinate (fun u hu => ?_) hr
  cases (eq_of_bound h ht hu).1

end

/-- No operation rounds where a point is put relative to a place and back on the canvas. -/
structure PlacesExactly (place point : Point) : Prop where
  x : point.x.SubsExactly place.x
  y : point.y.SubsExactly place.y
  xBack : ∀ d, point.x.sub place.x = .ok d → place.x.AddsExactly d
  yBack : ∀ d, point.y.sub place.y = .ok d → place.y.AddsExactly d

theorem placesExactly_of_whole {place point : Point} {c : ℤ} (hx : place.x.IsWhole c)
    (hy : place.y.IsWhole c) (hpx : point.x.IsWhole c) (hpy : point.y.IsWhole c)
    (h : 3 * c < 2 ^ 50) (hc : 0 ≤ c) : PlacesExactly place point where
  x := hpx.subsExactly hx (by omega)
  y := hpy.subsExactly hy (by omega)
  xBack _ hd := hx.addsExactly (hpx.sub hx (by omega) hd) (by omega)
  yBack _ hd := hy.addsExactly (hpy.sub hy (by omega) hd) (by omega)

/-- An end of a connector lies at the border point of each shape to which it is bound, seen from
what the other end refers to; up to rounding, as the end is kept relative to the place of the
connector. -/
def Meets (p : Page) (padding : Scalar) (i : ConnectorInstruction) (s : Shape) (e : End) : Prop :=
  ∀ t r, p.Bound s.id e t → p.Refers i s.id e.other r →
    ∃ offset point, e.offset s = some offset ∧ Border.point t r padding = .ok point ∧
      (PlacesExactly ⟨s.x, s.y⟩ point →
        ∃ a, s.absolute offset = .ok a ∧ a.x.same point.x ∧ a.y.same point.y)

/-! ## Single connectors -/

theorem anchor_eq_ok {p : Page} (hp : p.WellFormed) {text : String} {line : LineNumber}
    {a : Anchor} (h : p.anchor text line = .ok a) :
    (a.shape = none → Measure.isPosition text.toList = true ∧
        Measure.position text line = .ok a.point) ∧
      ∀ t ∈ a.shape, p.get? t.id = some t ∧ t.center = .ok a.point := by
  unfold anchor at h
  split at h
  · rename_i hposition
    obtain ⟨point, hpoint, h⟩ := Outcome.bind_eq_ok.mp h
    cases h
    exact ⟨fun _ => ⟨hposition, hpoint⟩, fun t ht => by cases ht⟩
  · split at h
    · cases h
    · rename_i t hfind
      obtain ⟨point, hpoint, h⟩ := Outcome.bind_eq_ok.mp h
      cases h
      constructor
      · intro hnone
        cases hnone
      · intro u hu
        cases hu
        exact ⟨hp.get?_of_find? hfind, hpoint⟩

/-- A connector keeps its ends relative to its place. -/
theorem offsets_of_connectorShape {id : String} {i : ConnectorInstruction} {ends : End → Point}
    {s : Shape} (h : connectorShape id i (ends .start) (ends .finish) = .ok s) (e : End) :
    ∃ offset, e.offset s = some offset ∧ (ends e).x.sub s.x = .ok offset.x ∧
      (ends e).y.sub s.y = .ok offset.y := by
  simp only [connectorShape, Outcome.bind_eq_ok] at h
  obtain ⟨sx, hsx, sy, hsy, ex, hex, ey, hey, h⟩ := h
  cases h
  cases e with
  | start => exact ⟨⟨sx, sy⟩, rfl, hsx, hsy⟩
  | finish => exact ⟨⟨ex, ey⟩, rfl, hex, hey⟩

theorem PlacesExactly.absolute {s : Shape} {point offset : Point}
    (h : PlacesExactly ⟨s.x, s.y⟩ point) (hx : point.x.sub s.x = .ok offset.x)
    (hy : point.y.sub s.y = .ok offset.y) :
    ∃ a, s.absolute offset = .ok a ∧ a.x.same point.x ∧ a.y.same point.y := by
  obtain ⟨x, _, _, hxadd, _⟩ := h.xBack _ hx
  obtain ⟨y, _, _, hyadd, _⟩ := h.yBack _ hy
  refine ⟨⟨x, y⟩, ?_, h.x.add_back hx (h.xBack _ hx) hxadd, h.y.add_back hy (h.yBack _ hy) hyadd⟩
  rw [Shape.absolute, hxadd, hyadd]
  rfl

/-- A connector as its instruction drew it: between what its ends refer to, and bound to the
shapes among those. -/
structure Drawn (padding : Scalar) (p : Page) (i : ConnectorInstruction) (s : Shape)
    (anchors : End → Anchor) (ends : End → Point) : Prop where
  shape : p.get? s.id = some s
  kind : s.kind = .known .connector
  coordinate : ∀ e, (anchors e).shape = none → Measure.isPosition (e.text i).toList = true ∧
    Measure.position (e.text i) i.line = .ok (anchors e).point
  anchored : ∀ e, ∀ t ∈ (anchors e).shape, p.get? t.id = some t ∧ t.center = .ok (anchors e).point
  tip : ∀ e, (anchors e).tip (anchors e.other).point padding = .ok (ends e)
  drawn : connectorShape s.id i (ends .start) (ends .finish) = .ok s
  links : p.madeFor s.id =
    linkOf s.id "start" (anchors .start).shape ++ linkOf s.id "end" (anchors .finish).shape

variable {p q m : Page} {padding : Scalar} {i : ConnectorInstruction}

theorem Drawn.extends {s : Shape} {anchors : End → Anchor} {ends : End → Point}
    (h : Drawn padding p i s anchors ends) (hp : p.WellFormed) (hq : Extends p q) :
    Drawn padding q i s anchors ends := by
  have hid : s.id ∈ p.ids := hp.mem_ids (hp.get?_eq_some.mp h.shape).1
  refine { h with
    shape := hq.shapes _ _ h.shape
    anchored := fun e t ht => ?_
    links := (hq.links _ hid).trans h.links }
  obtain ⟨hget, hcenter⟩ := h.anchored e t ht
  exact ⟨hq.shapes _ _ hget, hcenter⟩

theorem linkOf_connector {connector terminal : String} {target : Option Shape} :
    ∀ l ∈ linkOf connector terminal target, l.connector = connector := by
  intro l hl
  obtain ⟨t, -, rfl⟩ := List.mem_map.mp hl
  rfl

theorem madeFor_append {connector : String} {added : List Link}
    (h : ∀ l ∈ added, l.connector = connector) (id : String) :
    { p with links := p.links ++ added }.madeFor id =
      p.madeFor id ++ if connector = id then added else [] := by
  rw [madeFor, List.filter_append]
  congr 1
  split
  · rename_i hid
    rw [List.filter_eq_self]
    intro l hl
    rw [h l hl, hid, beq_self_eq_true]
  · rename_i hid
    rw [List.filter_eq_nil_iff]
    intro l hl
    rw [h l hl, beq_iff_eq]
    exact hid

theorem WellFormed.bindEnd {connector terminal : String} {target : Option Shape}
    (hp : p.WellFormed) (h : (p.bindEnd connector terminal target).result = .ok q) :
    q.WellFormed := by
  rcases bindEnd_eq_ok.mp h with ⟨-, rfl⟩ | ⟨t, -, hbind⟩
  · exact hp
  · exact hp.bind hbind

theorem bindEnds_links {connector : String} {a b : Option Shape}
    (hnew : p.madeFor connector = [])
    (ha : (p.bindEnd connector "start" a).result = .ok m)
    (hb : (m.bindEnd connector "end" b).result = .ok q) :
    q = { p with
      links := p.links ++ (linkOf connector "start" a ++ linkOf connector "end" b) } := by
  obtain rfl := bindEnd_links (by rw [hnew]; exact fun l hl => by cases hl) ha
  -- The link of the first end is of another terminal, so it stays when the second one is made.
  have hq := bindEnd_links (fun l hl => ?_) hb
  · rw [hq, List.append_assoc]
  · rw [madeFor_append linkOf_connector, hnew, if_pos rfl, List.nil_append] at hl
    obtain ⟨t, -, rfl⟩ := List.mem_map.mp hl
    rfl

theorem newConnector_drawn (hp : p.WellFormed) {s : Shape} {a b : Option Shape}
    (h : p.newConnector padding i = .ok (s, a, b)) (hq : Extends p q) (hs : q.get? s.id = some s)
    (hlinks : q.madeFor s.id = linkOf s.id "start" a ++ linkOf s.id "end" b) :
    ∃ anchors ends, Drawn padding q i s anchors ends := by
  obtain ⟨-, hkind, -⟩ := newConnector_eq_ok h
  simp only [newConnector, Outcome.bind_eq_ok] at h
  obtain ⟨source, hsource, target, htarget, first, hfirst, last, hlast, id, -, _, hdrawn, h⟩ := h
  cases h
  obtain rfl : s.id = id := (connectorShape_eq_ok hdrawn).1
  have hon (e : End) {a : Anchor} (ha : p.anchor (e.text i) i.line = .ok a) :
      ∀ t ∈ a.shape, q.get? t.id = some t ∧ t.center = .ok a.point := by
    intro t ht
    obtain ⟨hget, hcenter⟩ := (anchor_eq_ok hp ha).2 t ht
    exact ⟨hq.shapes _ _ hget, hcenter⟩
  refine ⟨End.both source target, End.both first last, hs, hkind, ?_, ?_, ?_, hdrawn, hlinks⟩
  · intro e
    cases e with
    | start => exact (anchor_eq_ok hp hsource).1
    | finish => exact (anchor_eq_ok hp htarget).1
  · intro e
    cases e with
    | start => exact hon .start hsource
    | finish => exact hon .finish htarget
  · intro e
    cases e with
    | start => exact hfirst
    | finish => exact hlast

/-- Creating a connector draws it and leaves everything else on the page. -/
theorem createConnector_drawn (hp : p.WellFormed) {id : String}
    (h : (p.createConnector padding i).result = .ok (q, id)) :
    q.WellFormed ∧ Extends p q ∧
      ∃ s anchors ends, s.id = id ∧ Drawn padding q i s anchors ends := by
  obtain ⟨s, a, b, p₁, p₂, hs, hadd, hstart, hend, rfl⟩ := createConnector_eq_ok.mp h
  have hp₁ := hp.add hadd
  have hq := (hp₁.bindEnd hstart).bindEnd hend
  have hfree : s.id ∉ p.ids := (add_eq_ok.mp hadd).1
  have hnew : p₁.madeFor s.id = [] := madeFor_of_add hp.connector_mem hadd
  -- All new links are of the new connector, so those of other ids are as they were.
  have hends : ∀ l ∈ linkOf s.id "start" a ++ linkOf s.id "end" b, l.connector = s.id := by
    intro l hl
    cases List.mem_append.mp hl with
    | inl hl => exact linkOf_connector l hl
    | inr hl => exact linkOf_connector l hl
  obtain rfl := bindEnds_links hnew hstart hend
  have hextends : Extends p { p₁ with
      links := p₁.links ++ (linkOf s.id "start" a ++ linkOf s.id "end" b) } := by
    have hkept := add_extends hadd
    refine ⟨hkept.shapes, hkept.ids, fun id hid => ?_⟩
    have hne : s.id ≠ id := fun heq => hfree (heq ▸ hid)
    rw [madeFor_append hends, if_neg hne, List.append_nil]
    exact hkept.links id hid
  have hget : p₁.get? s.id = some s := get?_of_add hp hadd
  refine ⟨hq, hextends, ?_⟩
  obtain ⟨anchors, ends, hdrawn⟩ := newConnector_drawn hp hs hextends hget
    (by rw [madeFor_append hends, hnew, if_pos rfl, List.nil_append])
  exact ⟨s, anchors, ends, rfl, hdrawn⟩

/-! ## Batches -/

theorem createShape_extends (hp : p.WellFormed) {i : ShapeInstruction} {id : String}
    (h : (p.createShape i).result = .ok (q, id)) : q.WellFormed ∧ Extends p q := by
  obtain ⟨s, -, hadd, -⟩ := createShape_eq_ok.mp h
  exact ⟨hp.add hadd, add_extends hadd⟩

/-- The shape of a connector instruction is drawn on a page. -/
def IsDrawn (padding : Scalar) (p : Page) (i : Instruction) (id : String) : Prop :=
  ∀ j, i = .connector j → ∃ s anchors ends, s.id = id ∧ Drawn padding p j s anchors ends

theorem IsDrawn.extends {i : Instruction} {id : String} (h : IsDrawn padding p i id)
    (hp : p.WellFormed) (hq : Extends p q) : IsDrawn padding q i id := by
  intro j hj
  obtain ⟨s, anchors, ends, hid, hdrawn⟩ := h j hj
  exact ⟨s, anchors, ends, hid, hdrawn.extends hp hq⟩

theorem create_drawn (hp : p.WellFormed) {i : Instruction} {id : String}
    (h : (create padding p i).result = .ok (q, id)) :
    q.WellFormed ∧ Extends p q ∧ IsDrawn padding q i id := by
  cases i with
  | shape i =>
    obtain ⟨hq, hextends⟩ := createShape_extends hp h
    exact ⟨hq, hextends, fun j hj => by cases hj⟩
  | connector i =>
    obtain ⟨hq, hextends, hdrawn⟩ := createConnector_drawn hp h
    refine ⟨hq, hextends, fun j hj => ?_⟩
    cases hj
    exact hdrawn

theorem createAll_drawn (hp : p.WellFormed) {is : List Instruction} {ids : List String}
    (h : (createAll padding p is).result = .ok (q, ids)) :
    q.WellFormed ∧ Extends p q ∧ List.Forall₂ (IsDrawn padding q) is ids := by
  -- By induction on the instructions: what one of them draws, the later ones keep.
  induction is generalizing p ids with
  | nil =>
    cases h
    exact ⟨hp, .refl _, .nil⟩
  | cons i is ih =>
    obtain ⟨p₁, id, ids, hfirst, hrest, rfl⟩ := createAll_cons_eq_ok.mp h
    obtain ⟨hp₁, hextends, hdrawn⟩ := create_drawn hp hfirst
    obtain ⟨hq, hextends', hrest⟩ := ih hp₁ hrest
    exact ⟨hq, hextends.trans hextends', .cons (hdrawn.extends hp₁ hextends') hrest⟩

/-! ## Frames -/

section Drawn
variable {s : Shape} {anchors : End → Anchor} {ends : End → Point}

/-- The bindings of a connector are those of the shapes that its ends refer to. -/
theorem Drawn.mem_bindingsOf (h : Drawn padding m i s anchors ends) (hlinks : q.links = m.links)
    {e : End} {id : String} :
    ⟨s.id, id, .text e.name⟩ ∈ q.bindingsOf s.id ↔ ∃ t ∈ (anchors e).shape, t.id = id := by
  have hmade : q.madeFor s.id =
      linkOf s.id "start" (anchors .start).shape ++ linkOf s.id "end" (anchors .finish).shape := by
    rw [← h.links, madeFor, hlinks]
    rfl
  rw [Page.mem_bindingsOf, hmade]
  constructor
  · rintro ⟨l, hl, hbinding⟩
    rcases List.mem_append.mp hl with hl | hl
    · obtain ⟨t, ht, rfl⟩ := List.mem_map.mp hl
      cases e with
      | start =>
        cases hbinding
        exact ⟨t, Option.mem_toList.mp ht, rfl⟩
      | finish => simp [End.name] at hbinding
    · obtain ⟨t, ht, rfl⟩ := List.mem_map.mp hl
      cases e with
      | start => simp [End.name] at hbinding
      | finish =>
        cases hbinding
        exact ⟨t, Option.mem_toList.mp ht, rfl⟩
  · rintro ⟨t, ht, rfl⟩
    cases e with
    | start =>
      exact ⟨_, List.mem_append_left _ (List.mem_map_of_mem (Option.mem_toList.mpr ht)), rfl⟩
    | finish =>
      exact ⟨_, List.mem_append_right _ (List.mem_map_of_mem (Option.mem_toList.mpr ht)), rfl⟩

theorem Drawn.shape_of_bound (h : Drawn padding m i s anchors ends) (hlinks : q.links = m.links)
    {e : End} {t : Shape} (ht : q.Bound s.id e t) (hkept : m.get? t.id = some t) :
    (anchors e).shape = some t := by
  obtain ⟨u, hu, hid⟩ := (h.mem_bindingsOf hlinks).mp ht.1
  obtain ⟨hget, -⟩ := h.anchored e u hu
  rw [hid, hkept, Option.some.injEq] at hget
  rw [hget]
  exact hu

theorem Drawn.bound (h : Drawn padding m i s anchors ends) (hlinks : q.links = m.links)
    (hq : q.WellFormed) {e : End} {t : Shape} (ht : t ∈ (anchors e).shape) :
    ∃ u, q.Bound s.id e u := by
  have hmem : ⟨s.id, t.id, .text e.name⟩ ∈ q.bindingsOf s.id :=
    (h.mem_bindingsOf hlinks).mpr ⟨t, ht, rfl⟩
  obtain ⟨l, hl, hbinding⟩ := Page.mem_bindingsOf.mp hmem
  have hon : t.id ∈ q.ids := by
    have hshape : l.shape = t.id := congrArg Binding.shape hbinding
    exact hshape ▸ (hq.ends_on l (List.mem_filter.mp hl).1).2
  obtain ⟨u, hu, hid⟩ := hq.exists_get? hon
  rw [← hid] at hmem hu
  exact ⟨u, hmem, hu⟩

/-- A connector meets its shapes on every page that has its links and these shapes. -/
theorem Drawn.meets (h : Drawn padding m i s anchors ends) (hlinks : q.links = m.links)
    (hq : q.WellFormed) (hkept : ∀ e t, q.Bound s.id e t → m.get? t.id = some t) (e : End) :
    q.Meets padding i s e := by
  intro t r ht hr
  have hshape : (anchors e).shape = some t := h.shape_of_bound hlinks ht (hkept e t ht)
  -- The point that the end looks at is the one its text was resolved to when it was drawn.
  have hreference : (anchors e.other).point = r := by
    cases hr with
    | @shape u _ hu hcenter =>
      have hother := h.shape_of_bound hlinks hu (hkept e.other u hu)
      obtain ⟨-, hpoint⟩ := h.anchored e.other u hother
      rw [hcenter, Except.ok.injEq] at hpoint
      exact hpoint.symm
    | coordinate hnone hposition =>
      cases hother : (anchors e.other).shape with
      | some u =>
        obtain ⟨v, hv⟩ := h.bound hlinks hq (e := e.other) hother
        exact absurd hv (hnone v)
      | none =>
        obtain ⟨-, hpoint⟩ := h.coordinate e.other hother
        rw [hposition, Except.ok.injEq] at hpoint
        exact hpoint.symm
  have htip := h.tip e
  rw [hreference, Anchor.tip, hshape] at htip
  obtain ⟨offset, hoffset, hx, hy⟩ := offsets_of_connectorShape h.drawn e
  exact ⟨offset, ends e, hoffset, htip, fun hexact => hexact.absolute hx hy⟩

end Drawn

/-- Connectors stay on their shapes unless a frame among these grows. Once all instructions of
a batch are on the page, every connector of the batch meets the shapes to which it is bound;
an end that names no coordinate is bound to one. Settling the frames then changes no shape but
frames, so on the final page a connector meets its shapes wherever these are what they were. -/
theorem apply_attached (hp : p.WellFormed) {is : List Instruction} {ids : List String}
    (h : (p.apply padding is).result = .ok (q, ids)) :
    ∃ m, (createAll padding p.copy is).result = .ok (m, ids) ∧ m.settleFrames.result = .ok q ∧
      (∀ id t, m.get? id = some t → isFrame t = false → q.get? id = some t) ∧
      List.Forall₂ (fun i id => ∀ j, i = .connector j → ∃ s, m.get? id = some s ∧
        q.get? id = some s ∧ s.kind = .known .connector ∧ s.id = id ∧
        (∀ e : End, Measure.isPosition (e.text j).toList = false → ∃ t, q.Bound id e t) ∧
        (∀ e, m.Meets padding j s e) ∧
        ((∀ e t, q.Bound id e t → m.get? t.id = some t) → ∀ e, q.Meets padding j s e)) is ids := by
  obtain ⟨m, hm, hq⟩ := apply_eq_ok.mp h
  obtain ⟨hmWell, -, hdrawn⟩ := createAll_drawn hp.copy hm
  have hqWell := hp.apply h
  obtain ⟨hothers, hlinks⟩ := settleFrames_reframes hmWell hq
  have hkept (id : String) (t : Shape) (ht : m.get? id = some t) (hframe : isFrame t = false) :
      q.get? id = some t := by
    obtain ⟨hmem, hid⟩ := hmWell.get?_eq_some.mp ht
    exact hqWell.get?_eq_some.mpr ⟨hothers t hmem hframe, hid⟩
  refine ⟨m, hm, hq, hkept, hdrawn.imp fun i id hi j hj => ?_⟩
  obtain ⟨s, anchors, ends, rfl, hs⟩ := hi j hj
  have hframe : isFrame s = false := by
    rw [isFrame, hs.kind]
    rfl
  refine ⟨s, hs.shape, hkept _ _ hs.shape hframe, hs.kind, rfl, ?_, ?_, ?_⟩
  · intro e hposition
    cases hshape : (anchors e).shape with
    | none =>
      rw [(hs.coordinate e hshape).1] at hposition
      cases hposition
    | some t => exact hs.bound hlinks hqWell hshape
  · exact hs.meets rfl hmWell fun e t ht => ht.2
  · exact hs.meets hlinks hqWell

/-- A connector from a rectangle, and then a frame, which grows around both of them. -/
theorem apply_attached_rectangle :
    let j : ConnectorInstruction := { source := "a", target := "450,50" }
    let is : List Instruction := [
      .shape { kind := .rectangle, position := some ⟨0, 0⟩, size := some ⟨100, 100⟩
               id := some "a" },
      .connector j, .shape { kind := .frame, position := some ⟨0, 0⟩, size := some ⟨10, 10⟩ }]
    ∃ q s t r offset point a,
      (empty.apply 8 is).result = .ok (q, ["shape:a", "shape:2", "shape:3"]) ∧
        q.get? "shape:2" = some s ∧ s.kind = .known .connector ∧ q.Bound "shape:2" .start t ∧
          q.Refers j "shape:2" .finish r ∧ s.start = some offset ∧
            Border.point t r 8 = .ok point ∧ s.absolute offset = .ok a ∧
              a.x.same point.x ∧ a.y.same point.y := by
  intro j is
  let box : Shape :=
    { id := "shape:a", kind := .known .rectangle, w := 100, h := 100
      style := fullStyle {} .rectangle }
  obtain ⟨⟨q, ids⟩, hq, hcheck⟩ := Outcome.exists_of_any (x := (empty.apply 8 is).result)
    (p := fun r => r.2 == ["shape:a", "shape:2", "shape:3"] &&
      r.1.bindingsOf "shape:2" == [⟨"shape:2", "shape:a", .text "start"⟩] &&
        r.1.get? "shape:a" == some box &&
          (r.1.get? "shape:2").any fun s => s.x.isWhole 450 && s.y.isWhole 450)
    (by decide +kernel)
  obtain ⟨⟨m', _⟩, hm', hbox'⟩ := Outcome.exists_of_any (x := (createAll 8 empty.copy is).result)
    (p := fun r => r.1.get? "shape:a" == some box) (by decide +kernel)
  obtain ⟨r, hr, hcoordinate⟩ := Outcome.exists_of_any (x := Measure.position "450,50" j.line)
    (p := fun r => (Border.point box r 8).toOption.any fun point =>
      point.x.isWhole 450 && point.y.isWhole 450) (by decide +kernel)
  simp only [Bool.and_eq_true, beq_iff_eq] at hcheck hbox'
  obtain ⟨⟨⟨hids, hbindings⟩, hbox⟩, harrow⟩ := hcheck
  subst hids
  obtain ⟨m, hm, -, -, hattached⟩ := apply_attached WellFormed.empty hq
  rw [hm, Except.ok.injEq, Prod.mk.injEq] at hm'
  rw [← hm'.1] at hbox'
  obtain ⟨-, hrest⟩ := List.forall₂_cons.mp hattached
  obtain ⟨hconnector, -⟩ := List.forall₂_cons.mp hrest
  obtain ⟨s, -, hs, hkind, hid, -, -, hmeets⟩ := hconnector j rfl
  have hbound : q.Bound "shape:2" .start box := bound_start hbindings hbox
  have hrefers : q.Refers j "shape:2" .finish r := refers_finish (t := box) hbindings hbox hr
  have hkept (e : End) (t : Shape) (ht : q.Bound "shape:2" e t) : m.get? t.id = some t := by
    rw [(eq_of_bound (t := box) hbindings hbox ht).2]
    exact hbox'
  have hmeet := hmeets hkept .start box r
  rw [hid] at hmeet
  obtain ⟨offset, point, hoffset, hpoint, hplace⟩ := hmeet hbound hrefers
  rw [hs, Option.any_some, Bool.and_eq_true] at harrow
  rw [hpoint] at hcoordinate
  have hwhole : point.x.isWhole 450 && point.y.isWhole 450 := hcoordinate
  rw [Bool.and_eq_true] at hwhole
  obtain ⟨a, ha, hx, hy⟩ := hplace (placesExactly_of_whole (Scalar.isWhole_of_check harrow.1)
    (Scalar.isWhole_of_check harrow.2) (Scalar.isWhole_of_check hwhole.1)
    (Scalar.isWhole_of_check hwhole.2) (by norm_num) (by norm_num))
  exact ⟨q, s, box, r, offset, point, a, hq, hs, hkind, hbound, hrefers, hoffset, hpoint, ha,
    hx, hy⟩

/-- A connector from a frame that grows in the same batch, in a run without rounding: it starts
at 108, and the border point of the frame that it is bound to is at 348. -/
theorem apply_detached_frame :
    let j : ConnectorInstruction := { source := "f", target := "850,50" }
    let is : List Instruction := [
      .shape { kind := .frame, position := some ⟨0, 0⟩, size := some ⟨100, 100⟩, id := some "f" },
      .shape { kind := .rectangle, position := some ⟨220, 20⟩, size := some ⟨100, 60⟩ },
      .connector j]
    ∃ q s t r offset point a,
      (empty.apply 8 is).result = .ok (q, ["shape:f", "shape:2", "shape:3"]) ∧
        q.get? "shape:3" = some s ∧ s.kind = .known .connector ∧ q.Bound "shape:3" .start t ∧
          q.Refers j "shape:3" .finish r ∧ s.start = some offset ∧
            Border.point t r 8 = .ok point ∧ s.absolute offset = .ok a ∧
              a.x.At (108 : ℤ) ∧ point.x.At (348 : ℤ) := by
  intro j is
  let real (n : Nat) : Scalar := .real (.ofDecimal false n 0)
  let grown : Shape :=
    { id := "shape:f", kind := .known .frame, w := 340, h := 100, label := "Frame"
      style := fullStyle {} .frame }
  let arrow : Shape :=
    { id := "shape:3", kind := .known .connector, x := real 108, y := real 50
      style := fullStyle {} .connector, start := some ⟨real 0, real 0⟩
      finish := some ⟨real 742, real 0⟩ }
  obtain ⟨⟨q, ids⟩, hq, hcheck⟩ := Outcome.exists_of_any (x := (empty.apply 8 is).result)
    (p := fun r => r.2 == ["shape:f", "shape:2", "shape:3"] &&
      r.1.bindingsOf "shape:3" == [⟨"shape:3", "shape:f", .text "start"⟩] &&
        r.1.get? "shape:f" == some grown && r.1.get? "shape:3" == some arrow)
    (by decide +kernel)
  obtain ⟨r, hr, hborder⟩ := Outcome.exists_of_any (x := Measure.position "850,50" j.line)
    (p := fun r => (Border.point grown r 8).toOption.any fun point =>
      point.x.whole? == some 348) (by decide +kernel)
  obtain ⟨point, hpoint, hfar⟩ := Outcome.exists_of_any hborder
  obtain ⟨a, ha, hnear⟩ := Outcome.exists_of_any (x := arrow.absolute ⟨real 0, real 0⟩)
    (p := fun a => a.x.whole? == some 108) (by decide +kernel)
  simp only [Bool.and_eq_true, beq_iff_eq] at hcheck hfar hnear
  obtain ⟨⟨⟨hids, hbindings⟩, hframe⟩, harrow⟩ := hcheck
  subst hids
  exact ⟨q, arrow, grown, r, _, point, a, hq, harrow, rfl, bound_start hbindings hframe,
    refers_finish (t := grown) hbindings hframe hr, rfl, hpoint, ha, Scalar.at_of_whole? hnear,
    Scalar.at_of_whole? hfar⟩

end Page

end DiagramScript
