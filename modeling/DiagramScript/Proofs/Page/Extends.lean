import DiagramScript.Proofs.Page.WellFormed

/-
  What the later steps of a batch leave alone.

  Adding a shape and binding a new connector keep the shapes on a page and the links of their
  connectors (`Extends`), so what an instruction finds on the page is still there when the last
  one is done. Then the frames are moved and grown, which changes no other shape and no link
  (`Reframes`).
-/

namespace DiagramScript.Page
variable {p q r : Page}

/-! ## Lookups -/

theorem isSome_get? {id : String} : (p.get? id).isSome ↔ id ∈ p.shapes.map (·.id) := by
  simp [get?, layer?, shapes, List.find?_isSome]

theorem get?_eq_none {id : String} : p.get? id = none ↔ ∀ t ∈ p.shapes, t.id ≠ id := by
  rw [← Option.not_isSome_iff_eq_none, isSome_get?]
  simp

theorem WellFormed.get?_eq_some (h : p.WellFormed) {id : String} {t : Shape} :
    p.get? id = some t ↔ t ∈ p.shapes ∧ t.id = id := by
  have hnodup : (p.layers.map (·.shape.id)).Nodup := h.ids_perm.nodup_iff.mpr h.ids_nodup
  constructor
  · intro hget
    obtain ⟨l, hl, rfl⟩ := Option.map_eq_some_iff.mp hget
    exact ⟨List.mem_map_of_mem (List.mem_of_find?_eq_some hl), by simpa using List.find?_some hl⟩
  · rintro ⟨hmem, rfl⟩
    obtain ⟨l, hl, rfl⟩ := List.mem_map.mp hmem
    cases hfind : p.layer? l.shape.id with
    | none =>
      have hne := List.find?_eq_none.mp hfind l hl
      simp at hne
    | some m =>
      -- The id is that of one layer only.
      have hid : m.shape.id = l.shape.id := by simpa using List.find?_some hfind
      have hml : m = l :=
        List.inj_on_of_nodup_map hnodup (List.mem_of_find?_eq_some hfind) hl hid
      rw [get?, hfind, hml]
      rfl

theorem WellFormed.mem_ids (h : p.WellFormed) {t : Shape} (ht : t ∈ p.shapes) : t.id ∈ p.ids := by
  rw [← h.ids_perm.mem_iff, ← shapes_ids]
  exact List.mem_map_of_mem ht

theorem WellFormed.exists_get? (h : p.WellFormed) {id : String} (hid : id ∈ p.ids) :
    ∃ t, p.get? id = some t ∧ t.id = id := by
  rw [← h.ids_perm.mem_iff, ← shapes_ids] at hid
  obtain ⟨t, ht, rfl⟩ := List.mem_map.mp hid
  exact ⟨t, h.get?_eq_some.mpr ⟨ht, rfl⟩, rfl⟩

/-- A shape that a text names is on the page, under its own id. -/
theorem WellFormed.get?_of_find? (h : p.WellFormed) {text : String} {t : Shape}
    (ht : p.find? text = some t) : p.get? t.id = some t := by
  refine h.get?_eq_some.mpr ⟨?_, rfl⟩
  rw [find?, Option.or_eq_some_iff, Option.or_eq_some_iff] at ht
  rcases ht with (ht | ⟨-, ht⟩) | ⟨-, ht⟩
  · exact (h.get?_eq_some.mp ht).1
  · exact (h.get?_eq_some.mp ht).1
  · exact List.mem_of_find?_eq_some ht

/-! ## Instructions -/

/-- The links of a connector in the order in which they were made. -/
def madeFor (p : Page) (id : String) : List Link := p.links.filter (·.connector == id)

theorem mem_bindingsOf {id : String} {b : Binding} :
    b ∈ p.bindingsOf id ↔ ∃ l ∈ p.madeFor id, l.toBinding = b := by
  have hgroup : (p.linksOf id).Perm (p.madeFor id) := groupBy_perm _ _
  rw [bindingsOf, List.mem_map]
  simp only [hgroup.mem_iff]

/-- A page with more shapes on top and with links of new connectors. -/
structure Extends (p q : Page) : Prop where
  shapes : ∀ id t, p.get? id = some t → q.get? id = some t
  ids : ∀ id ∈ p.ids, id ∈ q.ids
  links : ∀ id ∈ p.ids, q.madeFor id = p.madeFor id

namespace Extends

theorem refl (p : Page) : Extends p p := ⟨fun _ _ h => h, fun _ h => h, fun _ _ => rfl⟩

theorem trans (h : Extends p q) (h' : Extends q r) : Extends p r := by
  refine ⟨fun id t ht => h'.shapes id t (h.shapes id t ht), fun id hid => h'.ids id (h.ids id hid),
    fun id hid => ?_⟩
  rw [h'.links id (h.ids id hid), h.links id hid]

end Extends

theorem add_extends {s : Shape} (h : p.add s = .ok q) : Extends p q := by
  obtain ⟨-, rfl⟩ := add_eq_ok.mp h
  refine ⟨fun id t ht => ?_, fun id hid => List.mem_append_left _ hid, fun _ _ => rfl⟩
  obtain ⟨l, hl, rfl⟩ := Option.map_eq_some_iff.mp ht
  unfold layer? at hl
  simp [get?, layer?, List.find?_append, hl]

theorem get?_of_add {s : Shape} (hp : p.WellFormed) (h : p.add s = .ok q) :
    q.get? s.id = some s := by
  refine (hp.add h).get?_eq_some.mpr ⟨?_, rfl⟩
  obtain ⟨-, rfl⟩ := add_eq_ok.mp h
  simp [shapes]

theorem WellFormed.connector_mem (h : p.WellFormed) : ∀ l ∈ p.links, l.connector ∈ p.ids :=
  fun l hl => (h.ends_on l hl).1

/-- An id that is not on the page has no links, where only connectors on the page have any. -/
theorem madeFor_eq_nil (h : ∀ l ∈ p.links, l.connector ∈ p.ids) {id : String} (hid : id ∉ p.ids) :
    p.madeFor id = [] := by
  rw [madeFor, List.filter_eq_nil_iff]
  intro l hl hconnector
  rw [beq_iff_eq] at hconnector
  exact hid (hconnector ▸ h l hl)

/-- A shape that was just added has no links. -/
theorem madeFor_of_add {s : Shape} (h : ∀ l ∈ p.links, l.connector ∈ p.ids)
    (hq : p.add s = .ok q) : q.madeFor s.id = [] := by
  obtain ⟨hid, rfl⟩ := add_eq_ok.mp hq
  exact madeFor_eq_nil h hid

/-- The link of an end that refers to a shape. -/
def linkOf (connector terminal : String) (target : Option Shape) : List Link :=
  target.toList.map fun t =>
    { connector, shape := t.id, terminal := .text terminal, key := .text terminal }

/-- An end that is not bound yet gets a link behind all others. -/
theorem bindEnd_links {connector terminal : String} {target : Option Shape}
    (hfree : ∀ l ∈ p.madeFor connector, l.key.same (.text terminal) = false)
    (h : (p.bindEnd connector terminal target).result = .ok q) :
    q = { p with links := p.links ++ linkOf connector terminal target } := by
  rcases bindEnd_eq_ok.mp h with ⟨rfl, rfl⟩ | ⟨t, rfl, hbind⟩
  · simp [linkOf]
  · obtain ⟨-, -, rfl⟩ := Page.bind_eq_ok.mp hbind
    let b : Binding := ⟨connector, t.id, .text terminal⟩
    have hnone : p.links.any (Link.isFor b (.text terminal)) = false := by
      rw [List.any_eq_false]
      intro l hl hfor
      simp only [Link.isFor, Bool.and_eq_true, b] at hfor
      obtain ⟨⟨hconnector, -⟩, hkey⟩ := hfor
      rw [hfree l (List.mem_filter.mpr ⟨hl, hconnector⟩)] at hkey
      cases hkey
    have hmake : Link.make p.links b = p.links ++ [{ toBinding := b, key := .text terminal }] := by
      show (if p.links.any (Link.isFor b (.text terminal)) then _ else _) = _
      rw [hnone]
      rfl
    rw [hmake]
    rfl

/-! ## Frames -/

/-- A page on which frames are moved or grown. -/
structure Reframes (p q : Page) : Prop where
  others : ∀ t ∈ p.shapes, isFrame t = false → t ∈ q.shapes
  links : q.links = p.links

theorem Reframes.trans (h : Reframes p q) (h' : Reframes q r) : Reframes p r :=
  ⟨fun t ht hframe => h'.others t (h.others t ht hframe) hframe, h'.links.trans h.links⟩

theorem framesToBottom_reframes (h : p.framesToBottom = .ok q) : Reframes p q := by
  rw [framesToBottom_eq] at h
  cases h
  have hperm := List.filter_append_perm (fun l : Layer => isFrame l.shape) p.layers
  refine ⟨fun t ht _ => ?_, rfl⟩
  exact (hperm.map Layer.shape).mem_iff.mpr ht

theorem replace_reframes (hp : p.WellFormed) {l : Layer} {s : Shape} (hl : l ∈ p.layers)
    (hframe : isFrame l.shape = true) : Reframes p (p.replace l.number s) := by
  refine ⟨fun t ht hother => ?_, rfl⟩
  obtain ⟨m, hm, rfl⟩ := List.mem_map.mp ht
  have hne : m.number ≠ l.number := by
    intro hnumber
    have hml : m = l := List.inj_on_of_nodup_map hp.numbers_nodup hm hl hnumber
    rw [hml, hframe] at hother
    cases hother
  refine List.mem_map.mpr ⟨m, List.mem_map.mpr ⟨m, hm, ?_⟩, rfl⟩
  rw [if_neg hne]

/-- The numbers of frames belong to no other shape. -/
theorem WellFormed.isFrame_of_number (hp : p.WellFormed) {l : Layer} (hl : l ∈ p.layers)
    (hnumber : l.number ∈ (p.layers.filter (isFrame ·.shape)).map (·.number)) :
    isFrame l.shape = true := by
  obtain ⟨m, hm, hnumber⟩ := List.mem_map.mp hnumber
  obtain ⟨hm, hframe⟩ := List.mem_filter.mp hm
  have hml : m = l := List.inj_on_of_nodup_map hp.numbers_nodup hm hl hnumber
  exact hml ▸ hframe

/-- What a page with its frames at the bottom has and every growth of a frame keeps, a page with
its frames settled has. -/
theorem settleFrames_induction {P : Page → Prop} (hp : p.WellFormed)
    (h : p.settleFrames.result = .ok q) (hbottom : ∀ {r : Page}, p.framesToBottom = .ok r → P r)
    (hgrow : ∀ {r : Page} {others : List Shape} {l : Layer} {s : Shape}, r.WellFormed → P r →
      l ∈ r.layers → isFrame l.shape = true → (growFrame others l.shape).result = .ok s →
        P (r.replace l.number s)) :
    q.WellFormed ∧ P q := by
  obtain ⟨r, hr, h⟩ := settleFrames_iff_growFrames.mp h
  have hwell := hp.framesToBottom hr
  -- The numbers stay those of frames.
  let numbers := (r.layers.filter (isFrame ·.shape)).map (·.number)
  let Settling (q : Page) : Prop :=
    q.WellFormed ∧ (∀ l ∈ q.layers, l.number ∈ numbers → isFrame l.shape = true) ∧ P q
  have hstart : Settling r := ⟨hwell, fun l => hwell.isFrame_of_number, hbottom hr⟩
  have hsettled : Settling q := by
    refine growFrames_induction h hstart ?_
    intro r l s hr hl hn hs
    obtain ⟨hr, hframes, hP⟩ := hr
    have hframe := hframes l hl hn
    have hkept : s.id = l.shape.id ∧ isFrame s = isFrame l.shape := by
      obtain ⟨x, y, w, h', rfl⟩ := growFrame_eq_ok hs
      exact ⟨rfl, rfl⟩
    refine ⟨hr.replace hl hkept.1, fun m hm hnumber => ?_, hgrow hr hP hl hframe hs⟩
    rcases layers_replace hm with ⟨-, hshape⟩ | ⟨-, hm⟩
    · rw [hshape, hkept.2]
      exact hframe
    · exact hframes m hm hnumber
  exact ⟨hsettled.1, hsettled.2.2⟩

theorem WellFormed.settleFrames (hp : p.WellFormed) (h : p.settleFrames.result = .ok q) :
    q.WellFormed :=
  (settleFrames_induction (P := fun _ => True) hp h (fun _ => trivial)
    fun _ _ _ _ _ => trivial).1

theorem settleFrames_reframes (hp : p.WellFormed) (h : p.settleFrames.result = .ok q) :
    Reframes p q :=
  (settleFrames_induction hp h framesToBottom_reframes
    fun hr hkept hl hframe _ => hkept.trans (replace_reframes hr hl hframe)).2

end DiagramScript.Page
