import DiagramScript.Proofs.Page.Frames
import DiagramScript.Proofs.Page.Integral

/-
  Shapes in another order.

  An instruction with a place and an id of its own asks for one shape, whatever is on the page
  (`ShapeInstruction.Makes`), and a batch of such instructions adds their shapes one after the other
  (`createAll_eq_ok_of_fixed`). In another order they are the same shapes, and a frame only looks at
  which shapes there are. So such a batch goes through in any order or in none, and whatever can be
  read off the page but the drawing order of the new shapes is the same (`apply_shuffled`).
-/

namespace DiagramScript

/-- An instruction with integers as its place and its size, and with an id of its own. -/
structure ShapeInstruction.Fixed (i : Integers) (j : ShapeInstruction) : Prop
    extends j.HasIntegers i where
  placed : j.position.isSome
  named : (Content.filled j.id).isSome

/-- The shape of an instruction with a place and an id of its own. -/
def ShapeInstruction.Makes (j : ShapeInstruction) (s : Shape) : Prop :=
  ∃ place size c, j.position = some place ∧ Block.sizeOf j = .ok size ∧
    Content.filled j.id = some c ∧ s = j.shapeAt (fullId c) place size

/-- Two shapes that are the same but for how the numbers of their boxes are written. -/
structure Shape.Same (s t : Shape) : Prop where
  box : ∃ x y w h, t = { s with x := x, y := y, w := w, h := h }
  x : s.x.same t.x
  y : s.y.same t.y
  w : s.w.same t.w
  h : s.h.same t.h

namespace Page
variable {i : Integers} {p q q' : Page} {padding : Scalar} {is js : List ShapeInstruction}
  {ids ids' : List String} {news news' : List Shape}

/-! ## Instructions with a place and an id -/

theorem createShape_eq_ok_of_fixed {j : ShapeInstruction} (hp : p.WellFormed) (hj : j.Fixed i)
    {id : String} : (p.createShape j).result = .ok (q, id) ↔
      ∃ s, j.Makes s ∧ p.add s = .ok q ∧ s.id = id := by
  obtain ⟨place, hplace⟩ := Option.isSome_iff_exists.mp hj.placed
  obtain ⟨c, hc⟩ := Option.isSome_iff_exists.mp hj.named
  have hposition : p.newPosition j = .ok place := by
    rw [newPosition, hplace]
  rw [createShape_eq_ok]
  refine exists_congr fun s => and_congr_left fun hadd => ?_
  rw [newShape_iff, hposition]
  constructor
  · intro h
    obtain ⟨place', size, id, hplace', hsize, hid, rfl⟩ := h
    obtain rfl := Except.ok.inj hplace'
    rcases newId_eq_ok.mp hid with ⟨hnone, -⟩ | ⟨c', hc', -, rfl⟩
    · rw [hc] at hnone
      cases hnone
    · exact ⟨place, size, c', hplace, hsize, hc', rfl⟩
  · intro h
    obtain ⟨place', size, c', hplace', hsize, hc', rfl⟩ := h
    obtain rfl := Option.some.inj (hplace.symm.trans hplace')
    obtain ⟨hfree, -⟩ := add_eq_ok.mp hadd.1
    refine ⟨place, size, fullId c', rfl, hsize, newId_eq_ok.mpr (.inr ⟨c', hc', ?_, rfl⟩), rfl⟩
    rw [get?_eq_none]
    intro t ht hid
    have hmem := hp.mem_ids ht
    rw [hid] at hmem
    exact hfree hmem

theorem createAll_eq_ok_of_fixed (hp : p.WellFormed) (his : ∀ j ∈ is, j.Fixed i) :
    (createAll padding p (is.map .shape)).result = .ok (q, ids) ↔
      ∃ news, List.Forall₂ ShapeInstruction.Makes is news ∧ news.foldlM add p = .ok q ∧
        ids = news.map (·.id) := by
  -- By induction on the instructions: a batch of them adds their shapes one after the other.
  induction is generalizing p ids with
  | nil =>
    show Except.ok (p, []) = .ok (q, ids) ↔ _
    constructor
    · intro h
      cases h
      exact ⟨[], .nil, rfl, rfl⟩
    · intro h
      obtain ⟨news, hnews, hadd, rfl⟩ := h
      obtain rfl := List.forall₂_nil_left_iff.mp hnews
      cases hadd
      rfl
  | cons j is ih =>
    obtain ⟨hj, his⟩ := List.forall_mem_cons.mp his
    rw [List.map_cons, createAll_cons_eq_ok]
    constructor
    · intro h
      obtain ⟨p₁, id, ids, hfirst, hrest, rfl⟩ := h
      obtain ⟨s, hs, hadd, rfl⟩ := (createShape_eq_ok_of_fixed hp hj).mp hfirst
      obtain ⟨news, hnews, hall, rfl⟩ := (ih (hp.add hadd) his).mp hrest
      exact ⟨s :: news, .cons hs hnews, by rw [List.foldlM_cons, hadd]; exact hall, rfl⟩
    · intro h
      obtain ⟨all, hall₂, hall, rfl⟩ := h
      obtain ⟨s, news, hs, hnews, rfl⟩ := List.forall₂_cons_left_iff.mp hall₂
      rw [List.foldlM_cons, Outcome.bind_eq_ok] at hall
      obtain ⟨p₁, hadd, hall⟩ := hall
      exact ⟨p₁, s.id, news.map (·.id), (createShape_eq_ok_of_fixed hp hj).mpr ⟨s, hs, hadd, rfl⟩,
        (ih (hp.add hadd) his).mpr ⟨news, hnews, hall, rfl⟩, rfl⟩

/-! ## Adding shapes -/

theorem foldlM_add (h : news.foldlM add p = .ok q) :
    q.shapes = p.shapes ++ news ∧ q.ids = p.ids ++ news.map (·.id) ∧ q.links = p.links := by
  -- By induction on the shapes: each of them goes on top of the page.
  induction news generalizing p with
  | nil =>
    cases h
    simp
  | cons s news ih =>
    rw [List.foldlM_cons, Outcome.bind_eq_ok] at h
    obtain ⟨p₁, hadd, h⟩ := h
    obtain ⟨-, rfl⟩ := add_eq_ok.mp hadd
    obtain ⟨hshapes, hids, hlinks⟩ := ih h
    refine ⟨?_, ?_, hlinks⟩
    · rw [hshapes]
      simp [shapes]
    · rw [hids]
      simp

theorem exists_foldlM_add :
    (∃ q, news.foldlM add p = .ok q) ↔
      (news.map (·.id)).Nodup ∧ ∀ s ∈ news, s.id ∉ p.ids := by
  -- By induction on the shapes: they can be added where their ids are new and all different.
  induction news generalizing p with
  | nil => exact ⟨fun _ => by simp, fun _ => ⟨p, rfl⟩⟩
  | cons s news ih =>
    simp only [List.foldlM_cons, Outcome.bind_eq_ok, List.map_cons, List.nodup_cons,
      List.forall_mem_cons]
    constructor
    · intro h
      obtain ⟨q, p₁, hadd, h⟩ := h
      obtain ⟨hfree, rfl⟩ := add_eq_ok.mp hadd
      obtain ⟨hnodup, hnews⟩ := ih.mp ⟨q, h⟩
      simp only [List.mem_append, List.mem_singleton, not_or] at hnews
      refine ⟨⟨fun hmem => ?_, hnodup⟩, hfree, fun t ht => (hnews t ht).1⟩
      obtain ⟨t, ht, hid⟩ := List.mem_map.mp hmem
      exact (hnews t ht).2 hid
    · intro h
      obtain ⟨⟨hs, hnodup⟩, hfree, hnews⟩ := h
      let p₁ : Page :=
        { p with layers := p.layers ++ [⟨p.ids.length, s⟩], ids := p.ids ++ [s.id] }
      have hadd : p.add s = .ok p₁ := add_eq_ok.mpr ⟨hfree, rfl⟩
      have hnews' : ∀ t ∈ news, t.id ∉ p₁.ids := by
        intro t ht
        show t.id ∉ p.ids ++ [s.id]
        rw [List.mem_append, List.mem_singleton, not_or]
        exact ⟨hnews t ht, fun hid => hs (hid ▸ List.mem_map_of_mem ht)⟩
      obtain ⟨q, hq⟩ := ih.mpr ⟨hnodup, hnews'⟩
      exact ⟨q, p₁, hadd, hq⟩

theorem exists_foldlM_add_perm (h : news.Perm news') (hq : news.foldlM add p = .ok q) :
    ∃ q', news'.foldlM add p = .ok q' := by
  obtain ⟨hnodup, hnews⟩ := exists_foldlM_add.mp ⟨q, hq⟩
  refine exists_foldlM_add.mpr ⟨(h.map _).nodup_iff.mp hnodup, fun s hs => ?_⟩
  exact hnews s (h.mem_iff.mpr hs)

/-! ## Frames among the same shapes -/

theorem wellFormed_foldlM_add (hp : p.WellFormed) (h : news.foldlM add p = .ok q) :
    q.WellFormed :=
  Outcome.foldlM_ok_induction (fun _ _ _ _ hp hq => hp.add hq) hp h

theorem same_of_hasRect {s t : Shape} {r : Rect} (hst : ∃ x y w h, t = { s with x, y, w, h })
    (hs : HasRect i s r) (ht : HasRect i t r) : s.Same t :=
  ⟨hst, (hs.x.same_iff ht.x).mpr rfl, (hs.y.same_iff ht.y).mpr rfl, (hs.w.same_iff ht.w).mpr rfl,
    (hs.h.same_iff ht.h).mpr rfl⟩

/-- On pages of the same shapes, the same becomes of each of them. -/
theorem settleFrames_same {m m' : Page} (hm : m.WellFormed) (hm' : m'.WellFormed)
    (hshapes : m.shapes.Perm m'.shapes) (hint : ∀ s ∈ m.shapes, s.HasIntegers i)
    (hq : m.settleFrames.result = .ok q) (hq' : m'.settleFrames.result = .ok q') {s : Shape}
    (hs : s ∈ m.shapes) :
    ∃ t t', q.get? s.id = some t ∧ q'.get? s.id = some t' ∧ t.Same t' := by
  have hs' : s ∈ m'.shapes := hshapes.mem_iff.mp hs
  obtain ⟨old, hold⟩ := hasRect_of_hasIntegers (hint s hs)
  cases hframe : isFrame s with
  | false =>
    have hkept {m q : Page} (hm : m.WellFormed) (hs : s ∈ m.shapes)
        (hq : m.settleFrames.result = .ok q) : q.get? s.id = some s :=
      (hm.settleFrames hq).get?_eq_some.mpr ⟨(settleFrames_reframes hm hq).others s hs hframe, rfl⟩
    exact ⟨s, s, hkept hm hs hq, hkept hm' hs' hq',
      same_of_hasRect ⟨_, _, _, _, rfl⟩ hold hold⟩
  | true =>
    obtain ⟨t, ht, hkept, new, hnew, hlub, -⟩ :=
      settleFrames_hasRect hm (fun s hs _ => hint s hs) hq hs hframe hold
    obtain ⟨t', ht', hkept', new', hnew', hlub', -⟩ := settleFrames_hasRect hm'
      (fun s hs _ => hint s (hshapes.mem_iff.mpr hs)) hq' hs' hframe hold
    rw [← roomFor_congr hold hold fun s _ => hshapes.mem_iff] at hlub'
    obtain rfl := hlub.unique hlub'
    obtain ⟨_, _, _, _, rfl⟩ := hkept.box
    obtain ⟨_, _, _, _, rfl⟩ := hkept'.box
    exact ⟨_, _, ht, ht', same_of_hasRect ⟨_, _, _, _, rfl⟩ hnew hnew'⟩

theorem settleFrames_exists_perm {m m' : Page} (hm : m.WellFormed) (hm' : m'.WellFormed)
    (hshapes : m.shapes.Perm m'.shapes) (hint : ∀ s ∈ m.shapes, s.HasIntegers i)
    (hq : m.settleFrames.result = .ok q) : ∃ q', m'.settleFrames.result = .ok q' := by
  have hint' : ∀ s ∈ m'.shapes, s.HasIntegers i := fun s hs => hint s (hshapes.mem_iff.mpr hs)
  have hcenters := (settleFrames_exists_iff hm hint).mp ⟨q, hq⟩
  refine (settleFrames_exists_iff hm' hint').mpr fun hframe s hs => ?_
  obtain ⟨f, hf, hframe⟩ := hframe
  exact hcenters ⟨f, hshapes.mem_iff.mpr hf, hframe⟩ s (hshapes.mem_iff.mpr hs)

/-! ## Batches -/

/-- The shapes of a page and new ones with the frames below all other shapes, the old ones of either
below the new ones. -/
def stacked (p : Page) (news : List Shape) : List Shape :=
  p.shapes.filter isFrame ++ news.filter isFrame ++
    (p.shapes.filter (! isFrame ·) ++ news.filter (! isFrame ·))

theorem hasIntegers_of_makes {j : ShapeInstruction} {s : Shape} (hj : j.Fixed i) (h : j.Makes s) :
    s.HasIntegers i := by
  obtain ⟨place, size, c, hplace, hsize, -, rfl⟩ := h
  have hkind : j.kind ≠ .connector := by
    intro hconnector
    rw [Block.sizeOf, if_pos hconnector] at hsize
    cases hsize
  exact hj.shapeAt (hj.place place hplace)
    ((Block.sizeOf_isIntegral hj.toHasIntegers hkind).of_ok hsize)

/-- What a batch of instructions with places and ids makes of a page, before its frames grow. -/
structure Adds (i : Integers) (p : Page) (is : List ShapeInstruction) (m : Page)
    (news : List Shape) : Prop where
  makes : List.Forall₂ ShapeInstruction.Makes is news
  added : news.foldlM add p.copy = .ok m
  wellFormed : m.WellFormed
  shapes : m.shapes = p.shapes ++ news
  integers : ∀ s ∈ m.shapes, s.HasIntegers i

theorem exists_adds (hp : p.WellFormed) (hint : ∀ s ∈ p.shapes, s.HasIntegers i)
    (his : ∀ j ∈ is, j.Fixed i) {m : Page}
    (h : (createAll padding p.copy (is.map .shape)).result = .ok (m, ids)) :
    ∃ news, p.Adds i is m news ∧ ids = news.map (·.id) := by
  obtain ⟨news, hmakes, hadded, rfl⟩ := (createAll_eq_ok_of_fixed hp.copy his).mp h
  obtain ⟨hshapes, -, -⟩ := foldlM_add hadded
  refine ⟨news, ⟨hmakes, hadded, wellFormed_foldlM_add hp.copy hadded, hshapes, ?_⟩, rfl⟩
  rw [hshapes]
  refine List.forall_mem_append.mpr ⟨hint, fun s hs => ?_⟩
  obtain ⟨j, hj, hmakes⟩ := Outcome.exists_of_forall₂ hmakes.flip hs
  exact hasIntegers_of_makes (his j hj) hmakes

theorem makes_unique : Relator.RightUnique ShapeInstruction.Makes := by
  intro j s t hs ht
  obtain ⟨place, size, c, hplace, hsize, hc, rfl⟩ := hs
  obtain ⟨place', size', c', hplace', hsize', hc', rfl⟩ := ht
  obtain rfl := Option.some.inj (hplace.symm.trans hplace')
  obtain rfl := Except.ok.inj (hsize.symm.trans hsize')
  obtain rfl := Option.some.inj (hc.symm.trans hc')
  rfl

theorem stacked_perm (p : Page) (news : List Shape) : (p.stacked news).Perm (p.shapes ++ news) := by
  have hall := List.filter_append_perm isFrame (p.shapes ++ news)
  rwa [List.filter_append, List.filter_append] at hall

theorem map_id_of_settleFrames {m : Page} (h : p.Adds i is m news)
    (hq : m.settleFrames.result = .ok q) :
    q.shapes.map (·.id) = (p.stacked news).map (·.id) := by
  obtain ⟨hkept, -⟩ := settleFrames_kept h.wellFormed hq
  rw [h.shapes, List.filter_append, List.filter_append] at hkept
  have hids : List.Forall₂ (· = ·) (q.shapes.map (·.id)) ((p.stacked news).map (·.id)) := by
    rw [List.forall₂_map_left_iff, List.forall₂_map_right_iff]
    exact hkept.flip.imp fun _ _ hst => hst.id_eq
  rwa [List.forall₂_eq_eq_eq] at hids

theorem get?_of_not_mem {m : Page} (h : p.Adds i is m news) (hq : m.settleFrames.result = .ok q)
    {id : String} (hid : id ∉ m.shapes.map (·.id)) : q.get? id = none := by
  rw [← Option.not_isSome_iff_eq_none, isSome_get?, map_id_of_settleFrames h hq,
    ((stacked_perm p news).map _).mem_iff, ← h.shapes]
  exact hid

theorem BatchEffect.bindings_of_shapes (h : p.BatchEffect (is.map .shape) q ids) :
    q.bindings = p.bindings := by
  have hnone : ids.flatMap q.bindingsOf = [] := by
    rw [List.flatMap_eq_nil_iff]
    intro id hid
    obtain ⟨j, hj, hends⟩ := Outcome.exists_of_forall₂ h.ends.flip hid
    obtain ⟨j, -, rfl⟩ := List.mem_map.mp hj
    exact List.map_eq_nil_iff.mp hends
  rw [h.bindings, hnone, List.append_nil]

/-- A batch that goes through does so in any other order. -/
theorem apply_exists_perm (hp : p.WellFormed) (hint : ∀ s ∈ p.shapes, s.HasIntegers i)
    (his : ∀ j ∈ is, j.Fixed i) (h : is.Perm js)
    (hq : (p.apply padding (is.map .shape)).result = .ok (q, ids)) :
    ∃ r, (p.apply padding (js.map .shape)).result = .ok r := by
  obtain ⟨m, hm, hsettle⟩ := apply_eq_ok.mp hq
  obtain ⟨news, hadds, -⟩ := exists_adds hp hint his hm
  obtain ⟨news', hmakes', hperm⟩ := List.perm_comp_forall₂ h.symm hadds.makes
  have hperm := hperm.symm
  obtain ⟨m', hadded'⟩ := exists_foldlM_add_perm hperm hadds.added
  have hjs : ∀ j ∈ js, j.Fixed i := fun j hj => his j (h.mem_iff.mpr hj)
  have hm' : (createAll padding p.copy (js.map .shape)).result = .ok (m', news'.map (·.id)) :=
    (createAll_eq_ok_of_fixed hp.copy hjs).mpr ⟨news', hmakes', hadded', rfl⟩
  have hshapes : m.shapes.Perm m'.shapes := by
    rw [hadds.shapes, (foldlM_add hadded').1]
    exact hperm.append_left _
  obtain ⟨q', hq'⟩ := settleFrames_exists_perm hadds.wellFormed
    (wellFormed_foldlM_add hp.copy hadded') hshapes hadds.integers hsettle
  exact ⟨(q', news'.map (·.id)), apply_eq_ok.mpr ⟨m', hm', hq'⟩⟩

/-- Shapes with places and ids of their own can be created in any order: a batch of them fails in
every order or in none, and on success every id has the same shape, the frames with the same grown
boxes. Only the drawing order of the new shapes differs, among frames and among the others. Whole
numbers may have any size; with floating-point numbers among them, coordinates and lengths are at
most `2 ^ 32` in size and no text of the batch has more than `2 ^ 20` characters. -/
theorem apply_shuffled (hp : p.WellFormed) (hint : ∀ s ∈ p.shapes, s.HasIntegers i)
    (his : ∀ j ∈ is, j.Fixed i) (h : is.Perm js) (padding : Scalar) :
    ((∃ r, (p.apply padding (is.map .shape)).result = .ok r) ↔
        ∃ r, (p.apply padding (js.map .shape)).result = .ok r) ∧
      ∀ q ids q' ids', (p.apply padding (is.map .shape)).result = .ok (q, ids) →
        (p.apply padding (js.map .shape)).result = .ok (q', ids') →
          (∀ id, Option.Rel Shape.Same (q.get? id) (q'.get? id)) ∧ q'.bindings = q.bindings ∧
            ∃ news news', news.Perm news' ∧ ids = news.map (·.id) ∧ ids' = news'.map (·.id) ∧
              q.shapes.map (·.id) = (p.stacked news).map (·.id) ∧
                q'.shapes.map (·.id) = (p.stacked news').map (·.id) := by
  -- Either order makes the same shapes, so only success and the frames are left.
  have hjs : ∀ j ∈ js, j.Fixed i := fun j hj => his j (h.mem_iff.mpr hj)
  constructor
  · constructor
    · intro hr
      obtain ⟨⟨q, ids⟩, hq⟩ := hr
      exact apply_exists_perm hp hint his h hq
    · intro hr
      obtain ⟨⟨q, ids⟩, hq⟩ := hr
      exact apply_exists_perm hp hint hjs h.symm hq
  intro q ids q' ids' hq hq'
  obtain ⟨m, hm, hsettle⟩ := apply_eq_ok.mp hq
  obtain ⟨m', hm', hsettle'⟩ := apply_eq_ok.mp hq'
  obtain ⟨news, hadds, rfl⟩ := exists_adds hp hint his hm
  obtain ⟨news', hadds', rfl⟩ := exists_adds hp hint hjs hm'
  -- What an instruction makes does not depend on the others, so both orders make the same shapes,
  -- and the frames grow around the same ones.
  have hperm : news.Perm news' := List.rel_perm_imp makes_unique hadds.makes hadds'.makes h
  have hshapes : m.shapes.Perm m'.shapes := by
    rw [hadds.shapes, hadds'.shapes]
    exact hperm.append_left _
  have hids := map_id_of_settleFrames hadds hsettle
  have hids' := map_id_of_settleFrames hadds' hsettle'
  refine ⟨fun id => ?_, ?_, news, news', hperm, rfl, rfl, hids, hids'⟩
  · by_cases hmem : id ∈ m.shapes.map (·.id)
    · obtain ⟨s, hs, rfl⟩ := List.mem_map.mp hmem
      obtain ⟨t, t', ht, ht', hsame⟩ := settleFrames_same hadds.wellFormed hadds'.wellFormed hshapes
        hadds.integers hsettle hsettle' hs
      rw [ht, ht']
      exact .some hsame
    · have hmem' : id ∉ m'.shapes.map (·.id) := fun hid => hmem ((hshapes.map _).mem_iff.mpr hid)
      rw [get?_of_not_mem hadds hsettle hmem, get?_of_not_mem hadds' hsettle' hmem']
      exact .none
  · rw [(apply_effect hp hq).bindings_of_shapes, (apply_effect hp hq').bindings_of_shapes]

/-- A box, a frame and a note that is created below both in one order and first of all in another
one, on a page with a frame that all of them are near and a box of a negative height. -/
theorem apply_shuffled_frames :
    let real (n : Nat) : Scalar := .real (.ofDecimal false n 0)
    let p : Page :=
      { layers := [
          ⟨0, { id := "shape:f", kind := .known .frame, w := 300, h := real 300 }⟩,
          ⟨1, { id := "shape:old", kind := .known .rectangle, x := .whole (-100), y := 40, w := 50
                h := .whole (-10) }⟩]
        ids := ["shape:f", "shape:old"] }
    let box : ShapeInstruction :=
      { kind := .rectangle, position := some ⟨real 400, 10⟩, size := some ⟨20, real 30⟩
        id := some "box" }
    let frame : ShapeInstruction :=
      { kind := .frame, position := some ⟨350, 0⟩, size := some ⟨40, 40⟩, id := some "g" }
    let note : ShapeInstruction :=
      { kind := .note, position := some ⟨10, real 320⟩, id := some "shape:note" }
    let is := [box, frame, note]
    let js := [note, box, frame]
    p.WellFormed ∧ (∀ s ∈ p.shapes, s.HasIntegers .bounded) ∧ (∀ j ∈ is, j.Fixed .bounded) ∧
      is.Perm js ∧ ∃ q q' f f' g g',
        (p.apply 8 (is.map .shape)).result = .ok (q, ["shape:box", "shape:g", "shape:note"]) ∧
        (p.apply 8 (js.map .shape)).result = .ok (q', ["shape:note", "shape:box", "shape:g"]) ∧
        q.get? "shape:f" = some f ∧ q'.get? "shape:f" = some f' ∧ f.Same f' ∧
          f.Fills ⟨-120, -10, 440, 520⟩ ∧ q.get? "shape:g" = some g ∧
            q'.get? "shape:g" = some g' ∧ g.Same g' := by
  intro real p box frame note is js
  have hp : p.WellFormed := ⟨by decide, by decide, by decide, by decide, by decide⟩
  have hint : ∀ s ∈ p.shapes, s.HasIntegers .bounded := by
    have hcheck : ∀ s ∈ p.shapes, s.hasIntegers .bounded = true := by decide +kernel
    exact fun s hs => Shape.hasIntegers_of_check (hcheck s hs)
  have his : ∀ j ∈ is, j.Fixed .bounded := by
    have hcheck : ∀ j ∈ is, j.hasIntegers .bounded = true ∧ j.position.isSome ∧
        (Content.filled j.id).isSome := by decide +kernel
    intro j hj
    obtain ⟨hinteger, hplaced, hnamed⟩ := hcheck j hj
    exact ⟨ShapeInstruction.hasIntegers_of_check hinteger, hplaced, hnamed⟩
  have hperm : is.Perm js := by decide +kernel
  obtain ⟨⟨q, ids⟩, hq, hcheck⟩ := Outcome.exists_of_any (x := (p.apply 8 (is.map .shape)).result)
    (p := fun r => r.2 == ["shape:box", "shape:g", "shape:note"] &&
      ((r.1.get? "shape:f").any (·.hasBounds (-120) (-10) 560 530) &&
        (r.1.get? "shape:g").isSome)) (by decide +kernel)
  obtain ⟨⟨q', ids'⟩, hq', hids'⟩ := Outcome.exists_of_any
    (x := (p.apply 8 (js.map .shape)).result)
    (p := fun r => r.2 == ["shape:note", "shape:box", "shape:g"]) (by decide +kernel)
  simp only [Bool.and_eq_true, beq_iff_eq] at hcheck hids'
  obtain ⟨rfl, hbox, hsome⟩ := hcheck
  subst hids'
  obtain ⟨f, hf, hbox⟩ := (Option.any_eq_true _ _).mp hbox
  obtain ⟨g, hg⟩ := Option.isSome_iff_exists.mp hsome
  obtain ⟨-, hsame⟩ := apply_shuffled hp hint his hperm 8
  obtain ⟨hshapes, -⟩ := hsame _ _ _ _ hq hq'
  have hother {id : String} {s : Shape} (hs : q.get? id = some s) :
      ∃ t, q'.get? id = some t ∧ s.Same t := by
    have hrel := hshapes id
    rw [hs] at hrel
    generalize q'.get? id = found at hrel ⊢
    cases hrel with
    | some hst => exact ⟨_, rfl, hst⟩
  obtain ⟨f', hf', hff'⟩ := hother hf
  obtain ⟨g', hg', hgg'⟩ := hother hg
  exact ⟨hp, hint, his, hperm, q, q', f, f', g, g', hq, hq', hf, hf', hff',
    Shape.fills_of_hasBounds (r := ⟨-120, -10, 440, 520⟩) hbox, hg, hg', hgg'⟩

end Page

end DiagramScript
