import DiagramScript.Proofs.Page.Effect
import DiagramScript.Proofs.Page.Lookalike
import DiagramScript.Proofs.Page.Numeric

/-
  Connectors in the other direction.

  Where an end of a connector comes to lie is worked out from what both ends refer to, and not from
  which of them is the first one (`ends_reversed`). The place of a connector is the smaller one of
  both coordinates, so it does not depend on the direction either, unless a coordinate of exactly
  one end is no number: of two such coordinates the first one counts as the smaller one. It takes an
  overflow to make one so, and then a frame may reach the connector in one direction only
  (`apply_reversed_overflow`). Apart from that a batch of one connector goes through in both
  directions or in none, and the final pages differ in what the direction tells: which end is
  where, and bound to what (`apply_reversed`).
-/

namespace DiagramScript

/-- The connector in the other direction. -/
def ConnectorInstruction.reversed (j : ConnectorInstruction) : ConnectorInstruction :=
  { j with source := j.target, target := j.source }

theorem ConnectorInstruction.reversed_reversed (j : ConnectorInstruction) :
    j.reversed.reversed = j := rfl

/-- The terminal of the other end. -/
def Terminal.opposite (t : Terminal) : Terminal :=
  if t = .text End.start.name then .text End.finish.name
  else if t = .text End.finish.name then .text End.start.name
  else t

/-- The binding of the other end to the same shape. -/
def Binding.opposite (b : Binding) : Binding := { b with terminal := b.terminal.opposite }

/-- A connector between the same points in the other direction, up to the signs of zeros. -/
structure Shape.Reversed (c d : Shape) : Prop where
  same : ∃ x y start finish, d = { c with x := x, y := y, start := start, finish := finish }
  x : c.x.Agrees d.x
  y : c.y.Agrees d.y
  start : Option.Rel Point.Agrees c.start d.finish
  finish : Option.Rel Point.Agrees c.finish d.start
  bounds : ∃ b b', c.bounds = .ok b ∧ d.bounds = .ok b' ∧ b.Agrees b'

theorem Shape.Reversed.looksLike {c d : Shape} (h : c.Reversed d) : c.LooksLike d := by
  obtain ⟨b, b', hb, hb', hagrees⟩ := h.bounds
  intro b₁ hb₁
  obtain rfl := Except.ok.inj (hb.symm.trans hb₁)
  exact ⟨b', hb', hagrees⟩

namespace Page
variable {p q : Page} {padding : Scalar} {j : ConnectorInstruction} {ids : List String}

/-! ## Ends -/

/-- An end of a connector: where it lies, and the shape that it refers to. -/
structure Tip where
  point : Point
  shape : Option Shape

/-- The first and the last end of the connector of an instruction. -/
def ends (p : Page) (padding : Scalar) (j : ConnectorInstruction) : Except Fault (Tip × Tip) := do
  let source ← p.anchor j.source j.line
  let target ← p.anchor j.target j.line
  let first ← source.tip target.point padding
  let last ← target.tip source.point padding
  .ok (⟨first, source.shape⟩, ⟨last, target.shape⟩)

theorem ends_eq_ok {a b : Tip} : p.ends padding j = .ok (a, b) ↔
    ∃ source target, p.anchor j.source j.line = .ok source ∧
      p.anchor j.target j.line = .ok target ∧ source.tip target.point padding = .ok a.point ∧
        target.tip source.point padding = .ok b.point ∧ source.shape = a.shape ∧
          target.shape = b.shape := by
  simp only [ends, Outcome.bind_eq_ok, Except.ok.injEq, Prod.mk.injEq]
  constructor
  · intro h
    obtain ⟨source, hsource, target, htarget, first, hfirst, last, hlast, rfl, rfl⟩ := h
    exact ⟨source, target, hsource, htarget, hfirst, hlast, rfl, rfl⟩
  · intro h
    obtain ⟨source, target, hsource, htarget, hfirst, hlast, hshape, hshape'⟩ := h
    refine ⟨source, hsource, target, htarget, _, hfirst, _, hlast, ?_, ?_⟩
    · rw [hshape]
    · rw [hshape']

theorem ends_reversed {a b : Tip} (h : p.ends padding j = .ok (a, b)) :
    p.ends padding j.reversed = .ok (b, a) := by
  obtain ⟨source, target, hsource, htarget, hfirst, hlast, hshape, hshape'⟩ := ends_eq_ok.mp h
  exact ends_eq_ok.mpr ⟨target, source, htarget, hsource, hlast, hfirst, hshape', hshape⟩

theorem isReal_ends {a b : Tip} (h : p.ends padding j = .ok (a, b)) :
    a.point.IsReal ∧ b.point.IsReal := by
  obtain ⟨source, target, hsource, htarget, hfirst, hlast, -⟩ := ends_eq_ok.mp h
  exact ⟨isReal_tip hfirst (isReal_anchor hsource), isReal_tip hlast (isReal_anchor htarget)⟩

/-- Each coordinate is a number at both ends of a connector or at none. -/
structure Tip.Matches (a b : Tip) : Prop where
  x : a.point.x.place?.isSome = b.point.x.place?.isSome
  y : a.point.y.place?.isSome = b.point.y.place?.isSome

theorem Tip.Matches.symm {a b : Tip} (h : a.Matches b) : b.Matches a := ⟨h.x.symm, h.y.symm⟩

/-- The ends of the connector of an instruction, if it has any, match. -/
def EndsMatch (p : Page) (padding : Scalar) (j : ConnectorInstruction) : Prop :=
  ∀ a b, p.ends padding j = .ok (a, b) → a.Matches b

theorem EndsMatch.reversed (h : p.EndsMatch padding j) : p.EndsMatch padding j.reversed := by
  intro a b hends
  have hends' := ends_reversed hends
  rw [j.reversed_reversed] at hends'
  exact (h b a hends').symm

/-! ## Connectors between two points -/

section
variable {a b m n : Binary64}

/-- A number that is put relative to another one and back. -/
def rebased (m a : Binary64) : Binary64 := m.add (a.sub m)

theorem rebased_agrees (h : m.Agrees n) (a : Binary64) : (rebased m a).Agrees (rebased n a) :=
  h.add ((Binary64.Agrees.refl a).sub h)

theorem isNaN_rebased (hm : m = a ∨ m = b) (h : a.isNaN = b.isNaN) :
    (rebased m a).isNaN = (rebased m b).isNaN := by
  cases ha : a.isNaN with
  | true =>
    -- Then both of them are no number.
    have hnan {x : Binary64} (hx : x.isNaN = true) : x = .nan := by
      cases x <;> first | rfl | cases hx
    rw [hnan ha, hnan (h.symm.trans ha)]
  | false =>
    have hb : b.isNaN = false := h.symm.trans ha
    have hm' : m.isNaN = false := by
      rcases hm with rfl | rfl
      · exact ha
      · exact hb
    rw [Bool.eq_iff_iff]
    exact (Binary64.isNaN_add_sub hm' ha).trans (Binary64.isNaN_add_sub hm' hb).symm

/-- The place of a connector between two coordinates does not depend on the direction, and seen
from there both ends have a place of their own or none has. -/
theorem exists_place (h : (Scalar.real a).place?.isSome = (Scalar.real b).place?.isSome) :
    ∃ m n, (Scalar.real a).min (.real b) = .real m ∧ (Scalar.real b).min (.real a) = .real n ∧
      m.Agrees n ∧
        (Scalar.real (rebased m a)).place?.isSome = (Scalar.real (rebased m b)).place?.isSome := by
  obtain ⟨m, hm, hmab⟩ : ∃ m, (Scalar.real a).min (.real b) = .real m ∧ (m = a ∨ m = b) :=
    Scalar.min_of (P := fun s => ∃ m, s = .real m ∧ (m = a ∨ m = b)) ⟨a, rfl, .inl rfl⟩
      ⟨b, rfl, .inr rfl⟩
  obtain ⟨n, hn⟩ : ((Scalar.real b).min (.real a)).IsReal := Scalar.min_of ⟨b, rfl⟩ ⟨a, rfl⟩
  have hagrees := Scalar.min_comm_agrees h
  rw [hm, hn, Scalar.agrees_real] at hagrees
  refine ⟨m, n, hm, hn, hagrees, ?_⟩
  simp only [Scalar.isSome_place?_real, Bool.not_inj_iff] at h ⊢
  exact isNaN_rebased hmab h

theorem span_reversed (h : m.Agrees n)
    (hplace : (Scalar.real (rebased m a)).place?.isSome =
      (Scalar.real (rebased m b)).place?.isSome) :
    ((Scalar.real (rebased m a)).min (.real (rebased m b))).Agrees
        ((Scalar.real (rebased n b)).min (.real (rebased n a))) ∧
      ((rebased m b).sub (rebased m a)).abs = ((rebased n a).sub (rebased n b)).abs := by
  have ha := rebased_agrees h a
  have hb := rebased_agrees h b
  refine ⟨(Scalar.min_comm_agrees hplace).trans ((Scalar.Agrees.real hb).min (.real ha)), ?_⟩
  rw [Binary64.abs_sub_comm, (ha.sub hb).abs_eq]

end

section
variable {id : String} {a b c d m n : Binary64}

/-- The connector from one point to another one, kept relative to a third one. -/
def connectorAt (id : String) (j : ConnectorInstruction) (m n a b c d : Binary64) : Shape :=
  { id, kind := .known .connector, x := .real m, y := .real n, label := j.label.getD ""
    style := fullStyle j.style .connector, start := some ⟨.real (a.sub m), .real (b.sub n)⟩
    finish := some ⟨.real (c.sub m), .real (d.sub n)⟩ }

theorem connectorShape_real (hx : (Scalar.real a).min (.real c) = .real m)
    (hy : (Scalar.real b).min (.real d) = .real n) :
    connectorShape id j ⟨.real a, .real b⟩ ⟨.real c, .real d⟩ =
      .ok (connectorAt id j m n a b c d) := by
  rw [connectorShape, hx, hy]
  rfl

theorem bounds_connectorAt (id : String) (j : ConnectorInstruction) (m n a b c d : Binary64) :
    (connectorAt id j m n a b c d).bounds =
      .ok ⟨(Scalar.real (rebased m a)).min (.real (rebased m c)),
        (Scalar.real (rebased n b)).min (.real (rebased n d)),
        Scalar.max 1 (.real ((rebased m c).sub (rebased m a)).abs),
        Scalar.max 1 (.real ((rebased n d).sub (rebased n b)).abs)⟩ := rfl

end

section
variable {id : String} {a b : Point} {c d : Shape}

theorem exists_connectorShape (ha : a.IsReal) (hb : b.IsReal) (id : String)
    (j : ConnectorInstruction) : ∃ c, connectorShape id j a b = .ok c := by
  obtain ⟨_, _⟩ := a
  obtain ⟨_, _⟩ := b
  obtain ⟨⟨x₁, rfl⟩, y₁, rfl⟩ := ha
  obtain ⟨⟨x₂, rfl⟩, y₂, rfl⟩ := hb
  obtain ⟨m, hm⟩ : ((Scalar.real x₁).min (.real x₂)).IsReal := Scalar.min_of ⟨x₁, rfl⟩ ⟨x₂, rfl⟩
  obtain ⟨n, hn⟩ : ((Scalar.real y₁).min (.real y₂)).IsReal := Scalar.min_of ⟨y₁, rfl⟩ ⟨y₂, rfl⟩
  exact ⟨_, connectorShape_real hm hn⟩

/-- A connector between two points and the one in the other direction. -/
theorem connectorShape_reversed (ha : a.IsReal) (hb : b.IsReal)
    (hx : a.x.place?.isSome = b.x.place?.isSome) (hy : a.y.place?.isSome = b.y.place?.isSome)
    (hc : connectorShape id j a b = .ok c) (hd : connectorShape id j.reversed b a = .ok d) :
    c.Reversed d := by
  obtain ⟨_, _⟩ := a
  obtain ⟨_, _⟩ := b
  obtain ⟨⟨x₁, rfl⟩, y₁, rfl⟩ := ha
  obtain ⟨⟨x₂, rfl⟩, y₂, rfl⟩ := hb
  obtain ⟨m, m', hm, hm', hmm, hplaceX⟩ := exists_place hx
  obtain ⟨n, n', hn, hn', hnn, hplaceY⟩ := exists_place hy
  rw [connectorShape_real hm hn] at hc
  rw [connectorShape_real hm' hn'] at hd
  cases hc
  cases hd
  -- The corner is the same up to the sign of a zero, and the ends are distances from it.
  have hsub {x y z : Binary64} (h : y.Agrees z) :
      (Scalar.real (x.sub y)).Agrees (.real (x.sub z)) :=
    .real ((Binary64.Agrees.refl x).sub h)
  obtain ⟨hleft, hwidth⟩ := span_reversed hmm hplaceX
  obtain ⟨htop, hheight⟩ := span_reversed hnn hplaceY
  refine ⟨⟨_, _, _, _, rfl⟩, .real hmm, .real hnn, .some ⟨hsub hmm, hsub hnn⟩,
    .some ⟨hsub hmm, hsub hnn⟩, _, _, bounds_connectorAt .., bounds_connectorAt .., hleft, htop,
    ?_, ?_⟩
  · rw [hwidth]
    exact .refl _
  · rw [hheight]
    exact .refl _

end

/-! ## Pages with one more connector -/

/-- The connector of an instruction, with its ends. -/
structure Connects (p : Page) (padding : Scalar) (j : ConnectorInstruction) (a b : Tip)
    (c : Shape) : Prop where
  ends : p.ends padding j = .ok (a, b)
  wanted : p.newId j.id j.line = .ok c.id
  free : c.id ∉ p.ids
  drawn : connectorShape c.id j a.point b.point = .ok c

/-- A page with a connector on top that is bound at its ends. -/
def connected (p : Page) (c : Shape) (a b : Tip) : Page :=
  { layers := p.layers ++ [⟨p.ids.length, c⟩], ids := p.ids ++ [c.id]
    links := p.links ++ linksOfEnds c.id a.shape b.shape }

theorem newConnector_iff {c : Shape} {s t : Option Shape} :
    p.newConnector padding j = .ok (c, s, t) ↔ ∃ a b, p.ends padding j = .ok (a, b) ∧
      p.newId j.id j.line = .ok c.id ∧ connectorShape c.id j a.point b.point = .ok c ∧
        a.shape = s ∧ b.shape = t := by
  simp only [newConnector, Outcome.bind_eq_ok]
  constructor
  · intro h
    obtain ⟨source, hsource, target, htarget, first, hfirst, last, hlast, id, hid, c', hc, h⟩ := h
    cases h
    obtain rfl := (connectorShape_eq_ok hc).1
    exact ⟨⟨first, source.shape⟩, ⟨last, target.shape⟩,
      ends_eq_ok.mpr ⟨source, target, hsource, htarget, hfirst, hlast, rfl, rfl⟩, hid, hc, rfl, rfl⟩
  · intro h
    obtain ⟨a, b, hends, hid, hc, rfl, rfl⟩ := h
    obtain ⟨source, target, hsource, htarget, hfirst, hlast, hs, ht⟩ := ends_eq_ok.mp hends
    refine ⟨source, hsource, target, htarget, _, hfirst, _, hlast, _, hid, _, hc, ?_⟩
    rw [hs, ht]

theorem mem_ids_of_ends (hp : p.WellFormed) {a b : Tip} (h : p.ends padding j = .ok (a, b)) :
    (∀ t ∈ a.shape, t.id ∈ p.ids) ∧ ∀ t ∈ b.shape, t.id ∈ p.ids := by
  obtain ⟨source, target, hsource, htarget, -, -, hs, ht⟩ := ends_eq_ok.mp h
  have hon {text : String} {anchor : Anchor} (h : p.anchor text j.line = .ok anchor) :
      ∀ t ∈ anchor.shape, t.id ∈ p.ids := by
    intro t ht
    obtain ⟨hget, -⟩ := (anchor_eq_ok hp h).2 t ht
    exact hp.mem_ids (hp.get?_eq_some.mp hget).1
  rw [← hs, ← ht]
  exact ⟨hon hsource, hon htarget⟩

theorem exists_bindEnd {connector : String} {target : Option Shape} (hc : connector ∈ p.ids)
    (ht : ∀ t ∈ target, t.id ∈ p.ids) (terminal : String) :
    ∃ q, (p.bindEnd connector terminal target).result = .ok q := by
  cases target with
  | none => exact ⟨p, bindEnd_eq_ok.mpr (.inl ⟨rfl, rfl⟩)⟩
  | some t =>
    exact ⟨_, bindEnd_eq_ok.mpr (.inr ⟨t, rfl, bind_eq_ok.mpr ⟨hc, ht t rfl, rfl⟩⟩)⟩

theorem createConnector_iff (hp : p.WellFormed) {id : String} :
    (p.createConnector padding j).result = .ok (q, id) ↔
      ∃ a b c, p.Connects padding j a b c ∧ q = p.connected c a b ∧ c.id = id := by
  rw [createConnector_eq_ok]
  constructor
  · intro h
    obtain ⟨c, s, t, p₁, p₂, hc, hadd, hstart, hend, hid⟩ := h
    obtain ⟨a, b, hends, hwanted, hdrawn, rfl, rfl⟩ := newConnector_iff.mp hc
    have hnew : p₁.madeFor c.id = [] := madeFor_of_add hp.connector_mem hadd
    obtain ⟨hfree, rfl⟩ := add_eq_ok.mp hadd
    exact ⟨a, b, c, ⟨hends, hwanted, hfree, hdrawn⟩, bindEnds_links hnew hstart hend, hid⟩
  · intro h
    obtain ⟨a, b, c, hc, rfl, rfl⟩ := h
    let p₁ : Page :=
      { p with layers := p.layers ++ [⟨p.ids.length, c⟩], ids := p.ids ++ [c.id] }
    have hadd : p.add c = .ok p₁ := add_eq_ok.mpr ⟨hc.free, rfl⟩
    have hnew : p₁.madeFor c.id = [] := madeFor_of_add hp.connector_mem hadd
    -- Both ends are on the page, so they can be bound one after the other.
    obtain ⟨hs, ht⟩ := mem_ids_of_ends hp hc.ends
    have hmem : c.id ∈ p₁.ids := List.mem_append_right _ List.mem_cons_self
    obtain ⟨p₂, hstart⟩ :=
      exists_bindEnd hmem (fun t h => List.mem_append_left _ (hs t h)) "start"
    have hp₂ := bindEnd_links (by simp [hnew]) hstart
    have hids : p₂.ids = p₁.ids := by rw [hp₂]
    obtain ⟨q, hend⟩ := exists_bindEnd (p := p₂) (hids ▸ hmem)
      (fun t h => hids ▸ List.mem_append_left _ (ht t h)) "end"
    obtain rfl : q = p.connected c a b := bindEnds_links hnew hstart hend
    exact ⟨c, _, _, p₁, p₂, newConnector_iff.mpr ⟨a, b, hc.ends, hc.wanted, hc.drawn, rfl, rfl⟩,
      hadd, hstart, hend, rfl⟩

section
variable {a b : Tip} {c d : Shape} {grown grown' : List Layer}

theorem Connects.exists_reversed (h : p.Connects padding j a b c) :
    ∃ d, p.Connects padding j.reversed b a d ∧ d.id = c.id ∧ (a.Matches b → c.Reversed d) := by
  obtain ⟨ha, hb⟩ := isReal_ends h.ends
  obtain ⟨d, hd⟩ := exists_connectorShape hb ha c.id j.reversed
  have hid : d.id = c.id := (connectorShape_eq_ok hd).1
  refine ⟨d, ⟨ends_reversed h.ends, hid ▸ h.wanted, hid ▸ h.free, hid ▸ hd⟩, hid, fun hab => ?_⟩
  exact connectorShape_reversed ha hb hab.x hab.y h.drawn hd

theorem Connects.isFrame_eq (h : p.Connects padding j a b c) : isFrame c = false := by
  rw [isFrame, (connectorShape_eq_ok h.drawn).2.1]
  rfl

/-- What the frames of a page grow to around the other shapes and a connector. -/
def Grown (p : Page) (c : Shape) (grown : List Layer) : Prop :=
  List.Forall₂ (Grows (p.shapes.filter (! isFrame ·) ++ [c])) (p.layers.filter (isFrame ·.shape))
    grown

/-- A page with a connector on top of all other shapes, which are on top of the grown frames. -/
def withConnector (p : Page) (c : Shape) (a b : Tip) (grown : List Layer) : Page :=
  { layers := grown ++ (p.layers.filter (! isFrame ·.shape) ++ [⟨p.ids.length, c⟩])
    ids := p.ids ++ [c.id], links := p.listed ++ linksOfEnds c.id a.shape b.shape }

theorem settleFrames_connected (hp : p.WellFormed) (h : p.Connects padding j a b c) :
    (p.copy.connected c a b).settleFrames.result = .ok q ↔
      ∃ grown, p.Grown c grown ∧ q = p.withConnector c a b grown := by
  have hframe := h.isFrame_eq
  have hadd : p.add c = .ok
      { p with layers := p.layers ++ [⟨p.ids.length, c⟩], ids := p.ids ++ [c.id] } :=
    add_eq_ok.mpr ⟨h.free, rfl⟩
  rw [settleFrames_eq_ok (p := p.copy.connected c a b) (hp.add hadd).numbers_nodup]
  simp only [connected, copy, Page.shapes, List.map_append, List.map_cons, List.map_nil,
    List.filter_append, List.filter_cons, List.filter_nil, hframe, Bool.not_false, if_true,
    Bool.false_eq_true, if_false, List.append_nil]
  exact Iff.rfl

theorem apply_connector_iff (hp : p.WellFormed) :
    (p.apply padding [.connector j]).result = .ok (q, ids) ↔
      ∃ a b c grown, p.Connects padding j a b c ∧ p.Grown c grown ∧
        q = p.withConnector c a b grown ∧ ids = [c.id] := by
  have hcopy {a b : Tip} {c : Shape} :
      p.copy.Connects padding j a b c ↔ p.Connects padding j a b c :=
    ⟨fun h => ⟨h.ends, h.wanted, h.free, h.drawn⟩, fun h => ⟨h.ends, h.wanted, h.free, h.drawn⟩⟩
  rw [apply_eq_ok]
  constructor
  · intro h
    obtain ⟨m, hall, hq⟩ := h
    obtain ⟨m', id, ids', hm, hnil, rfl⟩ := createAll_cons_eq_ok.mp hall
    cases hnil
    obtain ⟨a, b, c, hc, rfl, rfl⟩ := (createConnector_iff hp.copy).mp hm
    have hc := hcopy.mp hc
    obtain ⟨grown, hgrown, rfl⟩ := (settleFrames_connected hp hc).mp hq
    exact ⟨a, b, c, grown, hc, hgrown, rfl, rfl⟩
  · intro h
    obtain ⟨a, b, c, grown, hc, hgrown, rfl, rfl⟩ := h
    have hcreate := (createConnector_iff hp.copy).mpr ⟨a, b, c, hcopy.mpr hc, rfl, rfl⟩
    exact ⟨p.copy.connected c a b, createAll_cons_eq_ok.mpr ⟨_, c.id, [], hcreate, rfl, rfl⟩,
      (settleFrames_connected hp hc).mpr ⟨grown, hgrown, rfl⟩⟩

theorem Grown.reversed (h : p.Grown c grown) (hcd : c.Reversed d) :
    ∃ grown', p.Grown d grown' ∧
      List.Forall₂ Shape.Agrees (grown.map (·.shape)) (grown'.map (·.shape)) := by
  refine exists_grows ?_ h
  exact List.rel_append (List.forall₂_same.mpr fun s _ => .refl s) (.cons hcd.looksLike .nil)

/-! ## Bindings -/

/-- The bindings of a connector are those of the other direction with their terminals exchanged;
what was bound first is bound last. -/
theorem linksOfEnds_reversed (connector : String) (s t : Option Shape) :
    (linksOfEnds connector t s).map (·.toBinding) =
      (((linksOfEnds connector s t).map (·.toBinding)).map Binding.opposite).reverse := by
  cases s <;> cases t <;> rfl

theorem bindings_withConnector (hp : p.WellFormed) (h : p.Connects padding j a b c)
    (grown : List Layer) : (p.withConnector c a b grown).bindings =
      p.bindings ++ (linksOfEnds c.id a.shape b.shape).map (·.toBinding) := by
  have hordered := (ordered_copy hp.ids_nodup).append (add_eq_ok.mpr ⟨h.free, rfl⟩) a.shape b.shape
  have hlisted : (p.withConnector c a b grown).listed =
      p.listed ++ linksOfEnds c.id a.shape b.shape := hordered.listed
  rw [bindings, hlisted, List.map_append]
  rfl

end

/-! ## Batches of one connector -/

/-- Two pages that come from one page by a connector and by one in the other direction. -/
structure Mirrors (p q q' : Page) (c d : Shape) : Prop where
  ids : q.ids = p.ids ++ [c.id]
  ids_eq : q'.ids = q.ids
  shapes : ∃ olds olds', q.shapes = olds ++ [c] ∧ q'.shapes = olds' ++ [d] ∧
    List.Forall₂ Shape.Agrees olds olds'
  reversed : c.Reversed d
  bindings : ∃ news : List Binding, (∀ b ∈ news, b.connector = c.id) ∧
    q.bindings = p.bindings ++ news ∧
      q'.bindings = p.bindings ++ (news.map Binding.opposite).reverse

/-- Where the ends of a connector match, the other direction makes the same of the page. -/
theorem apply_mirrors (hp : p.WellFormed) (hmatch : p.EndsMatch padding j)
    (h : (p.apply padding [.connector j]).result = .ok (q, ids)) :
    ∃ q' c d, (p.apply padding [.connector j.reversed]).result = .ok (q', ids) ∧ ids = [c.id] ∧
      p.Mirrors q q' c d := by
  obtain ⟨a, b, c, grown, hc, hgrown, rfl, rfl⟩ := (apply_connector_iff hp).mp h
  obtain ⟨d, hd, hid, hreversed⟩ := hc.exists_reversed
  have hcd := hreversed (hmatch a b hc.ends)
  obtain ⟨grown', hgrown', hagrees⟩ := hgrown.reversed hcd
  have hids : (p.withConnector d b a grown').ids = p.ids ++ [c.id] := congrArg (p.ids ++ [·]) hid
  refine ⟨p.withConnector d b a grown', c, d,
    (apply_connector_iff hp).mpr ⟨b, a, d, grown', hd, hgrown', rfl, by rw [hid]⟩, rfl,
    rfl, hids, ?_, hcd, ?_⟩
  · let others := (p.layers.filter (! isFrame ·.shape)).map (·.shape)
    refine ⟨grown.map (·.shape) ++ others, grown'.map (·.shape) ++ others, ?_, ?_, ?_⟩
    · simp [withConnector, Page.shapes, others]
    · simp [withConnector, Page.shapes, others]
    · exact List.rel_append hagrees (List.forall₂_same.mpr fun s _ => .refl s)
  · refine ⟨_, fun b hb => ?_, bindings_withConnector hp hc grown, ?_⟩
    · obtain ⟨l, hl, rfl⟩ := List.mem_map.mp hb
      exact linksOfEnds_connector l hl
    · rw [bindings_withConnector hp hd grown', hid, linksOfEnds_reversed]

theorem apply_reversed_of_no_frames (hp : p.WellFormed) (hnone : ∀ s ∈ p.shapes, isFrame s = false)
    (h : (p.apply padding [.connector j]).result = .ok (q, ids)) :
    ∃ r, (p.apply padding [.connector j.reversed]).result = .ok r := by
  obtain ⟨a, b, c, grown, hc, -, -, -⟩ := (apply_connector_iff hp).mp h
  obtain ⟨d, hd, -, -⟩ := hc.exists_reversed
  have hgrown : p.Grown d [] := by
    rw [Grown, filter_isFrame_eq_nil hnone]
    exact .nil
  exact ⟨_, (apply_connector_iff hp).mpr ⟨b, a, d, [], hd, hgrown, rfl, rfl⟩⟩

theorem exists_apply_reversed (hp : p.WellFormed)
    (hmatch : p.EndsMatch padding j ∨ ∀ s ∈ p.shapes, isFrame s = false)
    (h : ∃ r, (p.apply padding [.connector j]).result = .ok r) :
    ∃ r, (p.apply padding [.connector j.reversed]).result = .ok r := by
  obtain ⟨⟨q, ids⟩, hq⟩ := h
  rcases hmatch with hmatch | hnone
  · obtain ⟨q', -, -, hq', -⟩ := apply_mirrors hp hmatch hq
    exact ⟨_, hq'⟩
  · exact apply_reversed_of_no_frames hp hnone hq

theorem mem_numbers_of_offset {s : Shape} {e : End} {offset : Point}
    (h : e.offset s = some offset) : offset.x ∈ s.numbers ∧ offset.y ∈ s.numbers := by
  cases e with
  | start =>
    have hstart : s.start = some offset := h
    simp [Shape.numbers, hstart]
  | finish =>
    have hfinish : s.finish = some offset := h
    simp [Shape.numbers, hfinish]

/-- The ends of a connector whose coordinates are all numbers match. -/
theorem endsMatch_of_numbers (hp : p.WellFormed)
    (h : (p.apply padding [.connector j]).result = .ok (q, ids))
    (hq : ∀ s ∈ q.shapes, ∀ n ∈ s.numbers, n.place?.isSome) : p.EndsMatch padding j := by
  obtain ⟨a, b, c, grown, hc, -, rfl, -⟩ := (apply_connector_iff hp).mp h
  have hmem : c ∈ (p.withConnector c a b grown).shapes := by simp [withConnector, Page.shapes]
  have hreal (e : End) : (End.both a.point b.point e).IsReal := by
    cases e with
    | start => exact (isReal_ends hc.ends).1
    | finish => exact (isReal_ends hc.ends).2
  have hend (e : End) : (End.both a.point b.point e).x.place?.isSome = true ∧
      (End.both a.point b.point e).y.place?.isSome = true := by
    have hdrawn : connectorShape c.id j (End.both a.point b.point .start)
        (End.both a.point b.point .finish) = .ok c := hc.drawn
    obtain ⟨offset, hoffset, hx, hy⟩ := offsets_of_connectorShape hdrawn e
    obtain ⟨hmemX, hmemY⟩ := mem_numbers_of_offset hoffset
    exact ⟨Scalar.isSome_place?_of_sub (hreal e).1 hx (hq c hmem _ hmemX),
      Scalar.isSome_place?_of_sub (hreal e).2 hy (hq c hmem _ hmemY)⟩
  intro a' b' hends
  cases hc.ends.symm.trans hends
  obtain ⟨hx₁, hy₁⟩ := hend .start
  obtain ⟨hx₂, hy₂⟩ := hend .finish
  exact ⟨hx₁.trans hx₂.symm, hy₁.trans hy₂.symm⟩

/-- A connector from one place to another and the one in the other direction make the same of a
page, but for what the direction tells. Both can be created or none; then the final pages have the
same shapes in the same order, with the same boxes of the frames and the same place and bounds of
the connector, whose ends are exchanged and so are the terminals of its bindings. All that is up to
the signs of zeros, and provided that no coordinate is a number at one end of the connector only. -/
theorem apply_reversed (hp : p.WellFormed) (padding : Scalar) (j : ConnectorInstruction) :
    ((p.EndsMatch padding j ∨ ∀ s ∈ p.shapes, isFrame s = false) →
        ((∃ r, (p.apply padding [.connector j]).result = .ok r) ↔
          ∃ r, (p.apply padding [.connector j.reversed]).result = .ok r)) ∧
      ∀ q ids q' ids', (p.apply padding [.connector j]).result = .ok (q, ids) →
        (p.apply padding [.connector j.reversed]).result = .ok (q', ids') →
          (p.EndsMatch padding j ∨ ∀ s ∈ q.shapes, ∀ n ∈ s.numbers, n.place?.isSome) →
            ids' = ids ∧ ∃ c d, ids = [c.id] ∧ p.Mirrors q q' c d := by
  refine ⟨fun hmatch => ⟨exists_apply_reversed hp hmatch, fun h => ?_⟩, ?_⟩
  · have hback := exists_apply_reversed hp (hmatch.imp EndsMatch.reversed id) h
    rwa [j.reversed_reversed] at hback
  · intro q ids q' ids' hq hq' hcase
    have hmatch : p.EndsMatch padding j := hcase.elim id (endsMatch_of_numbers hp hq)
    obtain ⟨q'', c, d, hq'', hid, hmirrors⟩ := apply_mirrors hp hmatch hq
    cases hq'.symm.trans hq''
    exact ⟨rfl, c, d, hid, hmirrors⟩

/-- A connector between a box and an ellipse, near a frame that grows. -/
theorem apply_reversed_ellipse :
    let real (n : Nat) : Scalar := .real (.ofDecimal false n 0)
    let frame : Shape :=
      { id := "shape:f", kind := .known .frame, x := .whole (-50), w := 200, h := 100 }
    let p : Page :=
      { layers := [
          ⟨0, { id := "shape:a", kind := .known .rectangle, x := 10, y := real 20, w := 100, h := 50
                label := "A" }⟩,
          ⟨1, frame⟩,
          ⟨2, { id := "shape:b", kind := .known .ellipse, x := 300, y := 120, w := 80, h := 40
                label := "B" }⟩]
        ids := ["shape:a", "shape:f", "shape:b"] }
    let j : ConnectorInstruction := { source := "A", target := "B" }
    p.WellFormed ∧ p.EndsMatch 8 j ∧
      ∃ q q' c d, (p.apply 8 [.connector j]).result = .ok (q, ["shape:4"]) ∧
        (p.apply 8 [.connector j.reversed]).result = .ok (q', ["shape:4"]) ∧
          p.Mirrors q q' c d ∧ q.get? "shape:f" ≠ some frame := by
  intro real frame p j
  have hp : p.WellFormed := ⟨by decide, by decide, by decide, by decide, by decide⟩
  have hmatch : p.EndsMatch 8 j := by
    obtain ⟨⟨a, b⟩, hends, hcheck⟩ := Outcome.exists_of_any (x := p.ends 8 j)
      (p := fun e => e.1.point.x.place?.isSome == e.2.point.x.place?.isSome &&
        e.1.point.y.place?.isSome == e.2.point.y.place?.isSome) (by decide +kernel)
    rw [Bool.and_eq_true, beq_iff_eq, beq_iff_eq] at hcheck
    intro a' b' hends'
    cases hends.symm.trans hends'
    exact ⟨hcheck.1, hcheck.2⟩
  obtain ⟨⟨q, ids⟩, hq, hcheck⟩ := Outcome.exists_of_any (x := (p.apply 8 [.connector j]).result)
    (p := fun r => r.2 == ["shape:4"] && r.1.get? "shape:f" != some frame) (by decide +kernel)
  rw [Bool.and_eq_true, beq_iff_eq, bne_iff_ne] at hcheck
  obtain ⟨rfl, hgrown⟩ := hcheck
  obtain ⟨hboth, hmirrors⟩ := apply_reversed hp 8 j
  obtain ⟨⟨q', ids'⟩, hq'⟩ := (hboth (.inl hmatch)).mp ⟨_, hq⟩
  obtain ⟨rfl, c, d, -, hmirrors⟩ := hmirrors q _ q' ids' hq hq' (.inl hmatch)
  exact ⟨hp, hmatch, q, q', c, d, hq, hq', hmirrors, hgrown⟩

/-- A connector from a flat box to a point so close to its middle that half of the box is infinitely
many times as long. So the end at the box is at no number, and where it is the first one, no frame
reaches the connector. In the other direction a frame reaches it, and would have to be taller than
floating-point numbers can be. -/
theorem apply_reversed_overflow :
    let real (digits : Nat) (exponent : Int) : Scalar := .real (.ofDecimal false digits exponent)
    let far := real (2 ^ 1023) 0
    let large := real 17 307
    let p : Page :=
      { layers := [
          ⟨0, { id := "shape:a", kind := .known .rectangle, x := .whole (-50), y := far, w := 100
                label := "A" }⟩,
          ⟨1, { id := "shape:b", kind := .known .rectangle, x := real 1 (-308), y := far
                label := "B" }⟩,
          ⟨2, { id := "shape:f", kind := .known .frame, x := large, y := .whole (2 ^ 1023 + 1)
                w := large, h := .whole (2 ^ 1023), label := "F" }⟩]
        ids := ["shape:a", "shape:b", "shape:f"] }
    let j : ConnectorInstruction := { source := "A", target := "B", id := some "c" }
    p.WellFormed ∧ (∃ r, (p.apply 8 [.connector j]).result = .ok r) ∧
      ¬ ∃ r, (p.apply 8 [.connector j.reversed]).result = .ok r := by
  intro real far large p j
  have hok : (p.apply 8 [.connector j]).result.toOption.any (fun _ => true) = true := by
    decide +kernel
  have herror : (p.apply 8 [.connector j.reversed]).result.toOption.isNone = true := by
    decide +kernel
  refine ⟨⟨by decide, by decide, by decide, by decide, by decide⟩, ?_, fun h => ?_⟩
  · obtain ⟨r, hr, -⟩ := Outcome.exists_of_any hok
    exact ⟨r, hr⟩
  · obtain ⟨r, hr⟩ := h
    rw [hr] at herror
    cases herror

end Page

end DiagramScript
