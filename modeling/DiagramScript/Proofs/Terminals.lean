import DiagramScript.Proofs.Operation
import DiagramScript.Proofs.Page.Attached
import DiagramScript.Proofs.Page.Reload

/-
  One binding for each terminal.

  A binding takes the place of the one with its key, if there is one (`Link.Keyed.make_perm`).
  Keys tell the bindings between one connector and one shape apart and say nothing of other
  shapes, so a connector gets a second binding with a terminal exactly where the first one goes
  to another shape, or where the terminal is left out, which is a key of nothing
  (`Page.OneEach.bind`). Batches bind every terminal of a new connector once. So in a run in
  which no binding is made beside another one with its terminal every connector has one binding
  for each terminal all along, and the next binding keeps it so under the same condition and no
  other (`Operation.run_oneEach`).
-/

namespace DiagramScript
open Link (Keyed)

/-- Whether bindings have the same terminal; to have none is the same, too. -/
def Terminal.equals (s t : Terminal) : Bool := (s == unnamed && t == unnamed) || s.same t

theorem Terminal.equals_comm (s t : Terminal) : s.equals t = t.equals s := by
  rw [equals, equals, Bool.and_comm, same_comm]

theorem Terminal.same_of_equals {s t : Terminal} (h : s.equals t) (ht : t ≠ unnamed) :
    s ≠ unnamed ∧ s.same t := by
  rw [equals, beq_eq_false_iff_ne.mpr ht, Bool.and_false, Bool.false_or] at h
  refine ⟨?_, h⟩
  rintro rfl
  cases h

/-- Two bindings of one connector have the same terminal. -/
def Binding.SharesEnd (a b : Binding) : Prop :=
  a.connector = b.connector ∧ a.terminal.equals b.terminal

theorem Binding.SharesEnd.symm {a b : Binding} (h : a.SharesEnd b) : b.SharesEnd a :=
  ⟨h.1.symm, Terminal.equals_comm a.terminal b.terminal ▸ h.2⟩

namespace Link

/-! ## Making a binding -/

theorem isFor_comm (l m : Link) : isFor l.toBinding l.key m = isFor m.toBinding m.key l := by
  rw [isFor, isFor, Bool.beq_comm, Bool.beq_comm (a := m.shape), Terminal.same_comm]

theorem isFor_congr {b : Binding} {key : Terminal} {l : Link} (h : isFor b key l) (m : Link) :
    isFor b key m = isFor l.toBinding l.key m := by
  simp only [isFor, Bool.and_eq_true, beq_iff_eq] at h
  obtain ⟨⟨hconnector, hshape⟩, hkey⟩ := h
  rw [isFor, isFor, hconnector, hshape, (Terminal.alike_of_same hkey).same_right]

theorem Keyed.pairwise {links : List Link} (h : Keyed links) :
    links.Pairwise fun l m => isFor l.toBinding l.key m = false := by
  induction links using List.reverseRecOn with
  | nil => exact .nil
  | append_singleton links l ih =>
    obtain ⟨hlinks, hnew, -⟩ := Keyed.append_singleton.mp h
    refine List.pairwise_append.mpr ⟨ih hlinks, List.pairwise_singleton _ _, fun m hm k hk => ?_⟩
    rw [List.mem_singleton.mp hk, isFor_comm]
    simpa using List.any_eq_false.mp hnew m hm

theorem Keyed.key_alike {links : List Link} (h : Keyed links) {l : Link} (hl : l ∈ links)
    (hnamed : l.terminal ≠ .unnamed) : l.key.Alike l.terminal := by
  obtain ⟨xs, ys, hsplit⟩ := List.append_of_mem hl
  have hkey := (h xs l ys hsplit).2
  rwa [keyFor_named hnamed] at hkey

/-- Only one of the links is renewed by a binding of its key. -/
theorem Keyed.renew_perm {xs ys : List Link} {l : Link} (h : Keyed (xs ++ l :: ys)) {b : Binding}
    {key : Terminal} (hfor : isFor b key l = true) :
    ((xs ++ l :: ys).map (renew b key)).Perm
      (renew b key l :: (xs ++ l :: ys).filter (! isFor b key ·)) := by
  -- No other link has the key of this one.
  have hothers : ∀ m ∈ xs ++ ys, isFor b key m = false := by
    intro m hm
    rw [isFor_congr hfor]
    have hpairs := (List.pairwise_middle fun {l m} hlm =>
      (isFor_comm m l).trans hlm).mp h.pairwise
    exact (List.pairwise_cons.mp hpairs).1 m hm
  have hkept : (xs ++ ys).map (renew b key) = xs ++ ys := by
    refine (List.map_congr_left fun m hm => ?_).trans (List.map_id _)
    rw [renew, hothers m hm]
    rfl
  have hleft : (xs ++ l :: ys).filter (! isFor b key ·) = xs ++ ys := by
    rw [List.filter_append, List.filter_cons_of_neg (by simp [hfor]), ← List.filter_append,
      List.filter_eq_self]
    intro m hm
    rw [hothers m hm]
    rfl
  have hperm : (xs ++ l :: ys).Perm (l :: (xs ++ ys)) := List.perm_middle
  have hrenewed := hperm.map (renew b key)
  rwa [List.map_cons, hkept, ← hleft] at hrenewed

/-- A binding takes the place of the link with its key, or comes behind all links; the others
stay as they are. -/
theorem Keyed.make_perm {links : List Link} (h : Keyed links) (b : Binding) :
    ∃ l : Link, l.toBinding = b ∧
      (Link.make links b).Perm (l :: links.filter (! isFor b (keyFor links b) ·)) := by
  simp only [Link.make]
  split
  · rename_i hany
    obtain ⟨l, hl, hfor⟩ := List.any_eq_true.mp hany
    obtain ⟨xs, ys, rfl⟩ := List.append_of_mem hl
    refine ⟨renew b (keyFor (xs ++ l :: ys) b) l, ?_, h.renew_perm hfor⟩
    rw [renew, if_pos hfor]
    simp only [isFor, Bool.and_eq_true, beq_iff_eq] at hfor
    obtain ⟨⟨hconnector, hshape⟩, -⟩ := hfor
    rw [hconnector, hshape]
  · rename_i hnone
    refine ⟨{ toBinding := b, key := keyFor links b }, rfl, ?_⟩
    have hall : links.filter (! isFor b (keyFor links b) ·) = links := by
      rw [List.filter_eq_self]
      intro m hm
      have hm' := mt (fun hfor => List.any_eq_true.mpr ⟨m, hm, hfor⟩) hnone
      simpa using hm'
    rw [hall]
    exact List.perm_append_singleton _ _

end Link

namespace Page
variable {p q : Page} {padding : Scalar}

/-! ## On a page -/

/-- Every connector has one binding for each of its terminals. -/
def OneEach (p : Page) : Prop :=
  ∀ id, ((p.bindingsOf id).map (·.terminal)).Pairwise fun s t => s.equals t = false

/-- Whether a connector has a binding with the terminal of another one that cannot take its
place: one to another shape, or one without a terminal. -/
def doubles (p : Page) (b : Binding) : Bool :=
  (p.bindingsOf b.connector).any fun a =>
    a.terminal.equals b.terminal && (a.shape != b.shape || b.terminal == .unnamed)

theorem oneEach_iff : p.OneEach ↔
    p.links.Pairwise fun l m => ¬ l.toBinding.SharesEnd m.toBinding := by
  have hconnector (id : String) :
      ((p.bindingsOf id).map (·.terminal)).Pairwise (fun s t => s.equals t = false) ↔
        p.links.Pairwise fun l m => l.connector = id → m.connector = id →
          l.terminal.equals m.terminal = false := by
    have hgroup : (p.linksOf id).Perm (p.madeFor id) := groupBy_perm _ _
    rw [bindingsOf, List.pairwise_map, List.pairwise_map, hgroup.pairwise_iff, madeFor,
      List.pairwise_filter]
    · simp only [beq_iff_eq]
    · intro l m hlm
      rw [Terminal.equals_comm]
      exact hlm
  simp only [OneEach, hconnector, List.pairwise_iff_forall_sublist]
  constructor
  · rintro h l m hsub ⟨hsame, hterminal⟩
    rw [h l.connector hsub rfl hsame.symm] at hterminal
    cases hterminal
  · intro h id l m hsub hl hm
    rw [← Bool.not_eq_true]
    exact fun hterminal => h hsub ⟨hl.trans hm.symm, hterminal⟩

theorem doubles_iff {b : Binding} : p.doubles b ↔ ∃ l ∈ p.links, l.toBinding.SharesEnd b ∧
    (l.shape ≠ b.shape ∨ b.terminal = .unnamed) := by
  simp only [doubles, List.any_eq_true, mem_bindingsOf, madeFor, List.mem_filter,
    Bool.and_eq_true, Bool.or_eq_true, bne_iff_ne, beq_iff_eq, Binding.SharesEnd]
  constructor
  · rintro ⟨_, ⟨l, ⟨hl, hconnector⟩, rfl⟩, hterminal, hcase⟩
    exact ⟨l, hl, ⟨hconnector, hterminal⟩, hcase⟩
  · rintro ⟨l, hl, ⟨hconnector, hterminal⟩, hcase⟩
    exact ⟨_, ⟨l, ⟨hl, hconnector⟩, rfl⟩, hterminal, hcase⟩

/-- One more binding leaves one for each terminal exactly if it takes the place of the one that
has its terminal, or if there is none. -/
theorem OneEach.bind {b : Binding} (hk : Keyed p.links) (h : p.OneEach) (hq : p.bind b = .ok q) :
    q.OneEach ↔ p.doubles b = false := by
  obtain ⟨-, -, rfl⟩ := bind_eq_ok.mp hq
  obtain ⟨l, rfl, hperm⟩ := hk.make_perm b
  have hothers := (oneEach_iff.mp h).sublist
    (List.filter_sublist (p := (! Link.isFor l.toBinding (Link.keyFor p.links l.toBinding) ·)))
  rw [oneEach_iff, hperm.pairwise_iff fun {l m} hlm hml => hlm hml.symm, List.pairwise_cons,
    and_iff_left hothers, ← Bool.not_eq_true, doubles_iff]
  constructor
  · rintro hrest ⟨m, hm, hshares, hcase⟩
    refine hrest m (List.mem_filter.mpr ⟨hm, ?_⟩) hshares.symm
    rw [Bool.not_eq_true']
    rcases hcase with hshape | hunnamed
    · simp [Link.isFor, hshape]
    · have hnone : p.links.any (Link.isFor l.toBinding (Link.keyFor p.links l.toBinding)) = false :=
        Link.any_isFor_unnamed hunnamed
      simpa using List.any_eq_false.mp hnone m hm
  · intro hnone m hm hshares
    obtain ⟨hm, hfor⟩ := List.mem_filter.mp hm
    refine hnone ⟨m, hm, hshares.symm, ?_⟩
    by_contra hcase
    rw [not_or, not_not] at hcase
    obtain ⟨hshape, hnamed⟩ := hcase
    -- A link to the same shape with this terminal has it as its key.
    obtain ⟨hmnamed, hsame⟩ := Terminal.same_of_equals hshares.symm.2 hnamed
    have hkey : m.key.same l.terminal = true := (hk.key_alike hm hmnamed _).trans hsame
    rw [Link.keyFor_named hnamed, Link.isFor, ← hshares.1, hshape, hkey] at hfor
    simp at hfor

/-- A page whose stores fit together and whose connectors have one binding for each terminal. -/
structure Tidy (p : Page) : Prop where
  well_formed : p.WellFormed
  keyed : Keyed p.links
  one_each : p.OneEach

namespace Tidy

theorem empty : Tidy Page.empty := ⟨.empty, .nil, oneEach_iff.mpr .nil⟩

theorem of_links (h : p.Tidy) (hq : q.WellFormed) (hlinks : q.links = p.links) : q.Tidy := by
  refine ⟨hq, hlinks ▸ h.keyed, oneEach_iff.mpr ?_⟩
  rw [hlinks]
  exact oneEach_iff.mp h.one_each

theorem add {s : Shape} (h : p.Tidy) (hq : p.add s = .ok q) : q.Tidy := by
  refine h.of_links (h.well_formed.add hq) ?_
  obtain ⟨-, rfl⟩ := add_eq_ok.mp hq
  rfl

theorem copy (h : p.Tidy) : p.copy.Tidy := by
  refine ⟨h.well_formed.copy, h.well_formed.keyed_listed h.keyed, oneEach_iff.mpr ?_⟩
  have hperm : p.listed.Perm p.links := h.well_formed.linksOf_perm (.refl _)
  exact (hperm.pairwise_iff fun {l m} hlm hml => hlm hml.symm).mpr (oneEach_iff.mp h.one_each)

theorem bind {b : Binding} (h : p.Tidy) (hb : p.doubles b = false) (hq : p.bind b = .ok q) :
    q.Tidy := by
  refine ⟨h.well_formed.bind hq, ?_, (h.one_each.bind h.keyed hq).mpr hb⟩
  obtain ⟨-, -, rfl⟩ := bind_eq_ok.mp hq
  exact h.keyed.make b

/-! ## Batches -/

/-- An end of a connector may be bound to any shape where no link of it has the terminal yet. -/
theorem bindEnd {connector terminal : String} {target : Option Shape} (h : p.Tidy)
    (hfree : ∀ l ∈ p.madeFor connector, l.terminal.equals (.text terminal) = false)
    (hq : (p.bindEnd connector terminal target).result = .ok q) : q.Tidy := by
  rcases bindEnd_eq_ok.mp hq with ⟨-, rfl⟩ | ⟨t, -, hbind⟩
  · exact h
  · refine h.bind ?_ hbind
    rw [← Bool.not_eq_true, doubles_iff]
    rintro ⟨l, hl, ⟨hconnector, hterminal⟩, -⟩
    rw [hfree l (List.mem_filter.mpr ⟨hl, beq_iff_eq.mpr hconnector⟩)] at hterminal
    cases hterminal

theorem createConnector {i : ConnectorInstruction} {id : String} (h : p.Tidy)
    (hq : (p.createConnector padding i).result = .ok (q, id)) : q.Tidy := by
  obtain ⟨s, a, b, p₁, p₂, -, hadd, hstart, hend, -⟩ := createConnector_eq_ok.mp hq
  have hnew : p₁.madeFor s.id = [] := madeFor_of_add h.well_formed.connector_mem hadd
  have hbound : p₂.Tidy := (h.add hadd).bindEnd (by simp [hnew]) hstart
  -- The start is the only other terminal of the new connector.
  obtain rfl := bindEnd_links (by simp [hnew]) hstart
  refine hbound.bindEnd (fun l hl => ?_) hend
  rw [madeFor_append linkOf_connector, hnew, if_pos rfl, List.nil_append] at hl
  obtain ⟨t, -, rfl⟩ := List.mem_map.mp hl
  rfl

theorem create {i : Instruction} {id : String} (h : p.Tidy)
    (hq : (Page.create padding p i).result = .ok (q, id)) : q.Tidy := by
  cases i with
  | shape i =>
    obtain ⟨s, -, hadd, -⟩ := createShape_eq_ok.mp hq
    exact h.add hadd
  | connector i => exact h.createConnector hq

theorem createAll {is : List Instruction} {ids : List String} (h : p.Tidy)
    (hq : (Page.createAll padding p is).result = .ok (q, ids)) : q.Tidy :=
  createAll_induction hq h fun _ hp hcreate => hp.create hcreate

theorem apply {is : List Instruction} {ids : List String} (h : p.Tidy)
    (hq : (p.apply padding is).result = .ok (q, ids)) : q.Tidy := by
  obtain ⟨m, hm, hsettled⟩ := apply_eq_ok.mp hq
  have hall : m.Tidy := h.copy.createAll hm
  exact hall.of_links (h.well_formed.apply hq)
    (settleFrames_reframes hall.well_formed hsettled).links

end Tidy

/-! ## Records -/

/-- Whether no binding of some records is made beside another one with its terminal. -/
def recordsApart : Page → List Value → Bool
  | _, [] => true
  | p, v :: vs =>
    (recordedBinding? v).all (! p.doubles ·) &&
      match p.bindRecord v with
      | .ok q => q.recordsApart vs
      | .error _ => true

/-- Whether no binding of a load is made beside another one with its terminal. -/
def loadsApart (shapes bindings : Value) : Bool :=
  match members shapes >>= empty.addRecords 0, members bindings with
  | .ok p, .ok vs => p.recordsApart vs
  | _, _ => true

namespace Tidy

theorem ofShapes {shapes : List Shape} (h : Page.ofShapes shapes = .ok q) : q.Tidy :=
  Outcome.foldlM_ok_induction (fun _ _ _ _ hp hq => hp.add hq) empty h

theorem bindValues {connector shape terminal : Value} (h : p.Tidy)
    (hb : (bindingOf? connector shape terminal).all (! p.doubles ·) = true)
    (hq : p.bindValues connector shape terminal = .ok q) : q.Tidy := by
  obtain ⟨b, heq, hbind⟩ := bindValues_eq_ok.mp hq
  rw [heq, Option.all_some, Bool.not_eq_true'] at hb
  exact h.bind hb hbind

theorem bindRecords {vs : List Value} (h : p.Tidy) (hvs : p.recordsApart vs = true)
    (hq : vs.foldlM Page.bindRecord p = .ok q) : q.Tidy := by
  induction vs generalizing p with
  | nil =>
    cases hq
    exact h
  | cons v vs ih =>
    rw [List.foldlM_cons, Outcome.bind_eq_ok] at hq
    obtain ⟨m, hm, hq⟩ := hq
    obtain ⟨b, hb, hbind⟩ := bindRecord_eq_ok.mp hm
    rw [recordsApart, hm, hb, Option.all_some, Bool.and_eq_true, Bool.not_eq_true'] at hvs
    exact ih (h.bind hvs.1 hbind) hvs.2 hq

theorem ofRecords {shapes bindings : Value} (h : loadsApart shapes bindings = true)
    (hq : Page.ofRecords shapes bindings = .ok q) : q.Tidy := by
  simp only [Page.ofRecords, Outcome.bind_eq_ok] at hq
  obtain ⟨ss, hss, p, hp, vs, hvs, hq⟩ := hq
  have hload : members shapes >>= Page.empty.addRecords 0 = .ok p :=
    Outcome.bind_eq_ok.mpr ⟨ss, hss, hp⟩
  rw [loadsApart, hload, hvs] at h
  have hbare : p.Tidy := addRecords_induction hp empty fun hp _ hadd => hp.add hadd
  exact hbare.bindRecords h hq

end Tidy

end Page

namespace Operation
open Page (Tidy)

/-! ## Runs -/

/-- Whether an operation makes no binding beside another one with its terminal. -/
def bindsApart (pages : String → Page) : Operation → Bool
  | load _ shapes bindings => Page.loadsApart shapes bindings
  | bind page connector shape terminal =>
    (Page.bindingOf? connector shape terminal).all (! (pages page).doubles ·)
  | _ => true

/-- Whether every operation of a run that succeeds makes no binding beside another one with its
terminal. -/
def careful (g : Generator) : List Operation → Desk → Bool
  | [], _ => true
  | op :: ops, d =>
    (op.bindsApart d.pages || ! ((op.edit g).on d).1.isOk) && careful g ops ((op.edit g).on d).2

variable {g : Generator} {op : Operation}

theorem reorder_tidy {p q : Page} {shapes : List Shape} (h : p.Tidy)
    (hq : p.reorder (layersOf shapes) = .ok q) : q.Tidy := by
  refine h.of_links (reorder_wellFormed h.well_formed hq) ?_
  obtain ⟨-, rfl⟩ := Page.reorder_eq_ok.mp hq
  rfl

theorem lasting_tidy : Lasting Tidy where
  ofShapes := Tidy.ofShapes
  copy := Tidy.copy
  add := Tidy.add
  reorder := reorder_tidy
  apply := Tidy.apply

theorem outcome_tidy {pages : String → Page} {p : Page} {a : Answer}
    (h : ∀ name, (pages name).Tidy) (hop : op.bindsApart pages = true)
    (ho : op.outcome g pages = .ok (p, a)) : p.Tidy := by
  refine lasting_tidy.outcome h (fun heq hq => ?_) (fun heq hq => ?_) ho
  · subst heq
    exact Tidy.ofRecords hop hq
  · subst heq
    exact (h _).bindValues hop hq

theorem run_tidy {ops : List Operation} {d : Desk} (h : ∀ name, (d.pages name).Tidy)
    (hops : careful g ops d = true) (name : String) : ((run g ops d).2.pages name).Tidy := by
  -- By induction on the operations: an operation that fails leaves all pages as they are.
  induction ops generalizing d with
  | nil => exact h name
  | cons op ops ih =>
    rw [careful, Bool.and_eq_true, Bool.or_eq_true, Bool.not_eq_true'] at hops
    obtain ⟨hop, hops⟩ := hops
    rw [run_cons]
    refine ih (edit_pages h fun {p a} ho => ?_) hops
    rcases hop with hop | hfails
    · exact outcome_tidy h hop ho
    · rw [(edit_commits g op d).result, ho] at hfails
      cases hfails

/-- In a run that makes no binding beside another one with its terminal every connector has one
binding for each terminal, on every page; and the next binding keeps it so exactly if it is
not made beside another one with its terminal either. -/
theorem run_oneEach (g : Generator) {ops : List Operation} (h : careful g ops {} = true)
    (name : String) :
    ((run g ops {}).2.pages name).OneEach ∧
      ∀ b q, ((run g ops {}).2.pages name).bind b = .ok q →
        (q.OneEach ↔ ((run g ops {}).2.pages name).doubles b = false) := by
  have htidy := run_tidy (fun _ => .empty) h name
  exact ⟨htidy.one_each, fun b q hq => htidy.one_each.bind htidy.keyed hq⟩

/-- A binding that is made twice, one with another terminal, one that is refused, and a batch on
a copy. -/
theorem run_oneEach_copy :
    let g : Generator := { padding := 24, background := "#ffffff", arrowPadding := 8
                           scale := .number 2 }
    let shapes : Value := .list [
      .object [("type", .text "arrow"), ("id", .text "c")],
      .object [("type", .text "rect"), ("id", .text "a")],
      .object [("type", .text "rect"), ("id", .text "b")]]
    let bindings : Value := .list [.object [("fromId", .text "shape:c"),
      ("toId", .text "shape:a"), ("terminal", .text "start")]]
    let ops : List Operation := [
      load "p" shapes bindings,
      bind "p" (.text "shape:c") (.text "shape:a") (.text "start"),
      bind "p" (.text "shape:c") (.text "shape:b") (.text "end"),
      bind "p" (.text "shape:c") (.text "shape:d") (.text "start"),
      copy "q" "p",
      compile "q" "arrow a -> b"]
    careful g ops {} = true ∧ ((run g ops {}).2.pages "q").OneEach ∧
      ((run g ops {}).2.pages "q").bindings =
        [⟨"shape:c", "shape:a", .text "start"⟩, ⟨"shape:c", "shape:b", .text "end"⟩,
          ⟨"shape:4", "shape:a", .text "start"⟩, ⟨"shape:4", "shape:b", .text "end"⟩] := by
  intro g shapes bindings ops
  have hcareful : careful g ops {} = true := by decide +kernel
  exact ⟨hcareful, (run_oneEach g hcareful "q").1, by decide +kernel⟩

/-- The start of a connector that is bound to one shape after the other stays bound to both. -/
theorem run_rebound :
    let g : Generator := { padding := 24, background := "#ffffff", arrowPadding := 8
                           scale := .number 2 }
    let shapes : Value := .list [
      .object [("type", .text "arrow"), ("id", .text "c")],
      .object [("type", .text "rect"), ("id", .text "a")],
      .object [("type", .text "rect"), ("id", .text "b")]]
    let ops : List Operation := [
      load "p" shapes (.list []),
      bind "p" (.text "shape:c") (.text "shape:a") (.text "start"),
      bind "p" (.text "shape:c") (.text "shape:b") (.text "start")]
    ((run g ops {}).2.pages "p").bindingsOf "shape:c" =
        [⟨"shape:c", "shape:a", .text "start"⟩, ⟨"shape:c", "shape:b", .text "start"⟩] ∧
      ¬ ((run g ops {}).2.pages "p").OneEach := by
  intro g shapes ops
  have hboth : ((run g ops {}).2.pages "p").bindingsOf "shape:c" =
      [⟨"shape:c", "shape:a", .text "start"⟩, ⟨"shape:c", "shape:b", .text "start"⟩] := by
    decide +kernel
  refine ⟨hboth, fun h => ?_⟩
  have hpairs := h "shape:c"
  rw [hboth] at hpairs
  simp [Terminal.equals] at hpairs

end Operation

end DiagramScript
