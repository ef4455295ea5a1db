import DiagramScript.Proofs.Page.Attached
import DiagramScript.Proofs.Page.Creation

/-
  Batches one after the other.

  The only trace that the end of a batch leaves on a page without frames is that the next batch
  works on a copy, on which links count as made in the order of their listing. That is the order
  they are in already: a batch starts on a copy, and each new connector is listed last and has its
  links behind all others (`Ordered`, kept by each instruction). So without frames two batches one
  after the other do what they do together (`apply_append`).
-/

namespace DiagramScript

/-- The kind of the shape that an instruction asks for. -/
def Instruction.kind : Instruction → Kind
  | .shape i => i.kind
  | .connector _ => .connector

namespace Page
variable {p q : Page} {padding : Scalar}

/-! ## Links in the order of their listing -/

/-- A page whose links stand in the order of their listing. -/
structure Ordered (p : Page) : Prop where
  ids_nodup : p.ids.Nodup
  listed : p.listed = p.links

theorem Ordered.copy_eq (h : p.Ordered) : p.copy = p := by
  rw [copy, h.listed]

theorem ordered_copy (h : p.ids.Nodup) : p.copy.Ordered :=
  ⟨h, listing_listing h (fun _ hid => hid) p.links⟩

theorem Ordered.connector_mem (h : p.Ordered) : ∀ l ∈ p.links, l.connector ∈ p.ids := by
  intro l hl
  rw [← h.listed] at hl
  obtain ⟨id, hid, hl⟩ := List.mem_flatMap.mp hl
  have hmade : l ∈ p.links.filter (·.connector == id) :=
    (groupBy_perm (·.shape) (p.links.filter (·.connector == id))).mem_iff.mp hl
  have hconnector : l.connector = id := by simpa using (List.mem_filter.mp hmade).2
  exact hconnector ▸ hid

/-- The links of the two ends of a connector. -/
def linksOfEnds (connector : String) (a b : Option Shape) : List Link :=
  linkOf connector "start" a ++ linkOf connector "end" b

theorem linksOfEnds_connector {connector : String} {a b : Option Shape} :
    ∀ l ∈ linksOfEnds connector a b, l.connector = connector := by
  intro l hl
  cases List.mem_append.mp hl with
  | inl hl => exact linkOf_connector l hl
  | inr hl => exact linkOf_connector l hl

/-- The two links of a connector are listed as they were made, whether they go to one shape or to
two. -/
theorem grouped_linksOfEnds (connector : String) (a b : Option Shape) :
    Link.grouped (·.shape) (linksOfEnds connector a b) = linksOfEnds connector a b := by
  cases a with
  | none => cases b <;> simp [linksOfEnds, linkOf, Link.grouped, Link.distinct]
  | some s =>
    cases b with
    | none => simp [linksOfEnds, linkOf, Link.grouped, Link.distinct]
    | some t =>
      by_cases hid : t.id = s.id
      · simp [linksOfEnds, linkOf, Link.grouped, Link.distinct, hid]
      · have hid' : s.id ≠ t.id := fun h => hid h.symm
        simp [linksOfEnds, linkOf, Link.grouped, Link.distinct, hid, hid']

theorem Ordered.append (h : p.Ordered) {s : Shape} (hadd : p.add s = .ok q) (a b : Option Shape) :
    Ordered { q with links := q.links ++ linksOfEnds s.id a b } := by
  obtain ⟨hid, rfl⟩ := add_eq_ok.mp hadd
  let added := linksOfEnds s.id a b
  let r : Page := { p with links := p.links ++ added }
  have hmade (id : String) : r.madeFor id = p.madeFor id ++ if s.id = id then added else [] :=
    madeFor_append linksOfEnds_connector id
  -- Old connectors keep their links, and the new one has its own in the order of its ends.
  have hold : ∀ id ∈ p.ids, Link.grouped (·.shape) (r.madeFor id) = p.linksOf id := by
    intro id hmem
    have hne : s.id ≠ id := fun heq => hid (heq ▸ hmem)
    rw [hmade, if_neg hne, List.append_nil]
    rfl
  have hnew : Link.grouped (·.shape) (r.madeFor s.id) = added := by
    rw [hmade, if_pos rfl, madeFor_eq_nil h.connector_mem hid, List.nil_append]
    exact grouped_linksOfEnds s.id a b
  refine ⟨?_, ?_⟩
  · refine List.nodup_append.mpr ⟨h.ids_nodup, List.nodup_singleton _, ?_⟩
    rintro id hmem _ hs rfl
    exact hid (List.mem_singleton.mp hs ▸ hmem)
  · show (p.ids ++ [s.id]).flatMap (fun id => Link.grouped (·.shape) (r.madeFor id)) =
      p.links ++ added
    rw [List.flatMap_append, List.flatMap_singleton, hnew, List.flatMap_congr hold]
    exact congrArg (· ++ added) h.listed

theorem Ordered.add {s : Shape} (h : p.Ordered) (hadd : p.add s = .ok q) : q.Ordered := by
  have hq := h.append hadd none none
  simpa [linksOfEnds, linkOf] using hq

theorem Ordered.create (h : p.Ordered) {i : Instruction} {id : String}
    (hq : (create padding p i).result = .ok (q, id)) : q.Ordered := by
  cases i with
  | shape i =>
    obtain ⟨s, -, hadd, -⟩ := createShape_eq_ok.mp hq
    exact h.add hadd
  | connector i =>
    obtain ⟨s, a, b, p₁, p₂, -, hadd, hstart, hend, -⟩ := createConnector_eq_ok.mp hq
    rw [bindEnds_links (madeFor_of_add h.connector_mem hadd) hstart hend]
    exact h.append hadd a b

/-! ## Pages without frames -/

/-- A page without frames. -/
def Frameless (p : Page) : Prop := ∀ s ∈ p.shapes, isFrame s = false

theorem isFrame_of_kind {s : Shape} {kind : Kind} (hs : s.kind = .known kind)
    (h : kind ≠ .frame) : isFrame s = false := by
  rw [isFrame, hs]
  simpa using h

theorem Frameless.add {s : Shape} (h : p.Frameless) (hs : isFrame s = false)
    (hadd : p.add s = .ok q) : q.Frameless := by
  obtain ⟨-, rfl⟩ := add_eq_ok.mp hadd
  intro t ht
  rw [shapes, List.map_append, List.mem_append] at ht
  rcases ht with ht | ht
  · exact h t ht
  · rw [List.mem_singleton.mp ht]
    exact hs

theorem Frameless.bindEnd (h : p.Frameless) {connector terminal : String} {target : Option Shape}
    (hq : (p.bindEnd connector terminal target).result = .ok q) : q.Frameless := by
  rcases bindEnd_eq_ok.mp hq with ⟨-, rfl⟩ | ⟨t, -, hbind⟩
  · exact h
  · obtain ⟨-, -, rfl⟩ := bind_eq_ok.mp hbind
    exact h

theorem Frameless.create (h : p.Frameless) {i : Instruction} (hi : i.kind ≠ .frame) {id : String}
    (hq : (create padding p i).result = .ok (q, id)) : q.Frameless := by
  cases i with
  | shape i =>
    obtain ⟨s, hs, hadd, -⟩ := createShape_eq_ok.mp hq
    exact h.add (isFrame_of_kind (newShape_eq_ok hs).2.1 hi) hadd
  | connector i =>
    obtain ⟨s, a, b, p₁, p₂, hs, hadd, hstart, hend, -⟩ := createConnector_eq_ok.mp hq
    have hframe : isFrame s = false := isFrame_of_kind (newConnector_eq_ok hs).2.1 hi
    exact ((h.add hframe hadd).bindEnd hstart).bindEnd hend

/-! ## Instructions one after the other -/

theorem Ordered.createAll {is : List Instruction} {ids : List String} (h : p.Ordered)
    (hq : (createAll padding p is).result = .ok (q, ids)) : q.Ordered :=
  createAll_induction hq h fun _ hp hcreate => hp.create hcreate

theorem Frameless.createAll {is : List Instruction} {ids : List String} (h : p.Frameless)
    (his : ∀ i ∈ is, i.kind ≠ .frame) (hq : (createAll padding p is).result = .ok (q, ids)) :
    q.Frameless :=
  createAll_induction hq h fun hi hp hcreate => hp.create (his _ hi) hcreate

theorem createAll_append (first second : List Instruction) :
    createAll padding p (first ++ second) = (do
      let (q, ids) ← createAll padding p first
      let (r, ids') ← createAll padding q second
      return (r, ids ++ ids')) := by
  induction first generalizing p with
  | nil => simp [createAll]
  | cons i first ih => simp only [List.cons_append, createAll, ih, bind_assoc, pure_bind]

/-- Without frames a batch only creates what its instructions ask for. -/
theorem apply_of_frameless {is : List Instruction} (hp : p.Frameless)
    (his : ∀ i ∈ is, i.kind ≠ .frame) :
    (p.apply padding is).result = (createAll padding p.copy is).result := by
  rw [result_apply]
  cases hcreate : (createAll padding p.copy is).result with
  | error e => rfl
  | ok r =>
    obtain ⟨q, ids⟩ := r
    have hq := Frameless.createAll (p := p.copy) hp his hcreate
    show (q.settleFrames.result >>= _) = _
    rw [settleFrames_of_no_frames hq]
    rfl

/-- Without frames it does not matter how instructions are split into batches: a batch gives the
page and the ids that its two parts give one after the other, and fails as the first of them that
fails. -/
theorem apply_append (h : p.ids.Nodup) (hp : p.Frameless) {first second : List Instruction}
    (hfirst : ∀ i ∈ first, i.kind ≠ .frame) (hsecond : ∀ i ∈ second, i.kind ≠ .frame) :
    (p.apply padding (first ++ second)).result = (do
      let (q, ids) ← (p.apply padding first).result
      let (r, ids') ← (q.apply padding second).result
      .ok (r, ids ++ ids')) := by
  have hall : ∀ i ∈ first ++ second, i.kind ≠ .frame :=
    List.forall_mem_append.mpr ⟨hfirst, hsecond⟩
  rw [apply_of_frameless hp hall, apply_of_frameless hp hfirst, createAll_append,
    Report.result_bind]
  cases hcreate : (createAll padding p.copy first).result with
  | error e => rfl
  | ok r =>
    obtain ⟨q, ids⟩ := r
    have hordered := (ordered_copy h).createAll hcreate
    have hframeless := Frameless.createAll (p := p.copy) hp hfirst hcreate
    -- The second part finds the page that the first one left: its copy is the page itself.
    have hrest : (q.apply padding second).result = (createAll padding q second).result := by
      rw [apply_of_frameless hframeless hsecond, hordered.copy_eq]
    show ((createAll padding q second >>= _).result) = ((q.apply padding second).result >>= _)
    rw [hrest, Report.result_bind]
    rfl

/-- A box and a connector from it, and then a text and a connector between both, on a page with a
shape of a foreign kind. -/
theorem apply_append_connected :
    let star : Shape := { id := "shape:star", kind := .foreign "star", w := 10, h := 10 }
    let p : Page := { layers := [⟨0, star⟩], ids := ["shape:star"] }
    let first : List Instruction := [
      .shape { kind := .rectangle, position := some ⟨0, 100⟩, label := some "A" },
      .connector { source := "A", target := "300,50" }]
    let second : List Instruction := [
      .shape { kind := .text, content := some "B" }, .connector { source := "B", target := "A" }]
    p.ids.Nodup ∧ p.Frameless ∧ ∃ q r,
      (p.apply 8 first).result = .ok (q, ["shape:2", "shape:3"]) ∧
        (q.apply 8 second).result = .ok (r, ["shape:4", "shape:5"]) ∧
          (p.apply 8 (first ++ second)).result =
            .ok (r, ["shape:2", "shape:3", "shape:4", "shape:5"]) := by
  intro star p first second
  have hp : p.Frameless := fun s hs => by
    rw [List.mem_singleton.mp hs]
    rfl
  obtain ⟨⟨q, ids⟩, hq, hids⟩ := Outcome.exists_of_any (x := (p.apply 8 first).result)
    (p := fun r => r.2 == ["shape:2", "shape:3"] &&
      (r.1.apply 8 second).result.toOption.any (·.2 == ["shape:4", "shape:5"])) (by decide +kernel)
  rw [Bool.and_eq_true, beq_iff_eq] at hids
  obtain ⟨rfl, hsecond⟩ := hids
  obtain ⟨⟨r, ids'⟩, hr, hids'⟩ := Outcome.exists_of_any hsecond
  obtain rfl := eq_of_beq hids'
  refine ⟨List.nodup_singleton _, hp, q, r, hq, hr, ?_⟩
  rw [apply_append (List.nodup_singleton _) hp (by decide) (by decide), hq]
  show ((q.apply 8 second).result >>= _) = _
  rw [hr]
  rfl

end Page

end DiagramScript
