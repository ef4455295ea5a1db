import DiagramScript.Desk
import DiagramScript.Proofs.Outcome

/-
  What edits do to a desk.

  An edit is not undone where it fails, so each statement here says what the desk holds in
  both cases. A single change (`add_on`, `reorder_on`, `bind_on`, `bindValues_on`) writes its
  page only where it succeeds. A batch writes the draft all the way to where it stops and the
  page not before its last step: up to there it is the computation of a new page from the
  draft, events included (`Follows`, `createAll_follows`, `settleFrames_follows`).
-/

namespace DiagramScript

namespace Desk
variable (d : Desk) (slot : Slot) (p q : Page)

@[simp] theorem page_put : (d.put slot p).page slot = p := by
  cases slot <;> simp [put, page]

@[simp] theorem put_put : (d.put slot p).put slot q = d.put slot q := by
  cases slot with
  | named name =>
    simp only [put]
    congr 1
    funext n
    by_cases h : n = name <;> simp [h]
  | draft => rfl

/-- The outcome of a change of one page: the desk has the new page, or is as it was. -/
def taking (d : Desk) (slot : Slot) : Except Fault Page → Except Fault Unit × Desk
  | .ok p => (.ok (), d.put slot p)
  | .error e => (.error e, d)

end Desk

namespace Edit
variable {α β : Type} {d : Desk} {slot : Slot}

@[simp] theorem on_pure (a : α) (d : Desk) : (pure a : Edit α).on d = (.ok a, d) := rfl

@[simp] theorem on_ofExcept (r : Except Fault α) (d : Desk) :
    (ofExcept r).on d = (r, d) := rfl

@[simp] theorem on_look (slot : Slot) (d : Desk) :
    (look slot).on d = (.ok (d.page slot), d) := rfl

@[simp] theorem on_change (slot : Slot) (f : Page → Page) (d : Desk) :
    (change slot f).on d = (.ok (), d.put slot (f (d.page slot))) := rfl

@[simp] theorem on_tell (events : List Event) (d : Desk) :
    (tell events).on d = (.ok (), { d with log := d.log ++ events }) := rfl

/-- After a failure nothing more happens. -/
theorem on_seq (e : Edit α) (k : α → Edit β) (d : Desk) :
    (e >>= k).on d = match e.on d with
      | (.ok a, d) => (k a).on d
      | (.error x, d) => (.error x, d) := by
  show (ExceptT.run (e >>= k)).run d = _
  simp only [on, ExceptT.run_bind, StateT.run_bind]
  generalize e.run.run d = r
  obtain ⟨x, d'⟩ := r
  cases x <;> rfl

theorem on_seq_ok {e : Edit α} {a : α} {d d' : Desk} (k : α → Edit β)
    (h : e.on d = (.ok a, d')) : (e >>= k).on d = (k a).on d' := by
  rw [on_seq, h]

theorem on_seq_error {e : Edit α} {x : Fault} {d d' : Desk} (k : α → Edit β)
    (h : e.on d = (.error x, d')) : (e >>= k).on d = (.error x, d') := by
  rw [on_seq, h]

/-! ## Single changes -/

theorem add_on (s : Shape) : (add slot s).on d = d.taking slot ((d.page slot).add s) := by
  rw [add, on_seq, on_look, Page.add]
  by_cases h : (d.page slot).ids.contains s.id
  · simp only [h, if_true]
    rfl
  · simp only [h, Bool.false_eq_true, if_false, on_seq, on_change, Desk.page_put,
      Desk.put_put]
    rfl

theorem reorder_on (layers : List Layer) :
    (reorder slot layers).on d = d.taking slot ((d.page slot).reorder layers) := by
  rw [reorder, on_seq, on_look, Page.reorder]
  by_cases h : (layers.map (·.shape.id)).isPerm ((d.page slot).layers.map (·.shape.id))
  · simp only [h, if_true]
    rfl
  · simp only [h, Bool.false_eq_true, if_false]
    rfl

theorem bind_on (b : Binding) :
    (bind slot b).on d = d.taking slot ((d.page slot).bind b) := by
  rw [bind, on_seq, on_look, Page.bind]
  simp only [on_seq, on_ofExcept]
  cases (d.page slot).checkId b.connector with
  | error e => rfl
  | ok u => cases (d.page slot).checkId b.shape <;> rfl

theorem bindValues_on (connector shape terminal : Value) :
    (bindValues slot connector shape terminal).on d =
      d.taking slot ((d.page slot).bindValues connector shape terminal) := by
  rw [bindValues, on_seq, on_look, Page.bindValues]
  simp only [on_seq, on_ofExcept]
  -- Nothing is written before the last of the checks.
  cases (d.page slot).boundId connector with
  | error e => rfl
  | ok c =>
    cases (d.page slot).boundId shape with
    | error e => rfl
    | ok s =>
      cases Terminal.ofValue? terminal with
      | none => rfl
      | some t => exact bind_on _

theorem takeOver_on (source : Slot) :
    (takeOver slot source).on d = (.ok (), d.put slot (d.page source)) := by
  simp only [takeOver, on_seq, on_look, on_change, Desk.page_put, Desk.put_put]

theorem ofReport_on (r : Report α) :
    (ofReport r).on d = (r.result, { d with log := d.log ++ r.events }) := by
  rw [ofReport, on_seq, on_tell]
  rfl

/-! ## Batches on the draft -/

/-- On a desk an edit does to the draft and the log what a computation of a new page does;
where that fails the draft is left anyhow. No other page changes. -/
def Follows (e : Edit α) (d : Desk) (r : Report (Page × α)) : Prop :=
  ∃ q, e.on d = (r.result.map (·.2), { d with draft := q, log := d.log ++ r.events }) ∧
    ∀ x, r.result = .ok x → q = x.1

namespace Follows

theorem of_error {e : Edit α} {r : Report (Page × α)} {q : Page} {x : Fault}
    (hr : r.result = .error x)
    (he : e.on d = (.error x, { d with draft := q, log := d.log ++ r.events })) :
    Follows e d r := by
  refine ⟨q, ?_, fun y hy => ?_⟩
  · rw [he, hr]
    rfl
  · rw [hr] at hy
    cases hy

theorem of_ok {e : Edit α} {r : Report (Page × α)} {q : Page} {a : α}
    (hr : r.result = .ok (q, a))
    (he : e.on d = (.ok a, { d with draft := q, log := d.log ++ r.events })) :
    Follows e d r := by
  refine ⟨q, ?_, fun y hy => ?_⟩
  · rw [he, hr]
    rfl
  · rw [hr] at hy
    cases hy
    rfl

theorem seq {e : Edit α} {k : α → Edit β} {r : Report (Page × α)}
    {h : Page → α → Report (Page × β)} (he : Follows e d r)
    (hk : ∀ p a d', r.result = .ok (p, a) → d'.draft = p → Follows (k a) d' (h p a)) :
    Follows (e >>= k) d (r >>= fun x => h x.1 x.2) := by
  obtain ⟨q, hon, hq⟩ := he
  cases hr : r.result with
  | error x =>
    rw [hr] at hon
    refine of_error (q := q) (x := x) ?_ ?_
    · rw [Report.result_bind, hr]
      rfl
    · rw [on_seq_error k hon, Report.events_bind_error _ hr]
  | ok x =>
    obtain ⟨p, a⟩ := x
    -- The draft that the first edit leaves is the page that the next one starts from.
    obtain rfl := hq _ hr
    rw [hr] at hon
    obtain ⟨q', hon', hq'⟩ := hk q a { d with draft := q, log := d.log ++ r.events } hr rfl
    have hres : (r >>= fun x => h x.1 x.2).result = (h q a).result := by
      rw [Report.result_bind, hr]
      rfl
    refine ⟨q', ?_, fun x hx => hq' x (hres ▸ hx)⟩
    rw [on_seq_ok k hon, hon', hres, Report.events_bind_ok _ hr, List.append_assoc]

/-- A step without a value of its own, and what comes after it. -/
theorem andThen {e : Edit Unit} {k : Edit β} {r : Report Page} {h : Page → Report (Page × β)}
    (he : Follows e d ((·, ()) <$> r)) (hk : ∀ d', Follows k d' (h d'.draft)) :
    Follows (e >>= fun _ => k) d (r >>= h) := by
  have heq : r >>= h = ((·, ()) <$> r) >>= fun x => h x.1 := by simp
  rw [heq]
  exact seq he fun p _ d' _ hp => hp ▸ hk d'

theorem value (a : α) : Follows (pure a) d (pure (d.draft, a)) :=
  of_ok rfl (by simp)

theorem look {k : Page → Edit α} {r : Report (Page × α)} (h : Follows (k d.draft) d r) :
    Follows (Edit.look .draft >>= k) d r := h

/-- A step that only computes. -/
theorem compute {x : Except Fault β} {k : β → Edit α} {h : β → Report (Page × α)}
    (hk : ∀ b, Follows (k b) d (h b)) : Follows (ofExcept x >>= k) d (liftM x >>= h) := by
  cases x with
  | error e =>
    have hr : liftM (Except.error e) >>= h = ⟨[], .error e⟩ := rfl
    rw [hr]
    exact of_error (q := d.draft) rfl (by simp [on_seq])
  | ok b => exact hk b

/-- A single change of the draft. -/
theorem taking {e : Edit Unit} {x : Except Fault Page} (he : e.on d = d.taking .draft x) :
    Follows e d ((·, ()) <$> (liftM x : Report Page)) := by
  cases x with
  | error e =>
    have hr : (·, ()) <$> (liftM (Except.error e) : Report Page) = ⟨[], .error e⟩ := rfl
    rw [hr]
    exact of_error (q := d.draft) rfl (by simp [he, Desk.taking])
  | ok p =>
    have hr : (·, ()) <$> Report.ofExcept (.ok p) = ⟨[], .ok (p, ())⟩ := rfl
    show Follows e d ((·, ()) <$> Report.ofExcept (.ok p))
    rw [hr]
    exact of_ok rfl (by simp [he, Desk.taking, Desk.put])

theorem tell {event : Event} {k : Edit α} {r : Report (Page × α)}
    (hk : ∀ d', d'.draft = d.draft → Follows k d' r) :
    Follows (Edit.tell [event] >>= fun _ => k) d (Report.tell event >>= fun _ => r) := by
  obtain ⟨q, hon, hq⟩ := hk { d with log := d.log ++ [event] } rfl
  refine ⟨q, ?_, hq⟩
  rw [on_seq_ok _ (on_tell _ d), hon, Report.events_bind_ok _ (Report.result_tell event),
    List.append_assoc]
  rfl

/-- A computation that has events of its own. -/
theorem report {x : Report β} {k : β → Edit α} {h : β → Report (Page × α)}
    (hk : ∀ b d', d'.draft = d.draft → Follows (k b) d' (h b)) :
    Follows (ofReport x >>= k) d (x >>= h) := by
  have hr : x >>= h = ((d.draft, ·) <$> x) >>= fun y => h y.2 := by simp
  rw [hr]
  refine seq (h := fun _ b => h b) ?_ fun p b d' hp hd => ?_
  -- The log takes the events of both outcomes, the draft stays.
  · cases hx : x.result with
    | error e =>
      exact of_error (q := d.draft) (by rw [Report.result_map, hx]; rfl)
        (by simp [ofReport_on, hx])
    | ok b =>
      exact of_ok (q := d.draft) (by rw [Report.result_map, hx]; rfl)
        (by simp [ofReport_on, hx])
  · rw [Report.result_map, Outcome.map_eq_ok] at hp
    obtain ⟨_, -, hp⟩ := hp
    cases hp
    exact hk b d' hd

theorem change {f : Page → Page} {k : Edit α} {r : Report (Page × α)}
    (hk : Follows k (d.put .draft (f d.draft)) r) :
    Follows (Edit.change .draft f >>= fun _ => k) d r := hk

end Follows

theorem createShape_follows (i : ShapeInstruction) (d : Desk) :
    Follows (createShape i) d (d.draft.createShape i) :=
  .look (.compute fun s => .andThen (.taking (add_on s)) fun _ => .tell fun _ hd =>
    hd ▸ .value s.id)

theorem bindEnd_follows (connector terminal : String) (target : Option Shape) (d : Desk) :
    Follows (bindEnd connector terminal target) d
      ((·, ()) <$> d.draft.bindEnd connector terminal target) := by
  cases target with
  | none => exact .value ()
  | some t =>
    -- The event comes after the binding, and only where that succeeds.
    have hr : (·, ()) <$> d.draft.bindEnd connector terminal (some t) =
        liftM (d.draft.bind ⟨connector, t.id, .text terminal⟩) >>= fun p =>
          Report.tell (.bound connector terminal t.id) >>= fun _ => pure (p, ()) := by
      simp [Page.bindEnd]
    rw [hr]
    exact .andThen (.taking (bind_on _)) fun _ => .tell fun _ hd => hd ▸ .value ()

theorem createConnector_follows (padding : Scalar) (i : ConnectorInstruction) (d : Desk) :
    Follows (createConnector padding i) d (d.draft.createConnector padding i) :=
  .look (.compute fun (s, a, b) => .andThen (.taking (add_on s)) fun d₁ =>
    .andThen (bindEnd_follows s.id "start" a d₁) fun d₂ =>
      .andThen (bindEnd_follows s.id "end" b d₂) fun _ => .value s.id)

theorem create_follows (padding : Scalar) (i : Instruction) (d : Desk) :
    Follows (create padding i) d (Page.create padding d.draft i) := by
  cases i with
  | shape i => exact createShape_follows i d
  | connector i => exact createConnector_follows padding i d

theorem createAll_follows (padding : Scalar) (is : List Instruction) (d : Desk) :
    Follows (createAll padding is) d (Page.createAll padding d.draft is) := by
  induction is generalizing d with
  | nil => exact .value []
  | cons i is ih =>
    show Follows (create padding i >>= fun id => createAll padding is >>= fun ids =>
      pure (id :: ids)) d (Page.create padding d.draft i >>= fun x =>
        Page.createAll padding x.1 is >>= fun y => pure (y.1, x.2 :: y.2))
    refine .seq (h := fun p id => Page.createAll padding p is >>= fun y => pure (y.1, id :: y.2))
      (create_follows padding i d) fun p id d₁ _ hp => ?_
    subst hp
    refine .seq (h := fun p ids => pure (p, id :: ids)) (ih d₁) fun p ids d₂ _ hp => ?_
    subst hp
    exact .value (id :: ids)

theorem framesToBottom_on (d : Desk) :
    framesToBottom.on d = d.taking .draft d.draft.framesToBottom := by
  rw [framesToBottom, on_seq, on_look]
  exact reorder_on _

theorem growFrames_follows (others : List Shape) (numbers : List Nat) (d : Desk) :
    Follows (growFrames others numbers) d
      ((·, ()) <$> Page.growFrames others d.draft numbers) := by
  -- By induction on the numbers: a frame that grew is on the draft when the next one is looked up.
  induction numbers generalizing d with
  | nil => exact .value ()
  | cons n numbers ih =>
    rw [growFrames]
    refine .look ?_
    cases hl : d.draft.layers.find? (·.number == n) with
    | none =>
      have hr : Page.growFrames others d.draft (n :: numbers) =
          Page.growFrames others d.draft numbers := by rw [Page.growFrames, hl]
      rw [hr]
      exact ih d
    | some l =>
      have hr : (·, ()) <$> Page.growFrames others d.draft (n :: numbers) =
          Page.growFrame others l.shape >>= fun s =>
            (·, ()) <$> Page.growFrames others (d.draft.replace n s) numbers := by
        rw [Page.growFrames, hl]
        exact map_bind _ _ _
      rw [hr]
      refine .report fun s d' hd => .change ?_
      rw [← hd]
      exact ih (d'.put .draft (d'.draft.replace n s))

theorem settleFrames_follows (d : Desk) :
    Follows settleFrames d ((·, ()) <$> d.draft.settleFrames) := by
  rw [Page.settleFrames, map_bind]
  exact .andThen (.taking (framesToBottom_on d)) fun d' => .look (growFrames_follows _ _ d')

/-! ## New pages -/

/-- A single change, and what comes after it on the changed draft. -/
theorem Follows.next {e k : Edit Unit} {x : Except Fault Page} {h : Page → Except Fault Page}
    (he : e.on d = d.taking .draft x)
    (hk : ∀ d', Follows k d' ((·, ()) <$> (liftM (h d'.draft) : Report Page))) :
    Follows (e >>= fun _ => k) d ((·, ()) <$> (liftM (x >>= h) : Report Page)) := by
  have hr : (·, ()) <$> (liftM (x >>= h) : Report Page) =
      liftM x >>= fun p => (·, ()) <$> (liftM (h p) : Report Page) := by
    cases x <;> rfl
  rw [hr]
  exact .andThen (.taking he) hk

theorem addAll_follows (shapes : List Shape) (d : Desk) :
    Follows (addAll shapes) d
      ((·, ()) <$> (liftM (shapes.foldlM Page.add d.draft) : Report Page)) := by
  induction shapes generalizing d with
  | nil => exact .value ()
  | cons s shapes ih =>
    rw [List.foldlM_cons]
    exact .next (add_on s) ih

theorem make_follows (shapes : List Shape) (d : Desk) :
    Follows (make shapes) d ((·, ()) <$> (liftM (Page.ofShapes shapes) : Report Page)) :=
  .change (addAll_follows shapes _)

theorem addRecord_on (v : Value) (index : Nat) :
    (addRecord v index).on d = d.taking .draft (d.draft.addRecord v index) := by
  cases v with
  | object r =>
    rw [addRecord, on_seq, on_look, Page.addRecord]
    simp only [on_seq, on_ofExcept, Desk.page]
    cases d.draft.shapeOfFields r index with
    | error e => rfl
    | ok s => exact add_on s
  | _ => rfl

theorem addRecords_follows (n : Nat) (vs : List Value) (d : Desk) :
    Follows (addRecords n vs) d
      ((·, ()) <$> (liftM (d.draft.addRecords n vs) : Report Page)) := by
  induction vs generalizing n d with
  | nil => exact .value ()
  | cons v vs ih => exact .next (addRecord_on v n) fun d' => ih (n + 1) d'

theorem bindRecord_on (v : Value) :
    (bindRecord v).on d = d.taking .draft (d.draft.bindRecord v) := by
  cases v with
  | object r =>
    simp only [bindRecord, Page.bindRecord, on_seq, on_ofExcept]
    cases Page.bindingField r "fromId" with
    | error e => rfl
    | ok connector =>
      cases Page.bindingField r "toId" with
      | error e => rfl
      | ok shape =>
        cases Page.bindingField r "terminal" with
        | error e => rfl
        | ok terminal => exact bindValues_on _ _ _
  | _ => rfl

theorem bindRecords_follows (vs : List Value) (d : Desk) :
    Follows (bindRecords vs) d
      ((·, ()) <$> (liftM (vs.foldlM Page.bindRecord d.draft) : Report Page)) := by
  induction vs generalizing d with
  | nil => exact .value ()
  | cons v vs ih =>
    rw [List.foldlM_cons]
    exact .next (bindRecord_on v) ih

theorem load_follows (shapes bindings : Value) (d : Desk) :
    Follows (load shapes bindings) d
      ((·, ()) <$> (liftM (Page.ofRecords shapes bindings) : Report Page)) := by
  have hr : (·, ()) <$> (liftM (Page.ofRecords shapes bindings) : Report Page) =
      liftM (Page.members shapes) >>= fun vs =>
        ((·, ()) <$> (liftM (Page.empty.addRecords 0 vs) : Report Page)) >>= fun x =>
          liftM (Page.members bindings) >>= fun bs =>
            (·, ()) <$> (liftM (bs.foldlM Page.bindRecord x.1) : Report Page) := by
    rw [Page.ofRecords]
    cases Page.members shapes with
    | error e => rfl
    | ok vs =>
      show (·, ()) <$> (liftM (Page.empty.addRecords 0 vs >>= _) : Report Page) =
        ((·, ()) <$> (liftM (Page.empty.addRecords 0 vs) : Report Page)) >>= _
      cases Page.empty.addRecords 0 vs with
      | error e => rfl
      | ok p => cases Page.members bindings <;> rfl
  rw [hr]
  refine .change (.compute fun vs => ?_)
  refine .seq (h := fun p _ => liftM (Page.members bindings) >>= fun bs =>
    (·, ()) <$> (liftM (bs.foldlM Page.bindRecord p) : Report Page))
    (addRecords_follows 0 vs _) fun p _ d' _ hp => ?_
  subst hp
  exact .compute fun bs => bindRecords_follows bs d'

end Edit

end DiagramScript
