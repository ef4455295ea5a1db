import DiagramScript.Proofs.Edit
import DiagramScript.Proofs.Page.WellFormed

/-
  What operations do to the pages of a desk.

  An operation either writes its own page, all of it at once, or no page (`edit_commits`), and
  what it hands back and writes depends on the pages alone: not on what earlier failures left
  on the draft or in the log. So operations that fail can be left out of a run
  (`run_kept`), and what every single outcome keeps holds of the pages after every run
  (`run_consistent`).
-/

namespace DiagramScript

/-- The pages with what a computation made of one of them, if it made any. -/
def Desk.written {α : Type} (pages : String → Page) (name : String) :
    Except Fault (Page × α) → String → Page
  | .ok (p, _) => fun n => if n = name then p else pages n
  | .error _ => pages

namespace Edit
variable {α β : Type} {d : Desk} {name : String}

/-- An edit hands back what a computation of a page does, and writes that page exactly where
the computation succeeds. -/
structure Commits (e : Edit α) (d : Desk) (name : String) (r : Except Fault (Page × α)) :
    Prop where
  result : (e.on d).1 = r.map (·.2)
  pages : (e.on d).2.pages = Desk.written d.pages name r

/-- An edit that only makes a value. -/
def Makes (k : Edit α) (d : Desk) (a : α) : Prop :=
  (k.on d).1 = .ok a ∧ (k.on d).2.pages = d.pages

namespace Commits

theorem of_taking {e : Edit Unit} {x : Except Fault Page}
    (he : e.on d = d.taking (.named name) x) : Commits e d name ((·, ()) <$> x) := by
  cases x <;> exact ⟨by rw [he]; rfl, by rw [he]; rfl⟩

theorem look {slot : Slot} {k : Page → Edit α} {r : Except Fault (Page × α)}
    (h : Commits (k (d.page slot)) d name r) : Commits (Edit.look slot >>= k) d name r :=
  ⟨h.result, h.pages⟩

theorem compute {x : Except Fault β} {k : β → Edit α} {h : β → Except Fault (Page × α)}
    (hk : ∀ b, Commits (k b) d name (h b)) : Commits (ofExcept x >>= k) d name (x >>= h) := by
  cases x with
  | error e => exact ⟨by simp [on_seq]; rfl, by simp [on_seq]; rfl⟩
  | ok b => exact hk b

theorem andMake {e : Edit α} {k : α → Edit β} {r : Except Fault (Page × α)}
    {f : Page → α → β} (he : Commits e d name r)
    (hk : ∀ p a d', d'.pages name = p → Makes (k a) d' (f p a)) :
    Commits (e >>= k) d name (r.map fun x => (x.1, f x.1 x.2)) := by
  obtain ⟨hres, hpages⟩ := he
  -- Only the outcome of `e` is known in full; of its desk, the pages are.
  cases r with
  | error x =>
    have hon : e.on d = (.error x, (e.on d).2) := Prod.ext hres rfl
    refine ⟨?_, ?_⟩
    · rw [on_seq_error k hon]
      rfl
    · rw [on_seq_error k hon]
      exact hpages
  | ok x =>
    obtain ⟨p, a⟩ := x
    have hon : e.on d = (.ok a, (e.on d).2) := Prod.ext hres rfl
    have hp : (e.on d).2.pages name = p := by
      rw [hpages]
      simp [Desk.written]
    obtain ⟨hval, hsame⟩ := hk p a _ hp
    refine ⟨?_, ?_⟩
    · rw [on_seq_ok k hon, hval]
      rfl
    · rw [on_seq_ok k hon, hsame]
      exact hpages

theorem of_follows {e : Edit α} {r : Report (Page × α)} (he : Follows e d r) :
    Commits (e >>= fun a => takeOver (.named name) .draft >>= fun _ => pure a) d name
      r.result := by
  -- A failure on the draft stops the edit in front of the page.
  obtain ⟨q, hon, hq⟩ := he
  cases hr : r.result with
  | error x =>
    rw [hr] at hon
    refine ⟨?_, ?_⟩
    · rw [on_seq_error _ hon]
      rfl
    · rw [on_seq_error _ hon]
      rfl
  | ok x =>
    obtain ⟨p, a⟩ := x
    obtain rfl := hq _ hr
    rw [hr] at hon
    refine ⟨?_, ?_⟩
    · rw [on_seq_ok _ hon, on_seq_ok _ (takeOver_on .draft)]
      rfl
    · rw [on_seq_ok _ hon, on_seq_ok _ (takeOver_on .draft)]
      rfl

theorem of_prepared {e : Edit Unit} {x : Except Fault Page}
    (he : Follows e d ((·, ()) <$> (liftM x : Report Page))) :
    Commits (e >>= fun _ => takeOver (.named name) .draft) d name ((·, ()) <$> x) := by
  have h : Commits _ d name _ := of_follows he
  rw [Report.result_map, Report.result_liftM] at h
  simpa using h

end Commits

/-- A batch hands back what it computes from the page. It writes the page exactly where it
succeeds, and no other page. -/
theorem apply_commits (name : String) (padding : Scalar) (is : List Instruction) (d : Desk) :
    Commits (apply (.named name) padding is) d name
      ((d.pages name).apply padding is).result := by
  -- The draft is ready once the frames are settled.
  let ready (p : Page) : Edit (List String) :=
    change .draft (fun _ => p.copy) >>= fun _ =>
      createAll padding is >>= fun ids => settleFrames >>= fun _ => pure ids
  have hready : Follows (ready (d.pages name)) d
      (Page.createAll padding (d.pages name).copy is >>= fun x =>
        x.1.settleFrames >>= fun p => pure (p, x.2)) := by
    refine .change (.seq (h := fun p ids => p.settleFrames >>= fun p => pure (p, ids))
      (createAll_follows padding is _) fun p ids d' _ hp => ?_)
    subst hp
    exact .andThen (settleFrames_follows d') fun _ => .value ids
  have happly : apply (.named name) padding is = look (.named name) >>= fun p =>
      (ready p >>= fun ids => takeOver (.named name) .draft >>= fun _ => pure ids) >>= fun ids =>
        tell [.materialized ids.length] >>= fun _ => pure ids := by
    simp only [ready, apply, bind_assoc, pure_bind]
  have hresult : ((d.pages name).apply padding is).result =
      (Page.createAll padding (d.pages name).copy is >>= fun x =>
        x.1.settleFrames >>= fun p => pure (p, x.2)).result.map fun x => (x.1, x.2) := by
    have hid (r : Except Fault (Page × List String)) : r.map (fun x => (x.1, x.2)) = r := by
      cases r <;> rfl
    rw [hid]
    simp only [Page.apply, Report.result_bind, Report.result_tell, Report.result_pure]
    rfl
  rw [happly, hresult]
  exact .look ((Commits.of_follows hready).andMake (f := fun _ ids => ids)
    fun _ _ _ _ => ⟨rfl, rfl⟩)

end Edit

namespace Operation

/-- The name of the page that an operation is about. -/
def target : Operation → String
  | make page _ | load page _ _ | copy page _ | takeOver page _ | add page _ | bind page _ _ _
  | reorder page _ | apply page _ _ | compile page _ | compileRecords page _
  | compileJson page _ _ => page

/-- What an operation makes of the pages: its page and what it hands back. -/
def outcome (g : Generator) (pages : String → Page) : Operation → Except Fault (Page × Answer)
  | make _ shapes => (·, .nothing) <$> Page.ofShapes shapes
  | load _ shapes bindings => (·, .nothing) <$> Page.ofRecords shapes bindings
  | copy _ source => .ok ((pages source).copy, .nothing)
  | takeOver _ source => .ok (pages source, .nothing)
  | add page s => (·, .nothing) <$> (pages page).add s
  | bind page connector shape terminal =>
    (·, .nothing) <$> (pages page).bindValues connector shape terminal
  | reorder page shapes => (·, .nothing) <$> (pages page).reorder (layersOf shapes)
  | apply page padding is => do
    let padding ← Settings.arrowPadding padding
    let (p, ids) ← ((pages page).apply padding is).result
    .ok (p, .ids ids)
  | compile page source => (fun p => (p, .page p)) <$> (g.compile (pages page) source).result
  | compileRecords page records =>
    (fun p => (p, .page p)) <$> (g.compileRecords (pages page) records).result
  | compileJson page text room =>
    (fun p => (p, .page p)) <$> (g.compileJson (pages page) text room).result

theorem nothing_commits {e : Edit Unit} {x : Except Fault Page} {d : Desk} {name : String}
    (he : e.Commits d name ((·, ()) <$> x)) :
    Edit.Commits (e >>= fun _ => pure Answer.nothing) d name ((·, .nothing) <$> x) := by
  have h := he.andMake (k := fun _ => pure Answer.nothing) (f := fun _ _ => .nothing)
    fun _ _ _ _ => ⟨rfl, rfl⟩
  cases x <;> exact h

theorem place_commits (g : Generator) (name : String) (is : Except Fault (List Instruction))
    (d : Desk) : (place g name is).Commits d name ((fun p => (p, .page p)) <$>
      ((liftM is : Report (List Instruction)) >>= g.place (d.pages name)).result) := by
  have hr : (fun p => (p, Answer.page p)) <$>
      ((liftM is : Report (List Instruction)) >>= g.place (d.pages name)).result =
      is >>= fun is => ((d.pages name).apply g.arrowPadding is).result.map fun x =>
        (x.1, .page x.1) := by
    rw [Report.result_bind, Report.result_liftM, map_bind]
    congr 1
    funext is
    rw [Generator.place, Report.result_bind]
    cases ((d.pages name).apply g.arrowPadding is).result <;> rfl
  -- What is handed back is the page as it was just written.
  rw [hr]
  refine .compute fun is => ?_
  refine (Edit.apply_commits name g.arrowPadding is d).andMake
    (k := fun _ => Edit.look (.named name) >>= fun p => pure (Answer.page p))
    (f := fun p _ => .page p) fun p _ d' hp => ⟨?_, rfl⟩
  rw [← hp]
  rfl

/-- An operation does what it computes from the pages, and writes its page where that
succeeds. -/
theorem edit_commits (g : Generator) (op : Operation) (d : Desk) :
    (op.edit g).Commits d op.target (op.outcome g d.pages) := by
  -- A page is built on the draft and taken over, changed where it is, or replaced by a changed
  -- copy.
  cases op with
  | make name shapes =>
    have h : Edit.Commits _ d name _ :=
      nothing_commits (.of_prepared (Edit.make_follows shapes d))
    rwa [bind_assoc] at h
  | load name shapes bindings =>
    have h : Edit.Commits _ d name _ :=
      nothing_commits (.of_prepared (Edit.load_follows shapes bindings d))
    rwa [bind_assoc] at h
  | copy name source => exact ⟨rfl, rfl⟩
  | takeOver name source =>
    refine nothing_commits (x := .ok (d.pages source)) (.of_taking ?_)
    exact Edit.takeOver_on _
  | add name s => exact nothing_commits (.of_taking (Edit.add_on s))
  | bind name connector shape terminal =>
    exact nothing_commits (.of_taking (Edit.bindValues_on connector shape terminal))
  | reorder name shapes => exact nothing_commits (.of_taking (Edit.reorder_on _))
  | apply name padding is =>
    refine .compute fun padding => ?_
    have h := (Edit.apply_commits name padding is d).andMake (k := fun ids => pure (.ids ids))
      (f := fun _ ids => Answer.ids ids) fun _ _ _ _ => ⟨rfl, rfl⟩
    show Edit.Commits _ d name (((d.pages name).apply padding is).result >>= _)
    cases hr : ((d.pages name).apply padding is).result <;> rw [hr] at h <;> exact h
  | compile name source => exact place_commits g name _ d
  | compileRecords name records => exact place_commits g name _ d
  | compileJson name text room => exact place_commits g name _ d

/-! ## Runs -/

theorem run_cons (g : Generator) (op : Operation) (ops : List Operation) (d : Desk) :
    run g (op :: ops) d = (((op.edit g).on d).1 :: (run g ops ((op.edit g).on d).2).1,
      (run g ops ((op.edit g).on d).2).2) := rfl

theorem run_congr (g : Generator) (ops : List Operation) {d d' : Desk}
    (h : d.pages = d'.pages) :
    (run g ops d).1 = (run g ops d').1 ∧ (run g ops d).2.pages = (run g ops d').2.pages := by
  induction ops generalizing d d' with
  | nil => exact ⟨rfl, h⟩
  | cons op ops ih =>
    -- Drafts and logs may differ, but no outcome reads them.
    obtain ⟨hres, hpages⟩ := edit_commits g op d
    obtain ⟨hres', hpages'⟩ := edit_commits g op d'
    rw [← h] at hres' hpages'
    obtain ⟨hrest, hend⟩ := ih (hpages.trans hpages'.symm)
    rw [run_cons, run_cons]
    exact ⟨by rw [hres, hres', hrest], hend⟩

/-- The operations of a run that succeed. -/
def kept (g : Generator) (ops : List Operation) (d : Desk) : List Operation :=
  ((ops.zip (run g ops d).1).filter (·.2.isOk)).map (·.1)

theorem kept_cons (g : Generator) (op : Operation) (ops : List Operation) (d : Desk) :
    kept g (op :: ops) d = if ((op.edit g).on d).1.isOk
      then op :: kept g ops ((op.edit g).on d).2 else kept g ops ((op.edit g).on d).2 := by
  simp only [kept, run_cons, List.zip_cons_cons, List.filter_cons]
  split <;> rfl

/-- Without the operations that fail, a run has the same results otherwise and ends with the
same pages. -/
theorem run_kept (g : Generator) (ops : List Operation) (d : Desk) :
    (run g (kept g ops d) d).1 = (run g ops d).1.filter (·.isOk) ∧
      (run g (kept g ops d) d).2.pages = (run g ops d).2.pages := by
  induction ops generalizing d with
  | nil => exact ⟨rfl, rfl⟩
  | cons op ops ih =>
    obtain ⟨hres, hpages⟩ := ih ((op.edit g).on d).2
    rw [kept_cons, run_cons]
    cases hop : ((op.edit g).on d).1 with
    | ok a =>
      simp only [Except.isOk, Except.toBool, if_true, run_cons, List.filter_cons, hop]
      exact ⟨by rw [hres]; rfl, hpages⟩
    | error e =>
      -- The run goes on from what the failure left, which has the same pages.
      have hsame : d.pages = ((op.edit g).on d).2.pages := by
        obtain ⟨hr, hp⟩ := edit_commits g op d
        cases ho : op.outcome g d.pages with
        | ok x =>
          rw [hop, ho] at hr
          cases hr
        | error e =>
          rw [hp, ho]
          rfl
      obtain ⟨hleft, hend⟩ := run_congr g (kept g ops ((op.edit g).on d).2) hsame
      simp only [Except.isOk, Except.toBool, Bool.false_eq_true, if_false, List.filter_cons]
      exact ⟨hleft.trans hres, hend.trans hpages⟩

/-! ## Pages of runs -/

theorem layersOf_ids (shapes : List Shape) :
    (layersOf shapes).map (·.shape.id) = shapes.map (·.id) := by
  have hfst : shapes.zipIdx.map (·.1) = shapes := List.zipIdx_map_fst 0 shapes
  calc (layersOf shapes).map (·.shape.id)
      = (shapes.zipIdx.map (·.1)).map (·.id) := by
        rw [layersOf, List.map_map, List.map_map]
        rfl
    _ = shapes.map (·.id) := by rw [hfst]

theorem layersOf_numbers (shapes : List Shape) :
    (layersOf shapes).map (·.number) = List.range' 0 shapes.length := by
  rw [← List.zipIdx_map_snd 0 shapes, layersOf, List.map_map]
  rfl

theorem reorder_wellFormed {p q : Page} {shapes : List Shape} (h : p.WellFormed)
    (hq : p.reorder (layersOf shapes) = .ok q) : q.WellFormed := by
  obtain ⟨hids, rfl⟩ := Page.reorder_eq_ok.mp hq
  have hlength : shapes.length = p.ids.length := by
    rw [← (hids.trans h.ids_perm).length_eq, layersOf_ids, List.length_map]
  refine h.withLayers hids ?_ fun l hl => ?_
  · rw [layersOf_numbers]
    exact List.nodup_range'
  · have hmem : l.number ∈ List.range' 0 shapes.length :=
      layersOf_numbers shapes ▸ List.mem_map_of_mem hl
    rw [List.mem_range'_1] at hmem
    omega

theorem of_map {P : Page → Prop} {x : Except Fault Page} {answer : Page → Answer} {p : Page}
    {a : Answer} (h : ∀ {q}, x = .ok q → P q)
    (hx : (fun q => (q, answer q)) <$> x = .ok (p, a)) : P p := by
  obtain ⟨q, hq, heq⟩ := Outcome.map_eq_ok.mp hx
  cases heq
  exact h hq

/-- What new pages without bindings have and every operation but a load and a binding keeps. -/
structure Lasting (P : Page → Prop) : Prop where
  ofShapes : ∀ {shapes : List Shape} {q : Page}, Page.ofShapes shapes = .ok q → P q
  copy : ∀ {p : Page}, P p → P p.copy
  add : ∀ {p q : Page} {s : Shape}, P p → p.add s = .ok q → P q
  reorder : ∀ {p q : Page} {shapes : List Shape}, P p → p.reorder (layersOf shapes) = .ok q → P q
  apply : ∀ {p q : Page} {padding : Scalar} {is : List Instruction} {ids : List String}, P p →
    (p.apply padding is).result = .ok (q, ids) → P q

section Lasting
variable {P : Page → Prop} {g : Generator} {op : Operation} {pages : String → Page} {p : Page}
  {a : Answer}

theorem Lasting.place {is : Except Fault (List Instruction)} {q : Page} (hP : Lasting P) (h : P p)
    (hq : ((liftM is : Report (List Instruction)) >>= g.place p).result = .ok q) : P q := by
  simp only [Generator.place, Report.result_bind, Report.result_pure, Outcome.bind_eq_ok] at hq
  obtain ⟨is, -, ⟨q', ids⟩, hq', hq⟩ := hq
  cases hq
  exact hP.apply h hq'

theorem Lasting.outcome (hP : Lasting P) (h : ∀ name, P (pages name))
    (hload : ∀ {name shapes bindings q}, op = load name shapes bindings →
      Page.ofRecords shapes bindings = .ok q → P q)
    (hbind : ∀ {name connector shape terminal q}, op = bind name connector shape terminal →
      (pages name).bindValues connector shape terminal = .ok q → P q)
    (ho : op.outcome g pages = .ok (p, a)) : P p := by
  cases op with
  | make name shapes => exact of_map hP.ofShapes ho
  | load name shapes bindings => exact of_map (hload rfl) ho
  | copy name source =>
    cases ho
    exact hP.copy (h source)
  | takeOver name source =>
    cases ho
    exact h source
  | add name s => exact of_map (hP.add (h name)) ho
  | bind name connector shape terminal => exact of_map (hbind rfl) ho
  | reorder name shapes => exact of_map (hP.reorder (h name)) ho
  | apply name padding is =>
    simp only [Operation.outcome, Outcome.bind_eq_ok] at ho
    obtain ⟨padding, -, ⟨q, ids⟩, hq, ho⟩ := ho
    cases ho
    exact hP.apply (h name) hq
  | compile name source => exact of_map (hP.place (h name)) ho
  | compileRecords name records => exact of_map (hP.place (h name)) ho
  | compileJson name text room => exact of_map (hP.place (h name)) ho

end Lasting

theorem lasting_wellFormed : Lasting Page.WellFormed where
  ofShapes := .ofShapes
  copy := fun h => h.copy
  add := fun h => h.add
  reorder := reorder_wellFormed
  apply := fun h => h.apply

theorem outcome_wellFormed {g : Generator} {op : Operation} {pages : String → Page} {p : Page}
    {a : Answer} (h : ∀ name, (pages name).WellFormed)
    (ho : op.outcome g pages = .ok (p, a)) : p.WellFormed :=
  lasting_wellFormed.outcome h (fun _ => .ofRecords) (fun _ => (h _).bindValues) ho

/-- What all pages have and the page that an operation makes has, all pages have afterwards. -/
theorem edit_pages {P : Page → Prop} {g : Generator} {op : Operation} {d : Desk}
    (h : ∀ name, P (d.pages name))
    (hop : ∀ {p a}, op.outcome g d.pages = .ok (p, a) → P p) (name : String) :
    P (((op.edit g).on d).2.pages name) := by
  rw [(edit_commits g op d).pages]
  cases ho : op.outcome g d.pages with
  | error e => exact h name
  | ok x =>
    show P (if name = op.target then x.1 else d.pages name)
    split
    · exact hop ho
    · exact h name

theorem run_wellFormed (g : Generator) (ops : List Operation) {d : Desk}
    (h : ∀ name, (d.pages name).WellFormed) (name : String) :
    ((run g ops d).2.pages name).WellFormed := by
  induction ops generalizing d with
  | nil => exact h name
  | cons op ops ih =>
    rw [run_cons]
    exact ih (edit_pages h (outcome_wellFormed h))

/-- Whatever operations are run, each of them failing or not, every page stays consistent. -/
theorem run_consistent (g : Generator) (ops : List Operation) (name : String) :
    ((run g ops {}).2.pages name).Consistent :=
  (run_wellFormed g ops (fun _ => .empty) name).consistent

end Operation

end DiagramScript
