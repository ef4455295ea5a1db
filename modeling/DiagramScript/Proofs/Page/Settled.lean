import Mathlib.Logic.Function.Iterate
import DiagramScript.Proofs.Page.Frames

/-
  Pages whose frames have settled.

  A batch tests which shapes are near a frame against the box that the frame had before it grew.
  The grown frame may reach more shapes, and then the next batch makes it grow again, even if it
  has no instructions (`apply_unsettled`). But a frame never reaches fewer shapes than before, and
  as soon as it reaches no more of them it stays as it is. So each batch without instructions that
  changes a frame finds one more shape near it, and after as many of them as there are shapes all
  frames have settled (`apply_settles`).
-/

namespace DiagramScript

namespace Rect
variable {ts : List Spot} {r s : Rect} {n : ℕ}

theorem near_sublist (h : r ≤ s) : (r.near ts).Sublist (s.near ts) :=
  (List.monotone_filter_right ts fun _ ht => reaches_mono h ht).map Spot.area

theorem length_near_le (ts : List Spot) (r : Rect) : (r.near ts).length ≤ ts.length := by
  rw [near, List.length_map]
  exact List.length_filter_le _ ts

theorem around_around (h : r.near ts = (r.around ts).near ts) :
    (r.around ts).around ts = r.around ts := by
  rw [around_eq_self, ← h]
  exact fun t ht => (isLUB_around ts r).1 (Set.mem_insert_of_mem _ ⟨t, ht, rfl⟩)

theorem around_iterate (ts : List Spot) (r : Rect) (n : ℕ) :
    ((around ts)^[n] r).around ts = (around ts)^[n] r ∨
      n + 1 ≤ (((around ts)^[n] r).near ts).length := by
  -- By induction on the rounds: as long as a rectangle grows, it reaches one area more in each
  -- round.
  induction n with
  | zero =>
    show r.around ts = r ∨ 0 + 1 ≤ (r.near ts).length
    cases hnear : r.near ts with
    | nil =>
      refine .inl (around_eq_self.mpr fun t ht => ?_)
      rw [hnear] at ht
      cases ht
    | cons t us => exact .inr (by simp)
  | succ n ih =>
    rw [Function.iterate_succ_apply']
    generalize (around ts)^[n] r = s at ih
    rcases ih with hfixed | hcount
    · rw [hfixed]
      exact .inl hfixed
    · have hsub : (s.near ts).Sublist ((s.around ts).near ts) := near_sublist (le_around ts s)
      by_cases hlength : (s.near ts).length = ((s.around ts).near ts).length
      · exact .inl (around_around (hsub.eq_of_length hlength))
      · have := hsub.length_le
        exact .inr (by omega)

/-- After as many rounds as there are areas a rectangle grows no more. -/
theorem around_settles (h : ts.length ≤ n) (r : Rect) :
    ((around ts)^[n] r).around ts = (around ts)^[n] r := by
  rcases around_iterate ts r n with hfixed | hcount
  · exact hfixed
  · have := length_near_le ts ((around ts)^[n] r)
    omega

end Rect

namespace Page
variable {i : Integers} {p q m : Page} {padding : Scalar} {ts : List Spot} {rs : List Rect}
  {others : List Shape} {frames : List Layer}

/-! ## One batch without instructions -/

theorem isFrame_of_grows {l l' : Layer} (h : Grows others l l') :
    isFrame l'.shape = isFrame l.shape := by
  obtain ⟨x, y, w, height, hshape⟩ := growFrame_eq_ok h.2
  rw [hshape]
  rfl

theorem filter_grown {grown : List Layer}
    (hgrown : List.Forall₂ (Grows others) (p.layers.filter (isFrame ·.shape)) grown) :
    let layers := grown ++ p.layers.filter (! isFrame ·.shape)
    layers.filter (isFrame ·.shape) = grown ∧
      layers.filter (! isFrame ·.shape) = p.layers.filter (! isFrame ·.shape) := by
  -- Growing changes the box only, so frames stay frames.
  have hframe : ∀ l ∈ grown, isFrame l.shape = true := by
    intro l hl
    obtain ⟨l', hl', hgrows⟩ := Outcome.exists_of_forall₂ hgrown.flip hl
    rw [isFrame_of_grows hgrows]
    exact (List.mem_filter.mp hl').2
  have hother : ∀ l ∈ p.layers.filter (! isFrame ·.shape), isFrame l.shape = false := by
    intro l hl
    rw [List.mem_filter, Bool.not_eq_true'] at hl
    exact hl.2
  intro layers
  constructor
  · rw [List.filter_append, List.filter_eq_self.mpr hframe, List.filter_eq_nil_iff.mpr,
      List.append_nil]
    exact fun l hl => by simp [hother l hl]
  · rw [List.filter_append, List.filter_eq_nil_iff.mpr, List.nil_append, List.filter_filter]
    · simp
    · exact fun l hl => by simp [hframe l hl]

theorem others_settled (hp : p.WellFormed) (h : p.settleFrames.result = .ok q) :
    q.shapes.filter (! isFrame ·) = p.shapes.filter (! isFrame ·) := by
  obtain ⟨grown, hgrown, rfl⟩ := (settleFrames_eq_ok hp.numbers_nodup).mp h
  show ((grown ++ _).map (·.shape)).filter _ = (p.layers.map (·.shape)).filter _
  rw [List.filter_map, List.filter_map]
  exact congrArg (List.map (·.shape)) (filter_grown hgrown).2

/-- A page as a batch leaves it, with what its frames look at and their boxes. -/
structure Framed (i : Integers) (ts : List Spot) (rs : List Rect) (q : Page) : Prop where
  wellFormed : q.WellFormed
  ordered : q.Ordered
  arranged : q.layers.filter (isFrame ·.shape) ++ q.layers.filter (! isFrame ·.shape) = q.layers
  spots : rs ≠ [] → List.Forall₂ (IsSpot i) (q.shapes.filter (! isFrame ·)) ts
  boxes : List.Forall₂ (fun l r => HasRect i l.shape r) (q.layers.filter (isFrame ·.shape)) rs

theorem exists_grown (hs : rs ≠ [] → List.Forall₂ (IsSpot i) others ts)
    (hf : List.Forall₂ (fun l r => HasRect i l.shape r) frames rs) :
    ∃ grown, List.Forall₂ (Grows others) frames grown ∧
      List.Forall₂ (fun l r => HasRect i l.shape r) grown (rs.map (Rect.around ts)) ∧
        (grown = frames ↔ rs.map (Rect.around ts) = rs) := by
  induction hf with
  | nil => exact ⟨[], .nil, .nil, by simp⟩
  | @cons l r frames rs hr _ ih =>
    have hspots := hs (List.cons_ne_nil r rs)
    obtain ⟨g, hg, hbox, hsame⟩ := (growFrame_around hr hspots).exists_ok
    obtain ⟨grown, hgrown, hboxes, hsames⟩ := ih fun _ => hspots
    refine ⟨{ l with shape := g } :: grown, .cons ⟨rfl, hg⟩ hgrown, .cons hbox hboxes, ?_⟩
    rw [List.map_cons, List.cons.injEq, List.cons.injEq, hsames, ← hsame]
    constructor
    · intro h
      exact ⟨congrArg Layer.shape h.1, h.2⟩
    · intro h
      exact ⟨by rw [h.1], h.2⟩

/-- What a batch without instructions does: every frame grows once more. -/
theorem Framed.step (h : q.Framed i ts rs) (padding : Scalar) :
    ∃ r, (q.apply padding []).result = .ok (r, []) ∧ q.settleFrames.result = .ok r ∧
      r.Framed i ts (rs.map (Rect.around ts)) ∧ (r = q ↔ rs.map (Rect.around ts) = rs) := by
  obtain ⟨grown, hgrown, hboxes, hsame⟩ := exists_grown h.spots h.boxes
  let r : Page := { q with layers := grown ++ q.layers.filter (! isFrame ·.shape) }
  obtain ⟨hframes, hrest⟩ := filter_grown hgrown
  have hsettle : q.settleFrames.result = .ok r :=
    (settleFrames_eq_ok h.wellFormed.numbers_nodup).mpr ⟨grown, hgrown, rfl⟩
  -- An ordered page is its own copy, so nothing but the frames can change.
  have hcreate : (createAll padding q.copy []).result = .ok (q, []) := by
    rw [h.ordered.copy_eq]
    rfl
  have happly := apply_eq_ok.mpr ⟨q, hcreate, hsettle⟩
  refine ⟨r, happly, hsettle, ⟨h.wellFormed.apply happly, ⟨h.ordered.ids_nodup, h.ordered.listed⟩,
    congrArg₂ (· ++ ·) hframes hrest, ?_, ?_⟩, ?_⟩
  · intro hne
    rw [others_settled h.wellFormed hsettle]
    exact h.spots fun hnil => hne (by rw [hnil]; rfl)
  · rw [← hframes] at hboxes
    exact hboxes
  · rw [← hsame]
    constructor
    · intro hr
      have hlayers : grown ++ q.layers.filter (! isFrame ·.shape) = q.layers :=
        congrArg Page.layers hr
      exact List.append_cancel_right (hlayers.trans h.arranged.symm)
    · intro hgrown
      show ({ q with layers := grown ++ _ } : Page) = q
      rw [hgrown, h.arranged]

/-! ## Several batches without instructions -/

/-- A page after some batches without instructions. -/
def settled (padding : Scalar) : ℕ → Page → Except Fault Page
  | 0, p => .ok p
  | n + 1, p => do
    let (q, _) ← (p.apply padding []).result
    settled padding n q

theorem Framed.run (h : q.Framed i ts rs) (padding : Scalar) (n : ℕ) :
    ∃ r, settled padding n q = .ok r ∧ r.Framed i ts (rs.map (Rect.around ts)^[n]) := by
  -- By induction on the batches: each of them makes every frame grow once more.
  induction n generalizing q rs with
  | zero => exact ⟨q, rfl, by simpa using h⟩
  | succ n ih =>
    obtain ⟨r, hr, -, hframed, -⟩ := h.step padding
    obtain ⟨r', hr', hframed'⟩ := ih hframed
    refine ⟨r', ?_, ?_⟩
    · rw [settled, hr]
      exact hr'
    · rw [List.map_map] at hframed'
      exact hframed'

/-! ## Pages after a batch -/

/-- A frame has the room that another one, at another time, asks for. -/
def HasRoom (p : Page) (f g : Shape) : Prop := ∃ r, g.Fills r ∧ r ∈ upperBounds (p.roomFor f)

theorem hasRoom_of_fills {f g : Shape} {r : Rect} (hg : g.Fills r) :
    p.HasRoom f g ↔ r ∈ upperBounds (p.roomFor f) := by
  constructor
  · intro h
    obtain ⟨r', hr', hroom⟩ := h
    rw [hg.unique hr']
    exact hroom
  · exact fun h => ⟨r, hg, h⟩

theorem Framed.unchanged_iff (h : q.Framed i ts rs) :
    rs.map (Rect.around ts) = rs ↔ ∀ f ∈ q.shapes, isFrame f = true → q.HasRoom f f := by
  -- For one frame: it stays as it is where its box has room for all that is near it.
  have hframe {l : Layer} {r : Rect} (hl : l ∈ q.layers.filter (isFrame ·.shape))
      (hspots : List.Forall₂ (IsSpot i) (q.shapes.filter (! isFrame ·)) ts)
      (hr : HasRect i l.shape r) : r.around ts = r ↔ q.HasRoom l.shape l.shape := by
    have hfills := (fills_iff_of_isFrame (List.mem_filter.mp hl).2).mpr hr.isRect
    rw [hasRoom_of_fills hfills, roomFor_eq hr hspots, Rect.around_eq_self, mem_upperBounds]
    constructor
    · intro hle u hu
      obtain ⟨t, ht, rfl⟩ := hu
      exact hle t ht
    · exact fun hle t ht => hle _ ⟨t, ht, rfl⟩
  have hspots {r : Rect} (hr : r ∈ rs) := h.spots (List.ne_nil_of_mem hr)
  constructor
  · intro hsame f hf hisFrame
    obtain ⟨l, hl, rfl⟩ := List.mem_map.mp hf
    have hl : l ∈ q.layers.filter (isFrame ·.shape) := List.mem_filter.mpr ⟨hl, hisFrame⟩
    obtain ⟨r, hr, hbox⟩ := Outcome.exists_of_forall₂ h.boxes hl
    refine (hframe hl (hspots hr) hbox).mp ?_
    have hmap : rs.map (Rect.around ts) = rs.map id := by rw [hsame, List.map_id]
    exact List.map_inj_left.mp hmap r hr
  · intro hroom
    conv_rhs => rw [← List.map_id rs]
    refine List.map_congr_left fun r hr => ?_
    obtain ⟨l, hl, hbox⟩ := Outcome.exists_of_forall₂ h.boxes.flip hr
    refine (hframe hl (hspots hr) hbox).mpr (hroom l.shape ?_ (List.mem_filter.mp hl).2)
    exact List.mem_map_of_mem (List.mem_filter.mp hl).1

theorem exists_framed {is : List Instruction} {ids : List String} (hp : p.WellFormed)
    (hm : (createAll padding p.copy is).result = .ok (m, ids)) (hq : m.settleFrames.result = .ok q)
    (hint : ∀ s ∈ q.shapes, s.IsIntegral i) :
    ∃ ts rs, q.Framed i ts rs ∧ ts.length ≤ (q.shapes.filter (! isFrame ·)).length := by
  have hmWell := (createAll_drawn hp.copy hm).1
  have hordered := (ordered_copy hp.ids_nodup).createAll hm
  have hothers := others_settled hmWell hq
  have hqWell := hmWell.settleFrames hq
  obtain ⟨grown, hgrown, rfl⟩ := (settleFrames_eq_ok hmWell.numbers_nodup).mp hq
  obtain ⟨hframes, hrest⟩ := filter_grown hgrown
  let q : Page := { m with layers := grown ++ m.layers.filter (! isFrame ·.shape) }
  obtain ⟨rs, hrs⟩ : ∃ rs, List.Forall₂ (fun l r => HasRect i l.shape r)
      (q.layers.filter (isFrame ·.shape)) rs := by
    refine Outcome.exists_forall₂ fun l hl => hasRect_of_isIntegral (hint l.shape ?_)
    exact List.mem_map_of_mem (List.mem_filter.mp hl).1
  have hframed (ts : List Spot)
      (hts : rs ≠ [] → List.Forall₂ (IsSpot i) (q.shapes.filter (! isFrame ·)) ts) :
      q.Framed i ts rs :=
    ⟨hqWell, ⟨hordered.ids_nodup, hordered.listed⟩, congrArg₂ (· ++ ·) hframes hrest, hts, hrs⟩
  -- Without frames no shape needs a middle; with a frame its growth has computed them all.
  by_cases hnone : rs = []
  · exact ⟨[], rs, hframed [] fun hne => absurd hnone hne, Nat.zero_le _⟩
  · obtain ⟨r, rs, rfl⟩ := List.exists_cons_of_ne_nil hnone
    obtain ⟨g, gs, -, -, hcons⟩ := List.forall₂_cons_right_iff.mp hrs
    have hg : g ∈ grown := by
      rw [← hframes, hcons]
      exact List.mem_cons_self
    obtain ⟨l, -, -, hresult⟩ := Outcome.exists_of_forall₂ hgrown.flip hg
    have hcenters := center_of_growFrame hresult
    rw [← hothers] at hcenters
    obtain ⟨ts, hts⟩ : ∃ ts, List.Forall₂ (IsSpot i) (q.shapes.filter (! isFrame ·)) ts := by
      refine Outcome.exists_forall₂ fun s hs => ?_
      obtain ⟨c, hc⟩ := hcenters s hs
      exact exists_spot (hint s (mem_others.mp hs).1) hc
    exact ⟨ts, r :: rs, hframed ts fun _ => hts, hts.length_eq.ge⟩

/-- After a batch every frame has the room that its old box asked for. A batch without instructions
then only gives frames other boxes, and gives none of them one if each frame has the room that its
box asks for as it is. After as many such batches as there are shapes no frame changes any more.
Whole numbers may have any size; with floating-point numbers among them, coordinates and lengths
are at most `2 ^ 32` in size. -/
theorem apply_settles {is : List Instruction} {ids : List String} (hp : p.WellFormed)
    (h : (p.apply padding is).result = .ok (q, ids)) (hint : ∀ s ∈ q.shapes, s.IsIntegral i) :
    (∃ m, (createAll padding p.copy is).result = .ok (m, ids) ∧ m.settleFrames.result = .ok q ∧
        ∀ f ∈ m.shapes, isFrame f = true → f.IsIntegral i →
          ∃ g, q.get? f.id = some g ∧ f.Kept g ∧ q.HasRoom f g) ∧
      (∃ r, (q.apply padding []).result = .ok (r, []) ∧
        List.Forall₂ Shape.Kept q.shapes r.shapes ∧ r.bindings = q.bindings ∧
          (r = q ↔ ∀ f ∈ q.shapes, isFrame f = true → q.HasRoom f f)) ∧
        ∀ n, (q.shapes.filter (! isFrame ·)).length ≤ n →
          ∃ r, settled padding n q = .ok r ∧ (r.apply padding []).result = .ok (r, []) := by
  obtain ⟨m, hm, hq⟩ := apply_eq_ok.mp h
  have hmWell := (createAll_drawn hp.copy hm).1
  have hothers := others_settled hmWell hq
  have hsame (s : Shape) (hs : isFrame s = false) : s ∈ q.shapes ↔ s ∈ m.shapes := by
    have hmem := mem_others (p := q) (s := s)
    rw [hothers, mem_others] at hmem
    simpa [hs] using hmem.symm
  obtain ⟨ts, rs, hframed, hcount⟩ := exists_framed hp hm hq hint
  refine ⟨⟨m, hm, hq, fun f hf hisFrame hfint => ?_⟩, ?_, fun n hn => ?_⟩
  · obtain ⟨old, hold⟩ := hasRect_of_isIntegral hfint
    obtain ⟨g, hg, hkept, new, hnew, hlub, -⟩ := settleFrames_frame hmWell
      (fun s hs hs' => hint s ((hsame s hs').mpr hs)) hq hf hisFrame hold
    have hgframe : isFrame g = true := hkept.isFrame_eq.trans hisFrame
    refine ⟨g, hg, hkept, new, (fills_iff_of_isFrame hgframe).mpr hnew.isRect, ?_⟩
    rw [roomFor_congr hold hold hsame]
    exact upperBounds_mono_set (Set.subset_insert _ _) hlub.1
  · obtain ⟨r, hr, hsettle, -, hunchanged⟩ := hframed.step padding
    obtain ⟨hkept, hids⟩ := settleFrames_kept hframed.wellFormed hsettle
    have hlinks := (settleFrames_reframes hframed.wellFormed hsettle).links
    refine ⟨r, hr, ?_, ?_, hunchanged.trans hframed.unchanged_iff⟩
    · have hshapes : q.shapes.filter isFrame ++ q.shapes.filter (! isFrame ·) = q.shapes := by
        have harranged := congrArg (List.map (·.shape)) hframed.arranged
        simpa [shapes, List.filter_map, Function.comp_def] using harranged
      rwa [hshapes] at hkept
    · rw [bindings, bindings, listed, listed, hids]
      refine congrArg (List.map _) (List.flatMap_congr fun id _ => ?_)
      rw [linksOf, linksOf, hlinks]
  · obtain ⟨r, hr, hframed'⟩ := hframed.run padding n
    obtain ⟨r', hr', -, -, hunchanged⟩ := hframed'.step padding
    -- In every round a rectangle stays as it is or reaches a further shape, so there are no more
    -- rounds than shapes.
    have hsettled : (rs.map (Rect.around ts)^[n]).map (Rect.around ts) =
        rs.map (Rect.around ts)^[n] := by
      rw [List.map_map]
      exact List.map_congr_left fun r _ => Rect.around_settles (hcount.trans hn) r
    rw [hunchanged.mpr hsettled] at hr'
    exact ⟨r, hr, hr'⟩

/-- A frame and three boxes in a row, each of which comes into reach when the frame has grown around
the box before it. -/
theorem apply_settles_row :
    let box (x : Nat) : Instruction :=
      .shape { kind := .rectangle, position := some ⟨.real (.ofDecimal false x 0), 0⟩
               size := some ⟨200, 100⟩ }
    let is : List Instruction := [
      .shape { kind := .frame, position := some ⟨0, 0⟩, size := some ⟨100, 100⟩, id := some "f" },
      box 200, box 500, box 800]
    ∃ q r f, (empty.apply 8 is).result = .ok (q, ["shape:f", "shape:2", "shape:3", "shape:4"]) ∧
      (∀ s ∈ q.shapes, s.IsIntegral .bounded) ∧ settled 8 3 q = .ok r ∧
        (r.apply 8 []).result = .ok (r, []) ∧ r.get? "shape:f" = some f ∧
          f.Fills ⟨0, -20, 1020, 120⟩ := by
  intro box is
  obtain ⟨⟨q, ids⟩, hq, hcheck⟩ := Outcome.exists_of_any (x := (empty.apply 8 is).result)
    (p := fun r => r.2 == ["shape:f", "shape:2", "shape:3", "shape:4"] &&
      r.1.shapes.all (·.isIntegral .bounded) && (r.1.shapes.filter (! isFrame ·)).length == 3 &&
        (settled 8 3 r.1).toOption.any fun s =>
          (s.get? "shape:f").any (·.hasBounds 0 (-20) 1020 140)) (by decide +kernel)
  simp only [Bool.and_eq_true, beq_iff_eq, List.all_eq_true] at hcheck
  obtain ⟨⟨⟨rfl, hint⟩, hlength⟩, hsettled⟩ := hcheck
  have hint' : ∀ s ∈ q.shapes, s.IsIntegral .bounded :=
    fun s hs => Shape.isIntegral_of_check (hint s hs)
  obtain ⟨-, -, hall⟩ := apply_settles WellFormed.empty hq hint'
  obtain ⟨r, hr, hfixed⟩ := hall 3 hlength.le
  obtain ⟨r', hr', hbox⟩ := Outcome.exists_of_any hsettled
  obtain rfl : r = r' := Except.ok.inj (hr.symm.trans hr')
  obtain ⟨f, hf, hbox⟩ := (Option.any_eq_true _ _).mp hbox
  exact ⟨q, r, f, hq, hint', hr, hfixed, hf,
    Shape.fills_of_hasBounds (r := ⟨0, -20, 1020, 120⟩) hbox⟩

/-- A frame that grows again in a batch without instructions: it has grown around one box, which
brings another one into its reach. -/
theorem apply_unsettled :
    let is : List Instruction := [
      .shape { kind := .frame, position := some ⟨0, 0⟩, size := some ⟨100, 100⟩, id := some "f" },
      .shape { kind := .rectangle, position := some ⟨200, 0⟩, size := some ⟨200, 100⟩ },
      .shape { kind := .rectangle, position := some ⟨500, 0⟩, size := some ⟨200, 100⟩ }]
    ∃ q r f g s, (empty.apply 8 is).result = .ok (q, ["shape:f", "shape:2", "shape:3"]) ∧
      (∀ s ∈ q.shapes, s.IsIntegral .exact) ∧ (q.apply 8 []).result = .ok (r, []) ∧
        q.get? "shape:f" = some f ∧ r.get? "shape:f" = some g ∧ f.Fills ⟨0, -20, 420, 120⟩ ∧
          g.Fills ⟨0, -20, 720, 120⟩ ∧ r ≠ q ∧ s ∈ q.shapes ∧ isFrame s = false ∧
            isNear s f = .ok true ∧ s.Fills ⟨500, 0, 700, 100⟩ ∧ ¬ q.HasRoom f f := by
  intro is
  obtain ⟨⟨q, ids⟩, hq, hcheck⟩ := Outcome.exists_of_any (x := (empty.apply 8 is).result)
    (p := fun r => r.2 == ["shape:f", "shape:2", "shape:3"] &&
      r.1.shapes.all (·.isIntegral .exact) &&
        ((r.1.get? "shape:f").any fun f => f.hasBounds 0 (-20) 420 140 &&
          (r.1.shapes.filter (! isFrame ·)).any fun s =>
            s.hasBounds 500 0 200 100 && (isNear s f).toOption == some true) &&
        (r.1.apply 8 []).result.toOption.any fun t => t.2 == [] && (t.1.get? "shape:f").any
          (·.hasBounds 0 (-20) 720 140)) (by decide +kernel)
  simp only [Bool.and_eq_true, beq_iff_eq, List.all_eq_true] at hcheck
  obtain ⟨⟨⟨rfl, hint⟩, hbefore⟩, hafter⟩ := hcheck
  obtain ⟨f, hf, hbefore⟩ := (Option.any_eq_true _ _).mp hbefore
  obtain ⟨⟨r, ids⟩, hr, hafter⟩ := Outcome.exists_of_any hafter
  simp only [Bool.and_eq_true, beq_iff_eq, List.any_eq_true] at hbefore hafter
  obtain ⟨hfbox, s, hs, hsbox, hnear⟩ := hbefore
  obtain ⟨rfl, hafter⟩ := hafter
  obtain ⟨g, hg, hgbox⟩ := (Option.any_eq_true _ _).mp hafter
  have hffills : f.Fills ⟨0, -20, 420, 120⟩ := Shape.fills_of_hasBounds hfbox
  have hgfills : g.Fills ⟨0, -20, 720, 120⟩ := Shape.fills_of_hasBounds hgbox
  have hsfills : s.Fills ⟨500, 0, 700, 100⟩ := Shape.fills_of_hasBounds hsbox
  have hnear : isNear s f = .ok true := by
    obtain ⟨near, hnear, htrue⟩ := Outcome.exists_of_any (x := isNear s f) (p := (· == true))
      (by rw [hnear]; rfl)
    rw [hnear, eq_of_beq htrue]
  obtain ⟨hs, hother⟩ := mem_others.mp hs
  refine ⟨q, r, f, g, s, hq, fun s hs => Shape.isIntegral_of_check (hint s hs), hr, hf, hg, hffills,
    hgfills, fun hrq => ?_, hs, hother, hnear, hsfills, fun hroom => ?_⟩
  · rw [hrq, hf, Option.some.injEq] at hg
    rw [hg] at hffills
    exact absurd (hffills.unique hgfills) (by decide)
  · have hle := (hasRoom_of_fills hffills).mp hroom ⟨s, hs, hother, hnear, _, hsfills, rfl⟩
    exact absurd hle (by decide)

end Page

end DiagramScript
