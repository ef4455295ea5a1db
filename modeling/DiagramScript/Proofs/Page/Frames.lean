import DiagramScript.Proofs.Geometry.Rect
import DiagramScript.Proofs.Page.Effect

/-
  How frames grow.

  A frame looks at every other shape that is no frame: at its middle, which tells whether the
  shape is near, and at its bounds, which the frame has to enclose with some room if it is
  (`Spot`). Where all of these are integers the frame gets the smallest box around its old one and
  the enlarged bounds of the shapes near its old one (`Rect.around`, `growFrame_around`). Frames
  are grown one after the other on one page, but none of them reads what another one has become
  (`growFrames_eq_ok`), so this tells the frames of a page after a batch (`settleFrames_hull`).
-/

namespace DiagramScript

/-! ## Rectangles that reach -/

namespace Rect
variable {r s : Rect}

/-- Whether a point lies in a rectangle or no further than 200 from it in either direction. -/
def reaches (r : Rect) (c : Point) : Bool :=
  ((Scalar.whole (r.left - 200)).le c.x && c.x.le (.whole (r.right + 200))) &&
    ((Scalar.whole (r.top - 200)).le c.y && c.y.le (.whole (r.bottom + 200)))

theorem reaches_mono (h : r ≤ s) {c : Point} (hc : r.reaches c = true) : s.reaches c = true := by
  have hle {m n : ℤ} (hmn : m ≤ n) : (Scalar.whole m).le (.whole n) = true := by
    rw [Scalar.le_at (Scalar.whole_at m) (Scalar.whole_at n)]
    exact_mod_cast hmn
  obtain ⟨hleft, htop, hright, hbottom⟩ := h
  simp only [reaches, Bool.and_eq_true] at hc ⊢
  obtain ⟨⟨hl, hr⟩, ht, hb⟩ := hc
  exact ⟨⟨Scalar.le_chain (hle (by omega)) hl, Scalar.le_chain hr (hle (by omega))⟩,
    Scalar.le_chain (hle (by omega)) ht, Scalar.le_chain hb (hle (by omega))⟩

end Rect

/-- What a frame looks at in another shape. -/
structure Spot where
  middle : Point
  area : Rect

namespace Rect

/-- The areas that a rectangle reaches. -/
def near (ts : List Spot) (r : Rect) : List Rect :=
  (ts.filter (r.reaches ·.middle)).map (·.area)

/-- The smallest rectangle around another one and, with 20 to spare, around all it reaches. -/
def around (ts : List Spot) (r : Rect) : Rect := ((r.near ts).map (grown 20)).foldl (· ⊔ ·) r

variable {ts : List Spot} {r : Rect}

theorem mem_near {s : Rect} :
    s ∈ r.near ts ↔ ∃ t ∈ ts, r.reaches t.middle = true ∧ t.area = s := by
  simp only [near, List.mem_map, List.mem_filter, and_assoc]

theorem isLUB_around (ts : List Spot) (r : Rect) :
    IsLUB (insert r {s | ∃ t ∈ r.near ts, t.grown 20 = s}) (r.around ts) := by
  have hlub := isLUB_foldl r ((r.near ts).map (grown 20))
  simp only [List.mem_map] at hlub
  exact hlub

theorem le_around (ts : List Spot) (r : Rect) : r ≤ r.around ts :=
  (isLUB_around ts r).1 (Set.mem_insert _ _)

/-- A rectangle stays as it is where it has the room for all it reaches. -/
theorem around_eq_self : r.around ts = r ↔ ∀ t ∈ r.near ts, t.grown 20 ≤ r := by
  have hlub := isLUB_around ts r
  constructor
  · intro h t ht
    rw [h] at hlub
    exact hlub.1 (Set.mem_insert_of_mem _ ⟨t, ht, rfl⟩)
  · intro h
    refine le_antisymm (hlub.2 ?_) (le_around ts r)
    rw [mem_upperBounds, Set.forall_mem_insert]
    refine ⟨le_rfl, fun s hs => ?_⟩
    obtain ⟨t, ht, rfl⟩ := hs
    exact h t ht

theorem around_of_near_cons {t : Rect} {us : List Rect} (h : r.near ts = t :: us) :
    r.around ts = r ⊔ (us.foldl (· ⊔ ·) t).grown 20 := by
  have hgrown : (us.map (grown 20)).foldl (· ⊔ ·) (t.grown 20) = (us.foldl (· ⊔ ·) t).grown 20 := by
    rw [List.foldl_map]
    exact List.foldl_hom (grown 20) fun _ _ => (grown_sup 20 _ _).symm
  rw [around, h, List.map_cons, List.foldl_cons, List.foldl_assoc, hgrown]

end Rect

namespace Page
variable {i : Integers} {f s : Shape} {r : Rect} {others : List Shape} {ts : List Spot}

/-! ## Shapes near a frame -/

/-- The limit of the edges of frames in the bounded case: those of the shapes in them, moved out. -/
def frameLimit : ℤ := Integers.boundsLimit + 20

/-- A shape with the box of a rectangle. -/
def HasRect (i : Integers) (s : Shape) (r : Rect) : Prop :=
  Bounds.HasEdges i frameLimit ⟨s.x, s.y, s.w, s.h⟩ r

/-- The middle and the bounds of a shape. -/
def IsSpot (i : Integers) (s : Shape) (t : Spot) : Prop :=
  s.center = .ok t.middle ∧ ∃ b, s.bounds = .ok b ∧ b.HasEdges i Integers.boundsLimit t.area

theorem nearSpan_eq {a edge length : Scalar} {m n : ℤ} (hedge : edge.IsInteger i frameLimit m)
    (hlength : length.IsInteger i (2 * frameLimit) (n - m)) :
    nearSpan a edge length =
      .ok ((Scalar.whole (m - 200)).le a && a.le (.whole (n + 200))) := by
  have htolerance : frameTolerance.IsInteger i 200 200 :=
    Scalar.isInteger_whole fun _ => by decide
  obtain ⟨low, hlow, hlowAt⟩ := (hedge.sub htolerance (by decide)).exists_ok
  obtain ⟨far, hfar, hfarAt⟩ := (hedge.add hlength (by decide)).exists_ok
  obtain ⟨high, hhigh, hhighAt⟩ := (hfarAt.add htolerance (by decide)).exists_ok
  rw [add_sub_cancel] at hhighAt
  have hbelow : low.le a = (Scalar.whole (m - 200)).le a :=
    (hlowAt.value.le_congr (Scalar.whole_at _) a).1
  have habove : a.le high = a.le (.whole (n + 200)) :=
    (hhighAt.value.le_congr (Scalar.whole_at _) a).2
  rw [nearSpan, hlow, hfar, ← hbelow, ← habove]
  show (if low.le a = true then far.add frameTolerance >>= _ else _) = _
  rw [hhigh]
  cases low.le a <;> rfl

theorem isNear_eq {c : Point} (hf : HasRect i f r) (hs : s.center = .ok c) :
    isNear s f = .ok (r.reaches c) := by
  rw [isNear, hs]
  show (nearSpan c.x f.x f.w >>= _) = _
  rw [nearSpan_eq hf.x hf.w, nearSpan_eq hf.y hf.h, Rect.reaches]
  cases (Scalar.whole (r.left - 200)).le c.x && c.x.le (.whole (r.right + 200)) <;> rfl

theorem isNear_congr {j : Integers} {f' : Shape} (hf : HasRect i f r) (hf' : HasRect j f' r)
    (s : Shape) : isNear s f = isNear s f' := by
  cases hc : s.center with
  | error e =>
    rw [isNear, isNear, hc]
    rfl
  | ok c => rw [isNear_eq hf hc, isNear_eq hf' hc]

theorem boundsNear_gives (hf : HasRect i f r) (hs : List.Forall₂ (IsSpot i) others ts) :
    Gives (List.Forall₂ (Bounds.HasEdges i Integers.boundsLimit) ·
      (r.near ts)) (boundsNear f others) := by
  induction hs with
  | nil => exact .ok .nil
  | @cons s t _ ts hst _ ih =>
    obtain ⟨hcenter, b, hb, harea⟩ := hst
    rw [boundsNear, isNear_eq hf hcenter]
    cases hreach : r.reaches t.middle with
    | false =>
      rw [Rect.near, List.filter_cons_of_neg (by simp [hreach])]
      exact ih
    | true =>
      rw [Rect.near, List.filter_cons_of_pos (by simpa using hreach), List.map_cons]
      show Gives _ (s.bounds >>= _)
      rw [hb]
      exact ih.bind fun bs hbs => .ok (.cons harea hbs)

theorem center_of_growFrame {g : Shape} (h : (growFrame others f).result = .ok g) :
    ∀ s ∈ others, ∃ c, s.center = .ok c := by
  have hcenters (bs : List Bounds) (hbs : boundsNear f others = .ok bs) :
      ∀ s ∈ others, ∃ c, s.center = .ok c := by
    clear h
    induction others generalizing bs with
    | nil => exact fun s hs => by cases hs
    | cons s others ih =>
      rw [boundsNear, Outcome.bind_eq_ok] at hbs
      obtain ⟨near, hnear, hbs⟩ := hbs
      obtain ⟨c, hc, -⟩ := Outcome.bind_eq_ok.mp hnear
      refine List.forall_mem_cons.mpr ⟨⟨c, hc⟩, ?_⟩
      cases near with
      | false => exact ih bs hbs
      | true =>
        obtain ⟨b, -, hbs⟩ := Outcome.bind_eq_ok.mp hbs
        obtain ⟨bs', hbs', -⟩ := Outcome.bind_eq_ok.mp hbs
        exact ih bs' hbs'
  simp only [growFrame, Report.result_bind, Report.result_liftM, Outcome.bind_eq_ok] at h
  obtain ⟨bs, hbs, -⟩ := h
  exact hcenters bs hbs

/-! ## One frame -/

theorem enclosing_gives {b : Bounds} {bs : List Bounds} {t : Rect} {us : List Rect}
    (hf : HasRect i f r) (hb : b.HasEdges i Integers.boundsLimit t)
    (hbs : List.Forall₂ (Bounds.HasEdges i Integers.boundsLimit) bs us) :
    Gives (Bounds.HasEdges i frameLimit · (r ⊔ (us.foldl (· ⊔ ·) t).grown 20))
      (enclosing f b bs) := by
  have hpadding : framePadding.IsInteger i 20 20 := Scalar.isInteger_whole fun _ => by decide
  obtain ⟨hleft, htop, ⟨first, others, hfirst, hothers, hright⟩,
    first', others', hfirst', hothers', hbottom⟩ := hb.union hbs (by decide)
  rw [enclosing, hfirst, hothers, hfirst', hothers']
  refine (hleft.sub hpadding (by decide)).bind fun left hleft => ?_
  refine (htop.sub hpadding (by decide)).bind fun top htop => ?_
  refine (hf.right_gives (by decide)).bind fun edge hedge => ?_
  refine (hright.add hpadding (by decide)).bind fun right hright => ?_
  refine (hf.bottom_gives (by decide)).bind fun edge' hedge' => ?_
  refine (hbottom.add hpadding (by decide)).bind fun bottom hbottom => ?_
  have hleft := hf.x.min hleft
  have htop := hf.y.min htop
  have hright := hedge.max hright
  have hbottom := hedge'.max hbottom
  refine (hright.sub hleft (by decide)).bind fun w hw => ?_
  refine (hbottom.sub htop (by decide)).bind fun h hh => .ok ?_
  exact ⟨hleft, htop, hw.mono (by decide), hh.mono (by decide), hright.allows, hbottom.allows⟩

theorem hasBox_iff {b : Bounds} {t : Rect} (hf : HasRect i f r) (hb : b.HasEdges i frameLimit t) :
    hasBox f b = true ↔ t = r := by
  have hx := hb.x.same_iff hf.x
  have hy := hb.y.same_iff hf.y
  have hw := hb.w.same_iff hf.w
  have hh := hb.h.same_iff hf.h
  rw [hasBox, Bool.and_eq_true, Bool.and_eq_true, Bool.and_eq_true, hx, hy, hw, hh, Rect.ext_iff]
  omega

/-- A frame grows to the smallest rectangle around its own one and, with room, around all shapes
near it. It changes only where this is another rectangle. -/
theorem growFrame_around (hf : HasRect i f r) (hs : List.Forall₂ (IsSpot i) others ts) :
    Gives (fun g => HasRect i g (r.around ts) ∧ (g = f ↔ r.around ts = r))
      (growFrame others f).result := by
  simp only [growFrame, Report.result_bind, Report.result_liftM]
  refine (boundsNear_gives hf hs).bind fun bs hbs => ?_
  cases hnear : r.near ts with
  | nil =>
    rw [hnear, List.forall₂_nil_right_iff] at hbs
    subst hbs
    have hsame : r.around ts = r := by
      rw [Rect.around, hnear]
      rfl
    rw [hsame]
    exact .ok ⟨hf, by simp⟩
  | cons t us =>
    rw [hnear] at hbs
    obtain ⟨b, bs, hb, hrest, rfl⟩ := List.forall₂_cons_right_iff.mp hbs
    simp only [Report.result_bind, Report.result_liftM]
    refine (enclosing_gives hf hb hrest).bind fun box hbox => ?_
    rw [← Rect.around_of_near_cons hnear] at hbox
    have hsame := hasBox_iff hf hbox
    -- The frame is written only where a number of its box differs.
    by_cases hself : r.around ts = r
    · rw [hsame.mpr hself, hself]
      exact .ok ⟨hf, by simp⟩
    · rw [Bool.eq_false_iff.mpr (mt hsame.mp hself)]
      refine .ok ⟨hbox, fun hgf => ?_, fun h => absurd h hself⟩
      have hf' : HasRect i f (r.around ts) := hgf ▸ hbox
      exact hf'.isRect.unique hf.isRect

/-! ## All frames -/

/-- A layer of the same number with the shape that a frame becomes. -/
def Grows (others : List Shape) (l m : Layer) : Prop :=
  m.number = l.number ∧ (growFrame others l.shape).result = .ok m.shape

theorem replace_middle {p : Page} {first rest : List Layer} {l : Layer} {s : Shape}
    (hlayers : p.layers = first ++ l :: rest) (h : (p.layers.map (·.number)).Nodup) :
    p.replace l.number s = { p with layers := first ++ { l with shape := s } :: rest } := by
  rw [hlayers, List.map_append, List.map_cons, List.nodup_append] at h
  obtain ⟨-, hrest, hfirst⟩ := h
  rw [List.nodup_cons] at hrest
  have hkeep {ls : List Layer} (hls : ∀ m ∈ ls, m.number ≠ l.number) :
      ls.map (fun m => if m.number = l.number then { m with shape := s } else m) = ls := by
    conv_rhs => rw [← List.map_id ls]
    exact List.map_congr_left fun m hm => if_neg (hls m hm)
  rw [replace, hlayers, List.map_append, List.map_cons, if_pos rfl, hkeep, hkeep]
  · exact fun m hm heq => hrest.1 (heq ▸ List.mem_map_of_mem hm)
  · exact fun m hm heq =>
      hfirst m.number (List.mem_map_of_mem hm) l.number List.mem_cons_self heq

theorem find?_middle {p : Page} {first rest : List Layer} {l : Layer}
    (hlayers : p.layers = first ++ l :: rest) (h : (p.layers.map (·.number)).Nodup) :
    p.layers.find? (·.number == l.number) = some l := by
  have hl : l ∈ p.layers := by simp [hlayers]
  cases hfind : p.layers.find? (·.number == l.number) with
  | none => simpa using List.find?_eq_none.mp hfind l hl
  | some m =>
    have hnumber : m.number = l.number := by simpa using List.find?_some hfind
    rw [List.inj_on_of_nodup_map h (List.mem_of_find?_eq_some hfind) hl hnumber]

theorem growFrames_eq_ok {p q : Page} {first frames rest : List Layer}
    (hlayers : p.layers = first ++ (frames ++ rest)) (h : (p.layers.map (·.number)).Nodup) :
    (growFrames others p (frames.map (·.number))).result = .ok q ↔
      ∃ grown, List.Forall₂ (Grows others) frames grown ∧
        q = { p with layers := first ++ (grown ++ rest) } := by
  -- By induction on the frames: each one grows in its own layer, and the others stay as they were.
  induction frames generalizing p first with
  | nil =>
    show Except.ok p = .ok q ↔ _
    constructor
    · intro hq
      cases hq
      exact ⟨[], .nil, by rw [← hlayers]⟩
    · intro hq
      obtain ⟨grown, hgrown, rfl⟩ := hq
      rw [List.forall₂_nil_left_iff.mp hgrown, ← hlayers]
  | cons l frames ih =>
    -- Once the first frame has grown, its layer joins those in front, and the others are as before.
    have hstep (s : Shape) :
        (growFrames others (p.replace l.number s) (frames.map (·.number))).result = .ok q ↔
          ∃ grown, List.Forall₂ (Grows others) frames grown ∧
            q = { p with layers := first ++ { l with shape := s } :: (grown ++ rest) } := by
      have hreplace := replace_middle (s := s) hlayers h
      have hnodup : ((p.replace l.number s).layers.map (·.number)).Nodup := by
        rw [hlayers] at h
        rw [hreplace]
        simpa using h
      have hnext : (p.replace l.number s).layers =
          (first ++ [{ l with shape := s }]) ++ (frames ++ rest) := by
        rw [hreplace, List.append_assoc, List.singleton_append]
        rfl
      rw [ih hnext hnodup, hreplace]
      simp only [List.append_assoc, List.singleton_append]
    rw [List.map_cons, growFrames, find?_middle hlayers h]
    simp only [Report.result_bind, Outcome.bind_eq_ok, hstep]
    constructor
    · intro hq
      obtain ⟨s, hs, grown, hgrown, rfl⟩ := hq
      exact ⟨{ l with shape := s } :: grown, .cons ⟨rfl, hs⟩ hgrown, by simp⟩
    · intro hq
      obtain ⟨grown, hgrown, rfl⟩ := hq
      obtain ⟨m, ms, hm, hms, rfl⟩ := List.forall₂_cons_left_iff.mp hgrown
      obtain ⟨hnumber, hs⟩ := hm
      refine ⟨m.shape, hs, ms, hms, ?_⟩
      rw [← hnumber]
      simp

/-- The frames of a page go to the bottom, and each of them grows by itself. -/
theorem settleFrames_eq_ok {p q : Page} (hp : (p.layers.map (·.number)).Nodup) :
    p.settleFrames.result = .ok q ↔
      ∃ grown, List.Forall₂ (Grows (p.shapes.filter (! isFrame ·)))
          (p.layers.filter (isFrame ·.shape)) grown ∧
        q = { p with layers := grown ++ p.layers.filter (! isFrame ·.shape) } := by
  let frames := p.layers.filter (isFrame ·.shape)
  let rest := p.layers.filter (! isFrame ·.shape)
  let r : Page := { p with layers := frames ++ rest }
  have hperm : (frames ++ rest).Perm p.layers := List.filter_append_perm _ _
  have hnodup : (r.layers.map (·.number)).Nodup := (hperm.map _).nodup_iff.mpr hp
  have hframes : r.layers.filter (isFrame ·.shape) = frames := by
    show (frames ++ rest).filter _ = frames
    rw [List.filter_append]
    simp [frames, rest]
  have hothers : r.shapes.filter (! isFrame ·) = p.shapes.filter (! isFrame ·) := by
    show ((frames ++ rest).map (·.shape)).filter _ = (p.layers.map (·.shape)).filter _
    rw [List.filter_map, List.filter_map, List.filter_append]
    simp [frames, rest, Function.comp_def]
  simp only [settleFrames, Report.result_bind, Report.result_liftM, framesToBottom_eq]
  show (growFrames (r.shapes.filter _) r ((r.layers.filter _).map _)).result = .ok q ↔ _
  rw [hframes, hothers]
  have hlayers : r.layers = [] ++ (frames ++ rest) := rfl
  exact growFrames_eq_ok hlayers hnodup

/-! ## Pages of integers -/

theorem hasRect_of_hasIntegers (h : s.HasIntegers i) : ∃ r, HasRect i s r := by
  obtain ⟨⟨x, hx⟩, ⟨y, hy⟩⟩ := h.place
  obtain ⟨w, hw⟩ := h.width
  obtain ⟨n, hn⟩ := h.height
  exact ⟨_, .of_fields hx hy hw hn (by decide)⟩

theorem hasRect_of_isIntegral (h : s.IsIntegral i) : ∃ r, HasRect i s r :=
  hasRect_of_hasIntegers h.hasIntegers

theorem fills_iff_of_isFrame (hf : isFrame f = true) :
    f.Fills r ↔ Bounds.IsRect ⟨f.x, f.y, f.w, f.h⟩ r := by
  have hbounds : f.bounds = .ok ⟨f.x, f.y, f.w, f.h⟩ := by
    rw [isFrame, beq_iff_eq] at hf
    rw [Shape.bounds, hf]
  simp only [Shape.Fills, hbounds, Except.ok.injEq, exists_eq_left']

theorem exists_spot_of_hasIntegers (h : s.HasIntegers i) {c : Point} (hc : s.center = .ok c) :
    ∃ t, IsSpot i s t := by
  obtain ⟨b, hb, r, hr, -⟩ := h.bounds.exists_ok
  exact ⟨⟨c, r⟩, hc, b, hb, hr⟩

theorem exists_spot (h : s.IsIntegral i) {c : Point} (hc : s.center = .ok c) :
    ∃ t, IsSpot i s t := exists_spot_of_hasIntegers h.hasIntegers hc

theorem center_of_isIntegral (h : s.IsIntegral .bounded) : ∃ c, s.center = .ok c := by
  obtain ⟨b, hb, r, hr⟩ := h.bounds.exists_ok
  rw [Shape.center, hb]
  exact hr.center_gives (by decide)

/-- The bounds of the shapes near a frame, with every edge moved out by 20. -/
def roomFor (p : Page) (f : Shape) : Set Rect :=
  {r | ∃ s ∈ p.shapes, isFrame s = false ∧ isNear s f = .ok true ∧ ∃ t, s.Fills t ∧ t.grown 20 = r}

theorem mem_others {p : Page} :
    s ∈ p.shapes.filter (! isFrame ·) ↔ s ∈ p.shapes ∧ isFrame s = false := by
  rw [List.mem_filter, Bool.not_eq_true']

theorem roomFor_eq {p : Page} (hf : HasRect i f r)
    (hs : List.Forall₂ (IsSpot i) (p.shapes.filter (! isFrame ·)) ts) :
    p.roomFor f = {s | ∃ t ∈ r.near ts, t.grown 20 = s} := by
  ext u
  constructor
  · intro hu
    obtain ⟨s, hmem, hother, hnear, t, ht, rfl⟩ := hu
    obtain ⟨spot, hspot, hcenter, b, hb, harea⟩ :=
      Outcome.exists_of_forall₂ hs (mem_others.mpr ⟨hmem, hother⟩)
    rw [isNear_eq hf hcenter, Except.ok.injEq] at hnear
    obtain rfl : spot.area = t := Shape.Fills.unique ⟨b, hb, harea.isRect⟩ ht
    exact ⟨spot.area, Rect.mem_near.mpr ⟨spot, hspot, hnear, rfl⟩, rfl⟩
  · intro hu
    obtain ⟨t, ht, rfl⟩ := hu
    obtain ⟨spot, hspot, hreach, rfl⟩ := Rect.mem_near.mp ht
    obtain ⟨s, hmem, hcenter, b, hb, harea⟩ := Outcome.exists_of_forall₂ hs.flip hspot
    obtain ⟨hmem, hother⟩ := mem_others.mp hmem
    refine ⟨s, hmem, hother, ?_, spot.area, ⟨b, hb, harea.isRect⟩, rfl⟩
    rw [isNear_eq hf hcenter, hreach]

theorem roomFor_congr {j : Integers} {p q : Page} {g : Shape} (hf : HasRect i f r)
    (hg : HasRect j g r)
    (hothers : ∀ s, isFrame s = false → (s ∈ p.shapes ↔ s ∈ q.shapes)) :
    p.roomFor f = q.roomFor g := by
  ext u
  constructor
  · intro hu
    obtain ⟨s, hs, hother, hnear, hu⟩ := hu
    exact ⟨s, (hothers s hother).mp hs, hother, isNear_congr hf hg s ▸ hnear, hu⟩
  · intro hu
    obtain ⟨s, hs, hother, hnear, hu⟩ := hu
    exact ⟨s, (hothers s hother).mpr hs, hother, isNear_congr hg hf s ▸ hnear, hu⟩

theorem exists_spots {p : Page} (hint : ∀ s ∈ p.shapes, isFrame s = false → s.HasIntegers i)
    (hcenters : ∀ s ∈ p.shapes, isFrame s = false → ∃ c, s.center = .ok c) :
    ∃ ts, List.Forall₂ (IsSpot i) (p.shapes.filter (! isFrame ·)) ts := by
  refine Outcome.exists_forall₂ fun s hs => ?_
  obtain ⟨hs, hother⟩ := mem_others.mp hs
  obtain ⟨c, hc⟩ := hcenters s hs hother
  exact exists_spot_of_hasIntegers (hint s hs hother) hc

theorem centers_of_settleFrames {p q : Page} (hp : p.WellFormed)
    (hq : p.settleFrames.result = .ok q) (hmem : f ∈ p.shapes) (hframe : isFrame f = true) :
    ∀ s ∈ p.shapes, isFrame s = false → ∃ c, s.center = .ok c := by
  obtain ⟨grown, hgrown, -⟩ := (settleFrames_eq_ok hp.numbers_nodup).mp hq
  obtain ⟨l, hl, rfl⟩ := List.mem_map.mp hmem
  obtain ⟨m, -, -, hresult⟩ :=
    Outcome.exists_of_forall₂ hgrown (List.mem_filter.mpr ⟨hl, hframe⟩)
  exact fun s hs hother => center_of_growFrame hresult s (mem_others.mpr ⟨hs, hother⟩)

/-- What becomes of one frame of a page of integers. -/
theorem settleFrames_hasRect {p q : Page} (hp : p.WellFormed) (hint : ∀ s ∈ p.shapes,
    isFrame s = false → s.HasIntegers i) (hq : p.settleFrames.result = .ok q) (hmem : f ∈ p.shapes)
    (hframe : isFrame f = true) (hf : HasRect i f r) :
    ∃ g, q.get? f.id = some g ∧ f.Kept g ∧ ∃ new, HasRect i g new ∧
      IsLUB (insert r (p.roomFor f)) new ∧ (g = f ↔ new = r) := by
  obtain ⟨ts, hts⟩ := exists_spots hint (centers_of_settleFrames hp hq hmem hframe)
  obtain ⟨grown, hgrown, hlayers⟩ := (settleFrames_eq_ok hp.numbers_nodup).mp hq
  obtain ⟨l, hl, rfl⟩ := List.mem_map.mp hmem
  obtain ⟨m, hm, -, hresult⟩ :=
    Outcome.exists_of_forall₂ hgrown (List.mem_filter.mpr ⟨hl, hframe⟩)
  obtain ⟨hnew, hsame⟩ := (growFrame_around hf hts).of_ok hresult
  have hkept := growFrame_kept hframe hresult
  have hlub := Rect.isLUB_around ts r
  rw [← roomFor_eq hf hts] at hlub
  refine ⟨m.shape, ?_, hkept, r.around ts, hnew, hlub, hsame⟩
  refine (hp.settleFrames hq).get?_eq_some.mpr ⟨?_, hkept.id_eq⟩
  rw [hlayers]
  exact List.mem_map_of_mem (List.mem_append_left _ hm)

theorem settleFrames_frame {p q : Page} (hp : p.WellFormed) (hint : ∀ s ∈ p.shapes,
    isFrame s = false → s.IsIntegral i) (hq : p.settleFrames.result = .ok q) (hmem : f ∈ p.shapes)
    (hframe : isFrame f = true) (hf : HasRect i f r) :
    ∃ g, q.get? f.id = some g ∧ f.Kept g ∧ ∃ new, HasRect i g new ∧
      IsLUB (insert r (p.roomFor f)) new ∧ (g = f ↔ new = r) :=
  settleFrames_hasRect hp (fun s hs hother => (hint s hs hother).hasIntegers) hq hmem hframe hf

/-- Frames grow where every middle can be computed, and need not where there is no frame. -/
theorem settleFrames_exists_iff {p : Page} (hp : p.WellFormed)
    (hint : ∀ s ∈ p.shapes, s.HasIntegers i) :
    (∃ q, p.settleFrames.result = .ok q) ↔ ((∃ f ∈ p.shapes, isFrame f = true) →
      ∀ s ∈ p.shapes, isFrame s = false → ∃ c, s.center = .ok c) := by
  constructor
  · intro hq hframe
    obtain ⟨q, hq⟩ := hq
    obtain ⟨f, hmem, hframe⟩ := hframe
    exact centers_of_settleFrames hp hq hmem hframe
  · intro hcenters
    obtain ⟨grown, hgrown⟩ : ∃ grown, List.Forall₂ (Grows (p.shapes.filter (! isFrame ·)))
        (p.layers.filter (isFrame ·.shape)) grown := by
      refine Outcome.exists_forall₂ fun l hl => ?_
      obtain ⟨hl, hframe⟩ := List.mem_filter.mp hl
      have hmem : l.shape ∈ p.shapes := List.mem_map_of_mem hl
      obtain ⟨ts, hts⟩ :=
        exists_spots (fun s hs _ => hint s hs) (hcenters ⟨l.shape, hmem, hframe⟩)
      obtain ⟨r, hr⟩ := hasRect_of_hasIntegers (hint l.shape hmem)
      obtain ⟨g, hg, -⟩ := (growFrame_around hr hts).exists_ok
      exact ⟨{ l with shape := g }, rfl, hg⟩
    exact ⟨_, (settleFrames_eq_ok hp.numbers_nodup).mpr ⟨grown, hgrown, rfl⟩⟩

theorem settleFrames_exists {p : Page} (hp : p.WellFormed) (hint : ∀ s ∈ p.shapes, s.IsIntegral i)
    (hcenters : ∀ s ∈ p.shapes, isFrame s = false → ∃ c, s.center = .ok c) :
    ∃ q, p.settleFrames.result = .ok q :=
  (settleFrames_exists_iff hp fun s hs => (hint s hs).hasIntegers).mpr fun _ => hcenters

/-- A frame grows to the smallest rectangle around its old box and the bounds, with every edge
moved out by 20, of the other shapes that are near its old box, and stays as it is without such
shapes. So the new box can be told from the old one and from the shapes that are no frames, on
whatever page and in whatever order these are. Frames always grow, unless a middle is past all
floating-point numbers. Whole numbers may have any size; with floating-point numbers among them,
coordinates and lengths are at most `2 ^ 32` in size. -/
theorem settleFrames_hull {p : Page} (hp : p.WellFormed) (hint : ∀ s ∈ p.shapes, s.IsIntegral i) :
    ((i = .exact → ∀ s ∈ p.shapes, isFrame s = false → ∃ c, s.center = .ok c) →
        ∃ q, p.settleFrames.result = .ok q) ∧
      ∀ q, p.settleFrames.result = .ok q → ∀ f ∈ p.shapes, isFrame f = true →
        ∃ g, q.get? f.id = some g ∧ f.Kept g ∧ ∃ old new, f.Fills old ∧ g.Fills new ∧
          IsLUB (insert old (p.roomFor f)) new ∧ (p.roomFor f = ∅ → g = f) ∧
            ∀ (j : Integers) (p' q' : Page) (f' : Shape), p'.WellFormed →
              (∀ s ∈ p'.shapes, s.IsIntegral j) → p'.settleFrames.result = .ok q' →
                f' ∈ p'.shapes → isFrame f' = true → f'.Fills old →
                  (∀ s, isFrame s = false → (s ∈ p'.shapes ↔ s ∈ p.shapes)) →
                    ∃ g', q'.get? f'.id = some g' ∧ f'.Kept g' ∧ g'.Fills new := by
  refine ⟨fun hcenters => settleFrames_exists hp hint fun s hs hother => ?_, ?_⟩
  · cases i with
    | exact => exact hcenters rfl s hs hother
    | bounded => exact center_of_isIntegral (hint s hs)
  intro q hq f hmem hframe
  obtain ⟨old, hold⟩ := hasRect_of_isIntegral (hint f hmem)
  obtain ⟨g, hg, hkept, new, hnew, hlub, hsame⟩ :=
    settleFrames_frame hp (fun s hs _ => hint s hs) hq hmem hframe hold
  have hgframe : isFrame g = true := hkept.isFrame_eq.trans hframe
  refine ⟨g, hg, hkept, old, new, (fills_iff_of_isFrame hframe).mpr hold.isRect,
    (fills_iff_of_isFrame hgframe).mpr hnew.isRect, hlub, fun hempty => ?_, ?_⟩
  · rw [hempty] at hlub
    exact hsame.mpr (hlub.unique (by simp))
  intro j p' q' f' hp' hint' hq' hmem' hframe' hfills hothers
  obtain ⟨old', hold'⟩ := hasRect_of_isIntegral (hint' f' hmem')
  obtain rfl : old' = old :=
    hold'.isRect.unique ((fills_iff_of_isFrame hframe').mp hfills)
  obtain ⟨g', hg', hkept', new', hnew', hlub', -⟩ :=
    settleFrames_frame hp' (fun s hs _ => hint' s hs) hq' hmem' hframe' hold'
  have hroom : p'.roomFor f' = p.roomFor f := roomFor_congr hold' hold hothers
  rw [hroom] at hlub'
  obtain rfl := hlub'.unique hlub
  exact ⟨g', hg', hkept',
    (fills_iff_of_isFrame (hkept'.isFrame_eq.trans hframe')).mpr hnew'.isRect⟩

/-- A frame with a box and a connector near it, above a box that is out of reach, and another frame
that reaches all of them. -/
theorem settleFrames_hull_two :
    let f : Shape := { id := "shape:f", kind := .known .frame, w := 100, h := 100 }
    let p : Page :=
      { layers := [
          ⟨0, { id := "shape:far", kind := .known .text, y := 400, label := "far" }⟩, ⟨1, f⟩,
          ⟨2, { id := "shape:box", kind := .known .rectangle, x := 150, y := 20, w := 100
                h := 50 }⟩,
          ⟨3, { id := "shape:arrow", kind := .known .connector, x := .whole (-50)
                y := .whole (-30), start := some ⟨0, 0⟩, finish := some ⟨20, 0⟩ }⟩,
          ⟨4, { id := "shape:g", kind := .known .frame, x := 50, y := 50, w := 300, h := 300 }⟩]
        ids := ["shape:far", "shape:f", "shape:box", "shape:arrow", "shape:g"] }
    p.WellFormed ∧ (∀ s ∈ p.shapes, s.IsIntegral .exact) ∧
      (∀ s ∈ p.shapes, isFrame s = false → ∃ c, s.center = .ok c) ∧
        ∃ q g, p.settleFrames.result = .ok q ∧ q.get? "shape:f" = some g ∧
          g.Fills ⟨-70, -50, 270, 100⟩ ∧
            IsLUB (insert ⟨0, 0, 100, 100⟩ (p.roomFor f)) ⟨-70, -50, 270, 100⟩ := by
  intro f p
  have hp : p.WellFormed := ⟨by decide, by decide, by decide, by decide, by decide⟩
  have hint : ∀ s ∈ p.shapes, s.IsIntegral .exact := by
    have hcheck : ∀ s ∈ p.shapes, s.isIntegral .exact = true := by decide +kernel
    exact fun s hs => Shape.isIntegral_of_check (hcheck s hs)
  have hcenters : ∀ s ∈ p.shapes, isFrame s = false → ∃ c, s.center = .ok c := by
    have hcheck : ∀ s ∈ p.shapes, s.center.toOption.any (fun _ => true) = true := by
      decide +kernel
    intro s hs _
    obtain ⟨c, hc, -⟩ := Outcome.exists_of_any (hcheck s hs)
    exact ⟨c, hc⟩
  have hframe : f.Fills ⟨0, 0, 100, 100⟩ := Shape.fills_of_hasBounds (by decide +kernel)
  obtain ⟨hexists, hall⟩ := settleFrames_hull hp hint
  obtain ⟨q, hq⟩ := hexists fun _ => hcenters
  obtain ⟨q', hq', hbox⟩ := Outcome.exists_of_any (x := p.settleFrames.result)
    (p := fun q => (q.get? "shape:f").any (·.hasBounds (-70) (-50) 340 150)) (by decide +kernel)
  obtain rfl : q = q' := Except.ok.inj (hq.symm.trans hq')
  obtain ⟨g, hg, -, old, new, hold, hnew, hlub, -⟩ := hall q hq f (by simp [p, shapes]) rfl
  obtain rfl := hold.unique hframe
  have hg' : q.get? "shape:f" = some g := hg
  rw [hg', Option.any_some] at hbox
  obtain rfl := hnew.unique (Shape.fills_of_hasBounds (r := ⟨-70, -50, 270, 100⟩) hbox)
  exact ⟨hp, hint, hcenters, q, g, hq, hg', hnew, hlub⟩

end Page

end DiagramScript
