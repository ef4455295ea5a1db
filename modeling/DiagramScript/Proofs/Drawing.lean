import DiagramScript.Generator
import DiagramScript.Proofs.Page.Reach
import DiagramScript.Proofs.Svg.Element

/-
  Drawings of pages in reach.

  The bounds and the captions of shapes in reach are in reach as well, only some times further
  out (`Shape.Reaches.bounds`, `Svg.shape_writable`), and a number in reach can be written. So a
  page in reach is drawn (`Svg.render_reaches`), and a source with moderate numbers is drawn or
  refused with an error of the library (`Generator.renderSvg_settles`).
-/

namespace DiagramScript

/-! ## Bounds -/

/-- A box whose edges are within some reaches. -/
structure Bounds.Reaches (k : ℕ) (b : Bounds) : Prop where
  left : b.x.Within k
  top : b.y.Within k
  right : Gives (Scalar.Within k) b.right
  bottom : Gives (Scalar.Within k) b.bottom

namespace Shape
variable {k : ℕ} {s : Shape}

theorem Reaches.absolute (h : s.Reaches k) {offset : Point} (hoffset : offset.Within (3 * k))
    (hk : 3 * k ≤ far) : Gives (Point.Within (4 * k + 1)) (s.absolute offset) := by
  have hcorner := h.box.corner
  refine (hcorner.x.add hoffset.x (by omega) hk).bind fun x hx => ?_
  refine (hcorner.y.add hoffset.y (by omega) hk).bind fun y hy => .ok ⟨?_, ?_⟩
  · exact hx.mono (by omega)
  · exact hy.mono (by omega)

theorem Reaches.absolute? (h : s.Reaches k) {offset : Option Point}
    (hoffset : ∀ p ∈ offset, p.Within (3 * k)) (hk : 3 * k ≤ far) :
    Gives (fun p => ∀ p' ∈ p, Point.Within (4 * k + 1) p') (s.absolute? offset) := by
  cases offset with
  | none => exact .ok fun p hp => by cases hp
  | some p =>
    refine (h.absolute (hoffset p rfl) hk).map fun p hp p' hp' => ?_
    cases hp'
    exact hp

theorem Reaches.absoluteOrPlace (h : s.Reaches k) {offset : Option Point}
    (hoffset : ∀ p ∈ offset, p.Within (3 * k)) (hk : 3 * k ≤ far) :
    Gives (Point.Within (4 * k + 1)) (s.absoluteOrPlace offset) := by
  cases offset with
  | none => exact .ok (h.box.corner.mono (by omega))
  | some p => exact h.absolute (hoffset p rfl) hk

/-- The box between two points in reach. -/
theorem span_reaches {a b : Point} (ha : a.Within k) (hb : b.Within k) (hk : 2 * k + 2 ≤ far) :
    Gives (Bounds.Reaches (3 * k + 3)) (span a b) := by
  have hone : Scalar.Within 1 1 := .of_nat (n := 1) (by norm_num)
  refine (hb.x.sub ha.x (by omega) (by omega)).bind fun dx hdx => ?_
  refine (hb.y.sub ha.y (by omega) (by omega)).bind fun dy hdy => .ok ?_
  have hx := Scalar.min_of (P := Scalar.Within k) ha.x hb.x
  have hy := Scalar.min_of (P := Scalar.Within k) ha.y hb.y
  have hlength {d : Scalar} (hd : d.Within (k + k + 1)) :
      (Scalar.max 1 d.abs).Within (2 * k + 2) :=
    Scalar.max_of (P := Scalar.Within (2 * k + 2)) (hone.mono (by omega))
      (hd.abs.mono (by omega))
  refine ⟨hx.mono (by omega), hy.mono (by omega), ?_, ?_⟩
  · exact (hx.add (hlength hdx) (by omega) (by omega)).imp fun c hc => hc.mono (by omega)
  · exact (hy.add (hlength hdy) (by omega) (by omega)).imp fun c hc => hc.mono (by omega)

/-- The bounds of a shape in reach. -/
theorem Reaches.bounds (h : s.Reaches k) (hk : 12 * k + 6 ≤ far) :
    Gives (Bounds.Reaches (12 * k + 6)) s.bounds := by
  obtain ⟨kind, hkind⟩ := h.known
  have hcorner := h.box.corner
  unfold Shape.bounds
  rw [hkind]
  have hbox : Bounds.Reaches (12 * k + 6) ⟨s.x, s.y, s.w, s.h⟩ := by
    refine ⟨hcorner.x.mono (by omega), hcorner.y.mono (by omega), ?_, ?_⟩
    · exact (h.box.right (by omega)).imp fun c hc => hc.mono (by omega)
    · exact (h.box.bottom (by omega)).imp fun c hc => hc.mono (by omega)
  cases kind with
  | connector =>
    refine (h.absoluteOrPlace h.start (by omega)).bind fun a ha => ?_
    refine (h.absoluteOrPlace h.finish (by omega)).bind fun b hb => ?_
    rw [show 12 * k + 6 = 3 * (4 * k + 1) + 3 by omega]
    exact span_reaches ha hb (by omega)
  | text =>
    obtain ⟨v, w, hx⟩ := h.box.x
    have hwidth : (minTextWidth.max s.w).Within (2 * k + 1) :=
      Scalar.max_of (P := Scalar.Within (2 * k + 1))
        (Scalar.Within.mono (.of_nat (n := 40) (by norm_num)) (by omega))
        (hx.length_within.mono (by omega))
    have hheight := Scalar.Within.of_nat
      (Text.height_le (h.lines hkind) (Tier.ofOption s.style.size))
    refine .ok ⟨hcorner.x.mono (by omega), hcorner.y.mono (by omega), ?_, ?_⟩
    · exact (hcorner.x.add hwidth (by omega) (by omega)).imp fun c hc => hc.mono (by omega)
    · exact (hcorner.y.add hheight (by omega) (by decide)).imp fun c hc => hc.mono (by omega)
  | _ => exact .ok hbox

end Shape

/-! ## Viewports -/

namespace Viewport
variable {k : ℕ}

/-- An extent whose edges are within some reaches. -/
structure Extent.Within (k : ℕ) (e : Extent) : Prop where
  left : e.left.Within k
  top : e.top.Within k
  right : e.right.Within k
  bottom : e.bottom.Within k

/-- A viewport whose numbers are within some reaches. -/
structure Within (k : ℕ) (v : Viewport) : Prop where
  x : v.x.Within k
  y : v.y.Within k
  width : v.width.Within k
  height : v.height.Within k

theorem union_reaches {b : Bounds} {bs : List Bounds} (hb : b.Reaches k)
    (hbs : ∀ b ∈ bs, b.Reaches k) : Gives (Extent.Within k) (union b bs) := by
  have hleast (side : Bounds → Scalar) (hside : ∀ b, b.Reaches k → (side b).Within k) :
      (Scalar.minimum (side b) (bs.map side)).Within k :=
    Scalar.minimum_of (P := Scalar.Within k) (hside b hb) fun c hc => by
      obtain ⟨b', hb', rfl⟩ := List.mem_map.mp hc
      exact hside b' (hbs b' hb')
  refine hb.right.bind fun right hright => ?_
  refine (Settles.mapM fun b hb => (hbs b hb).right).bind fun rights hrights => ?_
  refine hb.bottom.bind fun bottom hbottom => ?_
  refine (Settles.mapM fun b hb => (hbs b hb).bottom).bind fun bottoms hbottoms => .ok ?_
  exact ⟨hleast Bounds.x fun _ hb => hb.left, hleast Bounds.y fun _ hb => hb.top,
    Scalar.maximum_of (P := Scalar.Within k) hright hrights,
    Scalar.maximum_of (P := Scalar.Within k) hbottom hbottoms⟩

theorem length_reaches {least low high padding : Scalar} (hleast : least.Within 1)
    (hlow : low.Within k) (hhigh : high.Within k) (hpadding : padding.Within 1)
    (hk : 2 * k + 1 ≤ far) :
    Gives (Scalar.Within (2 * k + 7)) (length least low high padding) := by
  refine (hhigh.sub hlow (by omega) (by omega)).bind fun extent hextent => ?_
  refine (hpadding.mul (b := 2) (by decide) trivial rfl).bind fun both hboth => ?_
  refine (hextent.add hboth (by omega) (by decide)).bind fun padded hpadded => ?_
  refine hpadded.ceil.bind fun n hn => .ok ?_
  exact Scalar.max_of (P := Scalar.Within (2 * k + 7)) (hleast.mono (by omega))
    (hn.mono (by omega))

theorem around_reaches {e : Option Extent} (he : ∀ e' ∈ e, e'.Within k) {padding : Scalar}
    (hpadding : padding.Within 1) (hk : 2 * k + 1 ≤ far) :
    Gives (Within (2 * k + 7)) (around e padding) := by
  have hwidth : minWidth.Within 1 := .of_nat (n := 200) (by norm_num)
  have hheight : minHeight.Within 1 := .of_nat (n := 120) (by norm_num)
  cases e with
  | none =>
    refine .ok ⟨hpadding.neg.mono ?_, hpadding.neg.mono ?_, hwidth.mono ?_, hheight.mono ?_⟩
    all_goals omega
  | some e =>
    have he := he e rfl
    refine (he.left.sub hpadding (by omega) (by decide)).bind fun x hx => ?_
    refine (he.top.sub hpadding (by omega) (by decide)).bind fun y hy => ?_
    refine (length_reaches hwidth he.left he.right hpadding hk).bind fun w hw => ?_
    refine (length_reaches hheight he.top he.bottom hpadding hk).bind fun h hh => .ok ?_
    exact ⟨hx.mono (by omega), hy.mono (by omega), hw, hh⟩

/-- The viewport of shapes in reach. -/
theorem ofShapes_reaches {shapes : List Shape} (h : ∀ s ∈ shapes, s.Reaches k) {padding : Scalar}
    (hpadding : padding.Within 1) (hk : 24 * k + 13 ≤ far) :
    Gives (Within (24 * k + 19)) (ofShapes shapes padding) := by
  have hextent : Gives (fun e => ∀ e' ∈ e, Extent.Within (12 * k + 6) e') (extent? shapes) := by
    refine (Settles.mapM fun s hs => (h s hs).bounds (by omega)).bind fun bs hbs => ?_
    cases bs with
    | nil => exact .ok fun e he => by cases he
    | cons b bs =>
      obtain ⟨hb, hbs⟩ := List.forall_mem_cons.mp hbs
      refine (union_reaches hb hbs).map fun e he e' he' => ?_
      cases he'
      exact he
  refine hextent.bind fun e he => ?_
  rw [show 24 * k + 19 = 2 * (12 * k + 6) + 7 by omega]
  exact around_reaches he hpadding (by omega)

end Viewport

/-! ## Captions -/

/-- A caption whose place is within some reaches. -/
structure Caption.Reaches (k : ℕ) (c : Caption) : Prop where
  x : c.x.Within k
  y : c.y.Within k
  lineHeight : c.lineHeight.Within 4

namespace Caption
variable {k : ℕ} {s : Shape}

theorem fontSize_within (s : Shape) : (Scalar.whole s.fontSize).Within 1 := by
  refine .of_nat ?_
  unfold Shape.fontSize
  cases Tier.ofOption s.style.size <;> norm_num [Tier.fontSize]

/-- The size of letters times a decimal of at most two. -/
theorem scaled_within {digits places : ℕ}
    (hfinite : (Binary64.ofDecimal false digits (-(places : Int))).isFinite = true)
    (hle : (Scalar.ofPlaces digits places).abs.le 2 = true) :
    Gives (Scalar.Within 4) (scaled s.fontSize (.ofPlaces digits places)) :=
  (fontSize_within s).mul (by decide) hfinite hle

theorem lineHeight_within (s : Shape) :
    Gives (Scalar.Within 4) (scaled s.fontSize (.ofPlaces 12 1)) :=
  scaled_within (by decide +kernel) (by decide +kernel)

theorem label_reaches {x y : Scalar} (hx : x.Within k) (hy : y.Within k) :
    Gives (Reaches k) (label s x y) :=
  (lineHeight_within s).bind fun _ hspacing => .ok ⟨hx, hy, hspacing⟩

/-- Half of a side further than an edge. -/
theorem middle_within {start length : Scalar} {v w : ℚ} (h : Scalar.Spans k start length v w)
    (hk : 3 * k + 2 ≤ far) :
    Gives (Scalar.Within (3 * k + 2)) (length.half >>= fun d => start.add d) := by
  refine (h.length_within.half (by omega)).bind fun d hd => ?_
  have hstart : start.Within k := ⟨v, h.start_at, h.low⟩
  exact (hstart.add hd (by omega) (by omega)).imp fun c hc => hc.mono (by omega)

theorem inside_reaches (h : s.Reaches k) (hk : 3 * k + 7 ≤ far) :
    Gives (Reaches (3 * k + 7)) (inside s) := by
  obtain ⟨⟨v, w, hx⟩, ⟨v', w', hy⟩⟩ := h.box
  have hmiddle : inside s = (s.w.half >>= fun d => s.x.add d) >>= fun x =>
      (s.h.half >>= fun d => s.y.add d) >>= fun y =>
        scaled s.fontSize (.ofPlaces 35 2) >>= fun drop => y.add drop >>= fun y =>
          label s x y := by
    simp only [inside, bind_assoc]
  have hdrop : Gives (Scalar.Within 4) (scaled s.fontSize (.ofPlaces 35 2)) :=
    scaled_within (by decide +kernel) (by decide +kernel)
  rw [hmiddle]
  refine (middle_within hx (by omega)).bind fun x hx => ?_
  refine (middle_within hy (by omega)).bind fun y hy => hdrop.bind fun drop hdrop => ?_
  refine (hy.add hdrop (by omega) (by decide)).bind fun y hy => ?_
  exact label_reaches (hx.mono (by omega)) (hy.mono (by omega))

theorem body_reaches (h : s.Reaches k) (hk : k ≤ far) : Gives (Reaches (k + 2)) (body s) := by
  have hcorner := h.box.corner
  have hspacing : Gives (Scalar.Within 4) (scaled s.fontSize (.ofPlaces 125 2)) :=
    scaled_within (by decide +kernel) (by decide +kernel)
  refine (hcorner.y.add (fontSize_within s) hk (by decide)).bind fun y hy => ?_
  exact hspacing.bind fun _ hspacing => .ok ⟨hcorner.x.mono (by omega), hy, hspacing⟩

theorem note_reaches (h : s.Reaches k) (hk : k + 2 ≤ far) : Gives (Reaches (k + 7)) (note s) := by
  have hcorner := h.box.corner
  have hinset : noteInset.Within 1 := .of_nat (n := 16) (by norm_num)
  have hdown : Scalar.Within 1 24 := .of_nat (n := 24) (by norm_num)
  have hdrop : Gives (Scalar.Within 4) (scaled s.fontSize (.ofPlaces 3 1)) :=
    scaled_within (by decide +kernel) (by decide +kernel)
  refine (hcorner.x.add hinset (by omega) (by decide)).bind fun x hx => ?_
  refine (hcorner.y.add hdown (by omega) (by decide)).bind fun y hy => ?_
  refine hdrop.bind fun drop hdrop => (hy.add hdrop (by omega) (by decide)).bind fun y hy => ?_
  exact (lineHeight_within s).bind fun _ hspacing =>
    .ok ⟨hx.mono (by omega), hy.mono (by omega), hspacing⟩

theorem frame_reaches (h : s.Reaches k) (hk : k ≤ far) : Gives (Reaches (k + 2)) (frame s) := by
  have hcorner := h.box.corner
  have hright : Scalar.Within 1 10 := .of_nat (n := 10) (by norm_num)
  have hdown : Scalar.Within 1 20 := .of_nat (n := 20) (by norm_num)
  have hspacing : Scalar.Within 1 18 := .of_nat (n := 18) (by norm_num)
  refine (hcorner.x.add hright hk (by decide)).bind fun x hx => ?_
  exact (hcorner.y.add hdown hk (by decide)).bind fun y hy =>
    .ok ⟨hx, hy, hspacing.mono (by decide)⟩

theorem along_reaches {a b : Point} (ha : a.Within k) (hb : b.Within k) (hk : 2 * k + 2 ≤ far) :
    Gives (Reaches (2 * k + 4)) (along s a b) := by
  have hup : Scalar.Within 1 6 := .of_nat (n := 6) (by norm_num)
  refine (ha.x.add hb.x (by omega) (by omega)).bind fun x hx => ?_
  refine (hx.half (by omega)).bind fun x hx => ?_
  refine (ha.y.add hb.y (by omega) (by omega)).bind fun y hy => ?_
  refine (hy.half (by omega)).bind fun y hy => ?_
  refine (hy.sub hup (by omega) (by decide)).bind fun y hy => ?_
  exact label_reaches (hx.mono (by omega)) (hy.mono (by omega))

theorem titled_reaches (s : Shape) {c : Except Fault Caption} (h : Gives (Reaches k) c) :
    Gives (fun c => ∀ c' ∈ c, c'.Reaches k) (titled s c) := by
  unfold titled
  refine .ite (fun _ => .ok fun c hc => by cases hc) fun _ => h.map fun c hc c' hc' => ?_
  cases hc'
  exact hc

end Caption

/-! ## Elements -/

namespace Svg

/-- A computation of elements that can be written. -/
abbrev Writes (x : Except Fault (List Element)) : Prop :=
  Gives (fun es => ∀ e ∈ es, e.isWritable = true) x

theorem number_gives {k : ℕ} {v : Scalar} (h : v.Within k) (hk : k ≤ far) :
    Gives (fun _ => True) (number v) := by
  rw [number, if_pos (h.isWritable hk)]
  exact .ok trivial

variable {k : ℕ} {s : Shape}

theorem caption_writable {c : Caption} (h : c.Reaches k) (hk : k ≤ far) :
    Gives (fun e => e.isWritable = true) (caption c) := by
  have hline (first : Bool) (text : String) :
      Gives (fun e => e.isWritable = true) (line c first text) := by
    refine (number_gives h.x hk).bind fun x _ => ?_
    have hdown : Gives (fun _ => True) (number (if first then c.y else c.lineHeight)) := by
      cases first with
      | true => exact number_gives h.y hk
      | false => exact number_gives h.lineHeight (by decide)
    exact hdown.bind fun y _ => .ok (by simp)
  have hlines : Writes (captionLines c) := by
    unfold captionLines
    split
    · exact .ok fun e he => by cases he
    · refine (hline true _).bind fun e he => ?_
      refine (Settles.mapM fun text _ => hline false text).bind fun es hes => .ok ?_
      exact List.forall_mem_cons.mpr ⟨he, hes⟩
  refine hlines.bind fun lines hlines => .ok ?_
  have hwritable : Element.areWritable lines = true := by
    rw [Element.areWritable_eq, List.all_eq_true]
    exact hlines
  cases c.centered <;> simp [hwritable]

theorem withCaption_writable {body : Element} (hbody : body.isWritable = true)
    {c : Option Caption} (hc : ∀ c' ∈ c, c'.Reaches k) (hk : k ≤ far) :
    Writes (withCaption body c) := by
  cases c with
  | none => exact .ok fun e he => List.mem_singleton.mp he ▸ hbody
  | some c =>
    refine (caption_writable (hc c rfl) hk).bind fun text htext => .ok fun e he => ?_
    rcases List.mem_cons.mp he with rfl | he
    · exact hbody
    · exact List.mem_singleton.mp he ▸ htext

/-- A shape in reach has elements that can be written. -/
theorem shape_writable (h : s.Reaches k) (hk : 8 * k + 7 ≤ far) : Writes (shape s) := by
  obtain ⟨kind, hkind⟩ := h.known
  obtain ⟨⟨v, w, hx⟩, ⟨v', w', hy⟩⟩ := h.box
  have hcorner := h.box.corner
  have hbox : s.x.isWritable && s.y.isWritable && s.w.isWritable && s.h.isWritable := by
    rw [hcorner.x.isWritable (by omega), hcorner.y.isWritable (by omega),
      hx.length_within.isWritable (by omega), hy.length_within.isWritable (by omega)]
    rfl
  have hinside := Caption.inside_reaches h (by omega)
  have htitled := Caption.titled_reaches s hinside
  unfold shape
  rw [hkind]
  cases kind with
  | rectangle =>
    refine hinside.bind fun _ _ => htitled.bind fun c hc => ?_
    exact withCaption_writable (by simp [hbox]) hc (by omega)
  | ellipse =>
    -- Its middle is the corner and half a side, along each axis.
    refine (hx.length_within.half (by omega)).bind fun rx hrx => ?_
    refine (hcorner.x.add hrx (by omega) (by omega)).bind fun cx hcx => ?_
    refine (hy.length_within.half (by omega)).bind fun ry hry => ?_
    refine (hcorner.y.add hry (by omega) (by omega)).bind fun cy hcy => ?_
    refine htitled.bind fun c hc => withCaption_writable ?_ hc (by omega)
    simp [hrx.isWritable (by omega), hcx.isWritable (by omega), hry.isWritable (by omega),
      hcy.isWritable (by omega)]
  | text =>
    refine (Caption.body_reaches h (by omega)).bind fun c hc => ?_
    refine (caption_writable hc (by omega)).bind fun text htext => .ok fun e he => ?_
    exact List.mem_singleton.mp he ▸ htext
  | note =>
    refine (Caption.note_reaches h (by omega)).bind fun c hc => ?_
    refine withCaption_writable (by simp [hbox]) (fun c' hc' => ?_) (by omega : k + 7 ≤ far)
    cases hc'
    exact hc
  | frame =>
    refine (Caption.titled_reaches s (Caption.frame_reaches h (by omega))).bind fun c hc => ?_
    exact withCaption_writable (by simp [hbox]) hc (by omega)
  | connector =>
    refine (h.absolute? h.start (by omega)).bind fun first hfirst => ?_
    refine (h.absolute? h.finish (by omega)).bind fun last hlast => ?_
    split
    · rename_i a b
      have ha := hfirst a rfl
      have hb := hlast b rfl
      have hcaption := Caption.along_reaches (s := s) ha hb (by omega)
      refine (Caption.titled_reaches s hcaption).bind fun c hc => ?_
      refine withCaption_writable ?_ hc (by omega)
      simp [ha.x.isWritable (by omega), ha.y.isWritable (by omega), hb.x.isWritable (by omega),
        hb.y.isWritable (by omega)]
    · -- A connector without one of its ends is not drawn.
      exact .ok fun e he => by cases he

/-- Shapes in reach are drawn. -/
theorem render_reaches {shapes : List Shape} (h : ∀ s ∈ shapes, s.Reaches k)
    (background : String) {padding : Scalar} (hpadding : padding.Within 1)
    (hk : 24 * k + 19 ≤ far) : Gives (fun _ => True) (render shapes background padding) := by
  have htree : Gives (fun e => e.isWritable = true) (document shapes background padding) := by
    refine (Viewport.ofShapes_reaches h hpadding (by omega)).bind fun v hv => ?_
    have hnumbers : ∀ n ∈ [v.x, v.y, v.width, v.height], n.Within (24 * k + 19) := by
      simp [hv.x, hv.y, hv.width, hv.height]
    have hbox : Gives (fun _ => True) (viewBox v) :=
      (Settles.mapM fun n hn => number_gives (hnumbers n hn) hk).bind fun _ _ => .ok trivial
    refine hbox.bind fun box _ => ?_
    refine (Settles.mapM fun s hs => shape_writable (h s hs) (by omega)).bind fun groups hgroups =>
      .ok ?_
    have hflat : ∀ e ∈ groups.flatten, e.isWritable = true := by
      intro e he
      obtain ⟨es, hes, he⟩ := List.mem_flatten.mp he
      exact hgroups es hes e he
    have hchildren : Element.areWritable groups.flatten = true := by
      rw [Element.areWritable_eq, List.all_eq_true]
      exact hflat
    simp [documentAttributes, hchildren, arrowhead,
      hv.x.isWritable hk, hv.y.isWritable hk, hv.width.isWritable hk, hv.height.isWritable hk]
  refine htree.bind fun tree htree => ?_
  rw [if_pos htree]
  exact .ok trivial

end Svg

/-! ## Sources -/

namespace Generator
variable {g : Generator} {source : String}

/-- How many reaches the page of a source with moderate numbers takes at most. -/
def pageReach : ℕ := lineReach + 18 * lineLimit

/-- A source with moderate numbers is put on a page in reach, or refused. -/
theorem compile_reaches (harrow : g.arrowPadding.Within 1) (h : Source.Moderate source) :
    Settles Fault.Own (Page.Reaches pageReach) (g.compile Page.empty source).result := by
  have hlines := h.lines
  have hroom : 3 * pageReach + 25 ≤ far := by decide
  simp only [compile, place, Report.result_bind, Report.result_liftM, Report.result_pure]
  refine (h.instructions_reaches.also fun is => Source.length_instructions_le).bind fun is his => ?_
  obtain ⟨hreaches, hcount⟩ := his
  have hbatch : lineReach + Page.batchReach 0 is.length ≤ pageReach := by
    unfold pageReach Page.batchReach
    omega
  have hfar : 3 * (lineReach + Page.batchReach 0 is.length) + 25 ≤ far := by omega
  refine (Page.apply_reaches Page.Steady.empty hreaches harrow hfar).bind fun r hr => .ok ?_
  exact fun s hs => (hr s hs).mono hbatch

/-- A source with moderate numbers is drawn, or refused with an error of the library. -/
theorem renderSvg_settles (hpadding : g.padding.Within 1) (harrow : g.arrowPadding.Within 1)
    (h : Source.Moderate source) :
    Settles Fault.Own (fun _ => True) (g.renderSvg source).result := by
  simp only [renderSvg, draw, Report.result_bind, Report.result_liftM]
  refine (compile_reaches harrow h).bind fun p hp => .of_gives ?_
  exact Svg.render_reaches hp _ hpadding (by decide)

end Generator

end DiagramScript
