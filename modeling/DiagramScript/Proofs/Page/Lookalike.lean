import DiagramScript.Proofs.Number.Agree
import DiagramScript.Proofs.Page.Frames

/-
  Frames among shapes that look alike.

  A frame reads nothing of another shape but its bounds, and never tells the two zeros apart. So
  where shapes have other ones in their places with bounds that agree (`Shape.LooksLike`), a frame
  grows to a box that agrees, or fails to grow as before (`growFrame_follows`).
-/

namespace DiagramScript
open Outcome (Follows)

structure Point.Agrees (p q : Point) : Prop where
  x : p.x.Agrees q.x
  y : p.y.Agrees q.y

structure Bounds.Agrees (b c : Bounds) : Prop where
  x : b.x.Agrees c.x
  y : b.y.Agrees c.y
  w : b.w.Agrees c.w
  h : b.h.Agrees c.h

/-- Two shapes that are the same but for the signs of zeros in their boxes. -/
structure Shape.Agrees (s t : Shape) : Prop where
  same : ∃ x y w h, t = { s with x := x, y := y, w := w, h := h }
  x : s.x.Agrees t.x
  y : s.y.Agrees t.y
  w : s.w.Agrees t.w
  h : s.h.Agrees t.h

theorem Shape.Agrees.refl (s : Shape) : s.Agrees s :=
  ⟨⟨_, _, _, _, rfl⟩, .refl _, .refl _, .refl _, .refl _⟩

/-- Where one shape has bounds, the other one has bounds that agree. -/
def Shape.LooksLike (s t : Shape) : Prop := Follows Bounds.Agrees s.bounds t.bounds

theorem Shape.LooksLike.refl (s : Shape) : s.LooksLike s :=
  fun b hb => ⟨b, hb, .refl _, .refl _, .refl _, .refl _⟩

/-! ## Bounds -/

namespace Bounds.Agrees
variable {b c : Bounds}

theorem right_follows (h : b.Agrees c) : Follows Scalar.Agrees b.right c.right :=
  h.x.add_follows h.w

theorem bottom_follows (h : b.Agrees c) : Follows Scalar.Agrees b.bottom c.bottom :=
  h.y.add_follows h.h

theorem center_follows (h : b.Agrees c) : Follows Point.Agrees b.center c.center := by
  refine h.w.half_follows.bind fun dx dx' hdx => ?_
  refine (h.x.add_follows hdx).bind fun x x' hx => ?_
  refine h.h.half_follows.bind fun dy dy' hdy => ?_
  refine (h.y.add_follows hdy).bind fun y y' hy => ?_
  exact .ok ⟨hx, hy⟩

end Bounds.Agrees

theorem Shape.LooksLike.center_follows {s t : Shape} (h : s.LooksLike t) :
    Follows Point.Agrees s.center t.center :=
  h.bind fun _ _ hb => hb.center_follows

/-! ## Frames -/

namespace Page
variable {f s t : Shape} {others others' : List Shape} {frames grown : List Layer}

theorem nearSpan_congr {c d : Scalar} (h : c.Agrees d) (edge length : Scalar) :
    nearSpan c edge length = nearSpan d edge length := by
  have hlow (a : Scalar) : a.le c = a.le d := (Scalar.Agrees.refl a).le_eq h
  have hhigh (a : Scalar) : c.le a = d.le a := h.le_eq (.refl a)
  simp only [nearSpan, hlow, hhigh]

theorem isNear_follows (h : s.LooksLike t) : Follows (· = ·) (isNear s f) (isNear t f) := by
  refine h.center_follows.bind fun c d hcd => ?_
  rw [nearSpan_congr hcd.x, nearSpan_congr hcd.y]
  exact fun near hnear => ⟨near, hnear, rfl⟩

theorem boundsNear_follows (h : List.Forall₂ Shape.LooksLike others others') :
    Follows (List.Forall₂ Bounds.Agrees) (boundsNear f others) (boundsNear f others') := by
  induction h with
  | nil => exact .ok .nil
  | @cons s t ss ts hst _ ih =>
    refine (isNear_follows hst).bind fun near near' hnear => ?_
    subst hnear
    cases near with
    | false => exact ih
    | true => exact Follows.bind hst fun b c hbc => ih.bind fun bs cs hall => .ok (.cons hbc hall)

theorem enclosing_follows {b c : Bounds} {bs cs : List Bounds} (h : b.Agrees c)
    (hall : List.Forall₂ Bounds.Agrees bs cs) :
    Follows Bounds.Agrees (enclosing f b bs) (enclosing f c cs) := by
  have hxs : List.Forall₂ Scalar.Agrees (bs.map (·.x)) (cs.map (·.x)) := by
    rw [List.forall₂_map_left_iff, List.forall₂_map_right_iff]
    exact hall.imp fun _ _ h => h.x
  have hys : List.Forall₂ Scalar.Agrees (bs.map (·.y)) (cs.map (·.y)) := by
    rw [List.forall₂_map_left_iff, List.forall₂_map_right_iff]
    exact hall.imp fun _ _ h => h.y
  -- Step by step, in the order in which the frame is computed.
  refine ((h.x.minimum hxs).sub_follows (.refl _)).bind fun left left' hleft => ?_
  refine ((h.y.minimum hys).sub_follows (.refl _)).bind fun top top' htop => ?_
  refine Follows.same fun edge => ?_
  refine h.right_follows.bind fun first first' hfirst => ?_
  refine (Follows.mapM hall fun _ _ h => h.right_follows).bind fun rest rest' hrest => ?_
  refine ((hfirst.maximum hrest).add_follows (.refl _)).bind fun right right' hright => ?_
  refine Follows.same fun edge' => ?_
  refine h.bottom_follows.bind fun first first' hfirst => ?_
  refine (Follows.mapM hall fun _ _ h => h.bottom_follows).bind fun rest rest' hrest => ?_
  refine ((hfirst.maximum hrest).add_follows (.refl _)).bind fun bottom bottom' hbottom => ?_
  have hleft := (Scalar.Agrees.refl f.x).min hleft
  have htop := (Scalar.Agrees.refl f.y).min htop
  have hright := (Scalar.Agrees.refl edge).max hright
  have hbottom := (Scalar.Agrees.refl edge').max hbottom
  refine (hright.sub_follows hleft).bind fun w w' hw => ?_
  refine (hbottom.sub_follows htop).bind fun h h' hh => ?_
  exact .ok ⟨hleft, htop, hw, hh⟩

theorem hasBox_congr {b c : Bounds} (h : b.Agrees c) : hasBox f b = hasBox f c := by
  rw [hasBox, hasBox, h.x.same_eq (.refl _), h.y.same_eq (.refl _), h.w.same_eq (.refl _),
    h.h.same_eq (.refl _)]

/-- A frame among shapes that look like others grows to a box that agrees. -/
theorem growFrame_follows (h : List.Forall₂ Shape.LooksLike others others') :
    Follows Shape.Agrees (growFrame others f).result (growFrame others' f).result := by
  simp only [growFrame, Report.result_bind, Report.result_liftM]
  refine (boundsNear_follows h).bind fun bs cs hall => ?_
  cases hall with
  | nil => exact .ok (.refl f)
  | @cons b c bs cs hbc hall =>
    simp only [Report.result_bind, Report.result_liftM]
    refine (enclosing_follows hbc hall).bind fun box box' hbox => ?_
    rw [hasBox_congr hbox]
    cases hasBox f box' with
    | true => exact .ok (.refl f)
    | false => exact .ok ⟨⟨_, _, _, _, rfl⟩, hbox.x, hbox.y, hbox.w, hbox.h⟩

/-- All frames do. -/
theorem exists_grows (h : List.Forall₂ Shape.LooksLike others others')
    (hgrown : List.Forall₂ (Grows others) frames grown) :
    ∃ grown', List.Forall₂ (Grows others') frames grown' ∧
      List.Forall₂ Shape.Agrees (grown.map (·.shape)) (grown'.map (·.shape)) := by
  induction hgrown with
  | nil => exact ⟨[], .nil, .nil⟩
  | @cons l m _ _ hlm _ ih =>
    obtain ⟨hnumber, hresult⟩ := hlm
    obtain ⟨s, hs, hagrees⟩ := growFrame_follows h _ hresult
    obtain ⟨grown', hgrown', hall⟩ := ih
    exact ⟨{ m with shape := s } :: grown', .cons ⟨hnumber, hs⟩ hgrown', .cons hagrees hall⟩

end Page

end DiagramScript
