import DiagramScript.Proofs.Numeric
import DiagramScript.Proofs.Page.ShapeRecord
import DiagramScript.Proofs.Page.Steps

/-
  Shapes without truth values.

  What a batch computes, sizes, ends of connectors, boxes of frames, comes out of arithmetic
  or from tables. So the numbers of a new shape are no truth values where those of its
  instruction are none, and a grown frame has none where it had none before.
-/

namespace DiagramScript

def Shape.Numeric (s : Shape) : Prop := ∀ n ∈ s.numbers, n.isFlag = false

theorem Block.sizeOf_numeric {i : ShapeInstruction} {s : Size} (h : sizeOf i = .ok s)
    (hi : i.Numeric) : s.Numeric := by
  have hdefault (k : Kind) : (defaultSize k).Numeric := by
    cases k <;> exact ⟨rfl, rfl⟩
  -- A size is that of the instruction, a default, or the greater of a default and a label.
  unfold sizeOf at h
  split at h
  · cases h
  · split at h
    · rename_i d hd
      cases h
      exact hi.dimensions _ hd
    · rename_i t _ ht
      cases h
      exact hi.size _ ht
    · simp only [] at h
      split at h
      · cases h
        cases Tier.ofOption i.style.size <;> exact ⟨rfl, rfl⟩
      · cases h
        exact ⟨(hdefault _).1, rfl⟩
      · split at h
        · cases h
          exact ⟨Scalar.isFlag_max (hdefault _).1 rfl, Scalar.isFlag_max (hdefault _).2 rfl⟩
        · cases h
          exact hdefault _
      · split at h
        · cases h
          exact ⟨Scalar.isFlag_max (hdefault _).1 rfl, Scalar.isFlag_max (hdefault _).2 rfl⟩
        · cases h
          exact hdefault _
      · cases h
        exact hdefault _

theorem Bounds.isReal_center {b : Bounds} {p : Point} (h : b.center = .ok p) : p.IsReal := by
  simp only [center, Outcome.bind_eq_ok] at h
  obtain ⟨dx, hdx, x, hx, dy, hdy, y, hy, h⟩ := h
  cases h
  exact ⟨Scalar.isReal_arith (.inr (Scalar.isReal_div hdx)) hx,
    Scalar.isReal_arith (.inr (Scalar.isReal_div hdy)) hy⟩

theorem Shape.isReal_center {s : Shape} {p : Point} (h : s.center = .ok p) : p.IsReal := by
  simp only [center, Outcome.bind_eq_ok] at h
  obtain ⟨b, -, h⟩ := h
  exact Bounds.isReal_center h

namespace Border
variable {p q : Point} {dx dy scale padding : Scalar}

theorem isReal_along (hp : p.IsReal) (h : along p dx dy scale = .ok q) : q.IsReal := by
  simp only [along, Outcome.bind_eq_ok] at h
  obtain ⟨ex, -, x, hx, ey, -, y, hy, h⟩ := h
  cases h
  exact ⟨Scalar.isReal_arith (.inl hp.1) hx, Scalar.isReal_arith (.inl hp.2) hy⟩

theorem isReal_push (hp : p.IsReal) (h : push p dx dy padding = .ok q) : q.IsReal := by
  unfold push at h
  split at h
  · cases h
    exact hp
  · simp only [Outcome.bind_eq_ok] at h
    obtain ⟨length, -, ux, -, ox, -, x, hx, uy, -, oy, -, y, hy, h⟩ := h
    cases h
    exact ⟨Scalar.isReal_arith (.inl hp.1) hx, Scalar.isReal_arith (.inl hp.2) hy⟩

theorem isReal_point {s : Shape} {toward : Point} (h : point s toward padding = .ok q) :
    q.IsReal := by
  simp only [point, Outcome.bind_eq_ok] at h
  obtain ⟨b, -, c, hc, dx, -, dy, -, h⟩ := h
  have hreal := Bounds.isReal_center hc
  split at h
  · cases h
    exact hreal
  · simp only [Outcome.bind_eq_ok] at h
    obtain ⟨halfW, -, halfH, -, h⟩ := h
    split at h
    · simp only [Outcome.bind_eq_ok] at h
      obtain ⟨scale, -, edge, hedge, h⟩ := h
      exact isReal_push (isReal_along hreal hedge) h
    · simp only [Outcome.bind_eq_ok] at h
      obtain ⟨scale, -, edge, hedge, h⟩ := h
      exact isReal_push (isReal_along hreal hedge) h

end Border

namespace Page

theorem newPosition_numeric {p : Page} {i : ShapeInstruction} {q : Point}
    (h : p.newPosition i = .ok q) (hi : i.Numeric) : q.Numeric := by
  unfold newPosition at h
  split at h
  · rename_i position hposition
    cases h
    exact hi.position _ hposition
  · simp only [Outcome.bind_eq_ok] at h
    obtain ⟨bottoms, -, h⟩ := h
    unfold Bounds.placeBelow at h
    split at h
    · cases h
      exact ⟨rfl, rfl⟩
    · simp only [Outcome.bind_eq_ok] at h
      obtain ⟨y, -, n, -, h⟩ := h
      cases h
      exact ⟨rfl, rfl⟩

theorem newShape_numeric {p : Page} {i : ShapeInstruction} {s : Shape}
    (h : p.newShape i = .ok s) (hi : i.Numeric) : s.Numeric := by
  simp only [newShape, Outcome.bind_eq_ok] at h
  obtain ⟨position, hposition, size, hsize, id, -, h⟩ := h
  obtain ⟨hx, hy⟩ := newPosition_numeric hposition hi
  obtain ⟨hw, hh⟩ := Block.sizeOf_numeric hsize hi
  cases h
  intro n hn
  simp only [Shape.numbers, Option.elim, List.append_nil, List.mem_cons, List.not_mem_nil,
    or_false] at hn
  rcases hn with rfl | rfl | rfl | rfl
  · exact hx
  · exact hy
  · exact hw
  · exact hh

theorem isReal_anchor {p : Page} {text : String} {line : LineNumber} {a : Anchor}
    (h : p.anchor text line = .ok a) : a.point.IsReal := by
  unfold anchor at h
  split at h
  · simp only [Outcome.bind_eq_ok] at h
    obtain ⟨q, hq, h⟩ := h
    cases h
    exact Measure.isReal_position hq
  · split at h
    · cases h
    · simp only [Outcome.bind_eq_ok] at h
      obtain ⟨q, hq, h⟩ := h
      cases h
      exact Shape.isReal_center hq

theorem isReal_tip {a : Anchor} {other q : Point} {padding : Scalar}
    (h : a.tip other padding = .ok q) (ha : a.point.IsReal) : q.IsReal := by
  unfold Anchor.tip at h
  split at h
  · cases h
    exact ha
  · exact Border.isReal_point h

theorem newConnector_numeric {p : Page} {padding : Scalar} {i : ConnectorInstruction}
    {s : Shape} {a b : Option Shape} (h : p.newConnector padding i = .ok (s, a, b)) :
    s.Numeric := by
  simp only [newConnector, Outcome.bind_eq_ok] at h
  obtain ⟨source, hsource, target, htarget, first, hfirst, last, hlast, id, -, t, ht, h⟩ := h
  cases h
  obtain ⟨hfx, hfy⟩ := (isReal_tip hfirst (isReal_anchor hsource)).numeric
  obtain ⟨hlx, hly⟩ := (isReal_tip hlast (isReal_anchor htarget)).numeric
  simp only [connectorShape, Outcome.bind_eq_ok] at ht
  obtain ⟨sx, hsx, sy, hsy, ex, hex, ey, hey, ht⟩ := ht
  cases ht
  intro n hn
  simp only [Shape.numbers, Option.elim, List.mem_append, List.mem_cons, List.not_mem_nil,
    or_false] at hn
  rcases hn with ((rfl | rfl | rfl | rfl) | rfl | rfl) | rfl | rfl
  · exact Scalar.isFlag_min hfx hlx
  · exact Scalar.isFlag_min hfy hly
  · rfl
  · rfl
  · exact Scalar.isFlag_sub hsx
  · exact Scalar.isFlag_sub hsy
  · exact Scalar.isFlag_sub hex
  · exact Scalar.isFlag_sub hey

/-- The box of a grown frame. -/
theorem enclosing_numeric {frame : Shape} {b : Bounds} {bs : List Bounds} {box : Bounds}
    (h : enclosing frame b bs = .ok box) (hf : frame.Numeric) :
    box.x.isFlag = false ∧ box.y.isFlag = false ∧ box.w.isFlag = false ∧
      box.h.isFlag = false := by
  simp only [enclosing, Outcome.bind_eq_ok] at h
  -- The edges that only go into the width and the height do not matter.
  obtain ⟨left, hleft, top, htop, _, -, _, -, _, -, _, -, _, -, _, -, _, -, _, -, w, hw,
    height, hh, h⟩ := h
  cases h
  have hx : frame.x.isFlag = false := hf _ (by simp [Shape.numbers])
  have hy : frame.y.isFlag = false := hf _ (by simp [Shape.numbers])
  exact ⟨Scalar.isFlag_min hx (Scalar.isFlag_sub hleft),
    Scalar.isFlag_min hy (Scalar.isFlag_sub htop), Scalar.isFlag_sub hw, Scalar.isFlag_sub hh⟩

theorem growFrame_numeric {others : List Shape} {frame s : Shape}
    (h : (growFrame others frame).result = .ok s) (hf : frame.Numeric) : s.Numeric := by
  rcases growFrame_cases h with rfl | ⟨b, bs, box, -, hbox, rfl⟩
  · exact hf
  · obtain ⟨hx, hy, hw, hh⟩ := enclosing_numeric hbox hf
    intro n hn
    simp only [Shape.numbers, List.mem_append, List.mem_cons, List.not_mem_nil, or_false] at hn
    rcases hn with ((rfl | rfl | rfl | rfl) | hn) | hn
    · exact hx
    · exact hy
    · exact hw
    · exact hh
    · exact hf n (List.mem_append_left _ (List.mem_append_right _ hn))
    · exact hf n (List.mem_append_right _ hn)

end Page

end DiagramScript
