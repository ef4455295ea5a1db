import DiagramScript.Proofs.Number.Near
import DiagramScript.Proofs.Number.Zero
import DiagramScript.Viewport

/-
  Shapes in a viewport.

  The sides of a viewport are whole numbers, which no infinity can be rounded up to. A sum is
  finite only where its terms are, and a least or greatest number that is no infinity has none
  beyond it. So where shapes have a viewport, the bounds of none of them reach to an infinity
  (`ofShapes_bounded`), and both ends of a connector never lie at the same one
  (`ends_apart`).
-/

namespace DiagramScript

namespace Binary64
variable {x y : Binary64}

theorem isFinite_of_add (h : (x.add y).isFinite = true) :
    x.isFinite = true ∧ y.isFinite = true := by
  cases x with
  | nan => cases h
  | infinite s =>
    cases y with
    | nan => cases h
    | infinite t =>
      rw [add] at h
      split at h <;> cases h
    | finite t q => cases h
  | finite s r =>
    cases y with
    | finite t q => exact ⟨rfl, rfl⟩
    | _ => cases h

theorem isFinite_neg : y.neg.isFinite = y.isFinite := by
  cases y <;> rfl

end Binary64

namespace Scalar
variable {a b c : Scalar} {rest : List Scalar}

/-- Whether a scalar counts as a number that is no infinity. -/
def OnLine (a : Scalar) : Prop := ∃ u, a.place? = some (.finite u)

theorem onLine_plain (h : a.plain.OnLine) : a.OnLine := by
  cases a with
  | flag b => cases b <;> exact ⟨_, rfl⟩
  | _ => exact h

theorem onLine_of_toReal {x : Binary64} (h : a.toReal = .ok x) (hx : x.isFinite = true) :
    a.OnLine := by
  cases a with
  | whole n => exact ⟨_, rfl⟩
  | real y =>
    cases h
    cases x with
    | finite s r => exact ⟨_, rfl⟩
    | _ => cases hx
  | flag b => cases b <;> exact ⟨_, rfl⟩

/-- Where both sides of a rounded operation have to be finite, so have both of its operands. -/
theorem onLine_of_arith {exact : Int → Int → Int} (rounded : Binary64 → Binary64 → Binary64)
    (hrounded : ∀ x y, (rounded x y).isFinite = true → x.isFinite = true ∧ y.isFinite = true)
    (h : arith exact rounded a b = .ok c) (hc : c.OnLine) : a.OnLine ∧ b.OnLine := by
  unfold arith at h
  split at h
  · rename_i hm hn
    exact ⟨onLine_plain ⟨_, congrArg place? hm⟩, onLine_plain ⟨_, congrArg place? hn⟩⟩
  · obtain ⟨x, hx, h⟩ := Outcome.bind_eq_ok.mp h
    obtain ⟨y, hy, h⟩ := Outcome.bind_eq_ok.mp h
    cases h
    have hfinite : (rounded x y).isFinite = true := by
      obtain ⟨u, hu⟩ := hc
      rw [place?_real_finite] at hu
      cases hxy : rounded x y with
      | finite s r => rfl
      | _ =>
        rw [hxy] at hu
        cases hu
    obtain ⟨hx', hy'⟩ := hrounded x y hfinite
    exact ⟨onLine_plain (onLine_of_toReal hx hx'), onLine_plain (onLine_of_toReal hy hy')⟩

theorem onLine_of_add (h : a.add b = .ok c) (hc : c.OnLine) : a.OnLine ∧ b.OnLine :=
  onLine_of_arith Binary64.add (fun _ _ => Binary64.isFinite_of_add) h hc

theorem onLine_of_sub (h : a.sub b = .ok c) (hc : c.OnLine) : a.OnLine ∧ b.OnLine :=
  onLine_of_arith Binary64.sub (fun _ y hxy => by
    rw [← Binary64.isFinite_neg (y := y)]
    exact Binary64.isFinite_of_add hxy) h hc

theorem onLine_of_ceil {n : Int} (h : a.ceil = .ok n) : a.OnLine := by
  cases a with
  | whole n => exact ⟨_, rfl⟩
  | real x =>
    cases x with
    | finite s r => exact ⟨_, rfl⟩
    | _ => cases h
  | flag b => cases b <;> exact ⟨_, rfl⟩

/-- Whether a scalar has a place on the number line other than the given one. -/
def Off (e : Place) (a : Scalar) : Prop := ∃ p, a.place? = some p ∧ p ≠ e

theorem OnLine.off (h : a.OnLine) : a.Off .bottom ∧ a.Off .top := by
  obtain ⟨u, hu⟩ := h
  exact ⟨⟨_, hu, Place.noConfusion⟩, ⟨_, hu, Place.noConfusion⟩⟩

theorem off_bottom_of_min (h : (a.min b).Off .bottom) :
    a.Off .bottom ∧ b.place? ≠ some .bottom := by
  obtain ⟨p, hp, hbottom⟩ := h
  rw [min, lt_eq_place] at hp
  rcases ha : a.place? with _ | _ | u | _ <;> rcases hb : b.place? with _ | _ | v | _ <;>
    simp_all [Off, Place.lt]

theorem off_top_of_max (h : (a.max b).Off .top) : a.Off .top ∧ b.place? ≠ some .top := by
  obtain ⟨p, hp, htop⟩ := h
  rw [max, lt_eq_place] at hp
  rcases ha : a.place? with _ | _ | u | _ <;> rcases hb : b.place? with _ | _ | v | _ <;>
    simp_all [Off, Place.lt]

theorem off_of_fold {choose : Scalar → Scalar → Scalar} {e : Place}
    (hchoose : ∀ {a b}, (choose a b).Off e → a.Off e ∧ b.place? ≠ some e)
    (h : (rest.foldl choose a).Off e) : a.Off e ∧ ∀ b ∈ rest, b.place? ≠ some e := by
  -- By induction on the numbers: what the chosen one is off, no number is at.
  induction rest generalizing a with
  | nil => exact ⟨h, fun b hb => by cases hb⟩
  | cons b rest ih =>
    obtain ⟨hab, hrest⟩ := ih h
    obtain ⟨ha, hb⟩ := hchoose hab
    exact ⟨ha, List.forall_mem_cons.mpr ⟨hb, hrest⟩⟩

theorem ne_of_fold {choose : Scalar → Scalar → Scalar} {e : Place}
    (hchoose : ∀ {a b}, (choose a b).Off e → a.Off e ∧ b.place? ≠ some e)
    (h : (rest.foldl choose a).Off e) : ∀ b ∈ a :: rest, b.place? ≠ some e := by
  obtain ⟨⟨p, hp, hne⟩, hrest⟩ := off_of_fold hchoose h
  refine List.forall_mem_cons.mpr ⟨fun ha => hne ?_, hrest⟩
  rw [ha, Option.some.injEq] at hp
  exact hp.symm

theorem ne_bottom_of_minimum (h : (a.minimum rest).OnLine) :
    ∀ b ∈ a :: rest, b.place? ≠ some .bottom :=
  ne_of_fold off_bottom_of_min h.off.1

theorem ne_top_of_maximum (h : (a.maximum rest).OnLine) :
    ∀ b ∈ a :: rest, b.place? ≠ some .top :=
  ne_of_fold off_top_of_max h.off.2

end Scalar

/-! ## Bounds -/

/-- Bounds that do not reach to an infinity. -/
structure Bounds.Bounded (b : Bounds) : Prop where
  left : b.x.place? ≠ some .bottom
  top : b.y.place? ≠ some .bottom
  right : ∃ r, b.right = .ok r ∧ r.place? ≠ some .top
  bottom : ∃ r, b.bottom = .ok r ∧ r.place? ≠ some .top

namespace Viewport
open Scalar (real place?)
variable {shapes : List Shape} {padding : Scalar} {v : Viewport}

theorem length_onLine {least low high n : Scalar} (h : length least low high padding = .ok n) :
    low.OnLine ∧ high.OnLine := by
  simp only [length, Outcome.bind_eq_ok] at h
  obtain ⟨extent, hextent, both, -, padded, hpadded, n, hn, -⟩ := h
  have hon := (Scalar.onLine_of_add hpadded (Scalar.onLine_of_ceil hn)).1
  exact (Scalar.onLine_of_sub hextent hon).symm

/-- The greatest of the far edges of some bounds is no infinity only where no far edge is. -/
theorem ne_top_of_edges {edge : Bounds → Except Fault Scalar} {b : Bounds} {bs : List Bounds}
    {first : Scalar} {others : List Scalar} (hfirst : edge b = .ok first)
    (hothers : bs.mapM edge = .ok others) (h : (Scalar.maximum first others).OnLine) :
    ∀ c ∈ b :: bs, ∃ r, edge c = .ok r ∧ r.place? ≠ some .top := by
  have htop := Scalar.ne_top_of_maximum h
  intro c hc
  rcases List.mem_cons.mp hc with rfl | hc
  · exact ⟨first, hfirst, htop first List.mem_cons_self⟩
  · obtain ⟨r, hr, hedge⟩ :=
      Outcome.exists_of_forall₂ (Outcome.forall₂_of_mapM_ok hothers) hc
    exact ⟨r, hedge, htop r (List.mem_cons_of_mem first hr)⟩

/-- Shapes that have a viewport have bounds that do not reach to an infinity. -/
theorem ofShapes_bounded (h : ofShapes shapes padding = .ok v) {s : Shape} (hs : s ∈ shapes) :
    ∃ b, s.bounds = .ok b ∧ b.Bounded := by
  simp only [ofShapes, extent?, Outcome.bind_eq_ok] at h
  obtain ⟨e, ⟨bounds, hbounds, he⟩, h⟩ := h
  obtain ⟨b, hmem, hb⟩ := Outcome.exists_of_forall₂ (Outcome.forall₂_of_mapM_ok hbounds) hs
  refine ⟨b, hb, ?_⟩
  cases bounds with
  | nil => cases hmem
  | cons c cs =>
    obtain ⟨extent, hextent, rfl⟩ := Outcome.map_eq_ok.mp he
    simp only [union, Outcome.bind_eq_ok] at hextent
    obtain ⟨first, hfirst, others, hothers, lowest, hlowest, lowests, hlowests, heq⟩ := hextent
    cases heq
    simp only [around, Outcome.bind_eq_ok] at h
    obtain ⟨x, -, y, -, w, hw, height, hheight, -⟩ := h
    obtain ⟨hleft, hright⟩ := length_onLine hw
    obtain ⟨htop, hbottom⟩ := length_onLine hheight
    refine ⟨?_, ?_, ne_top_of_edges hfirst hothers hright b hmem,
      ne_top_of_edges hlowest hlowests hbottom b hmem⟩
    · exact Scalar.ne_bottom_of_minimum hleft b.x (List.mem_map_of_mem (f := Bounds.x) hmem)
    · exact Scalar.ne_bottom_of_minimum htop b.y (List.mem_map_of_mem (f := Bounds.y) hmem)

theorem absoluteOrPlace_of_absolute? {s : Shape} {offset : Option Point} {a : Point}
    (h : s.absolute? offset = .ok (some a)) : s.absoluteOrPlace offset = .ok a := by
  cases offset with
  | none => cases h
  | some p =>
    obtain ⟨b, hb, hab⟩ := Outcome.map_eq_ok.mp h
    cases hab
    exact hb

theorem not_sameInfinity {a b d r : Scalar} (hd : b.sub a = .ok d)
    (hr : (a.min b).add (Scalar.max 1 d.abs) = .ok r) (hlow : (a.min b).place? ≠ some .bottom)
    (hhigh : r.place? ≠ some .top) : ¬ a.SameInfinity b := by
  rintro ⟨s, rfl, rfl⟩
  cases s with
  | true => exact hlow rfl
  | false =>
    -- The difference is no number, so the span is only 1 long and ends where it starts.
    cases hd
    have hfar : (real (.infinite false)).add 1 = .ok (real (.infinite false)) := by
      decide +kernel
    have heq : (real (.infinite false)).add 1 = .ok r := hr
    rw [hfar, Except.ok.injEq] at heq
    exact hhigh (congrArg place? heq.symm)

/-- Both ends of a connector in a viewport never lie at the same infinity. -/
theorem ends_apart (h : ofShapes shapes padding = .ok v) {s : Shape} (hs : s ∈ shapes)
    (hkind : s.kind = .known .connector) {a b : Point} (ha : s.absolute? s.start = .ok (some a))
    (hb : s.absolute? s.finish = .ok (some b)) :
    ¬ a.x.SameInfinity b.x ∧ ¬ a.y.SameInfinity b.y := by
  obtain ⟨box, hbox, hbounded⟩ := ofShapes_bounded h hs
  simp only [Shape.bounds, hkind, absoluteOrPlace_of_absolute? ha,
    absoluteOrPlace_of_absolute? hb, Shape.span, Outcome.bind_eq_ok, Except.ok.injEq,
    exists_eq_left'] at hbox
  obtain ⟨dx, hdx, dy, hdy, rfl⟩ := hbox
  obtain ⟨hleft, htop, ⟨right, hright, hx⟩, ⟨bottom, hbottom, hy⟩⟩ := hbounded
  exact ⟨not_sameInfinity hdx hright hleft hx, not_sameInfinity hdy hbottom htop hy⟩

end Viewport

end DiagramScript
