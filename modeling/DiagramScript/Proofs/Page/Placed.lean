import DiagramScript.Proofs.Page.Integral
import DiagramScript.Proofs.Page.Succession

/-
  Shapes without a place.

  A shape whose instruction names no place goes to the left edge, 40 below the lowest of the bounds
  of all shapes that are there by then (`newPosition_below`). Where all these bounds are integers
  nothing of this is rounded, so by induction on the instructions of a batch no such shape overlaps
  anything that was on the page before it (`apply_placed`).
-/

namespace DiagramScript

/-- A shape with integers as its bounds. -/
def Shape.HasIntegerBounds (i : Integers) (s : Shape) : Prop :=
  ∃ b r, s.bounds = .ok b ∧ b.HasEdges i Integers.boundsLimit r

theorem Shape.HasIntegers.hasIntegerBounds {i : Integers} {s : Shape} (h : s.HasIntegers i) :
    s.HasIntegerBounds i := by
  obtain ⟨b, hb, r, hr, -⟩ := h.bounds.exists_ok
  exact ⟨b, r, hb, hr⟩

/-- A shape that lies at the left edge and 40 below all earlier ones, the first one at the top. -/
structure Shape.LiesBelow (earlier : List Shape) (s : Shape) : Prop where
  left : s.x = .whole 0
  first : earlier = [] → s.y = .whole 0
  next : earlier ≠ [] → ∃ m, IsGreatest {n | ∃ t ∈ earlier, ∃ r, t.Fills r ∧ r.bottom = n} m ∧
    s.y = .whole (m + 40)
  apart : ∀ t ∈ earlier, ∃ r r', t.Fills r ∧ s.Fills r' ∧ r.bottom + 40 ≤ r'.top

/-- A complaint about an id that is taken, or about a connector that is to be a box. -/
def RefusesShape (e : Fault) : Prop :=
  Repeats e ∨ ∃ line, e = ParseProblem.arrowHasNoBox.on line

namespace Page
variable {i : Integers} {c d : ℤ} {p q : Page} {j : ShapeInstruction}

/-! ## Lower edges -/

/-- A shape with a rectangle whose lower edge is an integer that is computed with. -/
structure Stands (i : Integers) (c : ℤ) (s : Shape) (r : Rect) : Prop where
  fills : s.Fills r
  bottom : ∃ e, s.bottom = .ok e ∧ e.IsInteger i c r.bottom

theorem Stands.allow {s : Shape} {r : Rect} (h : Stands i c s r) (hcd : i = .bounded → c ≤ d) :
    Stands i d s r := by
  obtain ⟨e, he, hinteger⟩ := h.bottom
  exact ⟨h.fills, e, he, hinteger.allow fun hi => (hinteger.allows hi).trans (hcd hi)⟩

theorem exists_stands {s : Shape} (h : s.HasIntegerBounds i) :
    ∃ r, Stands i Integers.boundsLimit s r := by
  obtain ⟨b, r, hb, hr⟩ := h
  obtain ⟨e, he, hinteger⟩ := (hr.bottom_gives (by decide)).exists_ok
  refine ⟨r, ⟨b, hb, hr.isRect⟩, e, ?_, hinteger⟩
  rw [Shape.bottom, hb]
  exact he

theorem stands_of_sides {s : Shape} {x y w h l : ℤ} (hkind : s.kind ≠ .known .connector)
    (hx : s.x.At x) (hy : s.y.IsInteger i c y) (hw : s.w.IsInteger i Integers.limit w)
    (hh : s.h.IsInteger i Integers.limit h) (hl : s.lines.IsInteger i Integers.limit l)
    (hc : c + Integers.limit < 2 ^ 50) :
    ∃ r, r.top = y ∧ Stands i (c + Integers.limit) s r := by
  obtain ⟨a, b, m, n, hbounds, ham, hbn, -⟩ := Shape.bounds_of_sides hkind hw hh hl (by decide)
  obtain ⟨e, he, hinteger⟩ := (hy.add hbn hc).exists_ok
  refine ⟨⟨x, y, x + m, y + n⟩, rfl, ⟨_, hbounds, hx, hy.value, ?_, ?_⟩, e, ?_, hinteger⟩
  · rw [add_sub_cancel_left]
    exact ham.value
  · rw [add_sub_cancel_left]
    exact hbn.value
  · rw [Shape.bottom, hbounds]
    exact he

/-- A place at the left edge and 40 below some shapes, at the top if there are none. -/
structure IsBelow (i : Integers) (c : ℤ) (shapes : List Shape) (place : Point) : Prop where
  left : place.x = .whole 0
  first : shapes = [] → place.y = .whole 0
  next : shapes ≠ [] → ∃ m, IsGreatest {n | ∃ t ∈ shapes, ∃ r, t.Fills r ∧ r.bottom = n} m ∧
    place.y = .whole (m + 40) ∧ i.Allows c m

theorem bottoms_eq {shapes : List Shape} {rs : List Rect}
    (hrs : List.Forall₂ (Stands i c) shapes rs) :
    {n | ∃ t ∈ shapes, ∃ r, t.Fills r ∧ r.bottom = n} = {n | n ∈ rs.map (·.bottom)} := by
  ext n
  simp only [Set.mem_ofPred_eq, List.mem_map]
  constructor
  · intro hn
    obtain ⟨t, ht, u, hu, rfl⟩ := hn
    obtain ⟨u', hu', hstands⟩ := Outcome.exists_of_forall₂ hrs ht
    exact ⟨u', hu', by rw [hstands.fills.unique hu]⟩
  · intro hn
    obtain ⟨u, hu, rfl⟩ := hn
    obtain ⟨t, ht, hstands⟩ := Outcome.exists_of_forall₂ hrs.flip hu
    exact ⟨t, ht, u, hstands.fills, rfl⟩

theorem placeBelow_isBelow {shapes : List Shape} {rs : List Rect}
    (hrs : List.Forall₂ (Stands i c) shapes rs) (hc : c + 40 < 2 ^ 50) :
    Gives (IsBelow i c shapes) (shapes.mapM Shape.bottom >>= Bounds.placeBelow) := by
  have hbottoms : List.Forall₂ (fun s n => Gives (Scalar.IsInteger i c · n) s.bottom) shapes
      (rs.map (·.bottom)) := by
    rw [List.forall₂_map_right_iff]
    refine hrs.imp fun s r hsr => ?_
    obtain ⟨e, he, hinteger⟩ := hsr.bottom
    rw [he]
    exact .ok hinteger
  refine (Settles.mapM_of_forall₂ hbottoms).bind fun bottoms hvalues => ?_
  have hset := bottoms_eq hrs
  cases hrs with
  | nil =>
    obtain rfl := List.forall₂_nil_right_iff.mp hvalues
    exact .ok ⟨rfl, fun _ => rfl, fun hne => absurd rfl hne⟩
  | @cons s r shapes rs =>
    obtain ⟨e, es, he, hes, rfl⟩ := List.forall₂_cons_right_iff.mp hvalues
    have hgap : Bounds.placementGap.IsInteger i 40 40 := Scalar.isInteger_whole fun _ => by decide
    -- The greatest lower edge is an integer, so rounding the place up changes nothing.
    have hmax : (Scalar.maximum e es).IsInteger i c ((rs.map (·.bottom)).foldl max r.bottom) :=
      Scalar.IsInteger.foldl Scalar.IsInteger.max he hes
    obtain ⟨y, hy, hinteger⟩ := (hmax.add hgap hc).exists_ok
    have hplaced : Bounds.placeBelow (e :: es) =
        .ok ⟨0, .whole ((rs.map (·.bottom)).foldl max r.bottom + 40)⟩ := by
      simp only [Bounds.placeBelow, hy, hinteger.ceil, Outcome.bind_eq_ok, Except.ok.injEq,
        exists_eq_left']
    rw [hplaced]
    refine .ok ⟨rfl, fun hnil => (List.cons_ne_nil _ _ hnil).elim, fun _ => ?_⟩
    refine ⟨_, ?_, rfl, hmax.allows⟩
    rw [hset]
    exact isGreatest_foldl_max r.bottom (rs.map (·.bottom))

/-! ## Instructions -/

/-- Where a new shape goes on a page whose lower edges are integers. -/
theorem newPosition_gives (hp : ∀ s ∈ p.shapes, ∃ r, Stands i c s r) (hj : j.HasIntegers i)
    (hc : c + 40 < 2 ^ 50) (hlimit : i = .bounded → Integers.limit ≤ c) :
    Gives (fun place => (∃ x y, place.x.At (x : ℤ) ∧ place.y.IsInteger i (c + 40) y) ∧
      (j.position = none → IsBelow i c p.shapes place)) (p.newPosition j) := by
  unfold newPosition
  cases hplace : j.position with
  | some place =>
    obtain ⟨⟨x, hx⟩, ⟨y, hy⟩⟩ := hj.place place hplace
    refine .ok ⟨⟨x, y, hx.value, hy.allow fun hi => ?_⟩, nofun⟩
    have := hy.allows hi
    have := hlimit hi
    omega
  | none =>
    obtain ⟨rs, hrs⟩ := Outcome.exists_forall₂ hp
    refine (placeBelow_isBelow hrs hc).imp fun place hbelow => ⟨?_, fun _ => hbelow⟩
    have hx : place.x.At (0 : ℤ) := by
      rw [hbelow.left]
      exact Scalar.whole_at 0
    by_cases hnil : p.shapes = []
    · refine ⟨0, 0, hx, ?_⟩
      rw [hbelow.first hnil]
      refine Scalar.isInteger_whole fun hi => ?_
      have := hlimit hi
      rw [Integers.limit] at this
      rw [abs_zero]
      omega
    · obtain ⟨m, -, hy, hallows⟩ := hbelow.next hnil
      refine ⟨0, m + 40, hx, ?_⟩
      rw [hy]
      exact Scalar.isInteger_whole (hallows.add fun _ => by decide)

theorem newShape_placed (hp : ∀ s ∈ p.shapes, ∃ r, Stands i c s r) (hj : j.HasIntegers i)
    (hc : c ≤ 2 ^ 49) (hlimit : i = .bounded → Integers.limit ≤ c)
    (hd : i = .bounded → c + 2 ^ 33 ≤ d) :
    Settles RefusesShape (fun s => (∃ r, Stands i d s r) ∧
      (j.position = none → s.LiesBelow p.shapes)) (p.newShape j) := by
  refine (newPosition_gives hp hj (by omega) hlimit).of_gives.bind fun place hplace => ?_
  obtain ⟨⟨x, y, hx, hy⟩, hbelow⟩ := hplace
  by_cases hconnector : j.kind = .connector
  · rw [Block.sizeOf, if_pos hconnector]
    exact .error (.inr ⟨j.line, rfl⟩)
  refine (Block.sizeOf_isIntegral hj hconnector).of_gives.bind fun size hsize => ?_
  refine ((p.newId_repeats j.id j.line).mono (fun _ he => .inl he) fun _ hid => hid).bind
    fun id _ => .ok ?_
  show (∃ r, Stands i d (j.shapeAt id place size) r) ∧ (_ → (j.shapeAt id place size).LiesBelow _)
  obtain ⟨⟨w, hw⟩, ⟨n, hn⟩⟩ := hsize
  obtain ⟨l, -, hl⟩ := hj.lines id place size
  have hkind : (j.shapeAt id place size).kind ≠ .known .connector :=
    fun heq => hconnector (ShapeKind.known.inj heq)
  -- The sides of the shape are integers, and so is its lower edge.
  obtain ⟨r, htop, hr⟩ := stands_of_sides hkind hx hy hw hn hl (by rw [Integers.limit]; omega)
  refine ⟨⟨r, hr.allow fun hi => ?_⟩, fun hnone => ?_⟩
  · have := hd hi
    rw [Integers.limit]
    omega
  · have hplace := hbelow hnone
    refine ⟨hplace.left, hplace.first, fun hne => ?_, fun t ht => ?_⟩
    · obtain ⟨m, hm, hym, -⟩ := hplace.next hne
      exact ⟨m, hm, hym⟩
    · obtain ⟨m, hm, hym, -⟩ := hplace.next (List.ne_nil_of_mem ht)
      obtain ⟨u, hu⟩ := hp t ht
      have hle : u.bottom ≤ m := hm.2 ⟨t, ht, u, hu.fills, rfl⟩
      have hy' : y = m + 40 := by
        have hvalue := hy.value
        rw [hym] at hvalue
        exact_mod_cast hvalue.unique (Scalar.whole_at (m + 40))
      exact ⟨u, r, hu.fills, hr.fills, by omega⟩

/-! ## Batches -/

/-- Each shape without a place of its own lies below all that were there before it. -/
def PlacesBelow (earlier : List Shape) (is : List ShapeInstruction) (news : List Shape) : Prop :=
  ∀ (k : ℕ) (j : ShapeInstruction), is[k]? = some j → j.position = none →
    ∃ s : Shape, news[k]? = some s ∧ s.LiesBelow (earlier ++ news.take k)

theorem PlacesBelow.cons {earlier news : List Shape} {is : List ShapeInstruction} {s : Shape}
    (hs : j.position = none → s.LiesBelow earlier)
    (h : PlacesBelow (earlier ++ [s]) is news) : PlacesBelow earlier (j :: is) (s :: news) := by
  intro k j' hk hplace
  cases k with
  | zero =>
    rw [List.getElem?_cons_zero, Option.some.injEq] at hk
    rw [← hk] at hplace
    refine ⟨s, rfl, ?_⟩
    rw [List.take_zero, List.append_nil]
    exact hs hplace
  | succ k =>
    obtain ⟨t, ht, hbelow⟩ := h k j' hk hplace
    refine ⟨t, ht, ?_⟩
    rwa [List.append_assoc, List.singleton_append] at hbelow

theorem createAll_placed {padding : Scalar} {is : List ShapeInstruction}
    (hp : ∀ s ∈ p.shapes, ∃ r, Stands i c s r) (his : ∀ j ∈ is, j.HasIntegers i) (hc : c ≤ 2 ^ 49)
    (hroom : i = .bounded → Integers.limit ≤ c ∧ c + is.length * 2 ^ 33 ≤ 2 ^ 49) :
    Settles RefusesShape (fun r => ∃ news, r.2 = news.map (·.id) ∧
        r.1.shapes = p.shapes ++ news ∧ news.length = is.length ∧ PlacesBelow p.shapes is news)
      (createAll padding p (is.map .shape)).result := by
  -- By induction on the instructions: lower edges stay integers, and each instruction moves them
  -- down by its own size and a gap at most.
  induction is generalizing p c with
  | nil => exact .ok ⟨[], rfl, (List.append_nil _).symm, rfl, fun k j hj => by simp at hj⟩
  | cons j is ih =>
    obtain ⟨hj, his⟩ := List.forall_mem_cons.mp his
    -- Exact integers keep within any bound, so theirs is cut off where bounded ones have to stop.
    let d : ℤ := min (c + 2 ^ 33) (2 ^ 49)
    have hd (hi : i = .bounded) : c + 2 ^ 33 ≤ d ∧ d + is.length * 2 ^ 33 ≤ 2 ^ 49 := by
      have hall := (hroom hi).2
      rw [List.length_cons, Nat.cast_succ] at hall
      omega
    simp only [List.map_cons, createAll, create, createShape, Report.result_bind,
      Report.result_liftM, Report.result_tell, Report.result_pure, bind_assoc]
    refine (newShape_placed hp hj hc (fun hi => (hroom hi).1) fun hi => (hd hi).1).bind
      fun s hs => ?_
    refine ((p.add_repeats s).mono (fun _ he => .inl he) fun _ hq => hq).bind fun q hq => ?_
    have hstands : ∀ t ∈ q.shapes, ∃ r, Stands i d t r := by
      rw [hq]
      refine List.forall_mem_append.mpr ⟨fun t ht => ?_, List.forall_mem_singleton.mpr hs.1⟩
      obtain ⟨r, hr⟩ := hp t ht
      exact ⟨r, hr.allow fun hi => by have := (hd hi).1; omega⟩
    have hnext : i = .bounded → Integers.limit ≤ d ∧ d + is.length * 2 ^ 33 ≤ 2 ^ 49 := by
      intro hi
      obtain ⟨hle, hall⟩ := hd hi
      have := (hroom hi).1
      exact ⟨by omega, hall⟩
    refine (ih hstands his (min_le_right _ _) hnext).bind fun r hr => .ok ?_
    obtain ⟨news, hids, hshapes, hlength, hbelow⟩ := hr
    rw [hq] at hshapes hbelow
    refine ⟨s :: news, ?_, ?_, ?_, hbelow.cons hs.2⟩
    · rw [hids, List.map_cons]
    · rw [hshapes, List.append_assoc, List.singleton_append]
    · rw [List.length_cons, hlength, List.length_cons]

/-- A shape without a place of its own lies below all shapes that were on the page or were created
before it, unless the batch is refused for an id that is taken or a connector without ends. Whole
numbers may have any size and the batch any length; with floating-point numbers among them, bounds
on the page are at most `2 ^ 36` in size, coordinates and lengths of the batch at most `2 ^ 32`, and
it has at most `2 ^ 14` instructions with at most `2 ^ 20` characters of text each. -/
theorem apply_placed (hp : p.Frameless) (hint : ∀ s ∈ p.shapes, s.HasIntegerBounds i)
    {is : List ShapeInstruction} (his : ∀ j ∈ is, j.kind ≠ .frame ∧ j.HasIntegers i)
    (hlength : i = .bounded → is.length ≤ 2 ^ 14) (padding : Scalar) :
    Settles RefusesShape (fun r => ∃ news, r.2 = news.map (·.id) ∧
        r.1.shapes = p.shapes ++ news ∧ news.length = is.length ∧ PlacesBelow p.shapes is news)
      (p.apply padding (is.map .shape)).result := by
  have hframe : ∀ k ∈ is.map Instruction.shape, k.kind ≠ .frame := by
    rw [List.forall_mem_map]
    exact fun j hj => (his j hj).1
  rw [apply_of_frameless hp hframe]
  refine createAll_placed (p := p.copy) (fun s hs => exists_stands (hint s hs))
    (fun j hj => (his j hj).2) (by decide) fun hi => ⟨by decide, ?_⟩
  have hle : (is.length : ℤ) ≤ 2 ^ 14 := by exact_mod_cast hlength hi
  rw [Integers.boundsLimit]
  omega

/-- A box at a place and then a note and a text without one, on a page with a text of two lines, a
connector and a shape of a foreign kind. -/
theorem apply_placed_mixed :
    let real (n : Nat) : Scalar := .real (.ofDecimal false n 0)
    let p : Page :=
      { layers := [
          ⟨0, { id := "shape:text", kind := .known .text, y := 600, label := "one\ntwo" }⟩,
          ⟨1, { id := "shape:arrow", kind := .known .connector, x := .whole (-50)
                y := .whole (-30), start := some ⟨0, 0⟩, finish := some ⟨20, real 90⟩ }⟩,
          ⟨2, { id := "shape:star", kind := .foreign "star", y := real 400, h := 900 }⟩]
        ids := ["shape:text", "shape:arrow", "shape:star"] }
    let is : List ShapeInstruction := [
      { kind := .rectangle, position := some ⟨real 70, real 10⟩, size := some ⟨real 50, 1000⟩ },
      { kind := .note }, { kind := .text, content := some "three\nfour\nfive" }]
    p.Frameless ∧ (∀ s ∈ p.shapes, s.HasIntegerBounds .bounded) ∧
      (∀ j ∈ is, j.kind ≠ .frame ∧ j.HasIntegers .bounded) ∧
        ∃ q box note text, (p.apply 8 (is.map .shape)).result =
            .ok (q, ["shape:4", "shape:5", "shape:6"]) ∧ q.shapes = p.shapes ++ [box, note, text] ∧
          note.LiesBelow (p.shapes ++ [box]) ∧ text.LiesBelow (p.shapes ++ [box, note]) ∧
            note.Fills ⟨0, 1050, 220, 1230⟩ ∧ text.Fills ⟨0, 1270, 280, 1354⟩ := by
  intro real p is
  have hp : p.Frameless := by
    have hcheck : ∀ s ∈ p.shapes, isFrame s = false := by decide +kernel
    exact hcheck
  have hint : ∀ s ∈ p.shapes, s.HasIntegerBounds .bounded := by
    have hcheck : ∀ s ∈ p.shapes, s.isIntegral .bounded = true := by decide +kernel
    exact fun s hs => (Shape.isIntegral_of_check (hcheck s hs)).hasIntegers.hasIntegerBounds
  have his : ∀ j ∈ is, j.kind ≠ .frame ∧ j.HasIntegers .bounded := by
    have hcheck : ∀ j ∈ is, j.kind ≠ .frame ∧ j.hasIntegers .bounded = true := by decide +kernel
    exact fun j hj => ⟨(hcheck j hj).1, ShapeInstruction.hasIntegers_of_check (hcheck j hj).2⟩
  obtain ⟨⟨q, ids⟩, hq, hcheck⟩ := Outcome.exists_of_any (x := (p.apply 8 (is.map .shape)).result)
    (p := fun r => r.2 == ["shape:4", "shape:5", "shape:6"] &&
      (r.1.shapes[4]?.any (·.hasBounds 0 1050 220 180) &&
        r.1.shapes[5]?.any (·.hasBounds 0 1270 280 84))) (by decide +kernel)
  simp only [Bool.and_eq_true, beq_iff_eq] at hcheck
  obtain ⟨rfl, hnotebox, htextbox⟩ := hcheck
  obtain ⟨news, -, hshapes, hlength, hbelow⟩ :=
    (apply_placed hp hint his (fun _ => by decide) 8).of_ok hq
  obtain ⟨box, note, text, rfl⟩ := List.length_eq_three.mp hlength
  obtain ⟨note', hnote', hnote⟩ := hbelow 1 _ rfl rfl
  obtain ⟨text', htext', htext⟩ := hbelow 2 _ rfl rfl
  obtain rfl := Option.some.inj hnote'
  obtain rfl := Option.some.inj htext'
  have hshapes : q.shapes = p.shapes ++ [box, note, text] := hshapes
  rw [hshapes] at hnotebox htextbox
  exact ⟨hp, hint, his, q, box, note, text, hq, hshapes, hnote, htext,
    Shape.fills_of_hasBounds (r := ⟨0, 1050, 220, 1230⟩) hnotebox,
    Shape.fills_of_hasBounds (r := ⟨0, 1270, 280, 1354⟩) htextbox⟩

end Page

end DiagramScript
