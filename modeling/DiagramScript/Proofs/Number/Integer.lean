import Mathlib.Order.Bounds.Basic
import DiagramScript.Proofs.Number.Exact

/-
  Integers.

  Arithmetic on integers does not round in two cases: where all of them are whole numbers, of any
  size, or where each of them is a whole number or a floating-point number without a fraction and
  none of them is large. A theorem about integers speaks of either case (`Integers`), and a scalar
  that is an integer has the value of one (`IsInteger`). In the second case a bound comes with each
  value; an operation gives the bound of its result, and fails in neither case.
-/

namespace DiagramScript

/-- The integers that are computed with. A theorem that lets either case be taken has no limit of
size for whole numbers; its limits are for the numbers of a page that has floating-point numbers
among them. -/
inductive Integers where
  /-- Whole numbers of any size. -/
  | exact
  /-- Whole numbers and floating-point numbers, none of them past a limit so far below `2 ^ 53`
  that what is computed with them is exact. -/
  | bounded
  deriving DecidableEq

/-- Whether an integer is of at most the given size, where sizes matter. -/
def Integers.Allows (i : Integers) (c n : ℤ) : Prop := i = .bounded → |n| ≤ c

namespace Integers.Allows
variable {i : Integers} {c d m n : ℤ}

theorem mono (h : i.Allows c n) (hcd : c ≤ d) : i.Allows d n := fun hi => (h hi).trans hcd

theorem add (hm : i.Allows c m) (hn : i.Allows d n) : i.Allows (c + d) (m + n) :=
  fun hi => (abs_add_le m n).trans (add_le_add (hm hi) (hn hi))

theorem sub (hm : i.Allows c m) (hn : i.Allows d n) : i.Allows (c + d) (m - n) :=
  fun hi => (abs_sub m n).trans (add_le_add (hm hi) (hn hi))

theorem max (hm : i.Allows c m) (hn : i.Allows c n) : i.Allows c (max m n) := by
  rcases max_choice m n with h | h
  · rwa [h]
  · rwa [h]

theorem min (hm : i.Allows c m) (hn : i.Allows c n) : i.Allows c (min m n) := by
  rcases min_choice m n with h | h
  · rwa [h]
  · rwa [h]

end Integers.Allows

/-- The greatest of some integers. -/
theorem isGreatest_foldl_max (m : ℤ) (ns : List ℤ) :
    IsGreatest {n | n ∈ m :: ns} (ns.foldl max m) := by
  induction ns generalizing m with
  | nil => simp
  | cons n ns ih =>
    obtain ⟨hmem, hle⟩ := ih (max m n)
    rw [mem_upperBounds] at hle
    constructor
    · rcases List.mem_cons.mp hmem with heq | hmem
      · rw [List.foldl_cons, heq]
        rcases max_choice m n with h | h
        · simp [h]
        · simp [h]
      · exact List.mem_cons_of_mem m (List.mem_cons_of_mem n hmem)
    · rw [mem_upperBounds]
      intro k hk
      have hmax := hle (max m n) List.mem_cons_self
      rcases List.mem_cons.mp hk with rfl | hk
      · exact (le_max_left _ n).trans hmax
      rcases List.mem_cons.mp hk with rfl | hk
      · exact (le_max_right m _).trans hmax
      · exact hle k (List.mem_cons_of_mem _ hk)

namespace Scalar

/-! ## Order -/

section Order
variable {a b c : Scalar} {v : ℚ}

theorem Place.lt_trans {p q r : Place} (h : p.lt q = true) (h' : q.lt r = true) :
    p.lt r = true := by
  cases p <;> cases q <;> cases r <;> simp [Place.lt] at *
  omega

theorem le_iff_place : a.le b = true ↔
    ∃ p q, a.place? = some p ∧ b.place? = some q ∧ (p.lt q = true ∨ p = q) := by
  rw [le, lt_eq_place, same_eq]
  cases a.place? with
  | none => simp
  | some p =>
    cases b.place? with
    | none => simp
    | some q => simp

theorem le_chain (h : a.le b = true) (h' : b.le c = true) : a.le c = true := by
  obtain ⟨p, q, ha, hb, hpq⟩ := le_iff_place.mp h
  obtain ⟨q', r, hb', hc, hqr⟩ := le_iff_place.mp h'
  obtain rfl : q = q' := Option.some.inj (hb.symm.trans hb')
  refine le_iff_place.mpr ⟨p, r, ha, hc, ?_⟩
  rcases hpq with hpq | rfl
  · rcases hqr with hqr | rfl
    · exact .inl (Place.lt_trans hpq hqr)
    · exact .inl hpq
  · exact hqr

/-- Scalars of one value compare alike with any other scalar. -/
theorem At.le_congr (ha : a.At v) (hb : b.At v) (c : Scalar) :
    a.le c = b.le c ∧ c.le a = c.le b := by
  have hab := (le_at ha hb).mpr le_rfl
  have hba := (le_at hb ha).mpr le_rfl
  constructor
  · exact Bool.eq_iff_iff.mpr ⟨le_chain hba, le_chain hab⟩
  · exact Bool.eq_iff_iff.mpr ⟨fun h => le_chain h hab, fun h => le_chain h hba⟩

end Order

/-! ## Scalars that are integers -/

variable {i : Integers} {a b : Scalar} {c d m n : ℤ}

/-- A scalar with the value of an integer, which comes with a bound. -/
structure IsInteger (i : Integers) (c : ℤ) (a : Scalar) (n : ℤ) : Prop where
  value : a.At n
  whole : i = .exact → a = .whole n
  allows : i.Allows c n

theorem isInteger_whole (h : i.Allows c n) : (Scalar.whole n).IsInteger i c n :=
  ⟨whole_at n, fun _ => rfl, h⟩

namespace IsInteger

theorem allow (ha : a.IsInteger i c n) (h : i.Allows d n) : a.IsInteger i d n :=
  ⟨ha.value, ha.whole, h⟩

theorem mono (ha : a.IsInteger i c n) (h : c ≤ d) : a.IsInteger i d n := ha.allow (ha.allows.mono h)

theorem isWhole (ha : a.IsInteger .bounded c n) : a.IsWhole c := ⟨n, ha.value, ha.allows rfl⟩

theorem unique (ha : a.IsInteger i c m) (ha' : a.IsInteger i d n) : m = n := by
  exact_mod_cast ha.value.unique ha'.value

/-! ## Sums, differences and products -/

theorem add (ha : a.IsInteger i c m) (hb : b.IsInteger i d n) (h : c + d < 2 ^ 50) :
    Gives (IsInteger i (c + d) · (m + n)) (a.add b) := by
  have hallows := ha.allows.add hb.allows
  cases i with
  | exact =>
    rw [ha.whole rfl, hb.whole rfl, add_whole]
    exact .ok (isInteger_whole hallows)
  | bounded =>
    obtain ⟨s, v, w, hs, hv, hw, hsum⟩ := ha.isWhole.addsExactly hb.isWhole h
    rw [hs]
    refine .ok ⟨?_, nofun, hallows⟩
    rw [hv.unique ha.value, hw.unique hb.value] at hsum
    exact_mod_cast hsum

/-- Whole numbers of any size are added, others where there is room for the sum. -/
theorem add_of_room (ha : a.IsInteger i c m) (hb : b.IsInteger i d n)
    (hroom : i = .bounded → c + d < 2 ^ 50) : Gives (IsInteger i (c + d) · (m + n)) (a.add b) := by
  cases i with
  | exact =>
    rw [ha.whole rfl, hb.whole rfl, add_whole]
    exact .ok (isInteger_whole (ha.allows.add hb.allows))
  | bounded => exact ha.add hb (hroom rfl)

theorem sub (ha : a.IsInteger i c m) (hb : b.IsInteger i d n) (h : c + d < 2 ^ 50) :
    Gives (IsInteger i (c + d) · (m - n)) (a.sub b) := by
  have hallows := ha.allows.sub hb.allows
  cases i with
  | exact =>
    rw [ha.whole rfl, hb.whole rfl, sub_whole]
    exact .ok (isInteger_whole hallows)
  | bounded =>
    obtain ⟨s, v, w, hs, hv, hw, hdiff⟩ := ha.isWhole.subsExactly hb.isWhole h
    rw [hs]
    refine .ok ⟨?_, nofun, hallows⟩
    rw [hv.unique ha.value, hw.unique hb.value] at hdiff
    exact_mod_cast hdiff

/-- A number near a small integer that has no fraction is this integer. -/
theorem eq_of_share {z : ℚ} (hle : |n| ≤ 2 ^ 50) (hnear : |z - n| ≤ |(n : ℚ)| / 2 ^ 53)
    (hgrid : ∀ k ≤ 1074, OnGrid k (n : ℚ) → OnGrid k z) : z = n := by
  refine eq_of_near (hnear.trans_lt ?_) (hgrid 0 (by norm_num) (OnGrid.intCast 0 n))
  have hsize : |(n : ℚ)| ≤ 2 ^ 50 := by exact_mod_cast hle
  rw [div_lt_one (by positivity)]
  exact hsize.trans_lt (by norm_num)

theorem mul (ha : a.IsInteger i c m) (hb : b.IsInteger i d n) (hc : c ≤ 2 ^ 50) (hd : d ≤ 2 ^ 50)
    (h : c * d ≤ 2 ^ 49) : Gives (IsInteger i (c * d) · (m * n)) (a.mul b) := by
  have hallows : i.Allows (c * d) (m * n) := by
    intro hi
    rw [abs_mul]
    exact mul_le_mul (ha.allows hi) (hb.allows hi) (abs_nonneg n)
      ((abs_nonneg m).trans (ha.allows hi))
  cases i with
  | exact =>
    rw [ha.whole rfl, hb.whole rfl, mul_whole]
    exact .ok (isInteger_whole hallows)
  | bounded =>
    have hm := (ha.allows rfl).trans hc
    have hn := (hb.allows rfl).trans hd
    have hprod : |m * n| ≤ 2 ^ 49 := (hallows rfl).trans h
    have hgives : Gives (fun s => ∃ z : ℚ, s.At z ∧ z = (m * n : ℤ)) (a.mul b) := by
      refine arith_at (e := 50) ha.value hb.value (by exact_mod_cast hm) (by exact_mod_cast hn)
        (by norm_num) ?_ ?_
      · intro k l hk hl
        rw [Int.cast_inj.mp hk, Int.cast_inj.mp hl]
      · intro x y v w hx hy hnear hnear' hgrid hgrid'
        -- Integers of this size are numbers of their own, so only the product is rounded, and it is
        -- one as well.
        obtain rfl := eq_of_share hm hnear hgrid
        obtain rfl := eq_of_share hn hnear' hgrid'
        have hsize : |((m * n : ℤ) : ℚ)| ≤ 2 ^ 49 := by exact_mod_cast hprod
        push_cast at hsize
        obtain ⟨z, hz, hround⟩ := Binary64.mul_at hx hy hsize (by norm_num)
        have hgridProd : OnGrid 0 ((m : ℚ) * n) := by
          have := OnGrid.intCast 0 (m * n)
          push_cast at this
          exact this
        refine ⟨z, hz, eq_of_near ?_ (hround.grid 0 (by norm_num) hgridProd)⟩
        push_cast
        refine hround.near.trans_lt ?_
        have htiny : Binary64.tiny ≤ 1 / 2 ^ 10 := Binary64.tiny_le (by norm_num)
        linarith
    refine hgives.imp fun s hs => ?_
    obtain ⟨z, hz, rfl⟩ := hs
    exact ⟨hz, nofun, hallows⟩

theorem abs (ha : a.IsInteger i c n) : a.abs.IsInteger i c |n| := by
  refine ⟨?_, fun hi => ?_, fun hi => ?_⟩
  · exact_mod_cast abs_at ha.value
  · rw [ha.whole hi]
    show Scalar.whole (n.natAbs : ℤ) = _
    rw [Int.natCast_natAbs]
  · rw [abs_abs]
    exact ha.allows hi

theorem ceil (ha : a.IsInteger i c n) : a.ceil = .ok n := by
  obtain ⟨k, hk, hlow, hhigh⟩ := (ceil_at ha.value).exists_ok
  have hle : n ≤ k := by exact_mod_cast hlow
  have hlt : k < n + 1 := by exact_mod_cast hhigh
  rw [hk, show k = n by omega]

/-! ## Comparisons -/

theorem same_iff (ha : a.IsInteger i c m) (hb : b.IsInteger i d n) : a.same b = true ↔ m = n := by
  rw [same_at ha.value hb.value, Int.cast_inj]

theorem max (ha : a.IsInteger i c m) (hb : b.IsInteger i c n) :
    (a.max b).IsInteger i c (Max.max m n) := by
  refine ⟨?_, fun hi => ?_, ha.allows.max hb.allows⟩
  · exact_mod_cast max_at ha.value hb.value
  · rw [ha.whole hi, hb.whole hi, max_whole]
    congr 1
    omega

theorem min (ha : a.IsInteger i c m) (hb : b.IsInteger i c n) :
    (a.min b).IsInteger i c (Min.min m n) := by
  refine ⟨?_, fun hi => ?_, ha.allows.min hb.allows⟩
  · exact_mod_cast min_at ha.value hb.value
  · rw [ha.whole hi, hb.whole hi, min_whole]
    congr 1
    omega

/-- Scalars of the same value as `ms`, folded by an operation that picks as `pick` does. -/
theorem foldl {op : Scalar → Scalar → Scalar} {pick : ℤ → ℤ → ℤ}
    (hop : ∀ {a b m n}, a.IsInteger i c m → b.IsInteger i c n → (op a b).IsInteger i c (pick m n))
    {bs : List Scalar} {ns : List ℤ} (ha : a.IsInteger i c m)
    (hbs : List.Forall₂ (IsInteger i c) bs ns) :
    (bs.foldl op a).IsInteger i c (ns.foldl pick m) := by
  induction hbs generalizing a m with
  | nil => exact ha
  | cons hb _ ih => exact ih (hop ha hb)

end IsInteger

theorem zero_max (ha : a.At n) (hpos : 0 < n) : (real (.zero false)).max a = a := by
  rw [max, if_pos ((lt_at (real_zero_at false) ha).mpr (by exact_mod_cast hpos))]

/-- The greatest of some positive integers is found from zero on. -/
theorem exists_greatest {as : List Scalar} (hne : as ≠ [])
    (has : ∀ a ∈ as, ∃ n, 0 < n ∧ a.IsInteger i c n) :
    ∃ n, (as.foldl max (.real (.zero false))).IsInteger i c n ∧
      IsGreatest {n : ℤ | ∃ a ∈ as, a.At n} n := by
  obtain ⟨ns, hns⟩ := Outcome.exists_forall₂ has
  cases hns with
  | nil => exact absurd rfl hne
  | @cons a n as ns ha hns =>
    obtain ⟨hpos, ha⟩ := ha
    have hlater : List.Forall₂ (IsInteger i c) as ns := hns.imp fun _ _ h => h.2
    refine ⟨ns.foldl Max.max n, ?_, ?_⟩
    · rw [List.foldl_cons, zero_max ha.value hpos]
      exact ha.foldl (fun h h' => h.max h') hlater
    · have hset : {n : ℤ | ∃ b ∈ a :: as, b.At n} = {k | k ∈ n :: ns} := by
        have hall : List.Forall₂ (IsInteger i c) (a :: as) (n :: ns) := .cons ha hlater
        ext k
        constructor
        · rintro ⟨b, hb, hk⟩
          obtain ⟨l, hl, hbl⟩ := Outcome.exists_of_forall₂ hall hb
          have : k = l := by exact_mod_cast hk.unique hbl.value
          exact this ▸ hl
        · intro hk
          obtain ⟨b, hb, hbk⟩ := Outcome.exists_of_forall₂ hall.flip hk
          exact ⟨b, hb, hbk.value⟩
      rw [hset]
      exact isGreatest_foldl_max n ns

/-! ## Checks -/

/-- The integer that a scalar is, if it is one that may be computed with. -/
def integer? (i : Integers) (c : ℤ) (a : Scalar) : Option ℤ :=
  match i with
  | .exact => a.whole?.filter fun n => a == whole n
  | .bounded => a.whole?.filter fun n => n.natAbs ≤ c

theorem isInteger_of_integer? (h : a.integer? i c = some n) : a.IsInteger i c n := by
  cases i with
  | exact =>
    obtain ⟨hn, hcheck⟩ := Option.filter_eq_some_iff.mp h
    rw [beq_iff_eq] at hcheck
    exact ⟨at_of_whole? hn, fun _ => hcheck, nofun⟩
  | bounded =>
    obtain ⟨hn, hcheck⟩ := Option.filter_eq_some_iff.mp h
    refine ⟨at_of_whole? hn, nofun, fun _ => ?_⟩
    rw [← Int.natCast_natAbs]
    exact of_decide_eq_true hcheck

theorem isInteger_of_isSome (h : (a.integer? i c).isSome = true) : ∃ n, a.IsInteger i c n := by
  obtain ⟨n, hn⟩ := Option.isSome_iff_exists.mp h
  exact ⟨n, isInteger_of_integer? hn⟩

/-- Whether a scalar is a length that may be computed with. -/
def isLength (i : Integers) (c : ℤ) (a : Scalar) : Bool := (a.integer? i c).any (0 ≤ ·)

theorem isInteger_of_isLength (h : a.isLength i c = true) : ∃ n, 0 ≤ n ∧ a.IsInteger i c n := by
  obtain ⟨n, hn, hpos⟩ := (Option.any_eq_true _ _).mp h
  exact ⟨n, of_decide_eq_true hpos, isInteger_of_integer? hn⟩

end Scalar

end DiagramScript
