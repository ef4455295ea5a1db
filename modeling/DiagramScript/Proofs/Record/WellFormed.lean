import DiagramScript.Proofs.Statement.WellFormed
import DiagramScript.Record

/-
  Well-formed instructions from records.

  Records keep values of any kind, but every instruction that is read from one is well
  formed and its place is finite (`records_wellFormed`). A coordinate that stands for a
  connector end is written without blanks, so it is stripped like any other end.
-/

namespace DiagramScript

/-! ## Written numbers -/

/-- Characters none of which is a blank. -/
def Solid (cs : List Char) : Prop := ∀ c ∈ cs, Text.isBlank c = false

namespace Solid

theorem append {xs ys : List Char} (hx : Solid xs) (hy : Solid ys) : Solid (xs ++ ys) :=
  List.forall_mem_append.mpr ⟨hx, hy⟩

theorem cons {c : Char} {cs : List Char} (hc : Text.isBlank c = false) (hcs : Solid cs) :
    Solid (c :: cs) := List.forall_mem_cons.mpr ⟨hc, hcs⟩

theorem nil : Solid [] := fun c hc => by cases hc

theorem of_subset {xs ys : List Char} (h : xs ⊆ ys) (hy : Solid ys) : Solid xs :=
  fun c hc => hy c (h hc)

end Solid

theorem Decimal.digitChar_solid {d : Nat} (h : d < 10) : Text.isBlank (digitChar d) = false := by
  have hall : ∀ k : Fin 10, Text.isBlank (digitChar k.val) = false := by decide
  exact hall ⟨d, h⟩

theorem Decimal.digits_solid (n : Nat) : Solid (digits n) := by
  fun_induction digits n with
  | case1 n h => exact Solid.nil.cons (digitChar_solid h)
  | case2 n _ ih => exact ih.append (Solid.nil.cons (digitChar_solid (Nat.mod_lt n (by decide))))

theorem Decimal.integer_solid (n : Int) : Solid (integer n) := by
  unfold integer
  split
  · exact (digits_solid _).cons (by decide)
  · exact digits_solid _

theorem Decimal.withPoint_solid {ds : List Char} (h : Solid ds) (places : Nat) :
    Solid (withPoint ds places) := by
  have hzeros (n : Nat) : Solid (zeros n) := by
    intro c hc
    rw [List.eq_of_mem_replicate hc]
    decide
  unfold withPoint
  split
  · exact (((hzeros _).append h).cons (by decide)).cons (by decide)
  · exact (h.of_subset (List.take_subset _ _)).append
      ((h.of_subset (List.drop_subset _ _)).cons (by decide))

theorem Binary64.fixedSix_solid {x : Binary64} (h : x.isFinite = true) : Solid x.fixedSix := by
  cases x with
  | nan => cases h
  | infinite s => cases h
  | finite s r =>
    refine Solid.append ?_ (Decimal.withPoint_solid (Decimal.digits_solid _) _)
    cases s with
    | false => exact Solid.nil
    | true => exact Solid.nil.cons (by decide)

namespace Record

theorem trimPlaces_subset (cs : List Char) : trimPlaces cs ⊆ cs := by
  intro c hc
  rw [trimPlaces, List.mem_reverse] at hc
  exact List.mem_reverse.mp (List.dropWhile_subset _ (List.dropWhile_subset _ hc))

theorem coordinateText_solid {n : Scalar} (h : n.IsFinite) : Solid (coordinateText n) := by
  cases n with
  | whole k => exact Decimal.integer_solid k
  | real x =>
    rw [coordinateText]
    split
    · exact Decimal.integer_solid _
    · exact (Binary64.fixedSix_solid h).of_subset (trimPlaces_subset _)
  | flag b => cases h

/-! ## Fields -/

theorem text?_filled (r : Fields) (key : String) : Filled (text? r key) := by
  intro t ht
  unfold text? Value.filledText? at ht
  split at ht
  · split at ht
    · cases ht
    · rename_i hne
      cases ht
      rintro rfl
      exact hne rfl
  · cases ht

theorem number_finite (v : Value) (path : String) : Yields Scalar.IsFinite (number v path) := by
  unfold number
  split
  · rename_i n
    cases n with
    | whole k =>
      refine (Settles.any _).bind fun _ _ => ?_
      exact Settles.ite (fun _ => Settles.ok trivial) fun _ => Settles.fails _
    | real x =>
      apply Settles.ite
      · intro hfinite
        rw [Bool.and_eq_true] at hfinite
        exact Settles.ok hfinite.1
      · exact fun _ => Settles.fails _
    | flag b =>
      apply Settles.ite
      · intro hfinite
        rw [Bool.and_eq_true] at hfinite
        cases hfinite.2
      · exact fun _ => Settles.fails _
  · exact Settles.fails _

theorem pair_finite (r : Fields) (a b : String) (index : Nat) (apart : ParseProblem) :
    Yields (fun p => ∀ q ∈ p, q.1.IsFinite ∧ q.2.IsFinite) (pair r a b index apart) := by
  unfold pair
  apply Settles.ite
  · exact fun _ => Settles.fails _
  intro _
  apply Settles.ite
  · exact fun _ => Settles.ok (by simp)
  intro _
  refine (number_finite _ _).bind fun x hx => ?_
  exact (number_finite _ _).bind fun y hy => Settles.ok (by simpa using ⟨hx, hy⟩)

theorem position_finite (r : Fields) (index : Nat) :
    Yields (fun p => ∀ q ∈ p, q.IsFinite) (position r index) := by
  refine (pair_finite r _ _ _ _).bind fun p hp => Settles.ok fun q hq => ?_
  obtain ⟨xy, hxy, rfl⟩ := Option.map_eq_some_iff.mp hq
  exact hp xy hxy

theorem size_positive (r : Fields) (index : Nat) :
    Yields (fun s => ∀ t ∈ s, t.IsPositive) (size r index) := by
  refine (pair_finite r _ _ _ _).bind fun p hp => ?_
  split
  · exact Settles.ok (by simp)
  · rename_i w h
    obtain ⟨hw, hh⟩ := hp (w, h) rfl
    apply Settles.ite
    · exact fun _ => Settles.fails _
    · intro hle
      rw [Bool.not_eq_true, Bool.or_eq_false_iff] at hle
      have hpositive : Size.IsPositive ⟨w, h⟩ :=
        ⟨Scalar.isPositive_of_not_le hw hle.1, Scalar.isPositive_of_not_le hh hle.2⟩
      exact Settles.ok (by simpa using hpositive)

/-- A text that is not empty and has no blanks at its ends. -/
def IsStripped (s : String) : Prop := s ≠ "" ∧ Text.strip s = s

theorem pairText_stripped (x y : Value) (path : String) :
    Yields IsStripped (pairText x y path) := by
  refine (number_finite _ _).bind fun x hx => ?_
  refine (number_finite _ _).bind fun y hy => Settles.ok ⟨?_, ?_⟩
  · simp
  · have hsolid : Solid (coordinateText x ++ ',' :: coordinateText y) :=
      (coordinateText_solid hx).append ((coordinateText_solid hy).cons (by decide))
    rw [Text.strip, String.toList_ofList, Text.stripChars_of_solid hsolid]

theorem endpoint_stripped (v : Value) (path : String) : Yields IsStripped (endpoint v path) := by
  unfold endpoint
  split
  · apply Settles.ite
    · exact fun _ => Settles.fails _
    · exact fun hne => Settles.ok ⟨by simpa using hne, Text.strip_strip _⟩
  · exact pairText_stripped _ _ _
  · exact pairText_stripped _ _ _
  · exact Settles.fails _

/-- What the size of a record asks for, if it has one, is well formed. -/
theorem sizeOption_wellFormed (r : Fields) (k : Kind) :
    Yields (fun o => ∀ p ∈ o, p.WellFormed) (sizeOption r k) := by
  unfold sizeOption
  split
  · exact Settles.ok (by simp)
  · exact (SizeOption.read_wellFormed _ _ _).yields.map fun o ho => by simpa using ho

/-! ## Records -/

theorem ofFields_wellFormed (r : Fields) (index : Nat) :
    Yields (fun i => i.WellFormed ∧ i.IsExplicit) (ofFields r index) := by
  unfold ofFields
  refine (Settles.any _).bind fun k _ => ?_
  refine (Style.ofOptions_wellFormed _ _).yields.bind fun style hstyle => ?_
  refine (sizeOption_wellFormed r k).bind fun o ho => ?_
  extract_lets style' content label id
  have hstyle' : style'.WellFormed := by
    cases o with
    | none => exact hstyle
    | some o => exact SizeOption.onStyle_wellFormed (ho o rfl) hstyle
  have hcontent : Filled content := (text?_filled r _).or (text?_filled r _)
  have hlabel : Filled label := text?_filled r _
  have hid : Filled id := text?_filled r _
  apply Settles.ite
  · intro _
    apply Settles.ite
    · exact fun _ => Settles.fails _
    · intro _
      -- A connector keeps its ends as stripped texts.
      refine (endpoint_stripped _ _).bind fun source hsource => ?_
      refine (endpoint_stripped _ _).bind fun target htarget => Settles.ok ⟨?_, trivial⟩
      exact ⟨hsource.1, hsource.2, htarget.1, htarget.2, hlabel.or hcontent, hstyle', hid⟩
  · intro hkind
    refine (position_finite r index).bind fun position hposition => ?_
    refine (size_positive r index).bind fun given hgiven => ?_
    -- A width and a height of their own go before a size that names both.
    have hsize : ∀ s ∈ given.or (o.bind SizeOption.box?), s.IsPositive := by
      intro s hs
      cases given with
      | some t => exact hgiven s hs
      | none =>
        obtain ⟨p, hp, hs⟩ := Option.bind_eq_some_iff.mp hs
        exact SizeOption.box_positive (ho p hp) s hs
    split
    · exact Settles.fails _
    · rename_i text htext
      refine Settles.ok ⟨?_, ?_⟩
      · refine ShapeInstruction.withText_wellFormed ?_ rfl rfl (Content.settle_filled htext)
        exact ⟨hkind, hsize, by simp, filled_none, filled_none, by split <;> rfl, hstyle', hid⟩
      · intro p hp
        rw [ShapeInstruction.withText_position] at hp
        exact hposition p hp

theorem blame_yields {value : Instruction → Prop} {x : Except Fault Instruction} (index : Nat)
    (h : Yields value x) : Yields value (blame index x) := by
  cases x with
  | ok i => exact h
  | error e =>
    unfold blame
    split
    · exact Settles.ite (fun _ => Settles.fails _) fun _ => Settles.fails _
    · exact Settles.fails _

theorem instruction_wellFormed (v : Value) (index : Nat) :
    Yields (fun i => i.WellFormed ∧ i.IsExplicit) (instruction v index) := by
  apply blame_yields
  split
  · exact ofFields_wellFormed _ _
  · exact Settles.fails _

theorem instructionsFrom_wellFormed (n : Nat) (vs : List Value) :
    Yields (fun is => ∀ i ∈ is, i.WellFormed ∧ i.IsExplicit) (instructionsFrom n vs) := by
  induction vs generalizing n with
  | nil => exact Settles.ok fun i hi => by cases hi
  | cons v vs ih =>
    refine (instruction_wellFormed v n).bind fun i hi => ?_
    exact (ih _).bind fun is his => Settles.ok (List.forall_mem_cons.mpr ⟨hi, his⟩)

/-- The instructions of records are well formed, and their places are finite. -/
theorem records_wellFormed (v : Value) :
    Yields (fun is => ∀ i ∈ is, i.WellFormed ∧ i.IsExplicit) (instructions v) := by
  unfold instructions
  split
  · exact instructionsFrom_wellFormed _ _
  · exact instructionsFrom_wellFormed _ _
  · exact Settles.fails _

end Record

end DiagramScript
