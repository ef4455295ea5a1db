import DiagramScript.Proofs.Geometry.Rect

/-
  Shapes of integers from instructions.

  A size that no instruction names comes out of a table or of counting lines and letters, so it is
  made of whole numbers, which are not large where the text is not long
  (`Block.sizeOf_isIntegral`). So the sides of a new shape are integers where those that its
  instruction names are (`ShapeInstruction.HasIntegers`). Everything else of a new shape but its id
  and its place is told by the instruction alone (`ShapeInstruction.shapeAt`).
-/

namespace DiagramScript

/-! ## Texts that are not long -/

namespace Text

theorem letterCount_le (cs : List Char) : letterCount cs ≤ cs.length := by
  unfold letterCount
  fun_induction letters cs with
  | case1 => exact le_rfl
  | case2 c => exact le_rfl
  | case3 d rest ih =>
    simp only [List.length_cons]
    omega
  | case4 c d rest hmark ih =>
    simp only [List.length_cons] at ih ⊢
    omega

theorem length_le_of_mem_splitOn {sep : Char} {cs piece : List Char} (h : piece ∈ splitOn sep cs) :
    piece.length ≤ cs.length := by
  -- By induction on the text: no piece is longer than the whole.
  induction cs generalizing piece with
  | nil =>
    obtain rfl : piece = [] := by simpa [splitOn] using h
    exact le_rfl
  | cons c cs ih =>
    have htail {piece : List Char} (h : piece ∈ splitOn sep cs) :
        piece.length ≤ (c :: cs).length := (ih h).trans (Nat.le_succ _)
    rw [splitOn] at h
    split at h
    · rcases List.mem_cons.mp h with rfl | h
      · exact Nat.zero_le _
      · exact htail h
    · split at h
      · rename_i hnil
        exact absurd hnil (splitOn_ne_nil sep cs)
      · rename_i first pieces hsplit
        rw [hsplit] at ih
        rw [hsplit] at htail
        rcases List.mem_cons.mp h with rfl | h
        · exact Nat.succ_le_succ (ih List.mem_cons_self)
        · exact htail (List.mem_cons_of_mem first h)

theorem lineCount_le (s : String) : lineCount s ≤ s.length + 1 := by
  rw [lineCount, ← String.length_toList]
  exact Nat.succ_le_succ List.count_le_length

end Text

theorem Label.longestLine_le (text : String) : longestLine text ≤ text.length := by
  have hfold (ns : List Nat) (m : Nat) (hm : m ≤ text.length) (hns : ∀ n ∈ ns, n ≤ text.length) :
      ns.foldl Nat.max m ≤ text.length := by
    induction ns generalizing m with
    | nil => exact hm
    | cons n ns ih =>
      obtain ⟨hn, hns⟩ := List.forall_mem_cons.mp hns
      exact ih (Nat.max m n) (max_le hm hn) hns
  refine hfold _ 0 (Nat.zero_le _) fun n hn => ?_
  obtain ⟨line, hline, rfl⟩ := List.mem_map.mp hn
  calc
    Text.letterCount line ≤ line.length := Text.letterCount_le line
    _ ≤ text.toList.length := Text.length_le_of_mem_splitOn hline
    _ = text.length := String.length_toList

theorem Font.letterHalves_le (f : Font) (t : Tier) : f.letterHalves t ≤ 44 := by
  cases f <;> cases t <;> decide

/-- The limit of the number of characters of a text in the bounded case. -/
def Integers.textLimit : ℕ := 2 ^ 20

section Texts
variable {i : Integers} {text : String}

theorem isInteger_lines (h : i = .bounded → text.length ≤ Integers.textLimit) (t : Tier) {n : ℤ}
    (hn : n = (Text.lineCount text * t.lineHeight : ℕ)) :
    (Scalar.whole n).IsInteger i Integers.limit n := by
  refine Scalar.isInteger_whole fun hi => ?_
  have hlines : Text.lineCount text ≤ 2 ^ 20 + 1 :=
    (Text.lineCount_le text).trans (Nat.succ_le_succ (h hi))
  have hheight := Nat.mul_le_mul hlines t.lineHeight_le
  rw [hn, Nat.abs_cast, Integers.limit]
  omega

theorem Label.box_isInteger (h : i = .bounded → text.length ≤ Integers.textLimit) (t : Tier)
    (f : Font) :
    (Label.box text t f).w.IsInteger i Integers.limit (Label.width text t f) ∧
      (Label.box text t f).h.IsInteger i Integers.limit (Label.height text t) := by
  constructor
  · refine Scalar.isInteger_whole fun hi => ?_
    have hwide := Nat.mul_le_mul ((Label.longestLine_le text).trans (h hi)) (f.letterHalves_le t)
    rw [Nat.abs_cast, Integers.limit, Label.width, Label.marginWidth]
    rw [Integers.textLimit] at hwide
    omega
  · refine Scalar.isInteger_whole fun hi => ?_
    have hlines : Text.lineCount text ≤ 2 ^ 20 + 1 :=
      (Text.lineCount_le text).trans (Nat.succ_le_succ (h hi))
    have hhigh := Nat.mul_le_mul hlines t.lineHeight_le
    rw [Nat.abs_cast, Integers.limit, Label.height, Label.marginHeight]
    omega

end Texts

/-! ## Instructions -/

/-- A size with integers as its sides. -/
def Size.IsIntegral (i : Integers) (s : Size) : Prop :=
  (∃ n, s.w.IsInteger i Integers.limit n) ∧ ∃ n, s.h.IsInteger i Integers.limit n

/-- An instruction whose place and size are integers, as far as it names them. In the bounded case
its text keeps to a limit, since its bounds grow with it. -/
structure ShapeInstruction.HasIntegers (i : Integers) (j : ShapeInstruction) : Prop where
  place : ∀ q ∈ j.position, q.IsIntegral i
  size : ∀ s ∈ j.dimensions.or j.size, s.IsIntegral i
  label : i = .bounded → (j.label.getD "").length ≤ Integers.textLimit
  content : i = .bounded → (j.content.getD "").length ≤ Integers.textLimit

variable {i : Integers} {j : ShapeInstruction} {p q : Page}

theorem Size.isIntegral_of_nat {w h : ℕ} (hw : w ≤ 1000) (hh : h ≤ 1000) :
    Size.IsIntegral i ⟨.whole w, .whole h⟩ := by
  have hwhole {n : ℕ} (hn : n ≤ 1000) : (Scalar.whole n).IsInteger i Integers.limit n := by
    refine Scalar.isInteger_whole fun _ => ?_
    rw [Nat.abs_cast, Integers.limit]
    omega
  exact ⟨⟨w, hwhole hw⟩, ⟨h, hwhole hh⟩⟩

theorem defaultSize_isIntegral (kind : Kind) : (defaultSize kind).IsIntegral i := by
  cases kind <;> exact Size.isIntegral_of_nat (by decide) (by decide)

/-- Whatever size a shape gets is made of integers; only a connector has none. -/
theorem Block.sizeOf_isIntegral (h : j.HasIntegers i) (hkind : j.kind ≠ .connector) :
    Gives (Size.IsIntegral i) (sizeOf j) := by
  have hbase := defaultSize_isIntegral (i := i) j.kind
  -- A box grows to fit its label, whose sides are integers where the label is not too long.
  have hlabelled {label : String} (hlabel : Content.filled j.label = some label) :
      let fit := Label.box label (Tier.ofOption j.style.size) (Font.ofOption j.style.font)
      Size.IsIntegral i ⟨(defaultSize j.kind).w.max fit.w, (defaultSize j.kind).h.max fit.h⟩ := by
    have hsome : j.label = some label := (Option.filter_eq_some_iff.mp hlabel).1
    have hshort : i = .bounded → label.length ≤ Integers.textLimit := by
      simpa [hsome] using h.label
    obtain ⟨hw, hh⟩ := Label.box_isInteger hshort (Tier.ofOption j.style.size)
      (Font.ofOption j.style.font)
    obtain ⟨⟨w, hbw⟩, ⟨n, hbn⟩⟩ := hbase
    exact ⟨⟨_, hbw.max hw⟩, ⟨_, hbn.max hh⟩⟩
  unfold sizeOf
  rw [if_neg hkind]
  split
  · rename_i d hd
    exact .ok (h.size d (by rw [hd]; rfl))
  · rename_i s hd hs
    exact .ok (h.size s (by rw [hd, hs]; rfl))
  · split
    · refine .ok ?_
      cases Tier.ofOption j.style.size <;> exact Size.isIntegral_of_nat (by decide) (by decide)
    · refine .ok ⟨hbase.1, _, isInteger_lines h.content (Tier.ofOption j.style.size) ?_⟩
      rw [Nat.cast_mul, mul_comm]
    · split
      · rename_i hlabel
        exact .ok (hlabelled hlabel)
      · exact .ok hbase
    · split
      · rename_i hlabel
        exact .ok (hlabelled hlabel)
      · exact .ok hbase
    · exact .ok hbase

/-- Whether an instruction names integers only, and has no long text. -/
def ShapeInstruction.hasIntegers (i : Integers) (j : ShapeInstruction) : Bool :=
  j.position.all (·.isIntegral i) &&
    (j.dimensions.or j.size).all (fun s => (s.w.integer? i Integers.limit).isSome &&
      (s.h.integer? i Integers.limit).isSome) &&
    decide ((j.label.getD "").length ≤ Integers.textLimit) &&
    decide ((j.content.getD "").length ≤ Integers.textLimit)

theorem ShapeInstruction.hasIntegers_of_check (h : j.hasIntegers i = true) : j.HasIntegers i := by
  simp only [hasIntegers, Bool.and_eq_true, decide_eq_true_eq] at h
  obtain ⟨⟨⟨hplace, hsize⟩, hlabel⟩, hcontent⟩ := h
  refine ⟨fun q hq => ?_, fun s hs => ?_, fun _ => hlabel, fun _ => hcontent⟩
  · rw [Option.mem_def.mp hq] at hplace
    exact Point.isIntegral_of_check hplace
  · rw [Option.mem_def.mp hs, Option.all_some, Bool.and_eq_true] at hsize
    exact ⟨Scalar.isInteger_of_isSome hsize.1, Scalar.isInteger_of_isSome hsize.2⟩

/-! ## New shapes -/

/-- The shape that an instruction asks for, with its id, its place and its size. -/
def ShapeInstruction.shapeAt (j : ShapeInstruction) (id : String) (place : Point) (size : Size) :
    Shape :=
  { id, kind := .known j.kind, x := place.x, y := place.y, w := size.w, h := size.h
    label :=
      if j.kind = .frame then Page.orElseText j.label "Frame" else Page.orElseText j.text ""
    style := Page.fullStyle j.style j.kind }

theorem Page.newShape_iff {s : Shape} :
    p.newShape j = .ok s ↔ ∃ place size id, p.newPosition j = .ok place ∧
      Block.sizeOf j = .ok size ∧ p.newId j.id j.line = .ok id ∧ s = j.shapeAt id place size := by
  simp only [newShape, Outcome.bind_eq_ok, Except.ok.injEq]
  constructor
  · intro h
    obtain ⟨place, hplace, size, hsize, id, hid, rfl⟩ := h
    exact ⟨place, size, id, hplace, hsize, hid, rfl⟩
  · intro h
    obtain ⟨place, size, id, hplace, hsize, hid, rfl⟩ := h
    exact ⟨place, hplace, size, hsize, id, hid, rfl⟩

/-- The height of the lines of a new shape. -/
theorem ShapeInstruction.HasIntegers.lines (h : j.HasIntegers i) (id : String) (place : Point)
    (size : Size) :
    ∃ n, 0 ≤ n ∧ (j.shapeAt id place size).lines.IsInteger i Integers.limit n := by
  -- A text that is missing or empty is replaced by another one, which is short.
  have hfilled {text : Option String} {other : String}
      (htext : i = .bounded → (text.getD "").length ≤ Integers.textLimit)
      (hother : other.length ≤ Integers.textLimit) :
      i = .bounded → (Page.orElseText text other).length ≤ Integers.textLimit := by
    intro hi
    cases text with
    | none => exact hother
    | some t =>
      by_cases hempty : t = ""
      · rw [hempty]
        exact hother
      · rw [Page.orElseText_of_ne hempty]
        exact htext hi
  have hshort : i = .bounded →
      (j.shapeAt id place size).label.length ≤ Integers.textLimit := by
    rw [shapeAt]
    split
    · exact hfilled h.label (by decide)
    · refine hfilled ?_ (by decide)
      rw [text]
      split
      · exact h.content
      · exact h.label
  exact ⟨_, Int.natCast_nonneg _, isInteger_lines hshort _ rfl⟩

theorem ShapeInstruction.HasIntegers.shapeAt (h : j.HasIntegers i) {id : String} {place : Point}
    {size : Size} (hplace : place.IsIntegral i) (hsize : size.IsIntegral i) :
    (j.shapeAt id place size).HasIntegers i :=
  ⟨hplace, hsize.1, hsize.2, fun _ hp => (nomatch hp), fun _ hp => (nomatch hp),
    h.lines id place size⟩

end DiagramScript
