import Mathlib.Order.Bounds.Basic
import DiagramScript.Record
import DiagramScript.Proofs.Json.Reader

/-
  Records that are refused.

  A list of records is refused with the number of its first record that is refused alone
  (`instructionsOfJson_reading`). Two kinds of values stray from this: a list or an object
  that stands for the name of a kind, and a whole number past the range of floating-point
  numbers. Their faults name no record (`Strays`).
-/

namespace DiagramScript

namespace Record

/-! ## Faults of one record -/

/-- A complaint that names no record but the one with the given number. -/
def Complains (n : Nat) (e : Fault) : Prop :=
  ∃ p line, e = .parse p line ∧ ∀ m ∈ p.index?, m = n

/-- A whole number past the range of floating-point numbers. -/
def Oversized (v : Value) : Prop := ∃ k, v = .number (.whole k) ∧ Binary64.ofInt? k = none

/-- The values that are taken for the coordinates of a connector end. -/
def coordinates : Value → List Value
  | .list [x, y] => [x, y]
  | .object entries => [field entries "x", field entries "y"]
  | _ => []

/-- The values that are taken for coordinates and lengths. -/
def measures (r : Fields) : List Value :=
  coordinates (field r "from") ++ coordinates (field r "to") ++
    [field r "x", field r "y", field r "w", field r "h"]

/-- The faults of a record that name no record. -/
inductive Strays (r : Fields) : Fault → Prop
  | unnamed (hshape : ∀ word, field r "shape" ≠ .text word)
      (htype : (field r "type").isScalar = false ∨
        field r "type" = .text "geo" ∧ (field r "geo").isScalar = false) :
      Strays r .unusableValue
  | oversized {v : Value} (hmem : v ∈ measures r) (hsize : Oversized v) :
      Strays r (.arithmetic .wholeTooLarge)

/-- The faults of a record. -/
def Fails (r : Fields) (n : Nat) (e : Fault) : Prop := Complains n e ∨ Strays r e

/-- The faults of some values that are taken for numbers. -/
def Miscounts (vs : List Value) (n : Nat) (e : Fault) : Prop :=
  Complains n e ∨ e = .arithmetic .wholeTooLarge ∧ ∃ v ∈ vs, Oversized v

theorem Miscounts.mono {vs ws : List Value} {n : Nat} {e : Fault} (h : Miscounts vs n e)
    (hsub : ∀ v ∈ vs, v ∈ ws) : Miscounts ws n e := by
  cases h with
  | inl h => exact .inl h
  | inr h =>
    obtain ⟨he, v, hv, hsize⟩ := h
    exact .inr ⟨he, v, hsub v hv, hsize⟩

theorem Miscounts.fails {r : Fields} {vs : List Value} {n : Nat} {e : Fault}
    (h : Miscounts vs n e) (hsub : ∀ v ∈ vs, v ∈ measures r) : Fails r n e := by
  cases h with
  | inl h => exact .inl h
  | inr h =>
    obtain ⟨rfl, v, hv, hsize⟩ := h
    exact .inr (.oversized (hsub v hv) hsize)

section
variable {α : Type} {value : α → Prop} {fault : Fault → Prop} {n : Nat}

theorem refuse_complains {p : ParseProblem} (h : ∀ m ∈ p.index?, m = n)  :
    Settles (Complains n) value (refuse p) := Settles.error ⟨p, none, rfl, h⟩

theorem on_complains {p : ParseProblem} {line : LineNumber} (h : ∀ m ∈ p.index?, m = n) :
    Settles (Complains n) value (.error (p.on line)) := Settles.error ⟨p, line, rfl, h⟩

end

section
variable {n : Nat}

/-! ### Options -/

theorem checked_complains (key : String) (allowed : List String) (v : Option String)
    (line : LineNumber) :
    Settles (Complains n) (fun _ => True) (Style.checked key allowed v line) := by
  unfold Style.checked
  split
  · exact Settles.ok trivial
  · apply Settles.ite
    · exact fun _ => Settles.ok trivial
    · exact fun _ => on_complains (by simp [ParseProblem.index?])

theorem ofOptions_complains (get : String → Option String) (line : LineNumber) :
    Settles (Complains n) (fun _ => True) (Style.ofOptions get line) := by
  unfold Style.ofOptions
  refine (checked_complains _ _ _ _).bind fun _ _ => ?_
  refine (checked_complains _ _ _ _).bind fun _ _ => ?_
  refine (checked_complains _ _ _ _).bind fun _ _ => ?_
  exact (checked_complains _ _ _ _).bind fun _ _ => Settles.ok trivial

theorem measureNumber_complains (what : String) (cs : List Char) (line : LineNumber) :
    Settles (Complains n) (fun _ => True) (Measure.number what cs line) := by
  unfold Measure.number
  split
  · apply Settles.ite
    · exact fun _ => Settles.ok trivial
    · exact fun _ => on_complains (by simp [ParseProblem.index?])
  · exact on_complains (by simp [ParseProblem.index?])

theorem measureSize_complains (text : String) (line : LineNumber) :
    Settles (Complains n) (fun _ => True) (Measure.size text line) := by
  unfold Measure.size
  split
  · exact on_complains (by simp [ParseProblem.index?])
  · refine (measureNumber_complains _ _ _).bind fun _ _ => ?_
    refine (measureNumber_complains _ _ _).bind fun _ _ => ?_
    apply Settles.ite
    · exact fun _ => on_complains (by simp [ParseProblem.index?])
    · exact fun _ => Settles.ok trivial

theorem read_complains (text : String) (line : LineNumber) (allowBox : Bool) :
    Settles (Complains n) (fun _ => True) (SizeOption.read text line allowBox) := by
  unfold SizeOption.read
  apply Settles.ite
  · exact fun _ => Settles.ok trivial
  intro _
  apply Settles.ite
  · intro _
    apply Settles.ite
    · exact fun _ => (measureSize_complains _ _).map fun _ _ => trivial
    · exact fun _ => on_complains (by simp [ParseProblem.index?])
  intro _
  apply Settles.ite
  · exact fun _ => on_complains (by simp [ParseProblem.index?])
  · exact fun _ => on_complains (by simp [ParseProblem.index?])

theorem sizeOption_complains (r : Fields) (k : Kind) :
    Settles (Complains n) (fun _ => True) (sizeOption r k) := by
  unfold sizeOption
  split
  · exact Settles.ok trivial
  · exact (read_complains _ _ _).map fun _ _ => trivial

/-! ### Kinds and numbers -/

theorem geometryKind_fails (geo : Value) :
    Settles (fun e => Complains n e ∨ e = .unusableValue ∧ geo.isScalar = false)
      (fun _ => True) (geometryKind geo n) := by
  unfold geometryKind
  apply Settles.ite
  · intro hscalar
    exact Settles.error (.inr ⟨rfl, by simpa using hscalar⟩)
  · intro _
    dsimp only
    split
    · exact Settles.ok trivial
    · exact (refuse_complains (by simp [ParseProblem.index?])).mono (fun _ => .inl)
        fun _ ha => ha

theorem kind_fails (r : Fields) : Settles (Fails r n) (fun _ => True) (kind r n) := by
  have hcomplain {p : ParseProblem} (h : p.index? = some n) :
      Settles (Fails r n) (fun _ : Kind => True) (refuse p) :=
    (refuse_complains (by simp [h])).mono (fun _ => .inl) fun _ ha => ha
  unfold kind
  split
  · split
    · exact Settles.ok trivial
    · exact hcomplain rfl
  · rename_i hshape
    split
    · rename_i htype
      refine (geometryKind_fails _).mono (fun e he => ?_) fun _ ha => ha
      cases he with
      | inl he => exact .inl he
      | inr he =>
        obtain ⟨rfl, hgeo⟩ := he
        exact .inr (.unnamed hshape (.inr ⟨htype, hgeo⟩))
    · split
      · exact Settles.ok trivial
      · exact hcomplain rfl
    · apply Settles.ite
      · exact fun _ => hcomplain rfl
      · intro hscalar
        exact Settles.error (.inr (.unnamed hshape (.inl (by simpa using hscalar))))

theorem toReal_oversized (m : Scalar) :
    Settles (fun e => e = .arithmetic .wholeTooLarge ∧ Oversized (.number m))
      (fun _ => True) m.toReal := by
  cases m with
  | whole k =>
    rw [Scalar.toReal]
    split
    · exact Settles.ok trivial
    · rename_i hnone
      exact Settles.error ⟨rfl, k, rfl, hnone⟩
  | real x => exact Settles.ok trivial
  | flag b => exact Settles.ok trivial

theorem number_miscounts (v : Value) (path : String) :
    Settles (Miscounts [v] n) (fun _ => True) (number v path) := by
  have hcomplain : Settles (Miscounts [v] n) (fun _ : Scalar => True)
      (refuse (.recordField path)) :=
    (refuse_complains (by simp [ParseProblem.index?])).mono (fun _ => .inl) fun _ ha => ha
  unfold number
  split
  · rename_i m
    have hfinite : Settles (Miscounts [.number m] n) (fun _ => True) m.isFinite := by
      refine ((toReal_oversized m).mono (fun e he => ?_) fun _ ha => ha).bind
        fun _ _ => Settles.ok trivial
      exact .inr ⟨he.1, _, List.mem_singleton_self _, he.2⟩
    refine hfinite.bind fun _ _ => ?_
    apply Settles.ite
    · exact fun _ => Settles.ok trivial
    · exact fun _ => hcomplain
  · exact hcomplain

theorem pairText_miscounts (x y : Value) (path : String) :
    Settles (Miscounts [x, y] n) (fun _ => True) (pairText x y path) := by
  have hpart {v : Value} (h : v ∈ [x, y]) (path : String) :
      Settles (Miscounts [x, y] n) (fun _ => True) (number v path) :=
    (number_miscounts v path).mono (fun _ he => he.mono (by simpa using h)) fun _ ha => ha
  unfold pairText
  refine (hpart (by simp) _).bind fun _ _ => ?_
  exact (hpart (by simp) _).bind fun _ _ => Settles.ok trivial

theorem endpoint_miscounts (v : Value) (path : String) :
    Settles (Miscounts (coordinates v) n) (fun _ => True) (endpoint v path) := by
  have hcomplain (vs : List Value) : Settles (Miscounts vs n) (fun _ : String => True)
      (refuse (.recordField path)) :=
    (refuse_complains (by simp [ParseProblem.index?])).mono (fun _ => .inl) fun _ ha => ha
  unfold endpoint
  split
  · apply Settles.ite
    · exact fun _ => hcomplain _
    · exact fun _ => Settles.ok trivial
  · exact pairText_miscounts _ _ _
  · exact pairText_miscounts _ _ _
  · exact hcomplain _

theorem pair_miscounts (r : Fields) (a b : String) {apart : ParseProblem}
    (h : apart.index? = some n) :
    Settles (Miscounts [field r a, field r b] n) (fun _ => True) (pair r a b n apart) := by
  have hpart {v : Value} (h : v ∈ [field r a, field r b]) (path : String) :
      Settles (Miscounts [field r a, field r b] n) (fun _ => True) (number v path) :=
    (number_miscounts v path).mono (fun _ he => he.mono (by simpa using h)) fun _ ha => ha
  unfold pair
  apply Settles.ite
  · intro _
    exact (refuse_complains (by simp [h])).mono (fun _ => .inl) fun _ ha => ha
  intro _
  apply Settles.ite
  · exact fun _ => Settles.ok trivial
  intro _
  refine (hpart (by simp) _).bind fun _ _ => ?_
  exact (hpart (by simp) _).bind fun _ _ => Settles.ok trivial

/-! ### The whole record -/

theorem position_fails (r : Fields) : Settles (Fails r n) (fun _ => True) (position r n) := by
  refine ((pair_miscounts r "x" "y" rfl).mono (fun _ he => ?_) fun _ ha => ha).bind
    fun _ _ => Settles.ok trivial
  exact he.fails (by simp [measures])

theorem size_fails (r : Fields) : Settles (Fails r n) (fun _ => True) (size r n) := by
  refine ((pair_miscounts r "w" "h" rfl).mono (fun _ he => ?_) fun _ ha => ha).bind
    fun _ _ => ?_
  · exact he.fails (by simp [measures])
  · split
    · exact Settles.ok trivial
    · apply Settles.ite
      · intro _
        exact (refuse_complains (by simp [ParseProblem.index?])).mono (fun _ => .inl)
          fun _ ha => ha
      · exact fun _ => Settles.ok trivial

theorem ofFields_fails (r : Fields) : Settles (Fails r n) (fun _ => True) (ofFields r n) := by
  have hcomplain {α : Type} {x : Except Fault α} (h : Settles (Complains n) (fun _ => True) x) :
      Settles (Fails r n) (fun _ => True) x := h.mono (fun _ => .inl) fun _ ha => ha
  unfold ofFields
  refine (kind_fails r).bind fun k _ => ?_
  refine (hcomplain (ofOptions_complains _ _)).bind fun style _ => ?_
  refine (hcomplain (sizeOption_complains r k)).bind fun o _ => ?_
  apply Settles.ite
  · intro _
    apply Settles.ite
    · exact fun _ => hcomplain (refuse_complains (by simp [ParseProblem.index?]))
    · intro _
      -- Beyond complaints only the coordinates and the measures can fail, for an integer that is
      -- too large.
      have hend {v : Value} (h : ∀ c ∈ coordinates v, c ∈ measures r) (path : String) :
          Settles (Fails r n) (fun _ => True) (endpoint v path) :=
        (endpoint_miscounts v path).mono (fun _ he => he.fails h) fun _ ha => ha
      refine (hend (fun c hc => by simp [measures, hc]) _).bind fun _ _ => ?_
      exact (hend (fun c hc => by simp [measures, hc]) _).bind fun _ _ => Settles.ok trivial
  · intro _
    refine (position_fails r).bind fun _ _ => ?_
    refine (size_fails r).bind fun _ _ => ?_
    split
    · rename_i p hp
      refine hcomplain (refuse_complains ?_)
      unfold Content.settle at hp
      split at hp
      · cases hp
      · cases hp
        split <;> simp [ParseProblem.index?]
    · exact Settles.ok trivial

end

/-- A record fails with a complaint that names it, or it strays. -/
inductive Blamed (n : Nat) : Value → Fault → Prop
  | named {v : Value} {p : ParseProblem} {line : LineNumber} (h : p.index? = some n) :
      Blamed n v (.parse p line)
  | strayed {r : Fields} {e : Fault} (h : Strays r e) : Blamed n (.object r) e

theorem blame_blamed {r : Fields} {n : Nat} {x : Except Fault Instruction}
    (hx : Settles (Fails r n) (fun _ => True) x) :
    Settles (Blamed n (.object r)) (fun _ => True) (blame n x) := by
  cases x with
  | ok i => exact Settles.ok trivial
  | error e =>
    cases hx.ends with
    | inl hcomplaint =>
      obtain ⟨p, line, rfl, hindex⟩ := hcomplaint
      unfold blame
      apply Settles.ite
      · intro hsome
        obtain ⟨m, hm⟩ := Option.isSome_iff_exists.mp hsome
        exact Settles.error (.named (hindex m hm ▸ hm))
      · exact fun _ => Settles.error (.named rfl)
    | inr hstray =>
      cases hstray with
      | unnamed hshape htype => exact Settles.error (.strayed (.unnamed hshape htype))
      | oversized hmem hsize => exact Settles.error (.strayed (.oversized hmem hsize))

theorem instruction_blamed (v : Value) (n : Nat) :
    Settles (Blamed n v) (fun _ => True) (instruction v n) := by
  unfold instruction
  split
  · exact blame_blamed (ofFields_fails _)
  · exact Settles.error (.named rfl)

/-! ## The number of a record -/

/-- Two computations that have the same value, if they have one. -/
def Agree {α : Type} (x y : Except Fault α) : Prop := ∀ a, x = .ok a ↔ y = .ok a

namespace Agree
variable {α β : Type}

theorem refl (x : Except Fault α) : Agree x x := fun _ => Iff.rfl

theorem error (e e' : Fault) : Agree (.error e : Except Fault α) (.error e') := by
  intro a
  simp

theorem bind {x y : Except Fault α} {f g : α → Except Fault β} (h : Agree x y)
    (hfg : ∀ a, Agree (f a) (g a)) : Agree (x >>= f) (y >>= g) := by
  intro b
  simp only [Outcome.bind_eq_ok, h _, hfg _ b]

theorem ite {p : Prop} [Decidable p] {x y x' y' : Except Fault α} (hx : Agree x x')
    (hy : Agree y y') : Agree (if p then x else y) (if p then x' else y') := by
  by_cases h : p
  · rwa [if_pos h, if_pos h]
  · rwa [if_neg h, if_neg h]

end Agree

section
variable (m n : Nat)

theorem geometryKind_agree (geo : Value) : Agree (geometryKind geo m) (geometryKind geo n) := by
  unfold geometryKind
  apply Agree.ite
  · exact Agree.refl _
  · dsimp only
    split
    · exact Agree.refl _
    · exact Agree.error _ _

theorem kind_agree (r : Fields) : Agree (kind r m) (kind r n) := by
  unfold kind
  split
  · split
    · exact Agree.refl _
    · exact Agree.error _ _
  · split
    · exact geometryKind_agree m n _
    · split
      · exact Agree.refl _
      · exact Agree.error _ _
    · apply Agree.ite
      · exact Agree.error _ _
      · exact Agree.refl _

theorem number_agree (v : Value) (path path' : String) :
    Agree (number v path) (number v path') := by
  unfold number
  split
  · refine (Agree.refl _).bind fun _ => ?_
    exact Agree.ite (Agree.refl _) (Agree.error _ _)
  · exact Agree.error _ _

theorem pairText_agree (x y : Value) (path path' : String) :
    Agree (pairText x y path) (pairText x y path') := by
  refine (number_agree _ _ _).bind fun _ => ?_
  exact (number_agree _ _ _).bind fun _ => Agree.refl _

theorem endpoint_agree (v : Value) (path path' : String) :
    Agree (endpoint v path) (endpoint v path') := by
  unfold endpoint
  split
  · exact Agree.ite (Agree.error _ _) (Agree.refl _)
  · exact pairText_agree _ _ _ _
  · exact pairText_agree _ _ _ _
  · exact Agree.error _ _

theorem pair_agree (r : Fields) (a b : String) (apart apart' : ParseProblem) :
    Agree (pair r a b m apart) (pair r a b n apart') := by
  unfold pair
  refine Agree.ite (Agree.error _ _) (Agree.ite (Agree.refl _) ?_)
  refine (number_agree _ _ _).bind fun _ => ?_
  exact (number_agree _ _ _).bind fun _ => Agree.refl _

theorem position_agree (r : Fields) : Agree (position r m) (position r n) :=
  (pair_agree m n r _ _ _ _).bind fun _ => Agree.refl _

theorem size_agree (r : Fields) : Agree (size r m) (size r n) := by
  refine (pair_agree m n r _ _ _ _).bind fun _ => ?_
  split
  · exact Agree.refl _
  · exact Agree.ite (Agree.error _ _) (Agree.refl _)

theorem ofFields_agree (r : Fields) : Agree (ofFields r m) (ofFields r n) := by
  unfold ofFields
  refine (kind_agree m n r).bind fun k => ?_
  refine (Agree.refl _).bind fun style => ?_
  refine (Agree.refl _).bind fun o => ?_
  apply Agree.ite
  · apply Agree.ite
    · exact Agree.error _ _
    · refine (endpoint_agree _ _ _).bind fun _ => ?_
      exact (endpoint_agree _ _ _).bind fun _ => Agree.refl _
  · refine (position_agree m n r).bind fun _ => ?_
    exact (size_agree m n r).bind fun _ => Agree.refl _

theorem blame_eq_ok {α : Type} {x : Except Fault α} {a : α} : blame n x = .ok a ↔ x = .ok a := by
  unfold blame
  split
  · split <;> simp
  · rfl

/-- Whether a record is read does not depend on its number. -/
theorem instruction_agree (v : Value) : Agree (instruction v m) (instruction v n) := by
  intro i
  unfold instruction
  rw [blame_eq_ok, blame_eq_ok]
  split
  · exact ofFields_agree m n _ i
  · exact Agree.error _ _ i

end

/-! ## Lists of records -/

/-- A value that is refused where it is the only record. -/
def Refused (v : Value) : Prop := ∃ e, instructions (.list [v]) = .error e

theorem instructions_single (v : Value) (n : Nat) (i : Instruction) :
    instructions (.list [v]) = .ok [i] ↔ instruction v n = .ok i := by
  rw [instruction_agree n 0 v i, instructions, instructionsFrom, Outcome.bind_eq_ok]
  simp [instructionsFrom, bind, Except.bind]

theorem refused_of_error {v : Value} {n : Nat} {e : Fault} (h : instruction v n = .error e) :
    Refused v := by
  cases hzero : instruction v 0 with
  | ok i =>
    rw [(instruction_agree n 0 v i).mpr hzero] at h
    cases h
  | error e' => exact ⟨e', by simp [instructions, instructionsFrom, hzero, bind, Except.bind]⟩

theorem not_refused_of_ok {v : Value} {n : Nat} {i : Instruction} (h : instruction v n = .ok i) :
    ¬ Refused v := by
  intro hrefused
  obtain ⟨e, he⟩ := hrefused
  rw [(instructions_single v n i).mpr h] at he
  cases he

/-- How the reading of records ends: with the instruction of each record alone, or with a
fault of the first record that is refused alone. -/
inductive Ending (items : List Value) : Except Fault (List Instruction) → Prop
  | read {is : List Instruction}
      (h : List.Forall₂ (fun v i => instructions (.list [v]) = .ok [i]) items is) :
      Ending items (.ok is)
  | refused {n : Nat} {v : Value} {e : Fault}
      (hleast : IsLeast {k | ∃ w, items[k]? = some w ∧ Refused w} n)
      (hat : items[n]? = some v) (hblame : Blamed n v e) : Ending items (.error e)

theorem instructionsFrom_cases (m : Nat) (items : List Value) :
    (∃ is, instructionsFrom m items = .ok is ∧
      List.Forall₂ (fun v i => instructions (.list [v]) = .ok [i]) items is) ∨
    ∃ n v e, items[n]? = some v ∧ (∀ k < n, ∀ w, items[k]? = some w → ¬ Refused w) ∧
      instruction v (m + n) = .error e ∧ instructionsFrom m items = .error e := by
  -- By induction on the records, the first of which has any number.
  induction items generalizing m with
  | nil => exact .inl ⟨[], rfl, .nil⟩
  | cons v vs ih =>
    cases hv : instruction v m with
    | error e =>
      refine .inr ⟨0, v, e, rfl, fun k hk => by omega, hv, ?_⟩
      simp [instructionsFrom, hv, bind, Except.bind]
    | ok i =>
      cases ih (m + 1) with
      | inl hrest =>
        obtain ⟨is, his, hall⟩ := hrest
        refine .inl ⟨i :: is, ?_, .cons ((instructions_single v m i).mpr hv) hall⟩
        simp [instructionsFrom, hv, his, bind, Except.bind]
      | inr hrest =>
        obtain ⟨n, w, e, hat, hbefore, hw, he⟩ := hrest
        refine .inr ⟨n + 1, w, e, hat, fun k hk u hu => ?_, ?_, ?_⟩
        · cases k with
          | zero =>
            cases hu
            exact not_refused_of_ok hv
          | succ k => exact hbefore k (by omega) u hu
        · rw [show m + (n + 1) = m + 1 + n by omega]
          exact hw
        · simp [instructionsFrom, hv, he, bind, Except.bind]

theorem instructionsFrom_ending (items : List Value) :
    Ending items (instructionsFrom 0 items) := by
  cases instructionsFrom_cases 0 items with
  | inl h =>
    obtain ⟨is, his, hall⟩ := h
    rw [his]
    exact .read hall
  | inr h =>
    obtain ⟨n, v, e, hat, hbefore, hv, he⟩ := h
    rw [he]
    refine .refused ⟨⟨v, hat, refused_of_error hv⟩, ?_⟩ hat
      ((instruction_blamed v _).ends.of_error (by simpa using hv))
    intro k hk
    obtain ⟨w, hw, hrefused⟩ := hk
    by_contra hlt
    exact hbefore k (by omega) w hw hrefused

/-- How the reading of a text with records ends. -/
inductive Reading : Except Fault Value → Except Fault (List Instruction) → Prop
  | unread {e : Fault} (h : Json.Unread e) : Reading (.error e) (.error e)
  | noList {v : Value} (h : ∀ items, v ≠ .list items) :
      Reading (.ok v) (.error (.parse .notJsonArray none))
  | list {items : List Value} {r : Except Fault (List Instruction)} (h : Ending items r) :
      Reading (.ok (.list items)) r

/-- Every text of records is read, or is refused as no text of records, or with the number of
its first record that is refused alone, unless this record strays. That holds whatever room
there is for nested values. -/
theorem instructionsOfJson_reading (text : String) (room : Nat) :
    Reading (Json.read text room) (instructionsOfJson text room) := by
  unfold instructionsOfJson
  cases hread : Json.read text room with
  | error e => exact .unread ((Json.read_reads text room).ends.of_error hread)
  | ok v =>
    cases v with
    | list items => exact .list (instructionsFrom_ending items)
    | _ => exact .noList fun items h => by cases h

/-- A list in place of a type is a fault that names no record. -/
theorem instructionsOfJson_listType :
    instructionsOfJson "[\x7b\"type\": []\x7d]" = .error .unusableValue := by
  decide +kernel

end Record

end DiagramScript
