import DiagramScript.Page.Record
import DiagramScript.Proofs.Lookup
import DiagramScript.Proofs.Outcome
import DiagramScript.Proofs.Scalar

/-
  Records of shapes.

  Writing a shape and reading it back gives the shape, as far as a record keeps it: an end
  is kept only where the other one is there too (`shapeOfFields_shapeFields`). What is asked
  of the shape is what every shape that was read has (`storable_of_fields`).
-/

namespace DiagramScript

/-! ## Look-up of style options -/

theorem Style.lookup_entries (s : Style) (key : String) : s.entries.lookup key =
    (([("color", s.color), ("fill", s.fill), ("dash", s.dash), ("font", s.font),
      ("size", s.size)] : List (String × Option String)).lookup key).join :=
  lookup_filterMap (by simp) key

theorem Style.ofTable_entries (s : Style) : Style.ofTable (s.entries.lookup ·) = s := by
  simp only [ofTable, lookup_entries]
  rfl

/-! ## Names and ids -/

theorem fullId_append (text : String) : fullId (idStart ++ text) = idStart ++ text := by
  have hp : idStart.toList.isPrefixOf (idStart ++ text).toList := by
    rw [List.isPrefixOf_iff_prefix, String.toList_append]
    exact List.prefix_append _ _
  rw [fullId, if_pos hp]

theorem fullId_fullId (id : String) : fullId (fullId id) = fullId id := by
  by_cases h : idStart.toList.isPrefixOf id.toList
  · have hid : fullId id = id := by rw [fullId, if_pos h]
    rw [hid, hid]
  · have hid : fullId id = idStart ++ id := by rw [fullId, if_neg h]
    rw [hid, fullId_append]

/-- An id in full is not empty. -/
theorem ne_empty_of_fullId {id : String} (h : fullId id = id) : id ≠ "" := by
  rintro rfl
  exact absurd h (by decide)

theorem ShapeKind.name_ofName (name : String) : (ofName name).name = name := by
  unfold ofName
  split
  · rename_i k hk
    rw [Kind.ofKeyword?] at hk
    have hword := List.find?_some hk
    exact eq_of_beq hword
  · rfl

theorem ShapeKind.ofName_name_known (k : Kind) : ofName (known k).name = known k := by
  rw [name, ofName, Kind.ofKeyword?_keyword]

namespace Shape

/-- The numbers of a shape. -/
def numbers (s : Shape) : List Scalar :=
  [s.x, s.y, s.w, s.h] ++ (s.start.elim [] fun p => [p.x, p.y]) ++
    s.finish.elim [] fun p => [p.x, p.y]

/-- The shape as its record keeps it: with both ends or with none. -/
def recorded (s : Shape) : Shape :=
  if s.start.isSome ∧ s.finish.isSome then s else { s with start := none, finish := none }

/-- A shape that a record can hold. -/
structure Storable (s : Shape) : Prop where
  id_full : fullId s.id = s.id
  kind_named : s.kind.name ≠ "" ∧ s.kind.name ≠ "geo" ∧ ShapeKind.ofName s.kind.name = s.kind
  numbers : ∀ n ∈ s.numbers, n.isNumber

end Shape

namespace Page

/-! ## Single fields -/

theorem numberField_eq_ok {r : Fields} {key : String} {index : Nat} {n : Scalar}
    (h : numberField r key index = .ok n) : n.isNumber := by
  unfold numberField at h
  split at h
  · cases h
    exact Scalar.isNumber_zero
  · rename_i m _
    rw [Outcome.bind_eq_ok] at h
    obtain ⟨finite, hfinite, h⟩ := h
    split at h
    · rename_i hm
      cases h
      simp only [Bool.and_eq_true, Bool.not_eq_eq_eq_not, Bool.not_true] at hm
      exact Scalar.isNumber_iff.mpr ⟨hm.1 ▸ hfinite, hm.2⟩
    · cases h
  · cases h

theorem numberField_of_lookup {r : Fields} {key : String} {n : Scalar}
    (h : r.lookup key = some (.ofScalar n)) (hn : n.isNumber) (index : Nat) :
    numberField r key index = .ok n := by
  obtain ⟨hfinite, hflag⟩ := Scalar.isNumber_iff.mp hn
  have hvalue : Value.ofScalar n = .number n := by
    cases n with
    | flag b => cases hflag
    | _ => rfl
  rw [numberField, h, hvalue]
  show (n.isFinite >>= fun finite => _) = _
  rw [hfinite]
  show (if true && !n.isFlag then _ else _) = _
  rw [hflag]
  rfl

theorem pointField_eq_ok {r : Fields} {key : String} {index : Nat} {p : Point}
    (h : pointField r key index = .ok (some p)) : p.x.isNumber ∧ p.y.isNumber := by
  unfold pointField at h
  split at h
  · cases h
  · cases h
  · simp only [Outcome.bind_eq_ok] at h
    obtain ⟨x, hx, y, hy, h⟩ := h
    cases h
    exact ⟨numberField_eq_ok hx, numberField_eq_ok hy⟩
  · cases h

/-- The numbers of the points that were read. -/
theorem pointField_numbers {r : Fields} {key : String} {index : Nat} {p : Option Point}
    (h : pointField r key index = .ok p) {n : Scalar}
    (hn : n ∈ p.elim [] fun p => [p.x, p.y]) : n.isNumber := by
  cases p with
  | none => cases hn
  | some p =>
    obtain ⟨hx, hy⟩ := pointField_eq_ok h
    simp only [Option.elim, List.mem_cons, List.not_mem_nil, or_false] at hn
    rcases hn with rfl | rfl
    · exact hx
    · exact hy

theorem pointField_of_none {r : Fields} {key : String} (h : r.lookup key = none)
    (index : Nat) : pointField r key index = .ok none := by
  rw [pointField, h]

theorem pointField_of_lookup {r : Fields} {key : String} {p : Point}
    (h : r.lookup key = some (pointValue p)) (hx : p.x.isNumber) (hy : p.y.isNumber)
    (index : Nat) : pointField r key index = .ok (some p) := by
  let entries : Fields := [("x", .ofScalar p.x), ("y", .ofScalar p.y)]
  have hx : numberField entries "x" index = .ok p.x := numberField_of_lookup rfl hx index
  have hy : numberField entries "y" index = .ok p.y := numberField_of_lookup rfl hy index
  rw [pointField, h]
  show (numberField entries "x" index >>= fun x => numberField entries "y" index >>= fun y =>
    Except.ok (some (Point.mk x y))) = _
  rw [hx, hy]
  rfl

theorem kindName_eq_ok {r : Fields} {index : Nat} {name : String}
    (h : kindName r index = .ok name) : name ≠ "" ∧ name ≠ "geo" := by
  unfold kindName at h
  split at h
  · rename_i word _
    split at h
    · cases h
    · rename_i hempty
      split at h
      · cases h
        split <;> decide
      · rename_i hgeo
        cases h
        exact ⟨by simpa using hempty, hgeo⟩
  · cases h

/-! ## Whole records -/

theorem fullId_recordId (p : Page) (r : Fields) : fullId (p.recordId r) = p.recordId r := by
  unfold recordId
  split
  · exact fullId_fullId _
  · exact fullId_append _

/-- Shapes that were read from records can be written to records. -/
theorem storable_of_fields {p : Page} {r : Fields} {index : Nat} {s : Shape}
    (h : p.shapeOfFields r index = .ok s) : s.Storable := by
  simp only [shapeOfFields, Outcome.bind_eq_ok] at h
  obtain ⟨name, hname, x, hx, y, hy, w, hw, h', hh, start, hstart, finish, hfinish, h⟩ := h
  cases h
  refine ⟨?_, ?_, ?_⟩
  · exact fullId_recordId p r
  · obtain ⟨hempty, hgeo⟩ := kindName_eq_ok hname
    show (ShapeKind.ofName name).name ≠ "" ∧ (ShapeKind.ofName name).name ≠ "geo" ∧
      ShapeKind.ofName (ShapeKind.ofName name).name = ShapeKind.ofName name
    rw [ShapeKind.name_ofName]
    exact ⟨hempty, hgeo, rfl⟩
  · intro n hn
    simp only [Shape.numbers, List.mem_append, List.mem_cons, List.not_mem_nil, or_false] at hn
    rcases hn with ((rfl | rfl | rfl | rfl) | hn) | hn
    · exact numberField_eq_ok hx
    · exact numberField_eq_ok hy
    · exact numberField_eq_ok hw
    · exact numberField_eq_ok hh
    · exact pointField_numbers hstart hn
    · exact pointField_numbers hfinish hn

/-- What stands in the record of a shape behind its first keys. -/
theorem lookup_shapeFields (s : Shape) {key : String}
    (hk : key ∉ ["id", "type", "x", "y", "w", "h", "label"]) :
    (shapeFields s).lookup key =
      ((s.style.entries.lookup key).map .text).or ((endFields s).lookup key) := by
  have hfirst : List.lookup key [("id", Value.text s.id), ("type", .text s.kind.name),
      ("x", .ofScalar s.x), ("y", .ofScalar s.y), ("w", .ofScalar s.w), ("h", .ofScalar s.h),
      ("label", .text s.label)] = none := by
    rw [List.lookup_eq_none_iff]
    simpa using hk
  rw [shapeFields, List.lookup_append, List.lookup_append, hfirst, Option.none_or,
    lookup_map_snd]

theorem lookup_start (s : Shape) :
    (shapeFields s).lookup "start" = s.recorded.start.map pointValue := by
  rw [lookup_shapeFields s (by simp), Style.lookup_entries]
  show (endFields s).lookup "start" = _
  cases hstart : s.start <;> cases hfinish : s.finish <;>
    simp [endFields, Shape.recorded, hstart, hfinish]

theorem lookup_end (s : Shape) :
    (shapeFields s).lookup "end" = s.recorded.finish.map pointValue := by
  rw [lookup_shapeFields s (by simp), Style.lookup_entries]
  show (endFields s).lookup "end" = _
  cases hstart : s.start <;> cases hfinish : s.finish <;>
    simp [endFields, Shape.recorded, hstart, hfinish, List.lookup_cons]

theorem lookup_endFields (s : Shape) {key : String} (hstart : key ≠ "start")
    (hend : key ≠ "end") : (endFields s).lookup key = none := by
  unfold endFields
  split
  · simp [List.lookup_cons, beq_false_of_ne hstart, beq_false_of_ne hend]
  · rfl

theorem textField?_shapeFields (s : Shape) {key : String}
    (hk : key ∉ ["id", "type", "x", "y", "w", "h", "label"]) (hstart : key ≠ "start")
    (hend : key ≠ "end") : textField? (shapeFields s) key = s.style.entries.lookup key := by
  rw [textField?, lookup_shapeFields s hk, lookup_endFields s hstart hend, Option.or_none]
  cases s.style.entries.lookup key <;> rfl

/-- The style options of a record are those of the shape. -/
theorem style_shapeFields (s : Shape) :
    Style.ofTable (textField? (shapeFields s)) = s.style := by
  have hkey (key : String) (hk : key ∈ ["color", "fill", "dash", "font", "size"]) :
      textField? (shapeFields s) key = s.style.entries.lookup key := by
    refine textField?_shapeFields s ?_ ?_ ?_ <;> revert key <;> decide
  -- Both tables agree on the five names that a style is made of.
  rw [← Style.ofTable_entries s.style]
  rw [Style.ofTable, hkey "color" (by simp), hkey "fill" (by simp), hkey "dash" (by simp),
    hkey "font" (by simp), hkey "size" (by simp)]
  rfl

/-- The point of an end that is there is read back. -/
theorem pointField_recorded {r : Fields} {key : String} {p : Option Point}
    (h : r.lookup key = p.map pointValue)
    (hp : ∀ n ∈ p.elim [] fun p => [p.x, p.y], n.isNumber) (index : Nat) :
    pointField r key index = .ok p := by
  cases p with
  | none => exact pointField_of_none h index
  | some p =>
    have hx : p.x.isNumber := hp _ (by simp)
    have hy : p.y.isNumber := hp _ (by simp)
    exact pointField_of_lookup h hx hy index

/-- The record of a shape is read as the shape. -/
theorem shapeOfFields_shapeFields {s : Shape} (hs : s.Storable) (p : Page) (index : Nat) :
    p.shapeOfFields (shapeFields s) index = .ok s.recorded := by
  obtain ⟨hempty, hgeo, hkind⟩ := hs.kind_named
  have hname : kindName (shapeFields s) index = .ok s.kind.name := by
    show (if s.kind.name.isEmpty then _ else if s.kind.name = "geo" then _ else _) = _
    rw [if_neg (by simpa using hempty), if_neg hgeo]
  have hx : numberField (shapeFields s) "x" index = .ok s.x :=
    numberField_of_lookup rfl (hs.numbers _ (by simp [Shape.numbers])) index
  have hy : numberField (shapeFields s) "y" index = .ok s.y :=
    numberField_of_lookup rfl (hs.numbers _ (by simp [Shape.numbers])) index
  have hw : numberField (shapeFields s) "w" index = .ok s.w :=
    numberField_of_lookup rfl (hs.numbers _ (by simp [Shape.numbers])) index
  have hh : numberField (shapeFields s) "h" index = .ok s.h :=
    numberField_of_lookup rfl (hs.numbers _ (by simp [Shape.numbers])) index
  -- The numbers of the recorded shape are some of the numbers of the shape.
  have hrecorded : ∀ n ∈ s.recorded.numbers, n.isNumber := by
    intro n hn
    refine hs.numbers n ?_
    unfold Shape.recorded at hn
    split at hn
    · exact hn
    · simp only [Shape.numbers, Option.elim, List.append_nil] at hn ⊢
      exact List.mem_append_left _ (List.mem_append_left _ hn)
  have hstart : pointField (shapeFields s) "start" index = .ok s.recorded.start := by
    refine pointField_recorded (lookup_start s) (fun n hn => hrecorded n ?_) index
    exact List.mem_append_left _ (List.mem_append_right _ hn)
  have hfinish : pointField (shapeFields s) "end" index = .ok s.recorded.finish := by
    refine pointField_recorded (lookup_end s) (fun n hn => hrecorded n ?_) index
    exact List.mem_append_right _ hn
  have hid : p.recordId (shapeFields s) = s.id := by
    have hfilled : ((shapeFields s).lookup "id").bind Value.filledText? = some s.id :=
      if_neg (by simpa using ne_empty_of_fullId hs.id_full)
    rw [recordId, hfilled]
    exact hs.id_full
  rw [shapeOfFields, hname, hx, hy, hw, hh, hstart, hfinish, style_shapeFields, hid]
  show Except.ok (Shape.mk s.id (.ofName s.kind.name) s.x s.y s.w s.h s.label s.style
    s.recorded.start s.recorded.finish) = _
  rw [hkind, Shape.recorded]
  split <;> rfl

end Page

end DiagramScript
