import DiagramScript.Svg
import Mathlib.Data.List.Basic

/-
  Laws of elements.

  An element has the attributes that it was given, in an order of their own and without the empty
  ones (`mem_arrange`). Whether it can be written depends on its numbers alone.
-/

namespace DiagramScript

namespace Svg

namespace Element

theorem mem_insertAttribute {a b : String × Attribute} {attributes : List (String × Attribute)} :
    b ∈ insertAttribute a attributes ↔ b = a ∨ b ∈ attributes := by
  induction attributes with
  | nil => simp [insertAttribute]
  | cons c rest ih =>
    unfold insertAttribute
    split
    · rw [List.mem_cons, ih, List.mem_cons, or_left_comm]
    · exact List.mem_cons

/-- An element has the attributes that it was given, but for the empty ones. -/
theorem mem_arrange {b : String × Attribute} {attributes : List (String × Attribute)} :
    b ∈ arrange attributes ↔ b ∈ attributes ∧ b.2.isEmpty = false := by
  have hinsert (kept : List (String × Attribute)) :
      b ∈ kept.foldr insertAttribute [] ↔ b ∈ kept := by
    induction kept with
    | nil => simp
    | cons a rest ih => rw [List.foldr_cons, mem_insertAttribute, ih, List.mem_cons]
  rw [arrange, hinsert, List.mem_filter, Bool.not_eq_true']

/-- Empty attributes, which are left out, can be written anyway. -/
theorem all_arrange (attributes : List (String × Attribute)) :
    (arrange attributes).all (·.2.isWritable) = attributes.all (·.2.isWritable) := by
  rw [Bool.eq_iff_iff, List.all_eq_true, List.all_eq_true]
  refine ⟨fun h b hb => ?_, fun h b hb => h b (mem_arrange.mp hb).1⟩
  cases hempty : b.2.isEmpty with
  | false => exact h b (mem_arrange.mpr ⟨hb, hempty⟩)
  | true =>
    cases hvalue : b.2 with
    | text s => rfl
    | number v =>
      rw [hvalue] at hempty
      cases hempty

@[simp] theorem isWritable_group (name : String) (attributes : List (String × Attribute))
    (children : List Element) : (group name attributes children).isWritable =
      (attributes.all (·.2.isWritable) && areWritable children) := by
  rw [group, isWritable, all_arrange]

@[simp] theorem isWritable_leaf (name text : String) (attributes : List (String × Attribute)) :
    (leaf name attributes text).isWritable = attributes.all (·.2.isWritable) := by
  rw [leaf, isWritable, all_arrange, areWritable, Bool.and_true]

@[simp] theorem areWritable_nil : areWritable [] = true := rfl

@[simp] theorem areWritable_cons (e : Element) (rest : List Element) :
    areWritable (e :: rest) = (e.isWritable && areWritable rest) := rfl

theorem areWritable_eq (elements : List Element) :
    areWritable elements = elements.all isWritable := by
  induction elements with
  | nil => rfl
  | cons e rest ih => rw [areWritable_cons, ih, List.all_cons]

end Element

@[simp] theorem isWritable_text (s : String) : (Attribute.text s).isWritable = true := rfl

@[simp] theorem isWritable_number (v : Scalar) : (Attribute.number v).isWritable = v.isWritable :=
  rfl

@[simp] theorem all_boxAttributes (x y w h : Scalar) :
    (boxAttributes x y w h).all (·.2.isWritable) =
      (x.isWritable && y.isWritable && w.isWritable && h.isWritable) := by
  simp [boxAttributes, Bool.and_assoc]

@[simp] theorem all_cornerAttributes (radius : ℕ) :
    (cornerAttributes radius).all (·.2.isWritable) = true := rfl

@[simp] theorem all_strokeAttributes (s : Shape) :
    (strokeAttributes s).all (·.2.isWritable) = true := by
  unfold strokeAttributes
  cases dashPattern? s.style.dash <;> rfl

@[simp] theorem all_thinStroke (s : Shape) : (thinStroke s).all (·.2.isWritable) = true := rfl

@[simp] theorem all_fillAttributes (color fill : Option String) :
    (fillAttributes color fill).all (·.2.isWritable) = true := by
  unfold fillAttributes
  cases coverOf fill <;> rfl

end Svg

end DiagramScript
