import DiagramScript.Proofs.Outcome

/-
  Computations that settle.

  A computation settles with some faults and some values where it fails with one of the faults
  or ends with one of the values. Computations that settle are put together step by step
  (`bind`), as they are written. A computation that fails with errors of the library only
  (`Fault.Own`) refuses its input, and never breaks on it.
-/

namespace DiagramScript

/-- The errors of the library: of the grammar, of a layout, of a connector end and of a page. -/
inductive Fault.Own : Fault → Prop where
  | parse (p : ParseProblem) (line : LineNumber) : Own (.parse p line)
  | layout (p : LayoutProblem) (block : LineNumber) : Own (.layout p block)
  | resolution (token : String) (line : LineNumber) : Own (.resolution token line)
  | document (p : DocumentProblem) (line : LineNumber) : Own (.document p line)

/-- A computation fails with a fault or ends with a value, each as described. -/
structure Settles {α : Type} (fault : Fault → Prop) (value : α → Prop) (x : Except Fault α) :
    Prop where
  ends : Outcome.Ends fault value x

/-- A computation that does not fail. -/
abbrev Gives {α : Type} (value : α → Prop) (x : Except Fault α) : Prop :=
  Settles (fun _ => False) value x

/-- A computation whose value is as described, unless it fails. -/
abbrev Yields {α : Type} (value : α → Prop) (x : Except Fault α) : Prop :=
  Settles (fun _ => True) value x

namespace Settles
variable {α β : Type} {fault : Fault → Prop} {value : α → Prop} {value' : β → Prop}

theorem ok {a : α} (h : value a) : Settles fault value (.ok a) := ⟨h⟩

theorem same (a : α) : Settles fault (· = a) (.ok a) := ok rfl

theorem error {e : Fault} (h : fault e) : Settles fault value (.error e) := ⟨h⟩

theorem bind {x : Except Fault α} {f : α → Except Fault β} (hx : Settles fault value x)
    (hf : ∀ a, value a → Settles fault value' (f a)) : Settles fault value' (x >>= f) :=
  ⟨hx.ends.bind fun a ha => (hf a ha).ends⟩

theorem map {x : Except Fault α} {f : α → β} (hx : Settles fault value x)
    (hf : ∀ a, value a → value' (f a)) : Settles fault value' (f <$> x) :=
  ⟨hx.ends.map hf⟩

theorem mono {fault' : Fault → Prop} {weaker : α → Prop} {x : Except Fault α}
    (h : Settles fault value x) (hf : ∀ e, fault e → fault' e)
    (hv : ∀ a, value a → weaker a) : Settles fault' weaker x :=
  ⟨h.ends.mono hf hv⟩

theorem imp {weaker : α → Prop} {x : Except Fault α} (h : Settles fault value x)
    (hv : ∀ a, value a → weaker a) : Settles fault weaker x :=
  h.mono (fun _ he => he) hv

/-- A mapping ends with values that are all as described. -/
theorem mapM {f : α → Except Fault β} {xs : List α}
    (h : ∀ x ∈ xs, Settles fault value' (f x)) :
    Settles fault (fun ys => ∀ y ∈ ys, value' y) (xs.mapM f) := by
  induction xs with
  | nil => exact ok fun y hy => by cases hy
  | cons x xs ih =>
    rw [List.mapM_cons]
    refine (h x List.mem_cons_self).bind fun y hy => ?_
    refine (ih fun x' hx' => h x' (List.mem_cons_of_mem x hx')).bind fun ys hys => ok ?_
    exact List.forall_mem_cons.mpr ⟨hy, hys⟩

/-- A mapping settles as its members do, one by one. -/
theorem mapM_of_forall₂ {γ : Type} {related : β → γ → Prop} {f : α → Except Fault β} {xs : List α}
    {zs : List γ} (h : List.Forall₂ (fun x z => Settles fault (related · z) (f x)) xs zs) :
    Settles fault (List.Forall₂ related · zs) (xs.mapM f) := by
  induction h with
  | nil => exact ok .nil
  | cons hx _ ih =>
    rw [List.mapM_cons]
    exact hx.bind fun y hy => ih.bind fun ys hys => ok (.cons hy hys)

/-- What every step keeps, the sequence keeps. -/
theorem foldlM {f : β → α → Except Fault β} {xs : List α}
    (h : ∀ b, value' b → ∀ x ∈ xs, Settles fault value' (f b x)) {b : β} (hb : value' b) :
    Settles fault value' (xs.foldlM f b) := by
  induction xs generalizing b with
  | nil => exact ok hb
  | cons x xs ih =>
    rw [List.foldlM_cons]
    refine (h b hb x List.mem_cons_self).bind fun c hc => ?_
    exact ih (fun d hd y hy => h d hd y (List.mem_cons_of_mem x hy)) hc

theorem ite {p : Prop} {_ : Decidable p} {x y : Except Fault α} (hx : p → Settles fault value x)
    (hy : ¬p → Settles fault value y) : Settles fault value (if p then x else y) := by
  by_cases h : p
  · rw [if_pos h]
    exact hx h
  · rw [if_neg h]
    exact hy h

/-- A computation that does not fail has a value. -/
theorem exists_ok {x : Except Fault α} (h : Gives value x) : ∃ a, x = .ok a ∧ value a := by
  cases x with
  | error e => exact h.ends.elim
  | ok a => exact ⟨a, rfl, h.ends⟩

theorem of_gives {x : Except Fault α} (h : Gives value x) : Settles fault value x :=
  h.mono (fun _ he => he.elim) fun _ ha => ha

/-- What is known of every value of a computation. -/
theorem of_forall_ok {x : Except Fault α} (h : ∀ a, x = .ok a → value a) : Yields value x := by
  cases x with
  | ok a => exact ok (h a rfl)
  | error e => exact error trivial

theorem any (x : Except Fault α) : Yields (fun _ => True) x := of_forall_ok fun _ _ => trivial

/-- What does not depend on the value of a step does not depend on the step. -/
theorem after {x : Except Fault α} {f : α → Except Fault β} (hf : ∀ a, Yields value' (f a)) :
    Yields value' (x >>= f) := (any x).bind fun a _ => hf a

theorem fails (e : Fault) : Yields value (.error e) := error trivial

theorem yields {x : Except Fault α} (h : Settles fault value x) : Yields value x :=
  h.mono (fun _ _ => trivial) fun _ ha => ha

theorem refuse (p : ParseProblem) (line : LineNumber) :
    Settles Fault.Own value (.error (p.on line)) :=
  error (.parse p line)

/-- What is known of the value otherwise can be added. -/
theorem also {more : α → Prop} {x : Except Fault α} (h : Settles fault value x)
    (hmore : ∀ a, x = .ok a → more a) : Settles fault (fun a => value a ∧ more a) x := by
  cases x with
  | error e => exact error h.ends
  | ok a => exact ok ⟨h.ends, hmore a rfl⟩

theorem of_ok {x : Except Fault α} {a : α} (h : Settles fault value x) (hx : x = .ok a) :
    value a := h.ends.of_ok hx

end Settles

end DiagramScript
