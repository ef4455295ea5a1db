import DiagramScript.Fault
import Mathlib.Data.List.Forall2

/-
  Outcomes of sequences of computations: a sequence succeeds exactly where every part does,
  and ends as every part of it ends (`Ends`). Two sequences of the same form stay related where
  their parts are (`Follows`).
-/

namespace DiagramScript.Outcome

variable {α β : Type}

theorem bind_eq_ok {x : Except Fault α} {f : α → Except Fault β} {b : β} :
    (x >>= f) = .ok b ↔ ∃ a, x = .ok a ∧ f a = .ok b := by
  cases x with
  | error e => simp [bind, Except.bind]
  | ok a => simp [bind, Except.bind]

theorem map_eq_ok {x : Except Fault α} {f : α → β} {b : β} :
    (f <$> x) = .ok b ↔ ∃ a, x = .ok a ∧ f a = b := by
  cases x with
  | error e => simp [Functor.map, Except.map]
  | ok a => simp [Functor.map, Except.map]

theorem pure_eq_ok {a b : α} : (pure a : Except Fault α) = .ok b ↔ a = b := by
  simp [pure, Except.pure]

/-- What every step of a sequence keeps, the sequence keeps. -/
theorem foldlM_ok_induction {P : β → Prop} {f : β → α → Except Fault β} {xs : List α}
    (hstep : ∀ b, ∀ x ∈ xs, ∀ c, P b → f b x = .ok c → P c) {b c : β} (hb : P b)
    (h : xs.foldlM f b = .ok c) : P c := by
  induction xs generalizing b with
  | nil =>
    rw [List.foldlM_nil, pure_eq_ok] at h
    exact h ▸ hb
  | cons x xs ih =>
    rw [List.foldlM_cons, bind_eq_ok] at h
    obtain ⟨d, hd, h⟩ := h
    exact ih (fun b y hy => hstep b y (List.mem_cons_of_mem x hy))
      (hstep b x List.mem_cons_self d hb hd) h

theorem exists_of_any {x : Except Fault α} {p : α → Bool} (h : x.toOption.any p = true) :
    ∃ a, x = .ok a ∧ p a = true := by
  cases x with
  | error e => cases h
  | ok a => exact ⟨a, rfl, h⟩

theorem mem_of_mapM_ok {f : α → Except Fault β} {xs : List α} {ys : List β}
    (h : xs.mapM f = .ok ys) {y : β} (hy : y ∈ ys) : ∃ x ∈ xs, f x = .ok y := by
  induction xs generalizing ys with
  | nil =>
    rw [List.mapM_nil, pure_eq_ok] at h
    subst h
    cases hy
  | cons x xs ih =>
    simp only [List.mapM_cons, bind_eq_ok, pure_eq_ok] at h
    obtain ⟨z, hz, zs, hzs, rfl⟩ := h
    rcases List.mem_cons.mp hy with rfl | hy
    · exact ⟨x, List.mem_cons_self, hz⟩
    · obtain ⟨x', hx', h'⟩ := ih hzs hy
      exact ⟨x', List.mem_cons_of_mem x hx', h'⟩

/-- A mapping gives one value for each member, in their order. -/
theorem forall₂_of_mapM_ok {f : α → Except Fault β} {xs : List α} {ys : List β}
    (h : xs.mapM f = .ok ys) : List.Forall₂ (fun x y => f x = .ok y) xs ys := by
  induction xs generalizing ys with
  | nil =>
    rw [List.mapM_nil, pure_eq_ok] at h
    subst h
    exact .nil
  | cons x xs ih =>
    simp only [List.mapM_cons, bind_eq_ok, pure_eq_ok] at h
    obtain ⟨y, hy, ys, hys, rfl⟩ := h
    exact .cons hy (ih hys)

theorem map_of_mapM_ok {γ : Type} {f : α → Except Fault β} {g : β → γ} {k : α → γ} {xs : List α}
    {ys : List β} (h : xs.mapM f = .ok ys) (hf : ∀ x y, f x = .ok y → g y = k x) :
    ys.map g = xs.map k := by
  have hvalues := forall₂_of_mapM_ok h
  clear h
  induction hvalues with
  | nil => rfl
  | cons hxy _ ih => rw [List.map_cons, hf _ _ hxy, ih, List.map_cons]

/-- Two mappings of one list give pairs of values for its members. -/
theorem pairs_of_mapM_ok {γ : Type} {f : α → Except Fault β} {g : α → Except Fault γ}
    {xs : List α} {ys : List β} {zs : List γ} (hf : xs.mapM f = .ok ys)
    (hg : xs.mapM g = .ok zs) :
    ∃ pairs : List (β × γ), pairs.map (·.1) = ys ∧ pairs.map (·.2) = zs ∧
      List.Forall₂ (fun x p => f x = .ok p.1 ∧ g x = .ok p.2) xs pairs := by
  induction xs generalizing ys zs with
  | nil =>
    rw [List.mapM_nil, pure_eq_ok] at hf hg
    subst hf hg
    exact ⟨[], rfl, rfl, .nil⟩
  | cons x xs ih =>
    simp only [List.mapM_cons, bind_eq_ok, pure_eq_ok] at hf hg
    obtain ⟨y, hy, ys, hys, rfl⟩ := hf
    obtain ⟨z, hz, zs, hzs, rfl⟩ := hg
    obtain ⟨pairs, rfl, rfl, hpairs⟩ := ih hys hzs
    exact ⟨(y, z) :: pairs, rfl, rfl, .cons ⟨hy, hz⟩ hpairs⟩

theorem exists_of_forall₂ {R : α → β → Prop} {xs : List α} {ys : List β}
    (h : List.Forall₂ R xs ys) {x : α} (hx : x ∈ xs) : ∃ y ∈ ys, R x y := by
  induction h with
  | nil => cases hx
  | @cons a b as bs hab _ ih =>
    cases hx with
    | head => exact ⟨b, List.mem_cons_self, hab⟩
    | tail _ hx =>
      obtain ⟨y, hy, hR⟩ := ih hx
      exact ⟨y, List.mem_cons_of_mem b hy, hR⟩

theorem exists_forall₂ {R : α → β → Prop} {xs : List α} (h : ∀ x ∈ xs, ∃ y, R x y) :
    ∃ ys, List.Forall₂ R xs ys := by
  induction xs with
  | nil => exact ⟨[], .nil⟩
  | cons x xs ih =>
    obtain ⟨⟨y, hy⟩, hxs⟩ := List.forall_mem_cons.mp h
    obtain ⟨ys, hys⟩ := ih hxs
    exact ⟨y :: ys, .cons hy hys⟩

/-- Where every pair of members is related by way of something, the lists are related by way of a
list. -/
theorem exists_between {γ : Type} {S : α → β → Prop} {P : β → γ → Prop} {Q : α → γ → Prop}
    {xs : List α} {ys : List β} (h : List.Forall₂ S xs ys)
    (hS : ∀ x y, x ∈ xs → S x y → ∃ z, P y z ∧ Q x z) :
    ∃ zs, List.Forall₂ P ys zs ∧ List.Forall₂ Q xs zs := by
  induction h with
  | nil => exact ⟨[], .nil, .nil⟩
  | @cons x y xs ys hxy _ ih =>
    obtain ⟨z, hP, hQ⟩ := hS x y List.mem_cons_self hxy
    obtain ⟨zs, hPs, hQs⟩ := ih fun x' y' hx' => hS x' y' (List.mem_cons_of_mem x hx')
    exact ⟨z :: zs, .cons hP hPs, .cons hQ hQs⟩

theorem exists_of_mapM_ok {γ : Type} {P : β → γ → Prop} {Q : α → γ → Prop}
    {f : α → Except Fault β} {xs : List α} {ys : List β} (h : xs.mapM f = .ok ys)
    (hf : ∀ x ∈ xs, ∀ y, f x = .ok y → ∃ z, P y z ∧ Q x z) :
    ∃ zs, List.Forall₂ P ys zs ∧ List.Forall₂ Q xs zs :=
  exists_between (forall₂_of_mapM_ok h) fun x y hx hy => hf x hx y hy

/-! ## Ends -/

/-- How a computation ends: with a value or with a fault, each as described. -/
def Ends (fault : Fault → Prop) (value : α → Prop) : Except Fault α → Prop
  | .ok a => value a
  | .error e => fault e

namespace Ends
variable {fault : Fault → Prop} {value : α → Prop} {value' : β → Prop}

theorem of_ok {x : Except Fault α} {a : α} (h : Ends fault value x) (hx : x = .ok a) :
    value a := by
  rw [hx] at h
  exact h

theorem of_error {x : Except Fault α} {e : Fault} (h : Ends fault value x)
    (hx : x = .error e) : fault e := by
  rw [hx] at h
  exact h

theorem mono {fault' : Fault → Prop} {weaker : α → Prop} {x : Except Fault α}
    (h : Ends fault value x) (hf : ∀ e, fault e → fault' e) (hv : ∀ a, value a → weaker a) :
    Ends fault' weaker x := by
  cases x with
  | ok a => exact hv a h
  | error e => exact hf e h

theorem imp {weaker : α → Prop} {x : Except Fault α} (h : Ends fault value x)
    (hv : ∀ a, value a → weaker a) : Ends fault weaker x :=
  h.mono (fun _ he => he) hv

theorem bind {x : Except Fault α} {f : α → Except Fault β} (hx : Ends fault value x)
    (hf : ∀ a, value a → Ends fault value' (f a)) : Ends fault value' (x >>= f) := by
  cases x with
  | ok a => exact hf a hx
  | error e => exact hx

theorem map {x : Except Fault α} {f : α → β} (hx : Ends fault value x)
    (hf : ∀ a, value a → value' (f a)) : Ends fault value' (f <$> x) := by
  cases x with
  | ok a => exact hf a hx
  | error e => exact hx

theorem mapM {related : α → β → Prop} {f : α → Except Fault β} {xs : List α}
    (h : ∀ x ∈ xs, Ends fault (related x) (f x)) :
    Ends fault (List.Forall₂ related xs) (xs.mapM f) := by
  induction xs with
  | nil => exact .nil
  | cons x xs ih =>
    rw [List.mapM_cons]
    refine (h x List.mem_cons_self).bind fun y hy => ?_
    refine (ih fun x' hx' => h x' (List.mem_cons_of_mem x hx')).bind fun ys hys => ?_
    exact List.Forall₂.cons hy hys

end Ends

/-! ## Pairs of computations -/

/-- Where the first computation has a value, the second one has a related value. -/
def Follows (related : α → β → Prop) (x : Except Fault α) (y : Except Fault β) : Prop :=
  ∀ a, x = .ok a → ∃ b, y = .ok b ∧ related a b

namespace Follows
variable {α' β' : Type} {related : α → β → Prop} {related' : α' → β' → Prop}
  {x : Except Fault α} {y : Except Fault β}

theorem ok {a : α} {b : β} (h : related a b) : Follows related (.ok a) (.ok b) := by
  intro a' ha
  cases ha
  exact ⟨b, rfl, h⟩

theorem bind {f : α → Except Fault α'} {g : β → Except Fault β'} (h : Follows related x y)
    (hf : ∀ a b, related a b → Follows related' (f a) (g b)) :
    Follows related' (x >>= f) (y >>= g) := by
  intro c hc
  obtain ⟨a, ha, hc⟩ := bind_eq_ok.mp hc
  obtain ⟨b, hb, hab⟩ := h a ha
  obtain ⟨d, hd, hcd⟩ := hf a b hab c hc
  exact ⟨d, bind_eq_ok.mpr ⟨b, hb, hd⟩, hcd⟩

theorem map {f : α → α'} {g : β → β'} (h : Follows related x y)
    (hf : ∀ a b, related a b → related' (f a) (g b)) : Follows related' (f <$> x) (g <$> y) := by
  intro c hc
  obtain ⟨a, ha, rfl⟩ := map_eq_ok.mp hc
  obtain ⟨b, hb, hab⟩ := h a ha
  exact ⟨g b, map_eq_ok.mpr ⟨b, hb, rfl⟩, hf a b hab⟩

theorem same {f : α → Except Fault α'} {g : α → Except Fault β'}
    (h : ∀ a, Follows related' (f a) (g a)) : Follows related' (x >>= f) (x >>= g) :=
  bind (fun a ha => ⟨a, ha, rfl⟩) fun a _ hab => hab ▸ h a

theorem mapM {f : α' → Except Fault α} {g : β' → Except Fault β} {xs : List α'} {ys : List β'}
    (h : List.Forall₂ related' xs ys) (hf : ∀ x y, related' x y → Follows related (f x) (g y)) :
    Follows (List.Forall₂ related) (xs.mapM f) (ys.mapM g) := by
  induction h with
  | nil => exact ok .nil
  | cons hxy _ ih =>
    rw [List.mapM_cons, List.mapM_cons]
    exact (hf _ _ hxy).bind fun a b hab => ih.bind fun as bs habs => ok (.cons hab habs)

end Follows

end DiagramScript.Outcome
