import Mathlib.Data.List.Forall2
import Mathlib.Data.List.Induction
import DiagramScript.Page.Binding
import DiagramScript.Proofs.Scalar

/-
  Keys of links.

  A link without terminal gets the first free number as its key, and that number is the key
  of no link beside it (`freeKey_fresh`). Every list of links that bindings made is keyed:
  each link was new among the earlier ones and has the key that it would get there
  (`Keyed`, `Keyed.make`). Making the bindings of a keyed list once more therefore renews
  nothing and gives the same bindings in the same order (`Keyed.remake`).
-/

namespace DiagramScript

namespace Terminal

/-- Terminals that are the same as exactly the same others. -/
def Alike (s t : Terminal) : Prop := ∀ u, s.same u = t.same u

theorem same_symm {s t : Terminal} (h : s.same t) : t.same s := by
  cases s <;> cases t <;> simp only [same, beq_iff_eq, Bool.false_eq_true] at h ⊢
  · exact Scalar.same_symm h
  · exact h.symm

theorem same_trans {s t u : Terminal} (h : s.same t) (h' : t.same u) : s.same u := by
  cases s <;> cases t <;> cases u <;>
    simp only [same, beq_iff_eq, Bool.false_eq_true] at h h' ⊢
  · exact Scalar.same_trans h h'
  · exact h.trans h'

theorem same_comm (s t : Terminal) : s.same t = t.same s :=
  Bool.eq_iff_iff.mpr ⟨same_symm, same_symm⟩

theorem alike_of_same {s t : Terminal} (h : s.same t) : Alike s t := by
  intro u
  rw [Bool.eq_iff_iff]
  exact ⟨same_trans (same_symm h), same_trans h⟩

theorem Alike.same_right {s t : Terminal} (h : Alike s t) (u : Terminal) :
    u.same s = u.same t := by
  rw [same_comm u, h u, same_comm t]

end Terminal

namespace Link

/-! ## Free keys -/

/-- Looking for a free key only asks which numbers are keys, and only from the start on. -/
theorem freeKey_congr {links links' : List Link} {fuel n : Nat}
    (h : ∀ m, n ≤ m → links.any (·.key.same (.number (.whole m))) =
      links'.any (·.key.same (.number (.whole m)))) :
    freeKey links fuel n = freeKey links' fuel n := by
  induction fuel generalizing n with
  | zero => rfl
  | succ fuel ih =>
    rw [freeKey, freeKey, h n (Nat.le_refl n), ih fun m hm => h m (by omega)]

theorem le_freeKey (links : List Link) (fuel n : Nat) : n ≤ freeKey links fuel n := by
  induction fuel generalizing n with
  | zero => exact Nat.le_refl n
  | succ fuel ih =>
    rw [freeKey]
    split
    · have := ih (n + 1)
      omega
    · exact Nat.le_refl n

/-- A search that may go past every link finds a number that is no key. -/
theorem freeKey_fresh {links : List Link} {fuel n : Nat} (h : links.length ≤ fuel) :
    links.any (·.key.same (.number (.whole (freeKey links fuel n)))) = false := by
  induction fuel generalizing links n with
  | zero => simp [List.eq_nil_of_length_eq_zero (Nat.le_zero.mp h)]
  | succ fuel ih =>
    rw [freeKey]
    by_cases htaken : links.any (·.key.same (.number (.whole n)))
    · rw [if_pos htaken]
      -- The links without those of the key `n` are fewer and look the same past `n`.
      let others := links.filter fun l => !l.key.same (.number (.whole n))
      have hsame : ∀ m, n + 1 ≤ m → links.any (·.key.same (.number (.whole m))) =
          others.any (·.key.same (.number (.whole m))) := by
        intro m hm
        rw [List.any_filter]
        congr 1
        funext l
        cases hn : l.key.same (.number (.whole n)) with
        | false => simp
        | true =>
          have hne : l.key.same (.number (.whole m)) = false := by
            rw [Terminal.alike_of_same hn]
            show ((n : Int) == m) = false
            rw [beq_eq_false_iff_ne]
            omega
          simp [hne]
      have hfewer : others.length ≤ fuel := by
        obtain ⟨l, hl, hn⟩ := List.any_eq_true.mp htaken
        have : others.length < links.length :=
          List.length_filter_lt_length_iff_exists.mpr ⟨l, hl, by simp [hn]⟩
        omega
      rw [hsame _ (le_freeKey links fuel (n + 1)), freeKey_congr hsame]
      exact ih hfewer
    · rw [if_neg htaken]
      simpa using htaken

/-! ## Links between two sides -/

theorem any_isFor (links : List Link) (b : Binding) (key : Terminal) :
    links.any (isFor b key) = (between links b).any (·.key.same key) := by
  rw [between, List.any_filter]
  rfl

/-- The key of a binding depends on the links between its sides alone. -/
theorem keyFor_congr {links links' : List Link} {b : Binding}
    (h : between links b = between links' b) : keyFor links b = keyFor links' b := by
  simp only [keyFor, h]

/-- A link without terminal is always a new one. -/
theorem any_isFor_unnamed {links : List Link} {b : Binding} (h : b.terminal = .unnamed) :
    links.any (isFor b (keyFor links b)) = false := by
  rw [any_isFor, keyFor, h]
  exact freeKey_fresh (Nat.le_refl _)

theorem keyFor_named {links : List Link} {b : Binding} (h : b.terminal ≠ .unnamed) :
    keyFor links b = b.terminal := by
  unfold keyFor
  split
  · contradiction
  · rfl

/-! ## Links with keys that are alike -/

open List (Forall₂)

/-- Links with the same sides and with keys that are alike. -/
def Twin (l m : Link) : Prop :=
  l.connector = m.connector ∧ l.shape = m.shape ∧ l.key.Alike m.key

theorem between_twins {links links' : List Link} (h : Forall₂ Twin links links')
    (b : Binding) : Forall₂ Twin (between links b) (between links' b) := by
  induction h with
  | nil => exact .nil
  | @cons l m links links' hlm _ ih =>
    simp only [between, List.filter_cons, hlm.1, hlm.2.1]
    split
    · exact .cons hlm ih
    · exact ih

theorem any_key_twins {links links' : List Link} (h : Forall₂ Twin links links')
    (key : Terminal) : links.any (·.key.same key) = links'.any (·.key.same key) := by
  induction h with
  | nil => rfl
  | cons hlm _ ih => rw [List.any_cons, List.any_cons, ih, hlm.2.2 key]

theorem any_isFor_twins {links links' : List Link} (h : Forall₂ Twin links links')
    (b : Binding) (key : Terminal) : links.any (isFor b key) = links'.any (isFor b key) := by
  rw [any_isFor, any_isFor, any_key_twins (between_twins h b)]

theorem keyFor_twins {links links' : List Link} (h : Forall₂ Twin links links')
    (b : Binding) : keyFor links b = keyFor links' b := by
  have hb := between_twins h b
  unfold keyFor
  split
  · simp only [hb.length_eq, freeKey_congr fun m _ => any_key_twins hb _]
  · rfl

/-- A link with the terminal of a binding, if it is the one that the binding makes. -/
def renew (b : Binding) (key : Terminal) (l : Link) : Link :=
  if isFor b key l then { l with terminal := b.terminal } else l

theorem renew_twin (b : Binding) (key : Terminal) (l : Link) : Twin (renew b key l) l := by
  by_cases h : isFor b key l <;> simp [renew, h, Twin, Terminal.Alike]

/-! ## Keyed links -/

/-- Every link was new among the earlier ones and has the key that it would get there. -/
def Keyed (links : List Link) : Prop :=
  ∀ xs l ys, links = xs ++ l :: ys →
    xs.any (isFor l.toBinding l.key) = false ∧ l.key.Alike (keyFor xs l.toBinding)

namespace Keyed

theorem nil : Keyed [] := by
  intro xs l ys h
  simp at h

theorem append_singleton {links : List Link} {l : Link} :
    Keyed (links ++ [l]) ↔ Keyed links ∧
      links.any (isFor l.toBinding l.key) = false ∧ l.key.Alike (keyFor links l.toBinding) := by
  constructor
  · intro h
    refine ⟨fun xs m ys hm => h xs m (ys ++ [l]) (by simp [hm]), h links l [] rfl⟩
  · rintro ⟨h, hl⟩ xs m ys hm
    -- The link is the last one, or was there before.
    rcases List.eq_nil_or_concat ys with rfl | ⟨ys', k, rfl⟩
    · obtain ⟨rfl, hml⟩ := List.append_inj' hm rfl
      cases hml
      exact hl
    · have hm' : links ++ [l] = (xs ++ m :: ys') ++ [k] := by simpa using hm
      exact h xs m ys' (List.append_inj' hm' rfl).1

/-- Only the order of the links between the same two sides counts. -/
theorem of_between {links links' : List Link} (h : Keyed links)
    (hb : ∀ b, between links' b = between links b) : Keyed links' := by
  intro xs l ys hl
  have hsplit : between links l.toBinding =
      between xs l.toBinding ++ l :: between ys l.toBinding := by
    rw [← hb, hl, between, List.filter_append, List.filter_cons_of_pos (by simp)]
    rfl
  -- The same link in the first list, behind the same links between its two sides.
  obtain ⟨us, vs, rfl, hus, hvs⟩ := List.filter_eq_append_iff.mp hsplit
  obtain ⟨ws, zs, rfl, hws, -, -⟩ := List.filter_eq_cons_iff.mp hvs
  have hbefore : between (us ++ ws) l.toBinding = between xs l.toBinding := by
    have hnone : between ws l.toBinding = [] := List.filter_eq_nil_iff.mpr hws
    rw [between, List.filter_append, hus]
    show _ ++ between ws l.toBinding = _
    rw [hnone, List.append_nil]
  obtain ⟨hnew, hkey⟩ := h (us ++ ws) l zs (by simp)
  rw [any_isFor, hbefore, ← any_isFor] at hnew
  rw [keyFor_congr hbefore] at hkey
  exact ⟨hnew, hkey⟩

/-- Making a binding keeps links keyed: it adds a link with the key that is due to it, or
renews the terminal of the link that has this key. -/
theorem make {links : List Link} (h : Keyed links) (b : Binding) :
    Keyed (Link.make links b) := by
  simp only [Link.make]
  split
  · rename_i hany
    have hnamed : b.terminal ≠ .unnamed := by
      intro hb
      rw [any_isFor_unnamed hb] at hany
      cases hany
    rw [keyFor_named hnamed]
    show Keyed (links.map (renew b b.terminal))
    intro xs l ys hsplit
    obtain ⟨xs, zs, rfl, rfl, hzs⟩ := List.map_eq_append_iff.mp hsplit
    obtain ⟨l, ys, rfl, rfl, rfl⟩ := List.map_eq_cons_iff.mp hzs
    obtain ⟨hnew, hkey⟩ := h xs l ys rfl
    -- Renewing changes no side and no key, so nothing that keys depend on.
    have htwins : Forall₂ Twin (xs.map (renew b b.terminal)) xs :=
      List.forall₂_map_left_iff.mpr (List.forall₂_same.mpr fun l _ => renew_twin _ _ l)
    rw [any_isFor_twins htwins, keyFor_twins htwins]
    -- The renewed link has the terminal itself as its due key, which is alike.
    by_cases hl : isFor b b.terminal l
    · have hrenew : renew b b.terminal l = { l with terminal := b.terminal } := if_pos hl
      have hsame : l.key.same b.terminal := by
        simp only [isFor, Bool.and_eq_true] at hl
        exact hl.2
      rw [hrenew]
      refine ⟨hnew, ?_⟩
      have hdue : keyFor xs ⟨l.connector, l.shape, b.terminal⟩ = b.terminal :=
        keyFor_named hnamed
      show l.key.Alike (keyFor xs ⟨l.connector, l.shape, b.terminal⟩)
      rw [hdue]
      exact Terminal.alike_of_same hsame
    · have hkeep : renew b b.terminal l = l := if_neg hl
      rw [hkeep]
      exact ⟨hnew, hkey⟩
  · rename_i hany
    exact append_singleton.mpr ⟨h, by simpa using hany, fun u => rfl⟩

/-- Making the bindings of keyed links once more adds one link for each, in the same
order. -/
theorem remake {links : List Link} (h : Keyed links) :
    ((links.map (·.toBinding)).foldl Link.make []).map (·.toBinding) =
        links.map (·.toBinding) ∧
      Forall₂ Twin ((links.map (·.toBinding)).foldl Link.make []) links := by
  induction links using List.reverseRecOn with
  | nil => exact ⟨rfl, .nil⟩
  | append_singleton links l ih =>
    obtain ⟨hlinks, hnew, hkey⟩ := append_singleton.mp h
    obtain ⟨hmap, htwins⟩ := ih hlinks
    rw [List.map_append, List.foldl_append]
    generalize (links.map (·.toBinding)).foldl Link.make [] = made at hmap htwins
    have hdue : keyFor made l.toBinding = keyFor links l.toBinding := keyFor_twins htwins _
    -- No link made so far is the one of this binding, so it adds a new one.
    have hadds : Link.make made l.toBinding =
        made ++ [{ toBinding := l.toBinding, key := keyFor links l.toBinding }] := by
      have hfree : made.any (isFor l.toBinding (keyFor links l.toBinding)) = false := by
        rw [any_isFor_twins htwins, any_isFor, ← hnew, any_isFor]
        congr 1
        funext m
        exact (hkey.same_right m.key).symm
      rw [Link.make, hdue, hfree]
      rfl
    show (Link.make made l.toBinding).map _ = _ ∧ Forall₂ Twin (Link.make made l.toBinding) _
    rw [hadds]
    refine ⟨by simp [hmap], List.rel_append htwins (.cons ⟨rfl, rfl, fun u => ?_⟩ .nil)⟩
    exact (hkey u).symm

end Keyed

end Link

end DiagramScript
