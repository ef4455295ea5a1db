import Mathlib.Data.List.Nodup
import Mathlib.Data.List.Perm.Basic
import DiagramScript.Page.Binding

/-
  Lists taken apart by a key and put together again.

  Every listing of bindings goes through the values of a side (a connector or a shape) and
  lists, for each, the links that have it. Over keys that do not repeat and that cover the
  list this only changes the order (`flatMap_filter_perm`); what belongs to one key keeps
  its order (`filter_groupBy`), so a grouped list grouped again is as it was
  (`groupBy_groupBy`).
-/

namespace DiagramScript

/-- A list grouped by a key, groups in the order of their first members. -/
def groupBy {α : Type} (f : α → String) (xs : List α) : List α :=
  (Link.distinct (xs.map f)).flatMap fun k => xs.filter (f · == k)

section Keys
variable {α κ : Type} [BEq κ] [LawfulBEq κ] {f : α → κ}

theorem flatMap_filter_perm {keys : List κ} {xs : List α} (hn : keys.Nodup)
    (hc : ∀ x ∈ xs, f x ∈ keys) : (keys.flatMap fun k => xs.filter (f · == k)).Perm xs := by
  induction keys generalizing xs with
  | nil =>
    have hx : xs = [] := List.eq_nil_iff_forall_not_mem.mpr fun x hx => by simpa using hc x hx
    subst hx
    exact .refl _
  | cons k keys ih =>
    obtain ⟨hk, hn⟩ := List.nodup_cons.mp hn
    -- The other keys see only what is left without the members of `k`.
    have hrest : (keys.flatMap fun k' => xs.filter (f · == k')) =
        keys.flatMap fun k' => (xs.filter (f · != k)).filter (f · == k') := by
      refine List.flatMap_congr fun k' hk' => ?_
      rw [List.filter_filter]
      refine List.filter_congr fun x _ => ?_
      by_cases hx : f x = k'
      · have hne : k' ≠ k := fun h => hk (h ▸ hk')
        simp [hx, hne]
      · simp [hx]
    have hleft : ∀ x ∈ xs.filter (f · != k), f x ∈ keys := by
      intro x hx
      obtain ⟨hx, hne⟩ := List.mem_filter.mp hx
      rcases List.mem_cons.mp (hc x hx) with h | h
      · simp [h] at hne
      · exact h
    rw [List.flatMap_cons, hrest]
    exact ((ih hn hleft).append_left _).trans (List.filter_append_perm (f · == k) xs)

theorem filter_flatMap_key {keys : List κ} (g : κ → List α) (hn : keys.Nodup)
    (hg : ∀ k, ∀ x ∈ g k, f x = k) (k : κ) :
    (keys.flatMap g).filter (f · == k) = if k ∈ keys then g k else [] := by
  induction keys with
  | nil => simp
  | cons k' keys ih =>
    obtain ⟨hk', hn⟩ := List.nodup_cons.mp hn
    rw [List.flatMap_cons, List.filter_append, ih hn]
    by_cases h : k = k'
    · subst h
      have hall : (g k).filter (f · == k) = g k :=
        List.filter_eq_self.mpr fun x hx => by simpa using hg k x hx
      simp [hall, hk']
    · have hnone : (g k').filter (f · == k) = [] := by
        refine List.filter_eq_nil_iff.mpr fun x hx => ?_
        rw [hg k' x hx]
        simpa using Ne.symm h
      simp [hnone, h]

end Keys

/-! ## First occurrences -/

theorem mem_distinct {s : String} {xs : List String} : s ∈ Link.distinct xs ↔ s ∈ xs := by
  induction xs with
  | nil => simp [Link.distinct]
  | cons x xs ih =>
    by_cases h : s = x
    · simp [Link.distinct, h]
    · simp [Link.distinct, h, ih]

theorem distinct_nodup (xs : List String) : (Link.distinct xs).Nodup := by
  induction xs with
  | nil => exact List.nodup_nil
  | cons x xs ih =>
    refine List.nodup_cons.mpr ⟨?_, ih.filter _⟩
    simp

theorem distinct_append_of_eq {k : String} {xs : List String} (h : ∀ x ∈ xs, x = k)
    (hne : xs ≠ []) (ys : List String) :
    Link.distinct (xs ++ ys) = k :: (Link.distinct ys).filter (· != k) := by
  induction xs with
  | nil => contradiction
  | cons x xs ih =>
    obtain rfl := h x List.mem_cons_self
    rw [List.cons_append, Link.distinct]
    congr 1
    by_cases hxs : xs = []
    · rw [hxs, List.nil_append]
    · rw [ih (fun y hy => h y (List.mem_cons_of_mem x hy)) hxs,
        List.filter_cons_of_neg (by simp), List.filter_filter]
      simp

theorem distinct_map_flatMap {α : Type} {f : α → String} {keys : List String}
    {g : String → List α} (hn : keys.Nodup)
    (hg : ∀ k ∈ keys, g k ≠ [] ∧ ∀ x ∈ g k, f x = k) :
    Link.distinct ((keys.flatMap g).map f) = keys := by
  induction keys with
  | nil => rfl
  | cons k keys ih =>
    obtain ⟨hk, hn⟩ := List.nodup_cons.mp hn
    obtain ⟨hne, hkey⟩ := hg k List.mem_cons_self
    -- All members of the first key come first, and no later one has this key.
    have hall : ∀ s ∈ (g k).map f, s = k := by
      intro s hs
      obtain ⟨x, hx, rfl⟩ := List.mem_map.mp hs
      exact hkey x hx
    rw [List.flatMap_cons, List.map_append, distinct_append_of_eq hall (by simpa using hne),
      ih hn fun k' hk' => hg k' (List.mem_cons_of_mem k hk')]
    congr 1
    refine List.filter_eq_self.mpr fun s hs => ?_
    have hsk : s ≠ k := fun h => hk (h ▸ hs)
    simpa using hsk

/-! ## Groups -/

section Groups
variable {α : Type} {f : α → String}

theorem groupBy_perm (f : α → String) (xs : List α) : (groupBy f xs).Perm xs :=
  flatMap_filter_perm (distinct_nodup _) fun _ hx => mem_distinct.mpr (List.mem_map_of_mem hx)

theorem mem_groupBy {x : α} {xs : List α} : x ∈ groupBy f xs ↔ x ∈ xs :=
  (groupBy_perm f xs).mem_iff

/-- The members of a key keep their order. -/
theorem filter_groupBy (xs : List α) (k : String) :
    (groupBy f xs).filter (f · == k) = xs.filter (f · == k) := by
  have hmem : ∀ k, ∀ x ∈ xs.filter (f · == k), f x = k :=
    fun k x hx => by simpa using (List.mem_filter.mp hx).2
  rw [groupBy, filter_flatMap_key _ (distinct_nodup _) hmem]
  by_cases h : k ∈ Link.distinct (xs.map f)
  · rw [if_pos h]
  · -- A key that is not listed has no members.
    rw [if_neg h]
    refine (List.filter_eq_nil_iff.mpr fun x hx hk => h ?_).symm
    rw [← (by simpa using hk : f x = k)]
    exact mem_distinct.mpr (List.mem_map_of_mem hx)

theorem groupBy_map {β : Type} (h : β → α) (xs : List β) :
    groupBy f (xs.map h) = (groupBy (f ∘ h) xs).map h := by
  simp only [groupBy, List.map_map, List.map_flatMap, List.filter_map]
  rfl

/-- Groups follow each other in the order of their keys. -/
theorem distinct_map_groupBy (xs : List α) :
    Link.distinct ((groupBy f xs).map f) = Link.distinct (xs.map f) := by
  refine distinct_map_flatMap (distinct_nodup _) fun k hk => ⟨?_, fun x hx => ?_⟩
  · obtain ⟨x, hx, rfl⟩ := List.mem_map.mp (mem_distinct.mp hk)
    exact List.ne_nil_of_mem (List.mem_filter.mpr ⟨hx, beq_self_eq_true _⟩)
  · simpa using (List.mem_filter.mp hx).2

theorem groupBy_groupBy (xs : List α) : groupBy f (groupBy f xs) = groupBy f xs := by
  rw [groupBy, distinct_map_groupBy]
  exact List.flatMap_congr fun k _ => filter_groupBy xs k

end Groups

/-! ## Listings -/

/-- A list taken apart by one key and, for each of those, grouped by another one. -/
def listing {α : Type} (f g : α → String) (keys : List String) (xs : List α) : List α :=
  keys.flatMap fun k => groupBy g (xs.filter (f · == k))

section Listings
variable {α : Type} {f g : α → String} {keys : List String}

theorem filter_listing (hn : keys.Nodup) (xs : List α) (k : String) :
    (listing f g keys xs).filter (f · == k) =
      if k ∈ keys then groupBy g (xs.filter (f · == k)) else [] := by
  refine filter_flatMap_key _ hn (fun k x hx => ?_) k
  simpa using (List.mem_filter.mp (mem_groupBy.mp hx)).2

/-- Listing once more only depends on the later keys. -/
theorem listing_listing {keys' : List String} (hn : keys.Nodup) (h : ∀ k ∈ keys', k ∈ keys)
    (xs : List α) : listing f g keys' (listing f g keys xs) = listing f g keys' xs := by
  refine List.flatMap_congr fun k hk => ?_
  rw [filter_listing hn, if_pos (h k hk), groupBy_groupBy]

/-- Keys without members may be left out. -/
theorem listing_filter {p : String → Bool} {xs : List α} (h : ∀ x ∈ xs, p (f x))
    (keys : List String) :
    listing f g (keys.filter p) xs = listing f g keys xs := by
  induction keys with
  | nil => rfl
  | cons k keys ih =>
    by_cases hk : p k
    · rw [List.filter_cons_of_pos hk]
      simp only [listing, List.flatMap_cons]
      exact congrArg _ ih
    · have hnone : xs.filter (f · == k) = [] := by
        refine List.filter_eq_nil_iff.mpr fun x hx hfx => hk ?_
        have hfx : f x = k := by simpa using hfx
        exact hfx ▸ h x hx
      rw [List.filter_cons_of_neg hk, ih]
      simp only [listing, List.flatMap_cons, hnone]
      rfl

theorem filter_filter_listing (hn : keys.Nodup) {xs : List α} (hc : ∀ x ∈ xs, f x ∈ keys)
    (a b : String) :
    (listing f g keys xs).filter (fun x => f x == a && g x == b) =
      xs.filter (fun x => f x == a && g x == b) := by
  -- One key after the other: the first has its group, in which the second keeps its order.
  have hboth (ys : List α) : ys.filter (fun x => f x == a && g x == b) =
      (ys.filter (f · == a)).filter (g · == b) := by
    rw [List.filter_filter]
    exact List.filter_congr fun x _ => Bool.and_comm _ _
  rw [hboth, hboth, filter_listing hn]
  by_cases ha : a ∈ keys
  · rw [if_pos ha, filter_groupBy]
  · have hnone : xs.filter (f · == a) = [] := by
      refine List.filter_eq_nil_iff.mpr fun x hx hfx => ha ?_
      have hfx : f x = a := by simpa using hfx
      exact hfx ▸ hc x hx
    rw [if_neg ha, hnone]

theorem listing_map {β : Type} (h : β → α) (xs : List β) :
    listing f g keys (xs.map h) = (listing (f ∘ h) (g ∘ h) keys xs).map h := by
  simp only [listing, List.map_flatMap, List.filter_map, groupBy_map]
  rfl

end Listings

end DiagramScript
