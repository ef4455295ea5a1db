import Mathlib.Data.List.Perm.Basic

/-
  Look-up in lists of entries whose keys are all different: it does not depend on the order
  of the entries (`lookup_perm`), and entries that are not set are as good as not there
  (`lookup_filterMap`).
-/

namespace DiagramScript

/-- A key in a list of entries of which only those that are set are kept. -/
theorem lookup_filterMap {α : Type} {options : List (String × Option α)}
    (hn : (options.map (·.1)).Nodup) (key : String) :
    (options.filterMap fun (k, v) => v.map (k, ·)).lookup key = (options.lookup key).join := by
  induction options with
  | nil => rfl
  | cons o options ih =>
    obtain ⟨k, v⟩ := o
    rw [List.map_cons, List.nodup_cons] at hn
    obtain ⟨hk, hn⟩ := hn
    cases hkey : key == k with
    | false =>
      rw [List.lookup_cons, hkey]
      cases v with
      | none => exact ih hn
      | some v =>
        show List.lookup key ((k, v) :: _) = _
        rw [List.lookup_cons, hkey]
        exact ih hn
    | true =>
      rw [List.lookup_cons, hkey]
      cases v with
      | some v =>
        show List.lookup key ((k, v) :: _) = _
        rw [List.lookup_cons, hkey]
        rfl
      | none =>
        -- The option is not set, and no other one has its name.
        have hnone : options.lookup key = none := by
          rw [List.lookup_eq_none_iff]
          intro o ho
          rw [eq_of_beq hkey]
          have hne : o.1 ≠ k := fun h => hk (h ▸ List.mem_map_of_mem (f := (·.1)) ho)
          simpa using Ne.symm hne
        show List.lookup key (List.filterMap _ options) = _
        rw [ih hn, hnone]
        rfl

theorem lookup_map_value {α β : Type} (f : String → α → β) (entries : List (String × α))
    (key : String) :
    (entries.map fun (k, v) => (k, f k v)).lookup key = (entries.lookup key).map (f key) := by
  induction entries with
  | nil => rfl
  | cons e entries ih =>
    rw [List.map_cons, List.lookup_cons, List.lookup_cons, ih]
    cases hkey : key == e.1 with
    | true =>
      rw [eq_of_beq hkey]
      rfl
    | false => rfl

theorem lookup_map_snd {α β : Type} (f : α → β) (entries : List (String × α)) (key : String) :
    (entries.map fun (k, v) => (k, f v)).lookup key = (entries.lookup key).map f :=
  lookup_map_value (fun _ => f) entries key

theorem nodup_filterMap {α : Type} {options : List (String × Option α)}
    (hn : (options.map (·.1)).Nodup) :
    ((options.filterMap fun (k, v) => v.map (k, ·)).map (·.1)).Nodup := by
  refine hn.sublist ?_
  clear hn
  induction options with
  | nil => exact List.Sublist.slnil
  | cons o options ih =>
    obtain ⟨k, v⟩ := o
    cases v with
    | none => exact ih.cons k
    | some v => exact ih.cons_cons k

/-- Entries in another order are looked up in the same way. -/
theorem lookup_perm {α : Type} {xs ys : List (String × α)} (h : xs.Perm ys)
    (hn : (xs.map (·.1)).Nodup) (key : String) : xs.lookup key = ys.lookup key := by
  induction h with
  | nil => rfl
  | cons x _ ih =>
    rw [List.map_cons, List.nodup_cons] at hn
    rw [List.lookup_cons, List.lookup_cons, ih hn.2]
  | swap x y xs =>
    obtain ⟨a, v⟩ := x
    obtain ⟨b, w⟩ := y
    rw [List.map_cons, List.map_cons, List.nodup_cons] at hn
    have hne : b ≠ a := fun h => hn.1 (h ▸ List.mem_cons_self)
    rw [List.lookup_cons, List.lookup_cons, List.lookup_cons, List.lookup_cons]
    cases hb : key == b with
    | false => rfl
    | true =>
      have ha : (key == a) = false := by
        rw [eq_of_beq hb]
        exact beq_false_of_ne hne
      rw [ha]
  | trans h _ ih ih' => exact (ih hn).trans (ih' ((h.map _).nodup_iff.mp hn))

/-- The entries of a table that are set. -/
def given {α : Type} (table : List (String × Option α)) : List (String × α) :=
  table.filterMap fun (k, v) => v.map (k, ·)

theorem mem_given {α : Type} {table : List (String × Option α)} {key : String} {v : α} :
    (key, v) ∈ given table ↔ (key, some v) ∈ table := by
  constructor
  · intro h
    obtain ⟨⟨k, w⟩, hmem, he⟩ := List.mem_filterMap.mp h
    obtain ⟨w, rfl, hw⟩ := Option.map_eq_some_iff.mp he
    cases hw
    exact hmem
  · intro h
    exact List.mem_filterMap.mpr ⟨(key, some v), h, rfl⟩

theorem lookup_given {α : Type} {table : List (String × Option α)} {entries : List (String × α)}
    (h : entries.Perm (given table)) (hn : (table.map (·.1)).Nodup) (key : String) :
    entries.lookup key = (table.lookup key).join := by
  have hn' : (entries.map (·.1)).Nodup := ((h.map _).nodup_iff).mpr (nodup_filterMap hn)
  rw [lookup_perm h hn', given, lookup_filterMap hn]

end DiagramScript
