import DiagramScript.Proofs.Drawable
import DiagramScript.Proofs.Page.Succession
import Mathlib.Data.List.Perm.Subperm

/-
  Ids that a batch generates.

  A shape that wants no id of its own gets a numbered one that is free on the page as it is by
  then (`idAmong_free`). The search for it has a bound, and ends where a search without one would
  end: at the least free number (`Finds`, `nextId_least`). Which ids a batch generates in this way
  can be told from the ids on the page, the number of its shapes and the instructions alone
  (`generatedIds`). What the search does not look at are the later instructions: one of them may
  want the very id that was generated. Of a batch whose own ids are new and all different this is
  all that can be said against its ids, and it is fatal (`apply_clashes`).
-/

namespace DiagramScript

/-- The id in full that an instruction wants for its shape. -/
def Instruction.ownId? (i : Instruction) : Option String := (Content.filled i.wantedId).map fullId

namespace Page
variable {p q : Page} {padding : Scalar}

/-! ## Free numbers -/

theorem numberedId_injective : Function.Injective numberedId := by
  intro m n h
  have htext : m.repr = n.repr := (String.append_right_inj _).mp h
  have hdigits : Nat.toDigits 10 m = Nat.toDigits 10 n := by
    simpa only [Nat.toList_repr] using congrArg String.toList htext
  calc
    m = Nat.ofDigitChars 10 (Nat.toDigits 10 m) 0 := Nat.ofDigitChars_ten_toDigits.symm
    _ = Nat.ofDigitChars 10 (Nat.toDigits 10 n) 0 := by rw [hdigits]
    _ = n := Nat.ofDigitChars_ten_toDigits

theorem freeNumber_taken {ids : List String} {fuel n : Nat}
    (h : numberedId (freeNumber ids fuel n) ∈ ids) : ∀ k ≤ fuel, numberedId (n + k) ∈ ids := by
  -- By induction on the fuel: the search goes past a number only where it is taken.
  induction fuel generalizing n with
  | zero =>
    intro k hk
    obtain rfl := Nat.le_zero.mp hk
    exact h
  | succ fuel ih =>
    rw [freeNumber] at h
    split at h
    · rename_i htaken
      intro k hk
      cases k with
      | zero => exact List.contains_iff_mem.mp htaken
      | succ k =>
        rw [← Nat.add_assoc, Nat.add_right_comm]
        exact ih h k (Nat.le_of_succ_le_succ hk)
    · rename_i hfree
      exact absurd (List.contains_iff_mem.mpr h) hfree

theorem taken_le {ids : List String} {n m : Nat} (h : ∀ k < m, numberedId (n + k) ∈ ids) :
    m ≤ ids.length := by
  let numbers := (List.range m).map fun k => numberedId (n + k)
  -- Ids of different numbers are different, so they fit on the page only if it has as many.
  have hnodup : numbers.Nodup :=
    List.nodup_range.map (numberedId_injective.comp fun _ _ h => Nat.add_left_cancel h)
  have hon : numbers ⊆ ids := by
    intro id hid
    obtain ⟨k, hk, rfl⟩ := List.mem_map.mp hid
    exact h k (List.mem_range.mp hk)
  have hlength := (hnodup.subperm hon).length_le
  simpa [numbers] using hlength

/-- There are more numbers in reach than ids on the page. -/
theorem freeNumber_free (ids : List String) (n : Nat) :
    numberedId (freeNumber ids ids.length n) ∉ ids := by
  intro htaken
  have hall := freeNumber_taken htaken
  have hle : ids.length + 1 ≤ ids.length := taken_le fun k hk => hall k (Nat.lt_succ_iff.mp hk)
  exact Nat.not_succ_le_self _ hle

/-- A search for a free number that goes on, one number at a time, until it comes to one ends at
some number. -/
inductive Finds (ids : List String) : Nat → Nat → Prop where
  | free {n : Nat} (h : numberedId n ∉ ids) : Finds ids n n
  | taken {n k : Nat} (h : numberedId n ∈ ids) (rest : Finds ids (n + 1) k) : Finds ids n k

theorem finds_freeNumber {ids : List String} {fuel n : Nat}
    (h : numberedId (freeNumber ids fuel n) ∉ ids) : Finds ids n (freeNumber ids fuel n) := by
  induction fuel generalizing n with
  | zero => exact .free h
  | succ fuel ih =>
    rw [freeNumber] at h ⊢
    split at h
    · rename_i htaken
      rw [if_pos htaken]
      exact .taken (List.contains_iff_mem.mp htaken) (ih h)
    · rename_i hfree
      rw [if_neg hfree]
      exact .free h

namespace Finds
variable {ids : List String} {n k : Nat}

theorem of_mem_iff {ids' : List String} (hids : ∀ id, id ∈ ids ↔ id ∈ ids') (h : Finds ids n k) :
    Finds ids' n k := by
  induction h with
  | free h => exact .free (mt (hids _).mpr h)
  | taken h _ ih => exact .taken ((hids _).mp h) ih

theorem isLeast (h : Finds ids n k) : IsLeast {m | n ≤ m ∧ numberedId m ∉ ids} k := by
  induction h with
  | free h => exact ⟨⟨le_rfl, h⟩, fun m hm => hm.1⟩
  | @taken n k h _ ih =>
    obtain ⟨⟨hle, hfree⟩, hleast⟩ := ih
    refine ⟨⟨Nat.le_of_succ_le hle, hfree⟩, fun m hm => hleast ⟨?_, hm.2⟩⟩
    -- The number in front is taken, so no free number is below the ones behind it.
    have hne : n ≠ m := fun heq => hm.2 (heq ▸ h)
    exact lt_of_le_of_ne hm.1 hne

theorem le_length (h : Finds ids n k) : k ≤ n + ids.length := by
  obtain ⟨⟨hle, -⟩, hleast⟩ := h.isLeast
  have hbehind : k - n ≤ ids.length := by
    refine taken_le (n := n) fun m hm => ?_
    by_contra hfree
    have := hleast ⟨Nat.le_add_right n m, hfree⟩
    omega
  omega

end Finds

/-- On a page whose ids are those of its shapes, the search for the next id ends at the least free
number past the number of shapes, which is at most twice that and one. A shape of that id can be
added. -/
theorem nextId_least (hids : ∀ id, id ∈ p.ids ↔ id ∈ p.shapes.map (·.id)) :
    ∃ k, Finds p.ids (p.shapes.length + 1) k ∧ p.nextId = numberedId k ∧
      IsLeast {m | p.shapes.length + 1 ≤ m ∧ numberedId m ∉ p.shapes.map (·.id)} k ∧
        k ≤ 2 * p.shapes.length + 1 ∧
          ∀ s : Shape, s.id = p.nextId → ∃ q, p.add s = .ok q ∧ q.shapes = p.shapes ++ [s] := by
  have hfree := freeNumber_free p.ids (p.shapes.length + 1)
  have hfinds := finds_freeNumber hfree
  have hshapes := hfinds.of_mem_iff hids
  refine ⟨_, hfinds, rfl, hshapes.isLeast, ?_, fun s hs => ?_⟩
  · have hle := hshapes.le_length
    rw [List.length_map] at hle
    omega
  · refine ⟨_, add_eq_ok.mpr ⟨hs ▸ hfree, rfl⟩, ?_⟩
    simp [shapes]

/-- Two of three shapes have the ids of the next numbers. -/
theorem nextId_least_row :
    let box (id : String) : Shape := { id, kind := .known .rectangle }
    let p : Page := { layers := [⟨0, box "shape:5"⟩, ⟨1, box "box"⟩, ⟨2, box "shape:4"⟩]
                      ids := ["shape:5", "box", "shape:4"] }
    (∀ id, id ∈ p.ids ↔ id ∈ p.shapes.map (·.id)) ∧ p.nextId = "shape:6" ∧
      ∃ k ≤ 7, Finds p.ids 4 k ∧ p.nextId = numberedId k ∧
        ∃ q, p.add (box "shape:6") = .ok q ∧ q.shapes = p.shapes ++ [box "shape:6"] := by
  intro box p
  have hids : ∀ id, id ∈ p.ids ↔ id ∈ p.shapes.map (·.id) := fun _ => Iff.rfl
  have hnext : p.nextId = "shape:6" := by decide +kernel
  obtain ⟨k, hfinds, hk, -, hle, hadd⟩ := nextId_least hids
  exact ⟨hids, hnext, k, hle, hfinds, hk, hadd (box "shape:6") hnext.symm⟩

/-- The id that a shape gets that wants none, among some ids and past a number of shapes. -/
def idAmong (ids : List String) (count : Nat) : String :=
  numberedId (freeNumber ids ids.length (count + 1))

theorem idAmong_free (ids : List String) (count : Nat) : idAmong ids count ∉ ids :=
  freeNumber_free ids _

/-! ## Ids of a batch -/

/-- The id that the shape of an instruction gets. -/
def givenId (ids : List String) (count : Nat) (i : Instruction) : String :=
  i.ownId?.getD (idAmong ids count)

/-- The id of an instruction, if it is a generated one. -/
def generatedId (ids : List String) (count : Nat) (i : Instruction) : List String :=
  if i.ownId?.isNone then [idAmong ids count] else []

theorem eq_givenId {ids : List String} {count : Nat} {i : Instruction} {id : String}
    (h : id ∈ generatedId ids count i) : id = givenId ids count i := by
  unfold generatedId at h
  split at h
  · rename_i hnone
    rw [List.mem_singleton.mp h, givenId, Option.isNone_iff_eq_none.mp hnone]
    rfl
  · cases h

/-- The ids that are generated for instructions on a page with some ids and a number of shapes. -/
def generatedIds : List String → Nat → List Instruction → List String
  | _, _, [] => []
  | ids, count, i :: is =>
    generatedId ids count i ++ generatedIds (ids ++ [givenId ids count i]) (count + 1) is

theorem newId_given {i : Instruction} {id : String}
    (h : p.newId i.wantedId i.line = .ok id) :
    id = givenId p.ids p.shapes.length i ∧
      ∀ own, i.ownId? = some own → own ∉ p.shapes.map (·.id) := by
  rcases newId_eq_ok.mp h with ⟨hnone, rfl⟩ | ⟨c, hc, hfree, rfl⟩
  · simp [givenId, Instruction.ownId?, hnone, nextId, idAmong]
  · rw [← Option.not_isSome_iff_eq_none, isSome_get?] at hfree
    simpa [givenId, Instruction.ownId?, hc] using hfree

theorem create_adds {i : Instruction} {id : String}
    (h : (create padding p i).result = .ok (q, id)) : p.newId i.wantedId i.line = .ok id ∧
      ∃ s : Shape, s.id = id ∧ q.shapes = p.shapes ++ [s] ∧ q.ids = p.ids ++ [id] := by
  -- Binding an end leaves the shapes and the ids alone.
  have hend {q r : Page} {connector terminal : String} {target : Option Shape}
      (h : (q.bindEnd connector terminal target).result = .ok r) :
      r.shapes = q.shapes ∧ r.ids = q.ids := by
    rcases bindEnd_eq_ok.mp h with ⟨-, rfl⟩ | ⟨t, -, hbind⟩
    · exact ⟨rfl, rfl⟩
    · obtain ⟨-, -, rfl⟩ := bind_eq_ok.mp hbind
      exact ⟨rfl, rfl⟩
  cases i with
  | shape i =>
    obtain ⟨s, hs, hadd, rfl⟩ := createShape_eq_ok.mp h
    obtain ⟨-, rfl⟩ := add_eq_ok.mp hadd
    exact ⟨(newShape_eq_ok hs).1, s, rfl, by simp [shapes], rfl⟩
  | connector i =>
    obtain ⟨s, a, b, p₁, p₂, hs, hadd, hstart, hfinish, rfl⟩ := createConnector_eq_ok.mp h
    obtain ⟨-, rfl⟩ := add_eq_ok.mp hadd
    obtain ⟨hshapes, hids⟩ := hend hstart
    obtain ⟨hshapes', hids'⟩ := hend hfinish
    refine ⟨(newConnector_eq_ok hs).1, s, rfl, ?_, hids'.trans hids⟩
    rw [hshapes', hshapes]
    simp [shapes]

theorem createAll_generated {is : List Instruction} {ids : List String}
    (h : (createAll padding p is).result = .ok (q, ids)) :
    p.shapes.map (·.id) ++ generatedIds p.ids p.shapes.length is ⊆ q.shapes.map (·.id) := by
  -- By induction on the instructions: what is generated is on the page in the end.
  induction is generalizing p ids with
  | nil =>
    cases h
    simp [generatedIds]
  | cons i is ih =>
    obtain ⟨p₁, id, ids, hfirst, hrest, rfl⟩ := createAll_cons_eq_ok.mp h
    obtain ⟨hid, s, rfl, hshapes, hids⟩ := create_adds hfirst
    obtain ⟨hgiven, -⟩ := newId_given hid
    have hall := ih hrest
    rw [hids, hshapes, List.length_append, List.length_singleton, hgiven] at hall
    intro id hmem
    apply hall
    rw [generatedIds] at hmem
    simp only [List.map_append, List.map_cons, List.map_nil, List.mem_append, List.mem_singleton,
      hgiven] at hmem ⊢
    rcases hmem with hmem | hmem | hmem
    · exact .inl (.inl hmem)
    · exact .inl (.inr (eq_givenId hmem))
    · exact .inr hmem

/-! ## Ids that come twice -/

/-- An instruction, on a line, wants an id that is generated for an earlier one. -/
def Clashes (ids : List String) (count : Nat) (is : List Instruction) (id : String)
    (line : LineNumber) : Prop :=
  ∃ before i after, is = before ++ i :: after ∧ i.ownId? = some id ∧ i.line = line ∧
    id ∈ generatedIds ids count before

/-- An error that is not that of an id that comes twice, but for some ids and lines. -/
def Blames (known : String → LineNumber → Prop) (e : Fault) : Prop :=
  ∀ id line, e = .document (.duplicateId id) line → known id line

instance (known : String → LineNumber → Prop) : Fault.Common (Blames known) where
  parse _ _ := by rintro _ _ ⟨⟩
  layout _ _ := by rintro _ _ ⟨⟩
  resolution _ _ := by rintro _ _ ⟨⟩
  unknownShape _ _ := by rintro _ _ ⟨⟩
  arithmetic _ := by rintro _ _ ⟨⟩
  outOfRange := by rintro _ _ ⟨⟩

/-- What is known in the middle of a batch of the ids that the other instructions want: they are
different, and those that are on the page are ids of shapes and were generated before. -/
structure Awaits (p : Page) (generated : List String) (is : List Instruction) : Prop where
  own_nodup : (is.filterMap Instruction.ownId?).Nodup
  drawn : ∀ id ∈ is.filterMap Instruction.ownId?, id ∈ p.ids → id ∈ p.shapes.map (·.id)
  generated : ∀ id ∈ is.filterMap Instruction.ownId?, id ∈ p.shapes.map (·.id) → id ∈ generated

theorem Awaits.next {generated : List String} {i : Instruction} {is : List Instruction}
    {id : String} (h : p.Awaits generated (i :: is))
    (hq : (create padding p i).result = .ok (q, id)) :
    q.Awaits (generated ++ generatedId p.ids p.shapes.length i) is := by
  obtain ⟨hid, s, rfl, hshapes, hids⟩ := create_adds hq
  obtain ⟨hgiven, -⟩ := newId_given hid
  have hrest : ∀ id ∈ is.filterMap Instruction.ownId?,
      id ∈ (i :: is).filterMap Instruction.ownId? := by
    intro id hmem
    rw [List.filterMap_cons]
    split
    · exact hmem
    · exact List.mem_cons_of_mem _ hmem
  refine ⟨?_, fun id hmem hon => ?_, fun id hmem hon => ?_⟩
  · refine h.own_nodup.sublist ?_
    rw [List.filterMap_cons]
    split
    · exact List.Sublist.refl _
    · exact List.sublist_cons_self _ _
  · rw [hshapes, List.map_append, List.mem_append]
    rw [hids, List.mem_append] at hon
    exact hon.imp (h.drawn id (hrest id hmem)) fun hon => hon
  · rw [hshapes, List.map_append, List.mem_append] at hon
    rcases hon with hon | hon
    · exact List.mem_append_left _ (h.generated id (hrest id hmem) hon)
    · -- A wanted id on the new shape is generated, as own ids are all different.
      apply List.mem_append_right
      rw [List.map_cons, List.map_nil, List.mem_singleton, hgiven] at hon
      cases hown : i.ownId? with
      | none => simp [generatedId, givenId, hown, hon]
      | some own =>
        have hnodup := h.own_nodup
        rw [List.filterMap_cons, hown, List.nodup_cons] at hnodup
        rw [givenId, hown, Option.getD_some] at hon
        exact absurd (hon ▸ hmem) hnodup.1

theorem Awaits.create {generated : List String} {i : Instruction} {is : List Instruction}
    (h : p.Awaits generated (i :: is)) : FailsOnly
      (Blames fun id line => i.ownId? = some id ∧ i.line = line ∧ id ∈ generated)
      (create padding p i).result := by
  have hmem (own : String) (hown : i.ownId? = some own) :
      own ∈ (i :: is).filterMap Instruction.ownId? :=
    List.mem_filterMap.mpr ⟨i, List.mem_cons_self, hown⟩
  refine create_drawable padding ?_ fun s hs => ?_
  · unfold newId
    split
    · exact .ok _
    · rename_i c hc
      have hown : i.ownId? = some (fullId c) := by rw [Instruction.ownId?, hc]; rfl
      refine Settles.ite (fun htaken => .error ?_) fun _ => .ok trivial
      -- An own id that is taken was generated for an earlier instruction.
      rintro _ _ ⟨⟩
      exact ⟨hown, rfl, h.generated _ (hmem _ hown) (isSome_get?.mp htaken)⟩
  · -- Whichever way the id was found, it is free.
    obtain ⟨hgiven, hfree⟩ := newId_given hs
    have hnew : s.id ∉ p.ids := by
      rw [hgiven, givenId]
      cases hown : i.ownId? with
      | none => exact idAmong_free _ _
      | some own => exact fun hon => hfree own hown (h.drawn own (hmem own hown) hon)
    rw [add_eq_ok.mpr ⟨hnew, rfl⟩]
    exact .ok _

theorem Awaits.createAll {generated : List String} {is : List Instruction}
    (h : p.Awaits generated is) : FailsOnly
      (Blames fun id line => ∃ before i after, is = before ++ i :: after ∧ i.ownId? = some id ∧
        i.line = line ∧ id ∈ generated ++ generatedIds p.ids p.shapes.length before)
      (createAll padding p is).result := by
  -- By induction on the instructions, with the ids that were generated so far.
  induction is generalizing p generated with
  | nil => exact .ok _
  | cons i is ih =>
    rw [result_createAll_cons]
    have hfirst : FailsOnly _ (Page.create padding p i).result := h.create
    refine FailsOnly.bind_ok (hfirst.mono (fun e he id line heq => ?_) fun _ _ => trivial)
      fun r hr => ?_
    · obtain ⟨hown, hline, hmem⟩ := he id line heq
      exact ⟨[], i, is, rfl, hown, hline, List.mem_append_left _ hmem⟩
    · obtain ⟨q, id⟩ := r
      refine FailsOnly.bind ((ih (h.next hr)).mono (fun e he id line heq => ?_)
        fun _ _ => trivial) fun _ => .ok _
      obtain ⟨before, j, after, rfl, hown, hline, hmem⟩ := he id line heq
      obtain ⟨hid, s, rfl, hshapes, hids⟩ := create_adds hr
      obtain ⟨hgiven, -⟩ := newId_given hid
      refine ⟨i :: before, j, after, rfl, hown, hline, ?_⟩
      rw [hids, hshapes, List.length_append, List.length_singleton, hgiven,
        List.append_assoc] at hmem
      exact hmem

/-- In a batch whose own ids are new and all different, an id comes twice only where an
instruction wants an id that was generated for an earlier one; and then the batch fails. -/
theorem apply_clashes {is : List Instruction}
    (hown : (is.filterMap Instruction.ownId?).Nodup)
    (hnew : ∀ id ∈ is.filterMap Instruction.ownId?, id ∉ p.ids ∧ id ∉ p.shapes.map (·.id))
    (padding : Scalar) :
    (∀ id line, (p.apply padding is).result = .error (.document (.duplicateId id) line) →
      Clashes p.ids p.shapes.length is id line) ∧
    (∀ id line, Clashes p.ids p.shapes.length is id line →
      ∀ r, (p.apply padding is).result ≠ .ok r) := by
  have hawaits : p.copy.Awaits [] is :=
    ⟨hown, fun id hid hon => absurd hon (hnew id hid).1,
      fun id hid hon => absurd hon (hnew id hid).2⟩
  refine ⟨fun id line herror => ?_, ?_⟩
  · have hblames : FailsOnly (Blames (Clashes p.ids p.shapes.length is))
        (p.apply padding is).result := by
      rw [result_apply]
      exact FailsOnly.bind hawaits.createAll fun r =>
        .bind (settleFrames_drawable r.1) fun _ => .ok _
    exact hblames.ends.of_error herror id line rfl
  · rintro id line ⟨before, i, after, rfl, hid, -, hmem⟩ ⟨q, ids⟩ hok
    obtain ⟨m, hm, -⟩ := apply_eq_ok.mp hok
    simp only [createAll_append, createAll, Report.result_bind, Report.result_pure,
      Outcome.bind_eq_ok] at hm
    obtain ⟨⟨m₁, ids₁⟩, hbefore, ⟨m₂, ids₂⟩, ⟨⟨m₃, id₃⟩, hi, -⟩, -⟩ := hm
    -- The generated id is on the page when its own instruction comes.
    have hon : id ∈ m₁.shapes.map (·.id) :=
      createAll_generated hbefore (List.mem_append_right _ hmem)
    exact (newId_given (create_adds hi).1).2 id hid hon

/-- A connector, a box that wants the next number in full, and a frame that wants the id that was
generated for the connector. -/
theorem apply_clashes_frame :
    let p : Page := { layers := [⟨0, { id := "shape:2", kind := .foreign "star" }⟩]
                      ids := ["shape:2"] }
    let is : List Instruction := [
      .connector { source := "0,0", target := "2", line := some 1 },
      .shape { kind := .rectangle, position := some ⟨0, 0⟩, id := some "shape:4", line := some 2 },
      .shape { kind := .frame, position := some ⟨0, 0⟩, id := some "3", line := some 3 }]
    (is.filterMap Instruction.ownId?).Nodup ∧
      (∀ id ∈ is.filterMap Instruction.ownId?, id ∉ p.ids ∧ id ∉ p.shapes.map (·.id)) ∧
        Clashes p.ids p.shapes.length is "shape:3" (some 3) ∧
          ∀ r, (p.apply 8 is).result ≠ .ok r := by
  intro p is
  have hown : (is.filterMap Instruction.ownId?).Nodup := by decide +kernel
  have hnew : ∀ id ∈ is.filterMap Instruction.ownId?, id ∉ p.ids ∧ id ∉ p.shapes.map (·.id) := by
    decide +kernel
  have herror : (p.apply 8 is).result = .error (.document (.duplicateId "shape:3") (some 3)) := by
    decide +kernel
  obtain ⟨hclashes, hfails⟩ := apply_clashes hown hnew 8
  have hclash := hclashes _ _ herror
  exact ⟨hown, hnew, hclash, hfails _ _ hclash⟩

/-- A box without an id gets the number that the next box wants. -/
theorem apply_generated_wanted :
    let is : List Instruction := [
      .shape { kind := .rectangle, position := some ⟨0, 0⟩, line := some 1 },
      .shape { kind := .rectangle, position := some ⟨300, 0⟩, id := some "1", line := some 2 }]
    (is.filterMap Instruction.ownId?).Nodup ∧
      (∀ id ∈ is.filterMap Instruction.ownId?,
        id ∉ Page.empty.ids ∧ id ∉ Page.empty.shapes.map (·.id)) ∧
          (Page.empty.apply 8 is).result =
            .error (.document (.duplicateId "shape:1") (some 2)) := by
  decide +kernel

end Page

end DiagramScript
