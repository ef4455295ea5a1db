import DiagramScript.Proofs.Lookup
import DiagramScript.Proofs.Page.ShapeRecord
import DiagramScript.Proofs.Page.Steps

/-
  Ids in records, in full and without their start.

  The record of a shape gives its id with or without the start of ids, and the page is the same
  (`addRecords_completes`). The record of a binding does not: all ids on a page are full, so a
  binding that names a shape without the start is refused. Giving ids in full therefore never
  spoils a load, and makes no difference to its outcome exactly where it fails in any case or
  every binding names its shapes in full already (`ofRecords_completes`).
-/

namespace DiagramScript
open List (Forall₂)

namespace Value

/-- A text as an id in full, unless it is empty; any other value as it is. -/
def inFull : Value → Value
  | text id => if id.isEmpty then text id else text (fullId id)
  | v => v

/-- The entries of a record with the ids under some keys in full. -/
def fullEntries (keys : List String) (entries : List (String × Value)) : List (String × Value) :=
  entries.map fun (key, v) => (key, if keys.contains key then v.inFull else v)

/-- A record with the ids under some keys in full. -/
def withFullIds (keys : List String) : Value → Value
  | object entries => object (fullEntries keys entries)
  | v => v

/-- The second record is the first one with the ids under any of some keys in full. -/
def Completes (keys : List String) (v w : Value) : Prop :=
  ∃ chosen, chosen ⊆ keys ∧ w = v.withFullIds chosen

/-- A record of a binding names the connector and the shape by full ids. -/
def NamesInFull (v : Value) : Prop :=
  ∀ entries, v = object entries → ∀ key ∈ ["fromId", "toId"], ∀ id,
    entries.lookup key = some (text id) → fullId id = id

theorem filledText?_inFull (v : Value) : v.inFull.filledText? = v.filledText?.map fullId := by
  cases v with
  | text id =>
    by_cases hempty : id = ""
    · subst hempty
      rfl
    · have hfull : fullId id ≠ "" := ne_empty_of_fullId (fullId_fullId id)
      simp [inFull, filledText?, hempty, hfull]
  | _ => rfl

theorem lookup_fullEntries (keys : List String) (entries : List (String × Value)) (key : String) :
    (fullEntries keys entries).lookup key =
      if key ∈ keys then (entries.lookup key).map inFull else entries.lookup key := by
  have hlookup := lookup_map_value
    (fun key (v : Value) => if keys.contains key then v.inFull else v) entries key
  rw [fullEntries, hlookup]
  by_cases hkey : key ∈ keys
  · simp [hkey]
  · simp [hkey]

theorem inFull_eq_self {v : Value} (h : ∀ id, v = text id → fullId id = id) : v.inFull = v := by
  cases v with
  | text id =>
    rw [inFull, h id rfl]
    exact ite_self _
  | _ => rfl

end Value

namespace Page
open Value (Completes)
variable {p q : Page}

/-! ## Shapes -/

theorem shapeOfFields_congr {r r' : Fields} (hid : p.recordId r' = p.recordId r)
    (h : ∀ key, key ≠ "id" → r'.lookup key = r.lookup key) (index : Nat) :
    p.shapeOfFields r' index = p.shapeOfFields r index := by
  -- All fields but the id are looked up under other keys.
  have htext (key : String) (hkey : key ≠ "id") : textField? r' key = textField? r key := by
    rw [textField?, textField?, h key hkey]
  have hnumber (key : String) (hkey : key ≠ "id") :
      numberField r' key index = numberField r key index := by
    rw [numberField, numberField, h key hkey]
  have hpoint (key : String) (hkey : key ≠ "id") :
      pointField r' key index = pointField r key index := by
    rw [pointField, pointField, h key hkey]
  have hname : kindName r' index = kindName r index := by
    simp only [kindName, firstOf?, List.findSome?_cons, List.findSome?_nil,
      h "type" (by decide), h "kind" (by decide), htext "geo" (by decide)]
  have hlabel : recordLabel r' = recordLabel r := by
    simp only [recordLabel, firstOf?, List.findSome?_cons, List.findSome?_nil,
      h "label" (by decide), h "name" (by decide), h "text" (by decide)]
  have hstyle : Style.ofTable (textField? r') = Style.ofTable (textField? r) := by
    simp only [Style.ofTable, htext "color" (by decide), htext "fill" (by decide),
      htext "dash" (by decide), htext "font" (by decide), htext "size" (by decide)]
  simp only [shapeOfFields, hid, hname, hlabel, hstyle, hnumber "x" (by decide),
    hnumber "y" (by decide), hnumber "w" (by decide), hnumber "h" (by decide),
    hpoint "start" (by decide), hpoint "end" (by decide)]

/-- A record gives the same shape with its id in full. -/
theorem addRecord_completes {v w : Value} (h : Completes ["id"] v w) (p : Page) (index : Nat) :
    p.addRecord w index = p.addRecord v index := by
  obtain ⟨chosen, hchosen, rfl⟩ := h
  cases v with
  | object r =>
    let r' : Fields := Value.fullEntries chosen r
    have hothers (key : String) (hkey : key ≠ "id") : r'.lookup key = r.lookup key := by
      rw [Value.lookup_fullEntries, if_neg]
      exact fun hmem => hkey (List.mem_singleton.mp (hchosen hmem))
    -- An id in full stays as it is.
    have hid : p.recordId r' = p.recordId r := by
      rw [recordId, recordId, Value.lookup_fullEntries]
      by_cases hkey : "id" ∈ chosen
      · rw [if_pos hkey]
        cases r.lookup "id" with
        | none => rfl
        | some v =>
          rw [Option.map_some, Option.bind_some, Option.bind_some, Value.filledText?_inFull]
          cases v.filledText? with
          | none => rfl
          | some id => exact fullId_fullId id
      · rw [if_neg hkey]
    show (do let s ← p.shapeOfFields r' index; p.add s) = _
    rw [shapeOfFields_congr hid hothers]
    rfl
  | _ => rfl

theorem addRecords_completes {vs ws : List Value} (h : Forall₂ (Completes ["id"]) vs ws)
    (p : Page) (index : Nat) : p.addRecords index ws = p.addRecords index vs := by
  induction h generalizing p index with
  | nil => rfl
  | cons hvw _ ih =>
    rw [addRecords, addRecords, addRecord_completes hvw]
    congr 1
    funext q
    exact ih q (index + 1)

theorem addRecords_full {vs : List Value} {index : Nat} (h : p.addRecords index vs = .ok q)
    (hp : ∀ id ∈ p.ids, fullId id = id) : ∀ id ∈ q.ids, fullId id = id := by
  refine addRecords_induction (P := fun p => ∀ id ∈ p.ids, fullId id = id) h hp ?_
  intro p q r index s hp hs hadd id hid
  obtain ⟨-, rfl⟩ := add_eq_ok.mp hadd
  rcases List.mem_append.mp hid with hid | hid
  · exact hp id hid
  · rw [List.mem_singleton.mp hid]
    exact (storable_of_fields hs).id_full

/-! ## Bindings -/

theorem bindRecord_completes {v w : Value} (h : Completes ["fromId", "toId"] v w)
    (hv : v.NamesInFull) (p : Page) : p.bindRecord w = p.bindRecord v := by
  obtain ⟨chosen, hchosen, rfl⟩ := h
  cases v with
  | object r =>
    let r' : Fields := Value.fullEntries chosen r
    have hsame (key : String) : r'.lookup key = r.lookup key := by
      rw [Value.lookup_fullEntries]
      split
      · rename_i hkey
        cases hval : r.lookup key with
        | none => rfl
        | some u =>
          refine congrArg some (Value.inFull_eq_self fun id hid => ?_)
          exact hv r rfl key (hchosen hkey) id (hval.trans (congrArg some hid))
      · rfl
    show p.bindRecord (.object r') = p.bindRecord (.object r)
    simp only [bindRecord, bindingField, hsame]
  | _ => rfl

/-- A record whose binding can be made names its shapes in full. -/
theorem namesInFull_of_bindRecord {v : Value} (hp : ∀ id ∈ p.ids, fullId id = id)
    (h : p.bindRecord v = .ok q) : v.NamesInFull := by
  obtain ⟨b, hb, hbind⟩ := bindRecord_eq_ok.mp h
  obtain ⟨hconnector, hshape, -⟩ := bind_eq_ok.mp hbind
  rintro r rfl key hkey id hid
  simp only [recordedBinding?, Option.bind_eq_bind, Option.bind_eq_some_iff,
    bindingOf?_eq_some] at hb
  obtain ⟨c, hc, s, hs, t, -, rfl, rfl, -⟩ := hb
  simp only [List.mem_cons, List.not_mem_nil, or_false] at hkey
  rcases hkey with rfl | rfl
  · rw [hc, Option.some.injEq, Value.text.injEq] at hid
    exact hid ▸ hp _ hconnector
  · rw [hs, Option.some.injEq, Value.text.injEq] at hid
    exact hid ▸ hp _ hshape

theorem namesInFull_of_bindRecords {vs : List Value} (hp : ∀ id ∈ p.ids, fullId id = id)
    (h : vs.foldlM bindRecord p = .ok q) : ∀ v ∈ vs, v.NamesInFull := by
  induction vs generalizing p with
  | nil => exact fun v hv => by cases hv
  | cons v vs ih =>
    rw [List.foldlM_cons, Outcome.bind_eq_ok] at h
    obtain ⟨m, hm, h⟩ := h
    have hids : m.ids = p.ids := by
      obtain ⟨b, -, hbind⟩ := bindRecord_eq_ok.mp hm
      obtain ⟨-, -, rfl⟩ := bind_eq_ok.mp hbind
      rfl
    exact List.forall_mem_cons.mpr ⟨namesInFull_of_bindRecord hp hm, ih (hids ▸ hp) h⟩

theorem bindRecords_completes {vs ws : List Value}
    (h : Forall₂ (Completes ["fromId", "toId"]) vs ws) (hvs : ∀ v ∈ vs, v.NamesInFull)
    (p : Page) : ws.foldlM bindRecord p = vs.foldlM bindRecord p := by
  induction h generalizing p with
  | nil => rfl
  | cons hvw _ ih =>
    obtain ⟨hv, hvs⟩ := List.forall_mem_cons.mp hvs
    rw [List.foldlM_cons, List.foldlM_cons, bindRecord_completes hvw hv]
    congr 1
    funext q
    exact ih hvs q

/-! ## Loads -/

theorem ofRecords_list (shapes bindings : List Value) : ofRecords (.list shapes) (.list bindings) =
    empty.addRecords 0 shapes >>= fun p => bindings.foldlM bindRecord p := rfl

/-- Giving ids in full changes nothing in the records of shapes. In those of bindings it never
spoils a load; and a load that succeeds with it succeeds without it, with the same page, exactly
if every binding names its shapes in full already. -/
theorem ofRecords_completes {shapes shapes' bindings bindings' : List Value}
    (hshapes : Forall₂ (Completes ["id"]) shapes shapes')
    (hbindings : Forall₂ (Completes ["fromId", "toId"]) bindings bindings') :
    (∀ vs, ofRecords (.list shapes') (.list vs) = ofRecords (.list shapes) (.list vs)) ∧
      (∀ p, ofRecords (.list shapes) (.list bindings) = .ok p →
        ofRecords (.list shapes') (.list bindings') = .ok p) ∧
      ∀ p, ofRecords (.list shapes') (.list bindings') = .ok p →
        (ofRecords (.list shapes) (.list bindings) = .ok p ↔ ∀ v ∈ bindings, v.NamesInFull) := by
  have hids : ∀ vs, ofRecords (.list shapes') (.list vs) = ofRecords (.list shapes) (.list vs) := by
    intro vs
    rw [ofRecords_list, ofRecords_list, addRecords_completes hshapes]
  have hnamed {p : Page} (h : ofRecords (.list shapes) (.list bindings) = .ok p) :
      ∀ v ∈ bindings, v.NamesInFull := by
    obtain ⟨m, hm, hp⟩ := Outcome.bind_eq_ok.mp (ofRecords_list shapes bindings ▸ h)
    exact namesInFull_of_bindRecords (addRecords_full hm fun id hid => by cases hid) hp
  have hsame (h : ∀ v ∈ bindings, v.NamesInFull) :
      ofRecords (.list shapes') (.list bindings') = ofRecords (.list shapes) (.list bindings) := by
    rw [hids, ofRecords_list, ofRecords_list]
    congr 1
    funext p
    exact bindRecords_completes hbindings h p
  exact ⟨hids, fun p h => (hsame (hnamed h)).trans h,
    fun p h => ⟨hnamed, fun hall => (hsame hall).symm.trans h⟩⟩

/-- Ids with and without their start, and a shape that gets the next one. -/
theorem ofRecords_completes_mixed :
    let box : Value := .object [("kind", .text "rect")]
    let note : Value := .object [("type", .text "note"), ("id", .text "a")]
    let arrow (id : String) : Value := .object [("id", .text id), ("type", .text "arrow")]
    let bindings : List Value := [
      .object [("fromId", .text "shape:c"), ("toId", .text "shape:a"), ("terminal", .text "end")],
      .object [("fromId", .text "shape:c"), ("toId", .text "shape:3"), ("terminal", .null)]]
    Forall₂ (Completes ["id"]) [arrow "c", note, box] [arrow "shape:c", note, box] ∧
      Forall₂ (Completes ["fromId", "toId"]) bindings bindings ∧
        ∃ p, p.bindings = [⟨"shape:c", "shape:a", .text "end"⟩, ⟨"shape:c", "shape:3", .unnamed⟩] ∧
          ofRecords (.list [arrow "shape:c", note, box]) (.list bindings) = .ok p ∧
            ofRecords (.list [arrow "c", note, box]) (.list bindings) = .ok p ∧
              ∀ v ∈ bindings, v.NamesInFull := by
  intro box note arrow bindings
  have hshapes : Forall₂ (Completes ["id"]) [arrow "c", note, box] [arrow "shape:c", note, box] :=
    .cons ⟨["id"], by simp, rfl⟩ (.cons ⟨[], by simp, rfl⟩ (.cons ⟨["id"], by simp, rfl⟩ .nil))
  have hbindings : Forall₂ (Completes ["fromId", "toId"]) bindings bindings :=
    .cons ⟨["toId"], by simp, rfl⟩ (.cons ⟨["fromId", "toId"], by simp, rfl⟩ .nil)
  obtain ⟨p, hp, hcheck⟩ := Outcome.exists_of_any
    (x := ofRecords (.list [arrow "shape:c", note, box]) (.list bindings))
    (p := fun p => p.bindings ==
      [⟨"shape:c", "shape:a", .text "end"⟩, ⟨"shape:c", "shape:3", .unnamed⟩])
    (by decide +kernel)
  obtain ⟨hids, -, hexactly⟩ := ofRecords_completes hshapes hbindings
  have hbare : ofRecords (.list [arrow "c", note, box]) (.list bindings) = .ok p :=
    (hids bindings).symm.trans hp
  exact ⟨hshapes, hbindings, p, eq_of_beq hcheck, hp, hbare, (hexactly p hp).mp hbare⟩

/-- A binding that names its shapes as their own records do is refused, and made where it names
them in full. -/
theorem ofRecords_bare_binding :
    let shapes : Value := .list [
      .object [("type", .text "arrow"), ("id", .text "c")],
      .object [("type", .text "rect"), ("id", .text "a")]]
    let binding (c a : String) : Value := .list [
      .object [("fromId", .text c), ("toId", .text a), ("terminal", .text "start")]]
    ofRecords shapes (binding "c" "a") = .error (.document (.unknownShape "c") none) ∧
      ∃ p, ofRecords shapes (binding (fullId "c") (fullId "a")) = .ok p ∧
        p.bindings = [⟨"shape:c", "shape:a", .text "start"⟩] := by
  intro shapes binding
  refine ⟨by decide +kernel, ?_⟩
  obtain ⟨p, hp, hcheck⟩ := Outcome.exists_of_any
    (x := ofRecords shapes (binding (fullId "c") (fullId "a")))
    (p := fun p => p.bindings == [⟨"shape:c", "shape:a", .text "start"⟩])
    (by decide +kernel)
  exact ⟨p, hp, eq_of_beq hcheck⟩

end Page

end DiagramScript
