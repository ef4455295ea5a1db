import DiagramScript.Proofs.Markup.Escape
import DiagramScript.Proofs.Text

/-
  Reading what was written.

  Between plain names and escaped values a tag ends where it was written to end, and is read as
  the tag that it is (`tag?_start`, `tag?_empty`). By induction on the tree a reader that comes
  across an element has read that element and is otherwise where it was (`reads_write`). So a tree
  with plain names is read as it was built (`read_write`).
-/

namespace DiagramScript

open Text (Letter)

namespace Svg.Element

/-- Attributes with their values as they are written. -/
def readings (attributes : List (String × Attribute)) : Readings :=
  attributes.map fun a => (a.1, Text.letters a.2.write.toList)

mutual

/-- An element as a reader should find it. -/
def seen : Element → Markup
  | .node name attributes text children =>
    .element name (readings attributes)
      ((if text.isEmpty then [] else [.text (Text.letters text.toList)]) ++ allSeen children)

def allSeen : List Element → List Markup
  | [] => []
  | e :: rest => seen e :: allSeen rest

end

/-- The signs that end a name. -/
def nameSigns : List Char := [' ', '"', '/', '<', '=', '>']

/-- Whether a name holds nothing that could be taken for the end of it. -/
def isPlain (name : String) : Bool := name.toList.all (! nameSigns.contains ·)

mutual

/-- Whether all names in an element are plain. -/
def hasPlainNames : Element → Bool
  | .node name attributes _ children =>
    isPlain name && (attributes.map (·.1)).all isPlain && havePlainNames children

/-- Whether all names in some elements are plain. -/
def havePlainNames : List Element → Bool
  | [] => true
  | e :: rest => hasPlainNames e && havePlainNames rest

end

theorem allSeen_eq (es : List Element) : allSeen es = es.map seen := by
  induction es with
  | nil => rfl
  | cons e es ih => rw [allSeen, ih, List.map_cons]

theorem havePlainNames_eq (es : List Element) : havePlainNames es = es.all hasPlainNames := by
  induction es with
  | nil => rfl
  | cons e es ih => rw [havePlainNames, ih, List.all_cons]

end Svg.Element

/-! ## Tags -/

namespace Markup
open Svg.Element (writeAttribute escapeText escapeValue readings nameSigns isPlain
  hasPlainNames havePlainNames allSeen)

section Tags
variable {name : String} {attributes : List (String × Svg.Attribute)}

theorem not_mem_of_isPlain (h : isPlain name = true) {sign : Char} (hsign : sign ∈ nameSigns) :
    sign ∉ name.toList := by
  intro hmem
  have hplain := List.all_eq_true.mp h sign hmem
  rw [List.contains_iff_mem.mpr hsign] at hplain
  cases hplain

theorem key?_written (name : String) : key? (' ' :: (name.toList ++ ['='])) = some name := by
  rw [key?, List.getLast?_concat, if_pos rfl, List.dropLast_concat, String.ofList_toList]

theorem attributes?_written (h : (attributes.map (·.1)).all isPlain = true) {rest : List Char}
    (hrest : ∀ c ∈ rest, c = ' ') :
    attributes? (Text.splitOn '"' (attributes.flatMap writeAttribute ++ rest)) =
      some (readings attributes) := by
  -- By induction on the attributes, each of which is cut off at its two quotes.
  induction attributes with
  | nil =>
    have hquote : '"' ∉ rest := fun hmem => absurd (hrest _ hmem) (by decide)
    have hblank : rest.all (· == ' ') = true :=
      List.all_eq_true.mpr fun c hc => beq_iff_eq.mpr (hrest c hc)
    rw [List.flatMap_nil, List.nil_append, Text.splitOn_of_not_mem hquote, attributes?, hblank]
    rfl
  | cons a rest' ih =>
    rw [List.map_cons, List.all_cons, Bool.and_eq_true] at h
    have hkey : '"' ∉ ' ' :: (a.1.toList ++ ['=']) := by
      have hname : '"' ∉ a.1.toList := not_mem_of_isPlain h.1 (by decide)
      simp [hname]
    have hvalue : '"' ∉ escapeValue a.2.write := not_mem_escapeValue (by decide) _
    have hcut : (a :: rest').flatMap writeAttribute ++ rest =
        (' ' :: (a.1.toList ++ ['='])) ++ '"' ::
          (escapeValue a.2.write ++ '"' :: (rest'.flatMap writeAttribute ++ rest)) := by
      simp [writeAttribute]
    rw [hcut, Text.splitOn_append, Text.splitOn_append, Text.splitOn_of_not_mem hkey,
      Text.splitOn_of_not_mem hvalue, List.singleton_append, List.singleton_append, attributes?,
      key?_written, escapeValue, unescape_escapeLetters spells_escapeValueChar, ih h.2]
    rfl

theorem named?_written (hname : isPlain name = true)
    (h : (attributes.map (·.1)).all isPlain = true) (rest : List Char)
    (hrest : ∀ c ∈ rest, c = ' ') :
    named? (name.toList ++ (attributes.flatMap writeAttribute ++ rest)) =
      some (name, readings attributes) := by
  have hsolid : ∀ c ∈ name.toList, (c != ' ') = true := fun c hc => by
    have hblank : ' ' ∉ name.toList := not_mem_of_isPlain hname (by decide)
    exact bne_iff_ne.mpr fun heq => hblank (heq ▸ hc)
  have hstop : (attributes.flatMap writeAttribute ++ rest).takeWhile (· != ' ') = [] ∧
      (attributes.flatMap writeAttribute ++ rest).dropWhile (· != ' ') =
        attributes.flatMap writeAttribute ++ rest := by
    cases attributes with
    | nil =>
      cases rest with
      | nil => exact ⟨rfl, rfl⟩
      | cons c rest =>
        obtain rfl := hrest c List.mem_cons_self
        exact ⟨rfl, rfl⟩
    | cons a attributes => exact ⟨rfl, rfl⟩
  rw [named?, List.dropWhile_append_of_pos hsolid, List.takeWhile_append_of_pos hsolid, hstop.1,
    hstop.2, attributes?_written h hrest, List.append_nil, String.ofList_toList]
  rfl

theorem tag?_of_head {cs : List Char} (h : cs.head? ≠ some '/') :
    tag? cs = if cs.getLast? = some '/' then (fun e => .empty e.1 e.2) <$> named? cs.dropLast
      else (fun e => .start e.1 e.2) <$> named? cs := by
  unfold tag?
  split
  · exact absurd rfl h
  · rfl

theorem head_ne_slash (hname : isPlain name = true) (rest : List Char)
    (hrest : rest.head? ≠ some '/') :
    (name.toList ++ (attributes.flatMap writeAttribute ++ rest)).head? ≠ some '/' := by
  have hslash : '/' ∉ name.toList := not_mem_of_isPlain hname (by decide)
  rw [List.head?_append]
  cases hfirst : name.toList.head? with
  | some c => exact fun h => hslash (List.mem_of_mem_head? (hfirst.trans h))
  | none =>
    cases attributes with
    | nil => exact hrest
    | cons a attributes => exact fun h => absurd (show some ' ' = some '/' from h) (by decide)

theorem getLast_ne_slash (hname : isPlain name = true) :
    (name.toList ++ attributes.flatMap writeAttribute).getLast? ≠ some '/' := by
  have hslash : '/' ∉ name.toList := not_mem_of_isPlain hname (by decide)
  intro h
  rcases List.eq_nil_or_concat attributes with rfl | ⟨front, a, rfl⟩
  · rw [List.flatMap_nil, List.append_nil] at h
    exact hslash (List.mem_of_mem_getLast? h)
  · have hend : (front ++ [a]).flatMap writeAttribute = front.flatMap writeAttribute ++
        ' ' :: (a.1.toList ++ '=' :: '"' :: escapeValue a.2.write) ++ ['"'] := by
      simp [writeAttribute]
    rw [List.concat_eq_append, hend, ← List.append_assoc, List.getLast?_concat] at h
    cases h

theorem tag?_start (hname : isPlain name = true)
    (h : (attributes.map (·.1)).all isPlain = true) :
    tag? (name.toList ++ attributes.flatMap writeAttribute) =
      some (.start name (readings attributes)) := by
  have hhead : (name.toList ++ attributes.flatMap writeAttribute).head? ≠ some '/' := by
    rw [← List.append_nil (attributes.flatMap writeAttribute)]
    exact head_ne_slash hname [] (by decide)
  have hnamed := named?_written hname h [] fun c hc => by cases hc
  rw [List.append_nil] at hnamed
  rw [tag?_of_head hhead, if_neg (getLast_ne_slash hname), hnamed]
  rfl

theorem tag?_empty (hname : isPlain name = true)
    (h : (attributes.map (·.1)).all isPlain = true) :
    tag? (name.toList ++ attributes.flatMap writeAttribute ++ [' ', '/']) =
      some (.empty name (readings attributes)) := by
  have hcut : name.toList ++ attributes.flatMap writeAttribute ++ [' ', '/'] =
      name.toList ++ (attributes.flatMap writeAttribute ++ [' ']) ++ ['/'] := by
    simp
  have hhead : (name.toList ++ attributes.flatMap writeAttribute ++ [' ', '/']).head? ≠
      some '/' := by
    rw [List.append_assoc]
    exact head_ne_slash hname [' ', '/'] (by decide)
  rw [tag?_of_head hhead, hcut, List.getLast?_concat, if_pos rfl, List.dropLast_concat,
    named?_written hname h [' '] fun c hc => List.mem_singleton.mp hc]
  rfl

theorem tag?_finish (name : String) : tag? ('/' :: name.toList) = some (.finish name) := by
  rw [tag?, String.ofList_toList]

theorem tagless_name (hname : isPlain name = true) : Tagless name.toList := by
  intro sign hsign
  refine not_mem_of_isPlain hname ?_
  rcases hsign with rfl | rfl <;> decide

theorem tagless_tag (hname : isPlain name = true)
    (h : (attributes.map (·.1)).all isPlain = true) :
    Tagless (name.toList ++ attributes.flatMap writeAttribute) := by
  refine tagless_append (tagless_name hname) fun sign hsign hwritten => ?_
  have hmem : sign ∈ signs := by rcases hsign with rfl | rfl <;> decide
  have hquote : sign ≠ ' ' ∧ sign ≠ '=' ∧ sign ≠ '"' := by rcases hsign with rfl | rfl <;> decide
  obtain ⟨a, ha, hwritten⟩ := List.mem_flatMap.mp hwritten
  have hkey := tagless_name
    (List.all_eq_true.mp h a.1 (List.mem_map_of_mem (f := (·.1)) ha)) sign hsign
  have hvalue := not_mem_escapeValue hmem a.2.write
  simp only [writeAttribute, List.mem_cons, List.mem_append, List.not_mem_nil, hkey, hvalue,
    hquote, or_self] at hwritten

end Tags

/-! ## Elements -/

namespace Reader
variable {r : Reader} {opened : List Opened} {content : List Markup}

/-- A reader between two tags that has read some content inside of some open elements. -/
structure Reads (r : Reader) (opened : List Opened) (content : List Markup) : Prop where
  between : r.inTag = false
  opened : r.opened = opened
  content : (r.content ++ ·) <$> text? r.piece = some content

theorem run_tagless {cs : List Char} (h : Tagless cs) :
    cs.foldlM step r = some { r with piece := r.piece ++ cs } := by
  induction cs generalizing r with
  | nil => rw [List.append_nil]; rfl
  | cons c cs ih =>
    have hless : c ≠ '<' := fun hc => h '<' (.inl rfl) (hc ▸ List.mem_cons_self)
    have hgreater : c ≠ '>' := fun hc => h '>' (.inr rfl) (hc ▸ List.mem_cons_self)
    have hstep : step r c = some { r with piece := r.piece ++ [c] } := by
      rw [step, if_neg hless, if_neg fun hc => hgreater hc.1]
    have hcs : Tagless cs := fun sign hsign hmem => h sign hsign (List.mem_cons_of_mem c hmem)
    rw [List.foldlM_cons, hstep, Option.bind_eq_bind, Option.bind_some, ih hcs,
      List.append_assoc, List.singleton_append]

/-- A tag ends the text in front of it. -/
theorem run_tag (h : r.Reads opened content) {cs : List Char} (hcs : Tagless cs)
    (rest : List Char) : ('<' :: (cs ++ '>' :: rest)).foldlM step r =
      endTag { content, opened, inTag := true, piece := cs } >>= (rest.foldlM step ·) := by
  obtain ⟨text, htext, hcontent⟩ := Option.map_eq_some_iff.mp h.content
  have hstart : step r '<' = some { content, opened, inTag := true, piece := [] } := by
    rw [step, if_pos rfl, h.between, if_neg Bool.false_ne_true, startTag, htext]
    simp only [Option.bind_eq_bind, Option.bind_some, hcontent, h.opened]
  rw [List.foldlM_cons, hstart, Option.bind_eq_bind, Option.bind_some, List.foldlM_append,
    run_tagless hcs, List.nil_append, Option.bind_eq_bind, Option.bind_some,
    List.foldlM_cons, step, if_neg (by decide), if_pos ⟨rfl, rfl⟩]
  rfl

section Tags
variable {name : String} {attributes : List (String × Svg.Attribute)}

theorem run_empty (h : r.Reads opened content) (hname : isPlain name = true)
    (hattributes : (attributes.map (·.1)).all isPlain = true) :
    ('<' :: (name.toList ++ attributes.flatMap writeAttribute) ++
      [' ', '/', '>']).foldlM step r = some
        { content := content ++ [.element name (readings attributes) []], opened } := by
  have hcut : '<' :: (name.toList ++ attributes.flatMap writeAttribute) ++
      [' ', '/', '>'] = '<' :: (name.toList ++
        attributes.flatMap writeAttribute ++ [' ', '/'] ++ '>' :: []) := by
    simp
  have hend : Tagless [' ', '/'] := by
    rintro sign (rfl | rfl) <;> decide
  rw [hcut, run_tag h (tagless_append (tagless_tag hname hattributes) hend), endTag,
    tag?_empty hname hattributes]
  rfl

theorem run_start (h : r.Reads opened content) (hname : isPlain name = true)
    (hattributes : (attributes.map (·.1)).all isPlain = true) (rest : List Char) :
    ('<' :: (name.toList ++ attributes.flatMap writeAttribute) ++
      '>' :: rest).foldlM step r = rest.foldlM step
        { opened := ⟨name, readings attributes, content⟩ :: opened } := by
  rw [List.cons_append, run_tag h (tagless_tag hname hattributes), endTag,
    tag?_start hname hattributes]
  rfl

theorem run_finish {before : List Markup} {readings : Readings}
    (h : r.Reads (⟨name, readings, before⟩ :: opened) content)
    (hname : isPlain name = true) :
    ('<' :: '/' :: (name.toList ++ ['>'])).foldlM step r =
      some { content := before ++ [.element name readings content], opened } := by
  have hslash : Tagless ['/'] := by
    rintro sign (rfl | rfl) <;> decide
  have hrun := run_tag h (tagless_append hslash (tagless_name hname)) []
  rw [List.singleton_append, endTag, tag?_finish, List.cons_append] at hrun
  rw [hrun]
  simp only [Option.bind_eq_bind, Option.bind_some, if_true, List.foldlM_nil]
  rfl

end Tags

theorem reads_tagged (opened : List Opened) (content : List Markup) :
    Reads { content, opened } opened content :=
  ⟨rfl, rfl, by simp [text?]⟩

theorem reads_text (opened : List Opened) (s : String) :
    ∃ r', (escapeText s).foldlM step { opened } = some r' ∧
      r'.Reads opened (if s.isEmpty then [] else [.text (Text.letters s.toList)]) := by
  refine ⟨_, run_tagless (tagless_escapeText s), rfl, rfl, ?_⟩
  rw [List.nil_append, text?_escapeText]
  rfl

mutual

/-- A reader that comes across an element has read it, and nothing else has changed. -/
theorem reads_write (e : Svg.Element) (he : e.hasPlainNames = true) {r : Reader}
    {opened : List Opened} {content : List Markup} (h : r.Reads opened content) :
    ∃ r', e.write.foldlM step r = some r' ∧ r'.Reads opened (content ++ [e.seen]) := by
  obtain ⟨name, attributes, text, children⟩ := e
  simp only [hasPlainNames, Bool.and_eq_true] at he
  obtain ⟨⟨hname, hattributes⟩, hchildren⟩ := he
  rw [Svg.Element.write, Svg.Element.seen]
  split
  · rename_i hempty
    rw [Bool.and_eq_true, List.isEmpty_iff] at hempty
    obtain ⟨htext, rfl⟩ := hempty
    refine ⟨_, run_empty h hname hattributes, ?_⟩
    rw [if_pos htext]
    exact reads_tagged ..
  · -- The element is open while its text and its children are read.
    obtain ⟨r₁, hr₁, h₁⟩ :=
      reads_text (⟨name, readings attributes, content⟩ :: opened) text
    obtain ⟨r₂, hr₂, h₂⟩ := reads_writeAll children hchildren h₁
    refine ⟨_, ?_, reads_tagged ..⟩
    rw [run_start h hname hattributes, List.foldlM_append, List.foldlM_append, hr₁,
      Option.bind_eq_bind, Option.bind_some, hr₂, Option.bind_some, run_finish h₂ hname]

theorem reads_writeAll (es : List Svg.Element) (hes : havePlainNames es = true)
    {r : Reader} {opened : List Opened} {content : List Markup} (h : r.Reads opened content) :
    ∃ r', (Svg.Element.writeAll es).foldlM step r = some r' ∧
      r'.Reads opened (content ++ allSeen es) := by
  cases es with
  | nil => exact ⟨r, rfl, by rwa [allSeen, List.append_nil]⟩
  | cons e rest =>
    rw [havePlainNames, Bool.and_eq_true] at hes
    obtain ⟨r₁, hr₁, h₁⟩ := reads_write e hes.1 h
    obtain ⟨r₂, hr₂, h₂⟩ := reads_writeAll rest hes.2 h₁
    refine ⟨r₂, ?_, ?_⟩
    · rw [Svg.Element.writeAll, List.foldlM_append, hr₁]
      exact hr₂
    · rwa [allSeen, ← List.singleton_append, ← List.append_assoc]

end

end Reader

/-- What is written with plain names is read as it was built. -/
theorem read_write {e : Svg.Element} (he : e.hasPlainNames = true) :
    read (String.ofList e.write) = some [e.seen] := by
  obtain ⟨r, hr, h⟩ := Reader.reads_write e he (Reader.reads_tagged [] [])
  rw [read, String.toList_ofList, hr, Option.bind_eq_bind, Option.bind_some, Reader.result,
    h.between, h.opened]
  exact h.content

end Markup

end DiagramScript
