import DiagramScript.Proofs.Source.Stems
import DiagramScript.Proofs.Statement.Measure

/-
  Options and the last value of each key.

  Every part of a statement is cut from its words in front of the first option: no option is a
  position, a size, a content or the marker of a connector (`shape_append`, `connector_append`).
  What is collected of valid options is the last value of each key (`get?_entries`), and the rest
  of a statement looks at nothing else. So options that give every key the same last value are
  read alike, in whatever order they stand (`ofTokens_lastValues`).
-/

namespace DiagramScript

namespace Options

/-- The key that a token names, without blanks around it. -/
def keyOf (t : Token) : String :=
  String.ofList (Text.stripChars (t.value.toList.takeWhile (· != '=')))

/-- The value that a token gives to its key, without blanks around it. -/
def valueOf (t : Token) : String :=
  String.ofList (Text.stripChars ((t.value.toList.dropWhile (· != '=')).drop 1))

/-- An option of one of the allowed keys that has a value. -/
structure IsValid (allowed : List String) (t : Token) : Prop where
  option : isOption t = true
  known : keyOf t ∈ allowed
  filled : valueOf t ≠ ""

instance (allowed : List String) (t : Token) : Decidable (IsValid allowed t) :=
  decidable_of_iff (isOption t = true ∧ keyOf t ∈ allowed ∧ valueOf t ≠ "")
    ⟨fun h => ⟨h.1, h.2.1, h.2.2⟩, fun h => ⟨h.option, h.known, h.filled⟩⟩

/-- The value that the last option of a key gives to it. -/
def lastValue? (options : List Token) (key : String) : Option String :=
  (options.filter (keyOf · == key)).getLast?.map valueOf

/-- What is collected of some options, the last one in front. -/
def entries (options : List Token) : Options :=
  (options.map fun t => (keyOf t, valueOf t)).reverse

theorem get?_entries (options : List Token) (key : String) :
    (entries options).get? key = lastValue? options key := by
  induction options using List.reverseRecOn with
  | nil => rfl
  | append_singleton options t ih =>
    unfold lastValue? at ih ⊢
    unfold entries get? at ih ⊢
    rw [List.map_append, List.reverse_append, List.filter_append]
    by_cases hkey : keyOf t = key
    · simp [hkey]
    · have hkey' : (key == keyOf t) = false := beq_eq_false_iff_ne.mpr (Ne.symm hkey)
      simp [List.lookup_cons, hkey, hkey', ih]

theorem entries_congr {options options' : List Token}
    (h : ∀ key, lastValue? options key = lastValue? options' key) :
    (entries options).get? = (entries options').get? := by
  funext key
  rw [get?_entries, get?_entries, h]

/-- An option in front of a later one of the same key does not count. -/
theorem lastValue?_overridden {front back : List Token} {o : Token}
    (h : ∃ t ∈ back, keyOf t = keyOf o) (key : String) :
    lastValue? (front ++ o :: back) key = lastValue? (front ++ back) key := by
  unfold lastValue?
  rw [List.filter_append, List.filter_append, List.filter_cons]
  split
  · rename_i hkey
    obtain ⟨t, ht, hsame⟩ := h
    have hmem : t ∈ back.filter (keyOf · == key) :=
      List.mem_filter.mpr ⟨ht, by rw [hsame]; exact hkey⟩
    have hne := List.ne_nil_of_mem hmem
    rw [List.getLast?_append_of_ne_nil _ (List.cons_ne_nil _ _),
      List.getLast?_append_of_ne_nil _ hne, List.getLast?_cons_of_ne_nil hne]
  · rfl

section Valid
variable {allowed : List String} {options options' words : List Token} {line : LineNumber}

theorem eq_nil_iff (h : ∀ key, lastValue? options key = lastValue? options' key) :
    options = [] ↔ options' = [] := by
  have hnone (options : List Token) : options = [] ↔ ∀ key, lastValue? options key = none := by
    constructor
    · rintro rfl key
      rfl
    · intro hall
      cases options with
      | nil => rfl
      | cons t options =>
        have hmem : t ∈ (t :: options).filter (keyOf · == keyOf t) := by simp
        have hlast := hall (keyOf t)
        unfold lastValue? at hlast
        rw [Option.map_eq_none_iff, List.getLast?_eq_none_iff] at hlast
        rw [hlast] at hmem
        cases hmem
  rw [hnone, hnone]
  exact forall_congr' fun key => by rw [h key]

theorem step_valid (hnone : "" ∉ allowed) {t : Token} (h : IsValid allowed t) (before : Options) :
    step allowed line before t = .ok ((keyOf t, valueOf t) :: before) := by
  have hkey : ¬(Text.stripChars (t.value.toList.takeWhile (· != '='))).isEmpty = true := by
    intro hempty
    apply hnone
    have hknown := h.known
    rw [keyOf, List.isEmpty_iff.mp hempty] at hknown
    exact hknown
  have hvalue :
      ¬(Text.stripChars ((t.value.toList.dropWhile (· != '=')).drop 1)).isEmpty = true := by
    intro hempty
    apply h.filled
    rw [valueOf, List.isEmpty_iff.mp hempty, String.ofList_nil]
  have hsplit : split t line = .ok (keyOf t, valueOf t) := by
    unfold split
    dsimp only
    rw [if_neg hkey, if_neg hvalue]
    rfl
  rw [step, if_pos h.option, hsplit]
  exact if_pos (List.contains_iff_mem.mpr h.known)

theorem collect_valid (hnone : "" ∉ allowed) (hoptions : ∀ t ∈ options, IsValid allowed t) :
    collect options allowed line = .ok (entries options) := by
  -- Over the options that were read before, which the fold carries along.
  have hfold (before : Options) :
      options.foldlM (step allowed line) before = .ok (entries options ++ before) := by
    induction options generalizing before with
    | nil => rfl
    | cons t options ih =>
      obtain ⟨ht, hoptions⟩ := List.forall_mem_cons.mp hoptions
      rw [List.foldlM_cons, step_valid hnone ht]
      refine (ih hoptions _).trans ?_
      simp [entries]
  rw [collect, hfold, List.append_nil]

theorem collect_append (hnone : "" ∉ allowed) (hwords : ∀ t ∈ words, isOption t = false)
    (hoptions : ∀ t ∈ options, IsValid allowed t) :
    collect (words ++ options) allowed line =
      collect words allowed line >>= fun _ => .ok (entries options) := by
  cases words with
  | nil => exact collect_valid hnone hoptions
  | cons t words =>
    -- A word in front of the options is refused before any of them is looked at.
    have hstep : step allowed line [] t = .error ((ParseProblem.unexpectedToken t.value).on line) :=
      if_neg (by simp [hwords t List.mem_cons_self])
    rw [collect, collect, List.cons_append, List.foldlM_cons, List.foldlM_cons, hstep]
    rfl

end Valid

end Options

namespace Statement
open Options (isOption IsValid lastValue? entries)

/-- An option holds a character that no position and no size holds. -/
theorem measure_option {t : Token} (h : isOption t = true) :
    Measure.isPosition t.value.toList = false ∧ Measure.isSize t.value.toList = false := by
  -- The equals sign of an option is in no literal and is no blank.
  have hmem : '=' ∈ t.value.toList := by
    simp only [isOption, Bool.and_eq_true, List.contains_iff_mem] at h
    exact h.2
  have hliteral (l : Literal) : '=' ∉ l.text := l.not_mem_text (by decide) (by decide) (by decide)
  constructor
  · apply Bool.eq_false_iff.mpr
    intro hform
    obtain ⟨x, y, front, back, hx, hy, htext⟩ := (Measure.isPosition_iff _).mp hform
    have hfront := hx.not_mem (by decide) (hliteral x)
    have hback := hy.not_mem (by decide) (hliteral y)
    rw [htext] at hmem
    simp [hfront, hback] at hmem
  · apply Bool.eq_false_iff.mpr
    intro hform
    obtain ⟨w, h, -, -, a, k, b, ha, hb, hk, htext⟩ := (Measure.isSize_iff _).mp hform
    have hfront := ha.not_mem (c := '=') (by decide)
    have hback := hb.not_mem (c := '=') (by decide)
    have hmark : '=' ≠ k := by
      obtain rfl | rfl := hk
      · decide
      · decide
    rw [htext] at hmem
    simp [hfront, hback, hliteral, hmark] at hmem

section Words
variable {words options : List Token} (hwords : ∀ t ∈ words, isOption t = false)
  (hoptions : ∀ t ∈ options, isOption t = true)

include hoptions

theorem leadingPosition_append (line : LineNumber) (allowPosition : Bool) :
    leadingPosition (words ++ options) line allowPosition =
      leadingPosition words line allowPosition >>= fun r => .ok (r.1, r.2 ++ options) := by
  cases words with
  | nil =>
    cases options with
    | nil => rfl
    | cons o options =>
      have hform := (measure_option (hoptions o List.mem_cons_self)).1
      simp [leadingPosition, hform, bind, Except.bind]
  | cons t words =>
    simp only [List.cons_append, leadingPosition]
    split
    · split
      · cases Measure.position t.value line with
        | error f => rfl
        | ok p => rfl
      · rfl
    · rfl

theorem leadingSize_append (line : LineNumber) :
    leadingSize (words ++ options) line =
      leadingSize words line >>= fun r => .ok (r.1, r.2 ++ options) := by
  cases words with
  | nil =>
    cases options with
    | nil => rfl
    | cons o options =>
      have hform := (measure_option (hoptions o List.mem_cons_self)).2
      simp [leadingSize, hform, bind, Except.bind]
  | cons t words =>
    simp only [List.cons_append, leadingSize]
    split
    · cases Measure.size t.value line with
      | error f => rfl
      | ok s => rfl
    · rfl

include hwords

theorem leadingContent_append :
    leadingContent (words ++ options) =
      ((leadingContent words).1, (leadingContent words).2 ++ options) := by
  cases words with
  | nil =>
    cases options with
    | nil => rfl
    | cons o options => simp [leadingContent, hoptions o List.mem_cons_self]
  | cons t words => simp [leadingContent, hwords t List.mem_cons_self]

omit hoptions in
theorem leadingContent_words : ∀ t ∈ (leadingContent words).2, isOption t = false := by
  cases words with
  | nil => exact hwords
  | cons t words =>
    obtain ⟨ht, hwords⟩ := List.forall_mem_cons.mp hwords
    simpa [leadingContent, ht] using hwords

end Words

section Marker
variable {words options : List Token}

theorem isMarker_option {t : Token} (h : isOption t = true) : isMarker t = false := by
  apply Bool.eq_false_iff.mpr
  intro hmarker
  simp only [isMarker, Bool.and_eq_true, beq_iff_eq] at hmarker
  rw [isOption, hmarker.1] at h
  simp at h

theorem dropWhile_marker_nil (hoptions : ∀ t ∈ options, isOption t = true)
    (h : words.dropWhile (! isMarker ·) = []) :
    (words ++ options).dropWhile (! isMarker ·) = [] := by
  rw [List.dropWhile_eq_nil_iff] at h ⊢
  intro t ht
  obtain ht | ht := List.mem_append.mp ht
  · exact h t ht
  · simp [isMarker_option (hoptions t ht)]

theorem marker_append {m : Token} {target : List Token}
    (h : words.dropWhile (! isMarker ·) = m :: target) (options : List Token) :
    (words ++ options).takeWhile (! isMarker ·) = words.takeWhile (! isMarker ·) ∧
      (words ++ options).dropWhile (! isMarker ·) = m :: target ++ options := by
  constructor
  · -- The words have a marker, so the search ends before the options.
    have hlength : (words.takeWhile (! isMarker ·)).length ≠ words.length := by
      have hsplit : (words.takeWhile (! isMarker ·) ++ words.dropWhile (! isMarker ·)).length =
          words.length := by rw [List.takeWhile_append_dropWhile]
      rw [h, List.length_append, List.length_cons] at hsplit
      omega
    rw [List.takeWhile_append, if_neg hlength]
  · rw [List.dropWhile_append, h]
    rfl

/-- Words are cut from options at the first option. -/
theorem cut_options (hwords : ∀ t ∈ words, isOption t = false)
    (hoptions : ∀ t ∈ options, isOption t = true) :
    (words ++ options).takeWhile (! isOption ·) = words ∧
      (words ++ options).dropWhile (! isOption ·) = options := by
  have hfront : ∀ t ∈ words, (! isOption t) = true := by
    intro t ht
    simp [hwords t ht]
  rw [List.takeWhile_append_of_pos hfront, List.dropWhile_append_of_pos hfront]
  cases options with
  | nil => simp
  | cons o options => simp [hoptions o List.mem_cons_self]

end Marker

section Same
variable {words options options' : List Token} (hwords : ∀ t ∈ words, isOption t = false)
  (hsame : ∀ key, lastValue? options key = lastValue? options' key)
include hwords hsame

theorem shape_lastValues (hvalid : ∀ t ∈ options, IsValid shapeOptionKeys t)
    (hvalid' : ∀ t ∈ options', IsValid shapeOptionKeys t) (kind : Kind) (line : LineNumber)
    (allowPosition : Bool) :
    shape kind (words ++ options) line allowPosition =
      shape kind (words ++ options') line allowPosition := by
  have hoptions : ∀ t ∈ options, isOption t = true := fun t ht => (hvalid t ht).option
  have hoptions' : ∀ t ∈ options', isOption t = true := fun t ht => (hvalid' t ht).option
  have hnone : "" ∉ shapeOptionKeys := by decide
  have hget := Options.entries_congr hsame
  unfold shape
  rw [leadingPosition_append hoptions, leadingPosition_append hoptions']
  -- Each step takes words off the front, the same ones whichever options follow.
  cases hposition : leadingPosition words line allowPosition with
  | error f => rfl
  | ok p =>
    have hp := (leadingPosition_subset line words allowPosition).of_ok hposition
    simp only [bind, Except.bind]
    rw [leadingSize_append hoptions, leadingSize_append hoptions']
    cases hsize : leadingSize p.2 line with
    | error f => rfl
    | ok s =>
      have hs := (leadingSize_subset line p.2).of_ok hsize
      have hrest : ∀ t ∈ s.2, isOption t = false := fun t ht => hwords t (hp (hs ht))
      simp only [bind, Except.bind]
      rw [leadingContent_append hrest hoptions, leadingContent_append hrest hoptions']
      dsimp only
      rw [Options.collect_append hnone (leadingContent_words hrest) hvalid,
        Options.collect_append hnone (leadingContent_words hrest) hvalid']
      cases Options.collect (leadingContent s.2).2 shapeOptionKeys line with
      | error f => rfl
      | ok none =>
        simp only [bind, Except.bind, positionOption, sizeOption, dimensionsOption, hget]

theorem connector_lastValues (hvalid : ∀ t ∈ options, IsValid connectorOptionKeys t)
    (hvalid' : ∀ t ∈ options', IsValid connectorOptionKeys t) (line : LineNumber) :
    connector (words ++ options) line = connector (words ++ options') line := by
  have hoptions : ∀ t ∈ options, isOption t = true := fun t ht => (hvalid t ht).option
  have hoptions' : ∀ t ∈ options', isOption t = true := fun t ht => (hvalid' t ht).option
  have hnone : "" ∉ connectorOptionKeys := by decide
  have hget := Options.entries_congr hsame
  unfold connector
  cases hmarker : words.dropWhile (! isMarker ·) with
  | nil =>
    -- Without a marker there is no second end, whatever the options are.
    simp only [dropWhile_marker_nil hoptions hmarker, dropWhile_marker_nil hoptions' hmarker,
      List.drop_nil, List.isEmpty_nil, Bool.or_true, if_true, bind, Except.bind]
  | cons m target =>
    have hsuffix : m :: target <:+ words := by
      rw [← hmarker]
      exact List.dropWhile_suffix _
    have htarget : ∀ t ∈ target, isOption t = false := fun t ht =>
      hwords t (hsuffix.subset (List.mem_cons_of_mem m ht))
    obtain ⟨htake, hdrop⟩ := marker_append hmarker options
    obtain ⟨htake', hdrop'⟩ := marker_append hmarker options'
    obtain ⟨hend, hrest⟩ := cut_options htarget hoptions
    obtain ⟨hend', hrest'⟩ := cut_options htarget hoptions'
    -- Both or neither are empty: options with the same last values are.
    have hempty : (target ++ options).isEmpty = (target ++ options').isEmpty := by
      rw [Bool.eq_iff_iff, List.isEmpty_iff, List.isEmpty_iff, List.append_eq_nil_iff,
        List.append_eq_nil_iff, Options.eq_nil_iff hsame]
    simp only [htake, hdrop, htake', hdrop', List.cons_append, List.drop_succ_cons, List.drop_zero,
      hempty, hend, hrest, hend', hrest', Options.collect_valid hnone hvalid,
      Options.collect_valid hnone hvalid', bind, Except.bind, hget]

end Same

/-- The keys that a statement of a keyword accepts. -/
def optionKeys (keyword : Token) : List String :=
  if keyword.value = Kind.connector.keyword ∧ keyword.quoted = false then connectorOptionKeys
  else shapeOptionKeys

/-- Statements whose options give every key the same last value are read alike: as the same
instruction or with the same complaint. An option in front of a later one of its key may be left
out, whatever its value is. -/
theorem ofTokens_lastValues (keyword : Token) (words : List Token)
    (hwords : ∀ t ∈ words, isOption t = false) (line : LineNumber) (allowPosition : Bool) :
    (∀ options options', (∀ t ∈ options, IsValid (optionKeys keyword) t) →
      (∀ t ∈ options', IsValid (optionKeys keyword) t) →
      (∀ key, lastValue? options key = lastValue? options' key) →
      ofTokens (keyword :: (words ++ options)) line allowPosition =
        ofTokens (keyword :: (words ++ options')) line allowPosition) ∧
    ∀ front o back, (∀ t ∈ front ++ o :: back, IsValid (optionKeys keyword) t) →
      (∃ t ∈ back, Options.keyOf t = Options.keyOf o) →
      ofTokens (keyword :: (words ++ (front ++ o :: back))) line allowPosition =
        ofTokens (keyword :: (words ++ (front ++ back))) line allowPosition := by
  have hsame (options options' : List Token)
      (hvalid : ∀ t ∈ options, IsValid (optionKeys keyword) t)
      (hvalid' : ∀ t ∈ options', IsValid (optionKeys keyword) t)
      (hlast : ∀ key, lastValue? options key = lastValue? options' key) :
      ofTokens (keyword :: (words ++ options)) line allowPosition =
        ofTokens (keyword :: (words ++ options')) line allowPosition := by
    unfold optionKeys at hvalid hvalid'
    unfold ofTokens
    dsimp only
    split
    · rename_i harrow
      rw [if_pos harrow] at hvalid hvalid'
      exact connector_lastValues hwords hlast hvalid hvalid' line
    · rename_i harrow
      rw [if_neg harrow] at hvalid hvalid'
      split
      · rfl
      · rfl
      · exact shape_lastValues hwords hlast hvalid hvalid' _ line allowPosition
  refine ⟨hsame, ?_⟩
  intro front o back hvalid hlater
  -- Without the overridden option every key has the same last value.
  have hless : ∀ t ∈ front ++ back, IsValid (optionKeys keyword) t := by
    intro t ht
    apply hvalid t
    simp only [List.mem_append, List.mem_cons] at ht ⊢
    exact ht.imp_right .inr
  exact hsame _ _ hvalid hless (Options.lastValue?_overridden hlater)

/-- A color outside its vocabulary in front of two options that are exchanged. -/
theorem ofTokens_lastValues_color :
    ofTokens [⟨"rect", false⟩, ⟨"10x20", false⟩, ⟨"color=nowhere", false⟩, ⟨"size=l", false⟩,
        ⟨"color=red", false⟩] (some 1) true =
      ofTokens [⟨"rect", false⟩, ⟨"10x20", false⟩, ⟨"size=l", false⟩, ⟨"color=red", false⟩]
        (some 1) true ∧
    ofTokens [⟨"rect", false⟩, ⟨"10x20", false⟩, ⟨"size=l", false⟩, ⟨"color=red", false⟩]
        (some 1) true =
      ofTokens [⟨"rect", false⟩, ⟨"10x20", false⟩, ⟨"color=red", false⟩, ⟨"size=l", false⟩]
        (some 1) true := by
  have hwords : ∀ t ∈ [(⟨"10x20", false⟩ : Token)], isOption t = false := by decide
  have h := ofTokens_lastValues ⟨"rect", false⟩ [⟨"10x20", false⟩] hwords (some 1) true
  refine ⟨h.2 [] ⟨"color=nowhere", false⟩ [⟨"size=l", false⟩, ⟨"color=red", false⟩] (by decide)
    (by decide), h.1 [⟨"size=l", false⟩, ⟨"color=red", false⟩]
    [⟨"color=red", false⟩, ⟨"size=l", false⟩] (by decide) (by decide) ?_⟩
  intro key
  have hsize : Options.keyOf ⟨"size=l", false⟩ = "size" := by decide
  have hcolor : Options.keyOf ⟨"color=red", false⟩ = "color" := by decide
  by_cases h₁ : "size" = key
  · subst h₁
    decide
  · by_cases h₂ : "color" = key
    · subst h₂
      decide
    · simp [lastValue?, hsize, hcolor, h₁, h₂]

end Statement

end DiagramScript
