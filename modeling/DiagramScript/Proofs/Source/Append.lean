import DiagramScript.Proofs.Source.Lines
import DiagramScript.Proofs.Statement.OneLine
import DiagramScript.Proofs.Text

/-
  Sources one behind the other.

  A source that is accepted ends outside every block, so what follows it is read as a source
  of its own, only with higher numbers of lines (`instructions_append`). That a number of a
  line goes up changes nothing but the numbers in instructions and in complaints
  (`readLines_later`), and which characters end a line does not matter.
-/

namespace DiagramScript

/-! ## Lines further down -/

/-- The number of the line so many lines further down. -/
def LineNumber.later (n : Int) (line : LineNumber) : LineNumber := line.map (· + n)

def ShapeInstruction.later (n : Int) (i : ShapeInstruction) : ShapeInstruction :=
  { i with line := i.line.later n }

def Instruction.later (n : Int) (i : Instruction) : Instruction := i.onLine (i.line.later n)

def Block.later (n : Int) (b : Block) : Block :=
  { b with nested := b.nested.map (·.later n), line := b.line.later n }

/-- A line that is counted from 1, as the lines of a source are. -/
def LineNumber.Counted (line : LineNumber) : Prop := ∃ m : Int, 0 < m ∧ line = some m

/-- The same fault so many lines further down: the same complaint about a counted line, or a
failure that names no line. -/
inductive Fault.Later (n : Int) : Fault → Fault → Prop where
  | parse (p : ParseProblem) {m : Int} (h : 0 < m) :
    Later n (.parse p (some m)) (.parse p (some (m + n)))
  | layout (p : LayoutProblem) {m : Int} (h : 0 < m) :
    Later n (.layout p (some m)) (.layout p (some (m + n)))
  | arithmetic (p : ArithmeticProblem) : Later n (.arithmetic p) (.arithmetic p)
  | outOfRange : Later n .outOfRange .outOfRange

/-- What a fault says: the number of its line goes up in the message and in the line that the
fault carries, and the token stays. Where no line is named the message stays. -/
theorem Fault.Later.says {n : Int} (hn : 0 ≤ n) {e e' : Fault} (h : e.Later n e') :
    e'.token? = e.token? ∧ e'.line? = e.line?.later n ∧
      (e'.message? = e.message? ∨ ∃ (m : Int) (reason : String),
        e.message? = some ("Line " ++ toString m ++ ": " ++ reason) ∧
          e'.message? = some ("Line " ++ toString (m + n) ++ ": " ++ reason)) := by
  cases h with
  | parse p hm =>
    rename_i m
    refine ⟨rfl, rfl, .inr ⟨m, p.message, ?_, ?_⟩⟩
    · simp only [message?, LineNumber.onMessage, if_neg (by omega : m ≠ 0)]
    · simp only [message?, LineNumber.onMessage, if_neg (by omega : m + n ≠ 0)]
  | layout p hm => exact ⟨rfl, rfl, .inr ⟨_, p.message, rfl, rfl⟩⟩
  | arithmetic p => exact ⟨rfl, rfl, .inl rfl⟩
  | outOfRange => exact ⟨rfl, rfl, .inl rfl⟩

/-- The same outcome so many lines further down: a value moved down, or the same fault. -/
inductive Outcome.Later {α β : Type} (n : Int) (move : α → β) :
    Except Fault α → Except Fault β → Prop where
  | ok (a : α) : Later n move (.ok a) (.ok (move a))
  | error {e e' : Fault} (h : e.Later n e') : Later n move (.error e) (.error e')

namespace Outcome.Later
variable {α β γ δ : Type} {n : Int}

theorem bind {move : α → β} {move' : γ → δ} {x : Except Fault α} {x' : Except Fault β}
    {f : α → Except Fault γ} {f' : β → Except Fault δ} (hx : Later n move x x')
    (hf : ∀ a, x = .ok a → Later n move' (f a) (f' (move a))) :
    Later n move' (x >>= f) (x' >>= f') := by
  cases hx with
  | ok a => exact hf a rfl
  | error h => exact .error h

theorem mapM {move : α → β} {move' : γ → δ} {f : α → Except Fault γ} {f' : β → Except Fault δ}
    {xs : List α} (h : ∀ x ∈ xs, Later n move' (f x) (f' (move x))) :
    Later n (List.map move') (xs.mapM f) ((xs.map move).mapM f') := by
  induction xs with
  | nil => exact .ok []
  | cons x xs ih =>
    rw [List.map_cons, List.mapM_cons, List.mapM_cons]
    refine (h x List.mem_cons_self).bind fun y _ => ?_
    refine (ih fun x' hx' => h x' (List.mem_cons_of_mem x hx')).bind fun ys _ => ?_
    exact .ok (y :: ys)

end Outcome.Later

theorem OneLine.later {α : Type} {put : LineNumber → α → α} {read : LineNumber → Except Fault α}
    (h : OneLine put read) {n m : Int} (hm : 0 < m) {move : α → α}
    (hmove : ∀ a, move (put (some m) a) = put (some (m + n)) a) :
    Outcome.Later n move (read (some m)) (read (some (m + n))) := by
  cases h with
  | value a ha =>
    rw [ha, ha, ← hmove]
    exact .ok _
  | complaint p hp =>
    rw [hp, hp]
    exact .error (.parse p hm)
  | arithmetic p hp =>
    rw [hp, hp]
    exact .error (.arithmetic p)

theorem Statement.ofText_later (text : List Char) (allowPosition : Bool) (n : Int) {m : Int}
    (hm : 0 < m) :
    Outcome.Later n (Instruction.later n) (ofText text (some m) allowPosition)
      (ofText text (some (m + n)) allowPosition) := by
  apply (ofText_oneLine text allowPosition).later hm
  intro i
  cases i <;> rfl

/-! ## Blocks further down -/

namespace Block

/-- A block whose header and shapes are on counted lines. -/
structure Counted (b : Block) : Prop where
  line : b.line.Counted
  nested : ∀ i ∈ b.nested, i.line.Counted

theorem header_later (text : List Char) (n : Int) {m : Int} (hm : 0 < m) :
    Outcome.Later n (Block.later n) (header text (some m)) (header text (some (m + n))) :=
  (header_oneLine text).later hm fun _ => rfl

theorem header_counted {text : List Char} {m : Int} (hm : 0 < m) {b : Block}
    (h : header text (some m) = .ok b) : b.Counted := by
  obtain ⟨c, rfl⟩ := (header_oneLine text).ok_put h
  exact ⟨⟨m, hm, rfl⟩, fun i hi => by cases hi⟩

/-- What a line inside a block is, further down. -/
def BodyLine.later (n : Int) : BodyLine → BodyLine
  | .blank => .blank
  | .close => .close
  | .nested i => .nested (i.later n)

theorem bodyLine_later (b : Block) (line : String) (n : Int) {m : Int} (hm : 0 < m) :
    Outcome.Later n (BodyLine.later n) (b.bodyLine line (some m))
      ((b.later n).bodyLine line (some (m + n))) := by
  unfold bodyLine
  dsimp only
  split
  · exact .ok BodyLine.blank
  · split
    · exact .ok BodyLine.close
    · split
      · exact .error (.parse _ hm)
      · refine (Statement.ofText_later _ _ n hm).bind fun i _ => ?_
        cases i with
        | shape i => exact .ok (BodyLine.nested i)
        | connector i => exact .error (.parse _ hm)

theorem Counted.push {b : Block} (hb : b.Counted) {i : ShapeInstruction}
    (hi : i.line.Counted) : (b.push i).Counted := by
  refine ⟨hb.line, fun j hj => ?_⟩
  rcases List.mem_append.mp hj with hj | hj
  · exact hb.nested j hj
  · exact List.mem_singleton.mp hj ▸ hi

theorem unterminated_later {b : Block} (hb : b.line.Counted) (n : Int) :
    b.unterminated.Later n (b.later n).unterminated := by
  obtain ⟨m, hm, hline⟩ := hb
  unfold unterminated Block.later
  rw [hline]
  exact .parse _ hm

theorem boxOf_later {i : ShapeInstruction} (hi : i.line.Counted) (n : Int) :
    Outcome.Later n (Box.relabel (·.later n)) (boxOf i) (boxOf (i.later n)) := by
  obtain ⟨m, hm, hline⟩ := hi
  have hsize : Outcome.Later n id (sizeOf i) (sizeOf (i.later n)) := by
    unfold sizeOf ShapeInstruction.later
    dsimp only
    split
    · rw [hline]
      exact .error (.parse _ hm)
    · split
      · exact .ok _
      · exact .ok _
      · split
        · exact .ok _
        · exact .ok _
        · split <;> exact .ok _
        · split <;> exact .ok _
        · exact .ok _
  exact hsize.bind fun s _ => .ok (⟨s.w, s.h, i⟩ : Box ShapeInstruction)

theorem place_later (b : Block) (n : Int) (boxes : List (Box ShapeInstruction)) :
    (b.later n).place (boxes.map (Box.relabel (·.later n))) =
      List.map (Placed.relabel (·.later n)) <$> b.place boxes := by
  unfold place Block.later
  dsimp only
  split
  · exact Layout.stack_relabel _ _ _ _ _ _
  · exact Layout.grid_relabel _ _ _ _ _ _

theorem blame_later {α β : Type} {line : LineNumber} (hline : line.Counted) (n : Int)
    (move : α → β) {value : α → Prop} {r : Except Fault α}
    (hr : Outcome.Ends Layout.Failure value r) :
    Outcome.Later n move (blame line r) (blame (line.later n) (move <$> r)) := by
  obtain ⟨m, hm, rfl⟩ := hline
  cases r with
  | ok a => exact .ok a
  | error e =>
    cases hr with
    | geometry p => exact .error (.layout p hm)
    | arithmetic p => exact .error (.arithmetic p)
    | outOfRange => exact .error .outOfRange

theorem expand_later {b : Block} (hb : b.Counted) (n : Int) :
    Outcome.Later n (List.map (·.later n)) b.expand (b.later n).expand := by
  refine (Outcome.Later.mapM fun i hi => boxOf_later (hb.nested i hi) n).bind fun boxes _ => ?_
  rw [place_later]
  refine (blame_later hb.line n _ (b.place_ends boxes)).bind fun placed _ => ?_
  have hshapes : (placed.map (Placed.relabel (·.later n))).map
      (fun p => ({ p.box.payload with position := some p.corner } : ShapeInstruction)) =
      (placed.map fun p => ({ p.box.payload with position := some p.corner } :
        ShapeInstruction)).map (·.later n) := by
    rw [List.map_map, List.map_map]
    rfl
  rw [hshapes]
  exact .ok _

end Block

/-! ## Sources -/

namespace Source

theorem readLine_counted {line : String} {b c : Option Block} {k : Int} {is : List Instruction}
    (h : readLine b k line = .ok (is, c)) (hb : ∀ d ∈ b, d.Counted) (hk : 0 < k) :
    ∀ d ∈ c, d.Counted := by
  intro d hd
  cases lineStep_of_readLine h with
  | blank hblank => exact hb d hd
  | header hmode hheader =>
    cases hd
    exact Block.header_counted hk hheader
  | statement hblank hmode hi => cases hd
  | nested hblank hclose hmode hi =>
    cases hd
    exact (hb _ rfl).push ⟨k, hk, Statement.line_of_ofText hi⟩
  | close hclose hshapes => cases hd

/-- A line further down gives the same further down. -/
theorem readLine_later (n : Int) (line : String) {b : Option Block} (hb : ∀ d ∈ b, d.Counted)
    {k : Int} (hk : 0 < k) :
    Outcome.Later n (fun r => (r.1.map (·.later n), r.2.map (·.later n))) (readLine b k line)
      (readLine (b.map (·.later n)) (k + n) line) := by
  cases b with
  | none =>
    simp only [readLine, Option.map_none]
    split
    · exact .ok ([], none)
    · split
      · exact (Block.header_later _ n hk).bind fun c _ => .ok ([], some c)
      · exact (Statement.ofText_later _ true n hk).bind fun i _ => .ok ([i], none)
  | some c =>
    simp only [readLine, Option.map_some]
    refine (Block.bodyLine_later c line n hk).bind fun body hbody => ?_
    cases body with
    | blank => exact .ok ([], some c)
    | nested i =>
      -- Every line that is kept in the block moves along with it.
      have hpush : (c.later n).push (i.later n) = (c.push i).later n := by
        simp only [Block.push, Block.later, List.map_append, List.map_cons, List.map_nil]
      simp only [Block.BodyLine.later, hpush]
      exact .ok ([], some (c.push i))
    | close =>
      refine (Block.expand_later (hb c rfl) n).bind fun placed _ => ?_
      have hshapes : (placed.map (·.later n)).map Instruction.shape =
          (placed.map Instruction.shape).map (·.later n) := by
        rw [List.map_map, List.map_map]
        rfl
      rw [hshapes]
      exact .ok (placed.map Instruction.shape, none)

theorem readLines_later (n : Int) (lines : List String) {b : Option Block}
    (hb : ∀ c ∈ b, c.Counted) {k : Int} (hk : 0 < k) :
    Outcome.Later n (List.map (·.later n)) (readLines b k lines)
      (readLines (b.map (·.later n)) (k + n) lines) := by
  induction lines generalizing b k with
  | nil =>
    cases b with
    | none => exact .ok []
    | some b => exact .error (Block.unterminated_later (hb b rfl).line n)
  | cons line lines ih =>
    have hnext : k + n + 1 = k + 1 + n := by omega
    rw [readLines_cons, readLines_cons, hnext]
    refine (readLine_later n line hb hk).bind fun r hr => ?_
    refine (ih (readLine_counted hr hb hk) (by omega)).bind fun is _ => ?_
    rw [← List.map_append]
    exact .ok (r.1 ++ is)

/-- Lines that are accepted leave no block open, so further lines are read by themselves. -/
theorem readLines_append {first : List String} {b : Option Block} {k : Int}
    {is : List Instruction} (h : readLines b k first = .ok is) (rest : List String) :
    readLines b k (first ++ rest) = (is ++ ·) <$> readLines none (k + first.length) rest := by
  induction first generalizing b k is with
  | nil =>
    cases b with
    | none =>
      cases h
      simp only [List.nil_append, List.length_nil, Int.natCast_zero, Int.add_zero, id_map']
    | some b => cases h
  | cons line first ih =>
    have hnext : k + (line :: first).length = k + 1 + first.length := by
      rw [List.length_cons]
      omega
    obtain ⟨js, c, ks, hline, hrest, rfl⟩ := readLines_cons_eq_ok.mp h
    rw [List.cons_append, readLines_cons, hline, hnext]
    simp only [bind, Except.bind, ih hrest]
    cases readLines none (k + 1 + first.length) rest with
    | error e => rfl
    | ok is => exact congrArg Except.ok (List.append_assoc js ks is).symm

theorem readLines_congr {lines : List String} (lines' : List String) (b : Option Block) (k : Int)
    (h : lines.map statementText = lines'.map statementText) :
    readLines b k lines = readLines b k lines' := by
  induction lines generalizing lines' b k with
  | nil =>
    rw [List.map_nil, eq_comm, List.map_eq_nil_iff] at h
    rw [h]
  | cons line lines ih =>
    cases lines' with
    | nil => cases h
    | cons line' lines' =>
      rw [List.map_cons, List.map_cons, List.cons.injEq] at h
      obtain ⟨htext, hlines⟩ := h
      have hline : readLine b k line = readLine b k line' := by
        simp only [readLine, Block.bodyLine, htext]
      simp only [readLines_cons, hline, ih _ _ _ hlines]

/-- Behind an accepted source another one gives what it gives by itself, on lines further down
by the number of lines of the first: its instructions follow those of the first, and its
fault is the fault of both. -/
theorem instructions_append {a : String} {is : List Instruction} (h : instructions a = .ok is)
    (b : String) :
    let n : Int := (Text.sourceLines a).length
    match instructions b with
    | .ok js => instructions (a ++ "\n" ++ b) = .ok (is ++ js.map (·.later n))
    | .error e => ∃ e', instructions (a ++ "\n" ++ b) = .error e' ∧ e.Later n e' ∧
        e'.token? = e.token? ∧ e'.line? = e.line?.later n ∧
          (e'.message? = e.message? ∨ ∃ (m : Int) (reason : String),
            e.message? = some ("Line " ++ toString m ++ ": " ++ reason) ∧
              e'.message? = some ("Line " ++ toString (m + n) ++ ": " ++ reason)) := by
  intro n
  have hlines : instructions (a ++ "\n" ++ b) =
      (is ++ ·) <$> readLines none (1 + n) (Text.sourceLines b) := by
    unfold instructions
    rw [readLines_congr (Text.sourceLines a ++ Text.sourceLines b) none 1]
    · exact readLines_append h _
    · rw [statementText_sourceLines_append, List.map_append]
  -- Behind an accepted source no block is open, so the rest is read like a source further down.
  have hlater : Outcome.Later n (List.map (·.later n)) (instructions b)
      (readLines none (1 + n) (Text.sourceLines b)) :=
    readLines_later n (Text.sourceLines b) (fun c hc => by cases hc) (by omega)
  rw [hlines]
  generalize instructions b = read, readLines none (1 + n) (Text.sourceLines b) = read' at hlater
  cases hlater with
  | ok js => rfl
  | error hfault => exact ⟨_, rfl, hfault, hfault.says (Int.natCast_nonneg _)⟩

/-- Behind a comment, a stack and a carriage return, four lines in all, the bad header on the
second line of another source is a bad header on the sixth. -/
theorem instructions_append_header :
    let a := "# a stack\nstack vertical 0,0 gap=4 [\nrect 10x10 \"A\"\n]\r"
    let b := "rect 1,1\ngrid 0,0 cols=0 gap=1 ["
    (∃ is, instructions a = .ok is) ∧
      instructions b = .error ((ParseProblem.gridColumns "0").on (some 2)) ∧
        ∃ e, instructions (a ++ "\n" ++ b) = .error e ∧ e.token? = some "0" ∧
          e.line? = some 6 := by
  intro a b
  let real (n : Nat) : Scalar := .real (.ofDecimal false n 0)
  let i : ShapeInstruction :=
    { kind := .rectangle, position := some ⟨real 0, real 0⟩, size := some ⟨real 10, real 10⟩
      label := some "A", line := some 3 }
  have ha : instructions a = .ok [.shape i] := by decide +kernel
  have hb : instructions b = .error ((ParseProblem.gridColumns "0").on (some 2)) := by
    decide +kernel
  have hn : (Text.sourceLines a).length = 4 := by decide +kernel
  have hab := instructions_append ha b
  simp only [hb, hn] at hab
  obtain ⟨e, he, -, htoken, hline, -⟩ := hab
  exact ⟨⟨_, ha⟩, hb, e, he, htoken, hline⟩

end Source

end DiagramScript
