import DiagramScript.Folder
import DiagramScript.Shape.Kind

/-
  Computations that keep a log.

  A report is the outcome of a computation together with the events it had to tell, those
  before a failure included. Events never influence an outcome: the result of a sequence is
  the sequence of the results (`result_bind`), and events come in the order of the steps
  (`events_bind_ok`, `events_bind_error`).
-/

namespace DiagramScript

/-- What happens to a page or an export. All but the writing of a file itself is worth a line
in the log. -/
inductive Event where
  | created (kind : Kind) (id : String) (x y w h : Scalar)
  | bound (connector terminal shape : String)
  | expanded (frame : String) (count : Nat)
  | materialized (count : Nat)
  | skipped (id kind : String)
  | saved (place : Place) (content : FileContent)
  | wroteSvg (count : Nat) (file : String)
  | wrotePng (count : Nat) (file : String)
  deriving DecidableEq, Repr

namespace Event

/-- The wording of an event. -/
def message : Event → String
  | created kind id x y w h =>
    "Created " ++ kind.keyword ++ " " ++ id ++ " at (" ++ x.write ++ ", " ++ y.write ++
      ") size " ++ w.write ++ "x" ++ h.write
  | bound connector terminal shape =>
    "Bound " ++ connector ++ " " ++ terminal ++ " to " ++ shape
  | expanded frame count =>
    "Expanded frame " ++ frame ++ " to enclose " ++ toString count ++ " shapes"
  | materialized count => "Materialized " ++ toString count ++ " shapes"
  | skipped id kind =>
    "Skipping unsupported shape " ++ id ++ " of kind " ++ Text.quoted kind
  | saved _ _ => "Saved a file"
  | wroteSvg count file =>
    "Wrote SVG with " ++ toString count ++ " shapes to " ++ file
  | wrotePng count file =>
    "Wrote PNG with " ++ toString count ++ " shapes to " ++ file

/-- The wording of an event with marks where its parts go: `%d` for a count, `%r` for a
text in quotes, and `%s` for anything else. -/
def template : Event → String
  | created _ _ _ _ _ _ => "Created %s %s at (%s, %s) size %sx%s"
  | bound _ _ _ => "Bound %s %s to %s"
  | expanded _ _ => "Expanded frame %s to enclose %d shapes"
  | materialized _ => "Materialized %d shapes"
  | skipped _ _ => "Skipping unsupported shape %s of kind %r"
  | saved _ _ => "Saved a file"
  | wroteSvg _ _ => "Wrote SVG with %d shapes to %s"
  | wrotePng _ _ => "Wrote PNG with %d shapes to %s"

/-- The parts of an event, each as it is written in a list. -/
def parts : Event → List String
  | created kind id x y w h =>
    [Text.quoted kind.keyword, Text.quoted id, x.write, y.write, w.write, h.write]
  | bound connector terminal shape => [connector, terminal, shape].map Text.quoted
  | expanded frame count => [Text.quoted frame, toString count]
  | materialized count => [toString count]
  | skipped id kind => [id, kind].map Text.quoted
  | saved _ _ => []
  | wroteSvg count file | wrotePng count file =>
    [toString count, "PosixPath(" ++ Text.quoted file ++ ")"]

end Event

/-- The outcome of a computation and the events on the way to it. -/
structure Report (α : Type) where
  events : List Event
  result : Except Fault α

namespace Report

def pure {α : Type} (a : α) : Report α := ⟨[], .ok a⟩

def bind {α β : Type} (r : Report α) (f : α → Report β) : Report β :=
  match r.result with
  | .error e => ⟨r.events, .error e⟩
  | .ok a => ⟨r.events ++ (f a).events, (f a).result⟩

instance : Monad Report where
  pure := Report.pure
  bind := Report.bind

/-- An outcome without events. -/
def ofExcept {α : Type} (e : Except Fault α) : Report α := ⟨[], e⟩

instance : MonadLift (Except Fault) Report := ⟨ofExcept⟩

/-- An event alone. -/
def tell (e : Event) : Report Unit := ⟨[e], .ok ()⟩

/-! ## Laws -/

@[simp] theorem result_pure {α : Type} (a : α) :
    (Pure.pure a : Report α).result = .ok a := rfl

@[simp] theorem events_pure {α : Type} (a : α) : (Pure.pure a : Report α).events = [] := rfl

@[simp] theorem result_ofExcept {α : Type} (e : Except Fault α) : (ofExcept e).result = e :=
  rfl

@[simp] theorem events_ofExcept {α : Type} (e : Except Fault α) : (ofExcept e).events = [] :=
  rfl

@[simp] theorem result_liftM {α : Type} (e : Except Fault α) :
    (liftM e : Report α).result = e := rfl

@[simp] theorem events_liftM {α : Type} (e : Except Fault α) :
    (liftM e : Report α).events = [] := rfl

@[simp] theorem result_tell (e : Event) : (tell e).result = .ok () := rfl

@[simp] theorem events_tell (e : Event) : (tell e).events = [e] := rfl

/-- The result of a sequence is the sequence of the results. -/
@[simp] theorem result_bind {α β : Type} (r : Report α) (f : α → Report β) :
    (r >>= f).result = r.result >>= fun a => (f a).result := by
  show (Report.bind r f).result = _
  unfold Report.bind
  cases h : r.result <;> rfl

/-- A failure ends the events of a sequence. -/
theorem events_bind_error {α β : Type} {r : Report α} {e : Fault} (f : α → Report β)
    (h : r.result = .error e) : (r >>= f).events = r.events := by
  show (Report.bind r f).events = _
  unfold Report.bind
  rw [h]

/-- After a success the events of the next step follow. -/
theorem events_bind_ok {α β : Type} {r : Report α} {a : α} (f : α → Report β)
    (h : r.result = .ok a) : (r >>= f).events = r.events ++ (f a).events := by
  show (Report.bind r f).events = _
  unfold Report.bind
  rw [h]

@[simp] theorem result_map {α β : Type} (f : α → β) (r : Report α) :
    (f <$> r).result = f <$> r.result := by
  show (Report.bind r (Report.pure ∘ f)).result = _
  unfold Report.bind
  cases h : r.result <;> rfl

@[simp] theorem events_map {α β : Type} (f : α → β) (r : Report α) :
    (f <$> r).events = r.events := by
  show (Report.bind r (Report.pure ∘ f)).events = _
  unfold Report.bind
  cases h : r.result with
  | error e => rfl
  | ok a => exact List.append_nil _

theorem bind_pure_self {α : Type} (x : Report α) : Report.bind x Report.pure = x := by
  obtain ⟨events, result⟩ := x
  cases result with
  | error e => rfl
  | ok a => simp [Report.bind, Report.pure]

theorem pure_bind_apply {α β : Type} (a : α) (f : α → Report β) :
    Report.bind (Report.pure a) f = f a := by
  simp [Report.bind, Report.pure]

theorem bind_bind {α β γ : Type} (x : Report α) (f : α → Report β) (g : β → Report γ) :
    Report.bind (Report.bind x f) g = Report.bind x fun a => Report.bind (f a) g := by
  obtain ⟨events, result⟩ := x
  cases result with
  | error e => rfl
  | ok a => cases h : (f a).result <;> simp [Report.bind, h]

instance : LawfulMonad Report :=
  LawfulMonad.mk' Report bind_pure_self pure_bind_apply bind_bind

end Report

end DiagramScript
