import DiagramScript.Json.Value

/-
  Bindings of connectors to shapes.

  A binding names an end of a connector by a terminal: `start` or `end`, or whatever plain
  value a record holds. Between one connector and one shape there is at most one link for
  each key. The key of a link is the terminal it was first made for; a link without terminal
  gets a number of its own. Making a link again keeps its place and renews its terminal.
-/

namespace DiagramScript

/-- What a binding calls an end of a connector. -/
inductive Terminal where
  | unnamed
  | number (n : Scalar)
  | text (s : String)
  deriving DecidableEq, Repr

namespace Terminal

/-- Whether two terminals are one: equal texts or equal numbers. -/
def same : Terminal → Terminal → Bool
  | text s, text t => s == t
  | number m, number n => m.same n
  | _, _ => false

/-- The terminal of a plain value; lists and objects are none. -/
def ofValue? : Value → Option Terminal
  | .null => some unnamed
  | .bool b => some (number (.flag b))
  | .number n => some (number n)
  | .text s => some (text s)
  | .list _ | .object _ => none

def toValue : Terminal → Value
  | unnamed => .null
  | number n => .ofScalar n
  | text s => .text s

@[simp] theorem ofValue?_toValue (t : Terminal) : ofValue? t.toValue = some t := by
  cases t with
  | number n => cases n <;> rfl
  | _ => rfl

@[simp] theorem same_text (s t : String) : same (text s) (text t) = (s == t) := rfl

end Terminal

/-- A connection between an end of a connector and a shape. -/
structure Binding where
  connector : String
  shape : String
  terminal : Terminal
  deriving DecidableEq, Repr

/-- A binding that was made, with its key. -/
structure Link extends Binding where
  key : Terminal
  deriving DecidableEq, Repr

namespace Link

/-- The links between the two sides of a binding. -/
def between (links : List Link) (b : Binding) : List Link :=
  links.filter fun l => l.connector == b.connector && l.shape == b.shape

/-- The first number from `n` on that is the key of no link, among the next `fuel` ones. -/
def freeKey (links : List Link) : Nat → Nat → Nat
  | 0, n => n
  | fuel + 1, n =>
    if links.any (·.key.same (.number (.whole n))) then freeKey links fuel (n + 1) else n

/-- The key of a binding among some links. -/
def keyFor (links : List Link) (b : Binding) : Terminal :=
  match b.terminal with
  | .unnamed =>
    let others := between links b
    .number (.whole (freeKey others others.length others.length))
  | t => t

/-- Whether a link is the one that a binding with a key makes. -/
def isFor (b : Binding) (key : Terminal) (l : Link) : Bool :=
  l.connector == b.connector && l.shape == b.shape && l.key.same key

/-- The links after a binding was made. -/
def make (links : List Link) (b : Binding) : List Link :=
  let key := keyFor links b
  if links.any (isFor b key) then
    links.map fun l => if isFor b key l then { l with terminal := b.terminal } else l
  else links ++ [{ toBinding := b, key }]

/-- The ends of a link that was made are those of an earlier link or of the binding. -/
theorem mem_make {links : List Link} {b : Binding} {l : Link} (h : l ∈ make links b) :
    (∃ l' ∈ links, l.connector = l'.connector ∧ l.shape = l'.shape) ∨
      (l.connector = b.connector ∧ l.shape = b.shape) := by
  simp only [make] at h
  split at h
  · -- Renewing a link leaves its ends alone.
    obtain ⟨l', hl', rfl⟩ := List.mem_map.mp h
    refine .inl ⟨l', hl', ?_⟩
    split <;> exact ⟨rfl, rfl⟩
  · rcases List.mem_append.mp h with h | h
    · exact .inl ⟨l, h, rfl, rfl⟩
    · rw [List.mem_singleton] at h
      exact .inr (h ▸ ⟨rfl, rfl⟩)

/-! ## Groups -/

/-- Texts without the repetitions of earlier ones. -/
def distinct : List String → List String
  | [] => []
  | s :: rest => s :: (distinct rest).filter (· != s)

/-- Links grouped by a side, groups in the order of their first members. -/
def grouped (side : Link → String) (links : List Link) : List Link :=
  (distinct (links.map side)).flatMap fun s => links.filter (side · == s)

end Link

end DiagramScript
