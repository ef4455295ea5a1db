import DiagramScript.Fault
import DiagramScript.FileName

/-
  Files and where paths lead.

  A folder is a working directory without directories of its own: what was written to it,
  by place. A path is walked part by part from the working directory or from the root. Two
  points lead one directory up; any other part on the way has to be a directory, which no
  file is (`enter`). A file may be written where the way to it can be walked and its own
  part can be stored, whatever was written before (`locate?_eq_ok`).
-/

namespace DiagramScript

/-- What a file holds: a text, or an image of a size. -/
inductive FileContent where
  | text (s : String)
  | image (width height : Int)
  deriving DecidableEq, Repr

/-- A directory that a path leads to: the working directory or one so many levels above it,
or the root. -/
inductive Directory where
  | above (levels : Nat)
  | root
  deriving DecidableEq, Repr

/-- The directory one level up. The root is its own. -/
def Directory.parent : Directory → Directory
  | above n => above (n + 1)
  | root => root

/-- Where a file lies: its directory, and the bytes that its last part is stored under. -/
structure Place where
  directory : Directory
  name : List UInt8
  deriving DecidableEq, Repr

/-- A working directory: what was written, by place. -/
structure Folder where
  files : List (Place × FileContent) := []
  /-- How many letters the path of the directory takes, the slash behind it included. -/
  directoryLength : Nat := 0
  deriving DecidableEq, Repr

namespace Folder

/-! ## Files -/

def get? (f : Folder) (p : Place) : Option FileContent := f.files.lookup p

/-- Puts a file in a place, instead of what was there before. -/
def write (f : Folder) (p : Place) (c : FileContent) : Folder :=
  { f with files := (p, c) :: f.files.filter (·.1 ≠ p) }

/-- The file of a place with more text behind it. An image stays what it is. -/
def append (f : Folder) (p : Place) (more : String) : Folder :=
  match f.get? p with
  | none => f.write p (.text more)
  | some (.text s) => f.write p (.text (s ++ more))
  | some (.image _ _) => f

/-! ## Paths -/

/-- The most bytes of a path. -/
def longestPath : Nat := 4095

/-- The most bytes of a part. -/
def longestPart : Nat := 255

/-- What a path has to be before anything is looked up: each of its letters can be stored,
none of them is zero, and it is neither empty nor too long. `lead` letters stand in front
of it. -/
def checkPath (lead : Nat) (path : List Char) : Except FileProblem Unit :=
  match FileName.unstorable? path with
  | some (code, first, last) => .error (.halves code (lead + first) (lead + last))
  | none =>
    if path.contains '\x00' then .error .nullCharacter
    else if path.isEmpty then .error .missing
    else if longestPath < lead + (FileName.bytes path).length then .error .tooLong
    else .ok ()

/-- The directory that a part on the way leads to. -/
def enter (f : Folder) (d : Directory) (part : List Char) : Except FileProblem Directory :=
  if part = FileName.here then .ok d
  else if part = FileName.up then .ok d.parent
  else if longestPart < (FileName.bytes part).length then .error .tooLong
  else if (f.get? ⟨d, FileName.bytes part⟩).isSome then .error .notDirectory
  else .error .missing

/-- The directory that a path starts from. -/
def start (path : List Char) : Directory :=
  if FileName.isAbsolute path then .root else .above 0

/-- The place that a path leads to, none where it leads to a directory. -/
def locate? (f : Folder) (path : List Char) : Except FileProblem (Option Place) :=
  match (FileName.parts path).getLast? with
  | none => .ok none
  | some last => do
    let d ← (FileName.parts path).dropLast.foldlM f.enter (start path)
    .ok (if last = FileName.here ∨ last = FileName.up then none
      else some ⟨d, FileName.bytes last⟩)

/-- The place that a file of a path is written to; `lead` letters stand in front of the
path. A path that ends in a slash leads to a directory, there or not. -/
def placeFor (f : Folder) (lead : Nat) (path : List Char) : Except FileProblem Place := do
  checkPath lead path
  match ← f.locate? path with
  | none => .error .directory
  | some p =>
    if FileName.endsInSlash path then .error .directory
    else if longestPart < p.name.length then .error .tooLong
    else .ok p

/-- The place of a name in the working directory. -/
def place (f : Folder) (name : String) : Except Fault Place :=
  (f.placeFor 0 name.toList).mapError .file

/-- The place of a name that is resolved and put behind the path of the working directory
before anything is looked up. -/
def resolvedPlace (f : Folder) (name : String) : Except Fault Place :=
  let path := (FileName.resolved name).toList
  let lead := if FileName.isAbsolute path then 0 else f.directoryLength
  (f.placeFor lead path).mapError .file

/-- What the file of a path holds. -/
def read? (f : Folder) (path : List Char) : Except FileProblem FileContent := do
  checkPath 0 path
  match ← f.locate? path with
  | none => .error .directory
  | some p =>
    if longestPart < p.name.length then .error .tooLong
    else
      match f.get? p with
      | none => .error .missing
      | some c => if FileName.endsInSlash path then .error .notDirectory else .ok c

/-- What the file of a name holds. -/
def read (f : Folder) (name : String) : Except Fault FileContent :=
  (f.read? name.toList).mapError .file

/-- The text of the file of a name, every line ended by a line feed. An image has none. -/
def readText (f : Folder) (name : String) : Except Fault String := do
  match ← f.read name with
  | .text s => .ok (String.ofList (Text.unifyBreaks s.toList))
  | .image _ _ => .error (.file .notText)

/-! ## Laws -/

theorem enter_eq_ok {f : Folder} (g : Folder) {d e : Directory} {part : List Char}
    (h : f.enter d part = .ok e) : g.enter d part = .ok e := by
  unfold enter at h ⊢
  split at h
  · rw [if_pos (by assumption)]; exact h
  · rw [if_neg (by assumption)]
    split at h
    · rw [if_pos (by assumption)]; exact h
    · split at h
      · contradiction
      · split at h <;> contradiction

theorem foldlM_enter_eq_ok {f : Folder} (g : Folder) (ps : List (List Char))
    {d e : Directory} (h : ps.foldlM f.enter d = .ok e) : ps.foldlM g.enter d = .ok e := by
  induction ps generalizing d with
  | nil => exact h
  | cons p ps ih =>
    rw [List.foldlM_cons] at h ⊢
    cases hd : f.enter d p with
    | error _ => rw [hd] at h; contradiction
    | ok d' =>
      rw [hd] at h
      rw [enter_eq_ok g hd]
      exact ih h

/-- A path leads to the same place whatever was written. -/
theorem locate?_eq_ok {f : Folder} (g : Folder) {path : List Char} {p : Option Place}
    (h : f.locate? path = .ok p) : g.locate? path = .ok p := by
  unfold locate? at h ⊢
  split at h
  · exact h
  · cases hd : (FileName.parts path).dropLast.foldlM f.enter (start path) with
    | error _ => rw [hd] at h; contradiction
    | ok d =>
      rw [hd] at h
      rw [foldlM_enter_eq_ok g _ hd]
      exact h

end Folder

end DiagramScript
