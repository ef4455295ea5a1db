import DiagramScript.Journal.Format
import DiagramScript.Json.Value

/-
  Log output.

  A journal is the state of logging: the level, the handlers that records go to, and what
  was written to streams and files. Setups and the application add handlers to one list, and
  a setup notes its own in a second list. The next setup takes those off the first list, one
  by one, before it adds new ones; so it has to note what it adds, and nothing else. A setup
  with an unknown level changes nothing, and one whose file cannot be opened only removes
  handlers. Drawings lie among the log files.
-/

namespace DiagramScript

/-- Where a handler writes. -/
inductive Sink where
  | stream (name : String)
  | file (place : Place)
  deriving DecidableEq, Repr

/-- Who writes log records: nobody, the application, or a setup of ours. Setups make new
handlers each time, which only their numbers tell apart. -/
inductive Handler where
  | silent
  | application (name : String)
  | installed (number : Nat) (sink : Sink) (format : String)
  deriving DecidableEq, Repr

/-- Texts by name, in the order in which the names came up. -/
abbrev Texts := List (String × String)

namespace Texts

/-- The texts with a name that is empty unless it was there before. -/
def touch (ts : Texts) (name : String) : Texts :=
  if (ts.lookup name).isSome then ts else ts ++ [(name, "")]

/-- The texts with more at the end of a name. -/
def append (ts : Texts) (name text : String) : Texts :=
  (ts.touch name).map fun (n, t) => if n = name then (n, t ++ text) else (n, t)

end Texts

structure Journal where
  level : Level := .number 0
  handlers : List Handler := [.silent]
  /-- What the last setup has noted as its handlers. -/
  installed : List Handler := []
  /-- How many handlers setups have made. -/
  made : Nat := 0
  streams : Texts := []
  folder : Folder := {}

namespace Journal

/-- What log names start with. -/
def root : String := "sketchflow"

/-- The stream that is written where no other one is asked for. -/
def standardStream : String := "stderr"

/-- The full name of a logger. -/
def loggerName (name : String) : String :=
  if name = root ∨ (root ++ ".").toList.isPrefixOf name.toList then name
  else root ++ "." ++ name

/-! ## Setup -/

/-- The handlers that a user of the journal can see. -/
def visibleHandlers (j : Journal) : List Handler := j.handlers.filter (· != .silent)

/-- Sends records to one more handler, unless they go there already. -/
def addHandler (j : Journal) (h : Handler) : Journal :=
  if h ∈ j.handlers then j else { j with handlers := j.handlers ++ [h] }

def removeHandler (j : Journal) (h : Handler) : Journal :=
  { j with handlers := j.handlers.erase h }

/-- Adds a handler of the application. -/
def attach (j : Journal) (name : String) : Journal := j.addHandler (.application name)

/-- The level of a value: a number, a truth value or a name. -/
def levelOf (v : Value) : Except Fault Level :=
  match v with
  | .number (.whole n) => .ok (.number n)
  | .bool b => .ok (.flag b)
  | .text s =>
    match Level.ofName? s with
    | some l => .ok l
    | none => .error (.setting (.logLevel s))
  | _ => .error .notText

/-- The format of a value. An empty one stands for the message alone; any other one needs a
field. -/
def formatOf (v : Value) : Except Fault String :=
  if v.isBlankValue then .ok LogFormat.bare
  else
    match v with
    | .text s =>
      if LogFormat.hasField s.toList then .ok s else .error (.setting (.logFormat s))
    | _ => .error .unusableValue

/-- The place of a log file, if a value asks for one. -/
def fileOf (f : Folder) (v : Value) : Except Fault (Option Place) :=
  if v.isBlankValue then .ok none
  else
    match v with
    | .text s => some <$> f.resolvedPlace s
    | _ => .error .unusableValue

/-- The handlers of a setup: one for its stream, and one for its file if it has one. -/
def setupHandlers (number : Nat) (stream : String) (file : Option Place) (format : String) :
    List Handler :=
  .installed number (.stream stream) format ::
    file.toList.map fun place => .installed (number + 1) (.file place) format

/-- A journal without the handlers that the last setup has noted. -/
def uninstall (j : Journal) : Journal :=
  { j.installed.foldl removeHandler j with installed := [] }

/-- Adds a handler of a setup and notes it. -/
def installHandler (j : Journal) (h : Handler) : Journal :=
  { j.addHandler h with installed := j.installed ++ [h] }

/-- The journal with the handlers of a setup. A log file is there from then on. -/
def install (j : Journal) (level : Level) (stream : String) (file : Option Place)
    (format : String) : Journal :=
  let handlers := setupHandlers j.made stream file format
  let folder := match file with
    | some place => j.folder.append place ""
    | none => j.folder
  let j := { j with folder, made := j.made + handlers.length }
  { handlers.foldl installHandler j with level }

/-- Sets the journal up. The level is looked at first; the format and the file are looked at
after the handlers of the last setup are gone. -/
def setup (j : Journal) (level : Value) (stream : String) (file format : Value) :
    Journal × Except Fault Unit :=
  match levelOf level with
  | .error e => (j, .error e)
  | .ok level =>
    let j := j.uninstall
    match formatOf format, fileOf j.folder file with
    | .error e, _ => (j, .error e)
    | .ok _, .error e => (j, .error e)
    | .ok format, .ok file => (j.install level stream file format, .ok ())

/-! ## Records -/

/-- Writes a line to a sink. A file takes no line that has no encoding. -/
def writeLine (j : Journal) (sink : Sink) (line : String) : Journal :=
  match sink with
  | .stream name => { j with streams := j.streams.append name (line ++ "\n") }
  | .file place =>
    if Text.hasHalf line.toList then j
    else { j with folder := j.folder.append place (line ++ "\n") }

/-- Hands a record to a handler. -/
def handle (r : LogRecord) (j : Journal) : Handler → Journal
  | .installed _ sink format =>
    match LogFormat.write format r with
    | some line => j.writeLine sink line
    | none => j
  | _ => j

/-- Hands a record to all handlers, unless its level is too low. A level that is not positive
is always too low. -/
def record (j : Journal) (r : LogRecord) : Journal :=
  if r.level.value < j.level.threshold ∨ r.level.value ≤ 0 then j
  else j.handlers.foldl (handle r) j

/-- A record of the application. -/
def log (j : Journal) (name : String) (level : Level) (message : String) : Journal :=
  j.record (.plain (loggerName name) level message)

/-- The logger and the level of an event. A level of zero is never recorded. -/
def source : Event → String × Int
  | .skipped _ _ => ("export", 30)
  | .wroteSvg _ _ | .wrotePng _ _ => ("export", 20)
  | .saved _ _ => ("export", 0)
  | _ => ("document", 10)

/-- The journal with the file that an event writes. -/
def store (j : Journal) : Event → Journal
  | .saved place content => { j with folder := j.folder.write place content }
  | _ => j

/-- Writes the file of an event and records the event. -/
def event (j : Journal) (e : Event) : Journal :=
  (j.store e).record (.ofEvent (loggerName (source e).1) (source e).2 e)

/-- Records the events of a report. -/
def report {α : Type} (j : Journal) (r : Report α) : Journal := r.events.foldl event j

/-! ## Output -/

/-- A journal that knows a stream, and the standard one with it. -/
def openStreams (j : Journal) (stream : Option String) : Journal :=
  let streams := match stream with
    | some name => j.streams.touch name
    | none => j.streams
  { j with streams := streams.touch standardStream }

/-- A journal from whose streams everything was read. -/
def drained (j : Journal) : Journal := { j with streams := j.streams.map fun (n, _) => (n, "") }

end Journal

end DiagramScript
