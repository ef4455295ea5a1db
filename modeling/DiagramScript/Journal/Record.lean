import DiagramScript.Journal.Level
import DiagramScript.Report

/-
  Records of a log.

  A record is a line to be written: who writes it, its level, and its message, which was
  filled in from a template. What a format may ask for is looked up by name (`field?`). The
  time, the process and the place in the program are not kept: their fields are known by
  name and have no value.
-/

namespace DiagramScript

structure LogRecord where
  logger : String
  level : Level
  /-- The message before its arguments were filled in. -/
  template : String
  /-- The arguments, each as it is written in a list. -/
  arguments : List String := []
  message : String
  deriving DecidableEq, Repr

/-- What a name stands for in a record. -/
inductive LogField where
  | text (s : String)
  | number (n : Int)
  | flag (b : Bool)
  /-- A value that is neither text nor number, in its written form. -/
  | other (written : String)
  /-- A value that differs from run to run. -/
  | unkept
  deriving DecidableEq, Repr

namespace LogRecord

/-- The record of a message that is its own template. -/
def plain (logger : String) (level : Level) (message : String) : LogRecord :=
  { logger, level, template := message, message }

/-- The record of an event. -/
def ofEvent (logger : String) (level : Int) (e : Event) : LogRecord :=
  { logger, level := .number level, template := e.template, arguments := e.parts
    message := e.message }

/-- Arguments in brackets, a single one with a comma behind it. -/
def listed : List String → String
  | [a] => "(" ++ a ++ ",)"
  | arguments => "(" ++ ", ".intercalate arguments ++ ")"

/-- The names of fields without value. -/
def unkeptNames : List String :=
  ["asctime", "created", "filename", "funcName", "lineno", "module", "msecs", "pathname",
    "process", "relativeCreated", "thread"]

/-- What a name stands for in a record; most texts are no name. -/
def field? (r : LogRecord) (name : String) : Option LogField :=
  match name with
  | "name" => some (.text r.logger)
  | "levelname" => some (.text r.level.display)
  | "levelno" =>
    match r.level with
    | .number n => some (.number n)
    | .flag b => some (.flag b)
  | "message" => some (.text r.message)
  | "msg" => some (.text r.template)
  | "args" => some (.other (listed r.arguments))
  | "exc_info" | "exc_text" | "stack_info" => some (.other "None")
  | "threadName" => some (.text "MainThread")
  | "processName" => some (.text "MainProcess")
  | name => if unkeptNames.contains name then some .unkept else none

end LogRecord

end DiagramScript
