import SceneMarkup.Log.FilePath
import SceneMarkup.Log.Hierarchy
import SceneMarkup.Log.Record

/-!
# Loggers

A record goes to the handlers of its logger and of the loggers above it, up to the first one that
keeps its records to itself. A logger that has been set up writes to a file and, from warnings
on, to the standard error. A record that meets no handler at all goes to the standard error if it
is at least a warning.

Whether a logger passes records of a level is decided once and stays so until a logger is set up.
The registry keeps all that has been written, without time stamps.
-/

namespace SceneMarkup.Log

/-- A handler with the least level that it takes. -/
structure Handler where
  target : Target
  level : Level

/-- A logger that has been set up. -/
structure Logger where
  name : String
  level : Level
  propagates : Bool
  handlers : List Handler

/-- The loggers that are known and those among them that were set up, and what has been
written. -/
structure Registry where
  hierarchy : Hierarchy
  loggers : List Logger
  /-- The names under which loggers were set up. -/
  done : List String
  /-- Which records pass, as far as it has been decided. -/
  verdicts : List ((String × Level) × Bool)
  files : List (String × String)
  console : String

namespace Registry

/-- A registry in which nothing is set up. -/
def empty : Registry := ⟨.empty, [], [], [], [], ""⟩

/-- The least level that the root passes unless it is set up. -/
def rootLevel : Level := .warning

/-- The name under which a logger is known. -/
def canonical (name : String) : String := if name = "" then Hierarchy.rootName else name

/-- The logger with a name, if it is set up. -/
def logger? (name : String) (r : Registry) : Option Logger :=
  r.loggers.find? (·.name = name)

/-- The registry in which a logger is known. -/
def know (name : String) (r : Registry) : Registry :=
  { r with hierarchy := r.hierarchy.enter (canonical name) }

/-- The files with an empty one for a name that is new. -/
def createFile (name : String) (files : List (String × String)) : List (String × String) :=
  if files.any (·.1 = name) then files else files ++ [(name, "")]

/-- The files after a target has been opened. -/
def openTarget (t : Target) (files : List (String × String)) : List (String × String) :=
  match t with
  | .file name => createFile name files
  | _ => files

/-- A logger that writes to a target and to the standard error, beside the handlers that it has
already. -/
def newLogger (name : String) (target : Target) (earlier : Option Logger) : Logger :=
  let handlers := match earlier with
    | some l => l.handlers
    | none => []
  ⟨name, .info, false, handlers ++ [⟨target, .info⟩, ⟨.console, .warning⟩]⟩

/-- The loggers with one put in. -/
def putLogger (l : Logger) (ls : List Logger) : List Logger :=
  ls.filter (·.name ≠ l.name) ++ [l]

/-- Sets a logger up, unless it is set up under the name already. The root has two names. -/
def setUp (name file : String) (r : Registry) : Except FileFault (Logger × Registry) :=
  let known := canonical name
  match r.logger? known, r.done.contains name with
  | some l, true => .ok (l, r)
  | earlier, _ =>
    match FilePath.locate (r.files.map (·.1)) file with
    | .error f => .error f
    | .ok target =>
      let l := newLogger known target earlier
      .ok (l, { r.know name with
        loggers := putLogger l r.loggers
        done := name :: r.done
        verdicts := []
        files := openTarget target r.files })

/-- The least level that a row of loggers passes: that of the first one that has one. -/
def levelOf (r : Registry) : List String → Level
  | [] => rootLevel
  | name :: above =>
    match r.logger? name with
    | some l => l.level
    | none => levelOf r above

/-- Whether a logger passes records of a level, as decided before or decided now. -/
def passes (name : String) (level : Level) (r : Registry) : Bool :=
  match r.verdicts.find? (·.1 = (name, level)) with
  | some v => v.2
  | none => (levelOf r (r.hierarchy.lineage name)).rank ≤ level.rank

/-- The handlers that a record meets on its way up. -/
def handlersOf (r : Registry) : List String → List Handler
  | [] => []
  | name :: above =>
    match r.logger? name with
    | some l => l.handlers ++ if l.propagates then handlersOf r above else []
    | none => handlersOf r above

/-- The line of a record in a file. -/
def fileLine (x : Record) : String :=
  "[" ++ x.source ++ "] [" ++ x.level.name ++ "] " ++ x.message ++ "\n"

/-- The line of a record on the standard error. -/
def consoleLine (x : Record) : String := "[" ++ x.source ++ "] " ++ x.message ++ "\n"

/-- The files with a text at the end of one of them. -/
def append (name text : String) (files : List (String × String)) : List (String × String) :=
  files.map fun f => if f.1 = name then (f.1, f.2 ++ text) else f

/-- The line that a handler writes for a record, with its target, if it takes the record. -/
def lineFor? (x : Record) (h : Handler) : Option (Target × String) :=
  if x.level.rank < h.level.rank then none
  else
    match h.target with
    | .console => some (.console, consoleLine x)
    | t => some (t, fileLine x)

/-- The lines that a message under the name of a logger leads to, with their targets. -/
def linesFor (name : String) (level : Level) (message : String) (r : Registry) :
    List (Target × String) :=
  let known := canonical name
  let r := r.know name
  if r.passes known level then
    match r.handlersOf (r.hierarchy.lineage known) with
    | [] => if level.rank < rootLevel.rank then [] else [(.console, message ++ "\n")]
    | hs => hs.filterMap (lineFor? ⟨level, known, message⟩)
  else []

/-- Writes a line to its target. -/
def write (r : Registry) (line : Target × String) : Registry :=
  match line.1 with
  | .file name => { r with files := append name line.2 r.files }
  | .elsewhere => r
  | .console => { r with console := r.console ++ line.2 }

/-- The registry in which it is decided whether a logger passes records of a level. -/
def settle (name : String) (level : Level) (r : Registry) : Registry :=
  let known := canonical name
  let r := r.know name
  { r with verdicts := ((known, level), r.passes known level) :: r.verdicts }

/-- Logs a message under the name of a logger. -/
def log (name : String) (level : Level) (message : String) (r : Registry) : Registry :=
  (r.linesFor name level message).foldl write (r.settle name level)

/-- Logs a record under the name of its source. -/
def record (x : Record) (r : Registry) : Registry := r.log x.source x.level x.message

end Registry
end SceneMarkup.Log
