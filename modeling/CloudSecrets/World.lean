import CloudSecrets.Config.Reader

/-!
# The world of an action

The state that actions work on: files, the reader of configuration files, environment variables, the
configuration once it has been loaded, the service, and what has been told so far. Log messages are always noted, with their level,
among what is printed to the error stream; only whoever shows the notes decides which levels to
show, so no action can depend on that choice.

An action changes the world and either gives a value or stops with a fault; what it changed before
the fault stays.
-/

namespace CloudSecrets

/-- The severity of a log message. -/
inductive Level where
  | debug
  | info
  | warning
  | error
  deriving Repr, BEq, DecidableEq

/-- Whether a verbosity shows log messages of a level: warnings and errors always, the others only
when asked for. -/
def Level.isShown (verbosity : Nat) : Level → Bool
  | .debug => decide (2 ≤ verbosity)
  | .info => decide (1 ≤ verbosity)
  | .warning => true
  | .error => true

/-- What is told on the error stream. -/
inductive Note where
  | logged (level : Level) (text : String)
  | printed (text : String)
  deriving Repr, BEq, DecidableEq

namespace Note

/-- A note as the error stream shows it; a log message is a line of its own. -/
def shown (verbosity : Nat) : Note → String
  | .logged level text => if level.isShown verbosity then text ++ "\n" else ""
  | .printed text => text

/-- Notes as the error stream shows them. -/
def shownAll (verbosity : Nat) (notes : List Note) : String :=
  String.join (notes.map (shown verbosity))

end Note

/-- The state of a process. -/
structure World where
  files : FileTree
  /-- The current folder. -/
  here : Location
  /-- The home folder. -/
  home : String
  /-- The home folders of other users. -/
  homes : List (String × String) := []
  /-- How the content of a configuration file is read. -/
  reader : Config.Reader
  environment : Entries String String := []
  /-- The configuration, once it has been loaded. -/
  config : Option Yaml.Value := none
  script : Service.Script := []
  /-- The connections that have been opened, by number. -/
  connected : List Nat := []
  /-- The number of the next connection. -/
  nextConnection : Nat := 0
  calls : List Service.Call := []
  notes : List Note := []
  output : String := ""

/-- A computation that works on the world. -/
abbrev Action (α : Type) := ExceptT Fault (StateM World) α

namespace Action

/-- Stops with a fault. -/
def stop {α : Type} (f : Fault) : Action α := throw f

/-- Gives a value that was computed apart, or stops with its fault. -/
def ofExcept {ε α : Type} (toFault : ε → Fault) : Except ε α → Action α
  | .ok a => pure a
  | .error e => stop (toFault e)

/-- Notes a log message. -/
def log (level : Level) (text : String) : Action Unit :=
  modify fun w => { w with notes := w.notes ++ [.logged level text] }

/-- Notes a text on the error stream. -/
def warn (text : String) : Action Unit :=
  modify fun w => { w with notes := w.notes ++ [.printed text] }

/-- Writes a text to the output, which takes every text: no encoding of its own stands in the way,
and it is never closed or full. -/
def print (text : String) : Action Unit := modify fun w => { w with output := w.output ++ text }

/-- The value of an environment variable. -/
def getVariable (name : String) : Action (Option String) := do
  return Entries.get? name (← get).environment

/-- Sets an environment variable. -/
def setVariable (name value : String) : Action Unit :=
  modify fun w => { w with environment := Entries.put name value w.environment }

/-- Whether a path leads to an entry; a path with too long a name stops the action. -/
def pathExists (path : String) : Action Bool := do
  let w ← get
  ofExcept .file (w.files.checked w.here path (w.files.exists? w.here path))

/-- Whether a path leads to a file; a path with too long a name stops the action. -/
def isFile (path : String) : Action Bool := do
  let w ← get
  ofExcept .file (w.files.checked w.here path (w.files.isFile w.here path))

end Action

end CloudSecrets
