import CloudSecrets.CommandLine.Help
import CloudSecrets.CommandLine.Reading
import CloudSecrets.Service.Operations

/-!
# Running the command line

A run reads its command line, does what it says, and ends with an exit code: 0 for success, 1 for a
fault or an interrupt, 2 for a misuse. Output is written only after the last step that can fail,
except that showing the configuration's place names it before looking for it. The verbosity decides
only which of the noted log messages appear on the error stream.
-/

namespace CloudSecrets.CommandLine

/-- How a run ends. -/
structure Ending where
  exit : Nat
  output : String
  errors : String
  world : World

/-! ## Commands -/

/-- The version of the program. -/
def versionText : String := "0.1.0"

/-- Creates a secret and prints its name; a malformed label is a misuse. -/
def create (context : Context) (name : String) (username password description : Supplied)
    (entries : List Supplied) : Action Nat :=
  match Labels.parse entries with
  | .error (.malformed entry) => do
    Action.warn (Labels.malformedMessage entry)
    return 2
  | .error .notText => Action.stop .labelNotText
  | .ok labels => do
    let client ← Client.new context
    let created ← Service.create client { name, labels, description, username, password }
    Action.print (Service.shownName created ++ "\n")
    return 0

/-- Prints the public view of a secret. -/
def inspect (context : Context) (id : String) : Action Nat := do
  let client ← Client.new context
  let secret ← Service.inspect client id
  Action.print (secret.publicText ++ "\n")
  return 0

/-- Prints all secrets as a table. -/
def list (context : Context) : Action Nat := do
  let client ← Client.new context
  let secrets ← Service.list client
  Action.print (← Action.ofExcept .table (Secret.table secrets))
  return 0

/-- Deletes a secret. -/
def delete (context : Context) (name : String) (recover : Bool) : Action Nat := do
  let client ← Client.new context
  Service.delete client name recover
  return 0

/-- A path with the home folder of its user put in. -/
def expandHome (p : Path) : Action Path := do
  let w ← get
  if p.root.isEmpty && p.parts.head?.any (fun s => s.toList.head? == some '~' && holdsNull s) then
    Action.stop .nullInPath
  else
    match p.expandHome? w.home w.homes with
    | some p => return p
    | none => Action.stop .noHome

/-- The file that a path leads to, with the home folder put in and all links resolved. -/
def resolvePath (text : String) : Action String := do
  let path := (← expandHome (Path.ofText text)).text
  if holdsNull path then Action.stop .nullInPath
  else
    let w ← get
    let resolved := w.files.canonical w.here path
    match w.files.find w.here resolved with
    | .error .tooManyLinks => Action.stop (.linkLoop resolved)
    | _ => return resolved

/-- Stores which configuration file to use, if it exists. -/
def setPath (text : String) : Action Nat := do
  let path ← resolvePath text
  if !(← Action.isFile path) then
    Action.warn s!"Error: Config file does not exist: {path}\n"
    return 1
  else
    Preferences.put Config.preferenceKey path
    Action.print s!"Config path set to: {path}\n"
    return 0

/-- Shows which configuration file would be used, and why. -/
def showPath : Action Nat := do
  let (path, source) ← match ← Config.preferred with
    | some p => pure (p.text, "preference")
    | none => do pure ((← Config.usual).text, "default")
  Action.print s!"Config path: {path}\n"
  let note := if ← Action.pathExists path then "" else " (file not found)"
  Action.print s!"Source: {source}{note}\n"
  return 0

/-- Forgets which configuration file to use. -/
def clearPath : Action Nat := do
  Preferences.clear Config.preferenceKey
  let path := (← Config.usual).text
  Action.print s!"Config path preference cleared. Will use default: {path}\n"
  return 0

/-- Does what a verb says and gives the exit code. -/
def perform (context : Context) : Verb → Action Nat
  | .help c => do
    Action.print c.help
    return 2
  | .create name username password description labels =>
    create context name username password description labels
  | .inspect id => inspect context id
  | .list => list context
  | .delete name recover => delete context name recover
  | .version => do
    Action.print s!"secretctl {versionText}\n"
    return 0
  | .setPath path => setPath path
  | .showPath => showPath
  | .clearPath => clearPath

/-! ## Runs -/

/-- Tells what stopped an action. -/
def report : Fault → Action Nat
  | .interrupted => do
    Action.warn "\nInterrupted\n"
    return 1
  | f => do
    Action.log .debug "Command failed"
    Action.warn s!"Error: {f.message}\n"
    return 1

/-- The exit code of an action that may be stopped, and the world after it. -/
def settle (a : Action Nat) (w : World) : Nat × World :=
  match a.run.run w with
  | (.ok code, w) => (code, w)
  | (.error f, w) =>
    match (report f).run.run w with
    | (.ok code, w) => (code, w)
    | (.error _, w) => (1, w)

/-- Runs an invocation. -/
def Invocation.run (i : Invocation) (w : World) : Ending :=
  let (exit, w) := settle (perform i.context i.verb) w
  ⟨exit, w.output, Note.shownAll i.verbosity w.notes, w⟩

/-- The end of a run that stops at its command line. -/
def Stop.ending (w : World) : Stop → Ending
  | .help c => ⟨0, c.help, "", w⟩
  | .misuse c m => ⟨2, "", c.usage ++ s!"{c.called}: error: {m.message}\n", w⟩

/-- Runs a command line in a world. -/
def run (w : World) (args : List String) : Ending :=
  match read args with
  | .ok i => i.run w
  | .error s => s.ending w

end CloudSecrets.CommandLine
