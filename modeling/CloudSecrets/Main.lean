import CloudSecrets.CommandLine.Run

/-!
# The program

The program reads from the system what a run may look at, runs the command line on that, prints what
the run printed, and stores the preferences if they have changed. What a run may look at are the
preferences, the configuration and the account that they lead to, and the file that is to become the
configuration. The program has no transport of its own: each attempt to connect to the service is
answered with `unavailable`.
-/

namespace CloudSecrets

namespace Snapshot

/-- The path without links and the entry that a path leads to on the system, if there is one. -/
def entryAt? (path : String) : IO (Option (String × Entry)) := do
  try
    let real ← IO.FS.realPath path
    let info ← real.metadata
    match info.type with
    | .dir => return some (real.toString, .folder)
    | .file => return some (real.toString, .file (← IO.FS.readBinFile real).toList)
    | _ => return some (real.toString, .device)
  catch _ => return none

/-- Adds what names lead to from a folder of the system. -/
def addNames (t : FileTree) (here : Location) : List String → IO FileTree
  | [] => return t
  | name :: rest => do
    if name == "." then addNames t here rest
    else if name == ".." then addNames t here.parent rest
    else
      let there := here ++ [name]
      match ← entryAt? there.text with
      | none => return t
      | some (real, entry) =>
        let found := pathNames real
        let t := (t.makeFolders [] (Path.ofText real).parent).toOption.getD t
        let t := t.put found entry
        if found == there then addNames t there rest
        else addNames (t.put there (.link real)) found rest

/-- Adds what a path leads to. -/
def add (w : World) (path : Path) : IO World := do
  let files ← addNames w.files (if path.root.isEmpty then w.here else []) path.parts
  return { w with files := files }

/-- What an action gives, if nothing stops it; its changes to the world are dropped. -/
def peek? {α : Type} (a : Action α) (w : World) : Option α := (a.run.run w).1.toOption

/-- Adds the configuration and the account that it names. -/
def addConfiguration (w : World) : IO World := do
  let w ← match (peek? Config.preferred w).join with
    | some p => add w p
    | none => pure w
  match peek? (Config.place >>= Config.readFile w.reader) w with
  | some v =>
    match Config.account v with
    | .text path => add w (Path.ofText path)
    | _ => return w
  | none => return w

/-- The home folders in the system's list of users. -/
def homes : IO (List (String × String)) := do
  try
    let lines ← IO.FS.lines "/etc/passwd"
    return lines.toList.filterMap fun line =>
      match (Text.splitAtEach ':' line.toList).map String.ofList with
      | user :: _ :: _ :: _ :: _ :: home :: _ => some (user, home)
      | _ => none
  catch _ => return []

/-- The environment variables that a run looks at. -/
def environment : IO (Entries String String) := do
  let names := [Client.projectVariable, Config.credentialsVariable]
  let values ← names.mapM fun name => return (name, ← IO.getEnv name)
  return values.filterMap fun (name, value) => value.map (name, ·)

/-- The open streams of the program, each with whether it is open on a file. -/
def descriptors : IO (Entries Int Bool) := do
  [0, 1, 2].mapM fun n => do
    try
      let info ← (← IO.FS.realPath s!"/dev/fd/{n}").metadata
      return (n, info.type == .file)
    catch _ => return (n, false)

/-- The answers of the service. -/
def script : Service.Script :=
  [(.connect, [.failure (.status .unavailable "no connection to Secret Manager")])]

/-- Adds the file that is to become the configuration. -/
def addNamed (w : World) (args : List String) : IO World :=
  match CommandLine.read args with
  | .ok ⟨_, _, .setPath path⟩ =>
    match (Path.ofText path).expandHome? w.home w.homes with
    | some p => add w p
    | none => return w
  | _ => return w

/-- The world of a run with these arguments. -/
def world (args : List String) : IO World := do
  let home := (← IO.getEnv "HOME").getD "/"
  let here := pathNames (← IO.currentDir).toString
  let w : World := {
    files := { descriptors := ← descriptors }
    here, home, script
    reader := Config.readDocument
    homes := ← homes
    environment := ← environment }
  let w ← add w (Preferences.file home)
  let w ← add w (Config.usualPath home)
  addConfiguration (← addNamed w args)

end Snapshot

/-- Stores the preferences of a world on the system. -/
def storePreferences (w : World) (content : Bytes) : IO Unit := do
  IO.FS.createDirAll (Preferences.folder w.home).text
  IO.FS.writeBinFile (Preferences.file w.home).text ⟨content.toArray⟩

/-- Runs the command line and gives the exit code. -/
def program (args : List String) : IO UInt32 := do
  let before ← Snapshot.world args
  let ending := CommandLine.run before args
  let path := (Preferences.file before.home).text
  let content (w : World) := (w.files.read w.here path).toOption
  IO.print ending.output
  IO.eprint ending.errors
  match content ending.world with
  | some bytes => if content before != some bytes then storePreferences before bytes
  | none => pure ()
  return ending.exit.toUInt32

end CloudSecrets

/-- The entry of the program. -/
def main (args : List String) : IO UInt32 := CloudSecrets.program args
