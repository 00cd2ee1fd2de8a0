import CloudSecrets.Service.Operations

/-!
# Sessions

A session is a sequence of steps in one process: preferences, files and variables change, the
configuration is loaded at most once, and operations run on clients. A new client stays bound for
the steps after it; before that, and for steps with a context of their own, operations use a
connection that the whole session shares.
-/

namespace CloudSecrets

namespace FileTree

/-- The tree with an entry at a path, where missing folders above it are made. A file is written
through links; an entry that cannot be placed changes nothing but those folders. -/
def place (t : FileTree) (here : Location) (path : String) (e : Entry) : FileTree :=
  let p := Path.ofText path
  let t := (t.makeFolders here p.parent).toOption.getD t
  match e with
  | .file content => (t.write here path content).toOption.getD t
  | .folder => (t.makeFolders here p).toOption.getD t
  | e =>
    match t.findEntry here path with
    | .ok (.vacant l) => t.put l e
    | _ => t

/-- The tree without the entry that a path names and everything below it; a link itself is removed.
-/
def discard (t : FileTree) (here : Location) (path : String) : FileTree :=
  match t.findEntry here path with
  | .ok (.entry l _) => t.remove l
  | _ => t

end FileTree

/-- A step of a session. -/
inductive Step where
  | getPreference (key : String)
  | setPreference (key value : String)
  | clearPreference (key : String)
  | configPath
  | loadConfig
  | project (asked : Option String)
  | timeout (asked : Option Timeout)
  | newClient (context : Context)
  | create (context : Option Context) (secret : Secret)
  | inspect (context : Option Context) (id : String)
  | list (context : Option Context)
  | delete (context : Option Context) (name : String) (recover : Bool)
  | setVariable (name value : String)
  | put (path : String) (entry : Entry)
  | drop (path : String)
  | read (path : String)

/-- What a step gives. -/
inductive Result where
  | nothing
  | preference (value : Option Json)
  | text (s : String)
  | config (value : Yaml.Value)
  | timeout (t : Option Timeout)
  | client (c : Client)
  | name (n : Option String)
  | secret (s : Secret)
  | secrets (ss : List Secret)
  | entry (e : Option Entry)

/-- The state of a session. -/
structure Session where
  world : World
  /-- The connection that steps share until a client is bound. -/
  shared : Nat := 0
  bound : Option Client := none

namespace Session

/-- The session of a world, whose first connection is the shared one. -/
def ofWorld (w : World) : Session :=
  { world := { w with nextConnection := w.nextConnection + 1 }, shared := w.nextConnection }

/-- The client that an operation runs on. -/
def clientFor (s : Session) (context : Option Context) : Client :=
  match context, s.bound with
  | none, some client => client
  | none, none => ⟨s.shared, {}⟩
  | some c, _ => ⟨s.shared, c⟩

/-- Where a path leads. -/
def entryAt (path : String) : Action (Option Entry) := do
  let w ← get
  match w.files.find w.here path with
  | .ok (.entry _ e) => return some e
  | _ => return none

/-- What a step does. -/
def action (s : Session) : Step → Action Result
  | .getPreference key => .preference <$> Preferences.value? key
  | .setPreference key value => do
    Preferences.put key value
    return .nothing
  | .clearPreference key => do
    Preferences.clear key
    return .nothing
  | .configPath => .text <$> Config.place
  | .loadConfig => .config <$> Config.load
  | .project asked => .text <$> Client.resolveProject asked
  | .timeout asked => .timeout <$> Client.resolveTimeout asked
  | .newClient context => .client <$> Client.new context
  | .create context secret => .name <$> Service.create (s.clientFor context) secret
  | .inspect context id => .secret <$> Service.inspect (s.clientFor context) id
  | .list context => .secrets <$> Service.list (s.clientFor context)
  | .delete context name recover => do
    Service.delete (s.clientFor context) name recover
    return .nothing
  | .setVariable name value => do
    Action.setVariable name value
    return .nothing
  | .put path entry => do
    modify fun w => { w with files := w.files.place w.here path entry }
    return .nothing
  | .drop path => do
    modify fun w => { w with files := w.files.discard w.here path }
    return .nothing
  | .read path => .entry <$> entryAt path

/-- The session after a step, and what the step gave. A new client is bound only if it was made. -/
def step (s : Session) (st : Step) : Except Fault Result × Session :=
  let (outcome, w) := (s.action st).run.run s.world
  let bound := match st, outcome with
    | .newClient _, .ok (.client c) => some c
    | _, _ => s.bound
  (outcome, { s with world := w, bound := bound })

end Session

end CloudSecrets
