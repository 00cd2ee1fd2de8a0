import CloudSecrets.Client

/-!
# Operations on secrets

Creating, inspecting, listing and deleting secrets. The connection is opened when the first request
is about to be built, and tried again after a failure; once open it stays open. A secret is named by
its short name in the project of the call, or by its full resource name in any project.
-/

namespace CloudSecrets.Service

/-- The filter for versions that are enabled. -/
def enabledFilter : String := "state:ENABLED"

/-! ## Names -/

/-- The resource name of the project of a context. -/
def projectPath (c : Context) : Except CloudSecrets.Fault String :=
  match Client.nonEmpty? c.project with
  | some p => .ok ("projects/" ++ p)
  | none => .error (.config .unboundProject)

/-- The resource name of a secret: a full name stands for itself. -/
def secretPath (c : Context) (name : String) : Except CloudSecrets.Fault String :=
  if "projects/".toList.isPrefixOf name.toList then .ok name
  else (projectPath c).map fun p => p ++ "/secrets/" ++ name

/-- What stands behind the last slash of a name. -/
def shortName (name : String) : String :=
  String.ofList (name.toList.reverse.takeWhile (· != '/')).reverse

/-- The secret that a resource describes. -/
def secretOf (r : Resource) : Except CloudSecrets.Fault Secret :=
  match r.name with
  | none => .error .unnamed
  | some name => .ok
    { id := name, name := shortName name, labels := r.labels
      description := .text ((Entries.get? descriptionKey r.annotations).getD "") }

/-! ## Calls -/

/-- Takes the next answer of a method; an empty queue answers nothing. -/
def takeAnswer (m : Method) : Action (Option Answer) := do
  let w ← get
  match Entries.get? m w.script with
  | some (a :: queue) => do
    set { w with script := Entries.put m queue w.script }
    return some a
  | _ => return none

/-- Stops if an answer is a failure or an interrupt. -/
def settle : Option Answer → Action (Option Answer)
  | some (.failure f) => Action.stop (.service f)
  | some .interrupt => Action.stop .interrupted
  | a => return a

/-- Opens a connection unless it is open; a failed attempt leaves it closed. -/
def connect (connection : Nat) : Action Unit := do
  if (← get).connected.contains connection then return ()
  else
    modify fun w => { w with calls := w.calls ++ [.connected] }
    let _ ← settle (← takeAnswer .connect)
    modify fun w => { w with connected := connection :: w.connected }

/-- The timeout of the calls of a context. -/
def timeoutOf (c : Context) : Option Timeout := c.timeout.filter (·.isGiven)

/-- Sends a request and gives the answer. -/
def send (c : Context) (r : Request) : Action (Option Answer) := do
  modify fun w => { w with calls := w.calls ++ [.sent r (timeoutOf c)] }
  settle (← takeAnswer r.method)

/-- The resource of an answer, or the one that the request asked for. -/
def resourceOr (asked : Resource) : Option Answer → Resource
  | some (.resource r) => r
  | _ => asked

/-- The items of an answer; none if it holds no list. -/
def itemsOf : Option Answer → List Item
  | some (.items items) => items
  | _ => []

/-- A path that was computed apart. -/
def path (p : Except CloudSecrets.Fault String) : Action String := Action.ofExcept id p

/-! ## Operations -/

/-- The resource that an item of a list is, when it is reached. -/
def reach : Item → Action Resource
  | .resource r => return r
  | .failure f => Action.stop (.service f)
  | .interrupt => Action.stop .interrupted

/-- An optional name as messages embed it. -/
def shownName (name : Option String) : String := name.getD "None"

/-- Creates a secret, stores its credentials as the first version, and gives its resource name. -/
def create (client : Client) (s : Secret) : Action (Option String) := do
  connect client.connection
  let parent ← path (projectPath client.context)
  let answer ← send client.context (.createSecret parent s.name s.labels s.description)
  let created := resourceOr { name := some (parent ++ "/secrets/" ++ s.name) } answer
  let shown := shownName created.name
  Action.log .info s!"Created secret {shown}"
  let _ ← send client.context (.addVersion created.name s.payload)
  Action.log .debug s!"Stored credentials version for {shown}"
  return created.name

/-- The secret with a name. -/
def inspect (client : Client) (id : String) : Action Secret := do
  connect client.connection
  let name ← path (secretPath client.context id)
  let answer ← send client.context (.getSecret name)
  Action.ofExcept (fun f => f) (secretOf (resourceOr { name := some name } answer))

/-- The secrets of a list of items, in order. -/
def collect : List Item → Action (List Secret)
  | [] => return []
  | item :: items => do
    let s ← Action.ofExcept id (secretOf (← reach item))
    return s :: (← collect items)

/-- The secrets of the project, in the order of the service. -/
def list (client : Client) : Action (List Secret) := do
  connect client.connection
  let parent ← path (projectPath client.context)
  collect (itemsOf (← send client.context (.listSecrets parent)))

/-- Disables versions in order. -/
def disableAll (client : Client) : List Item → Action Unit
  | [] => return ()
  | item :: items => do
    let version ← reach item
    connect client.connection
    let _ ← send client.context (.disableVersion version.name)
    let shown := shownName version.name
    Action.log .info s!"Disabled secret version {shown}"
    disableAll client items

/-- Deletes a secret; a recoverable deletion disables its enabled versions instead. -/
def delete (client : Client) (name : String) (recover : Bool) : Action Unit := do
  let target ← path (secretPath client.context name)
  connect client.connection
  if !recover then
    let _ ← send client.context (.deleteSecret target)
    Action.log .info s!"Deleted secret {target}"
  else
    disableAll client
      (itemsOf (← send client.context (.listVersions target enabledFilter)))

end CloudSecrets.Service
