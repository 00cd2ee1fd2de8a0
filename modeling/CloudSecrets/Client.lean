import CloudSecrets.Config.Load

/-!
# Clients

A client is a connection to the service together with the project and the timeout of its calls. The
project is the one asked for, else the one of the environment, else the configured one; the timeout
is the one asked for, else the configured one, and there is none without a configuration file. Empty
texts and zero count as not asked for.
-/

namespace CloudSecrets

/-- What the calls of one run are bound to. -/
structure Context where
  project : Option String := none
  timeout : Option Timeout := none
  deriving Repr, BEq, DecidableEq

/-- A connection and the context of its calls. -/
structure Client where
  connection : Nat
  context : Context
  deriving Repr, BEq, DecidableEq

namespace Client

/-- The variable that names a project. -/
def projectVariable : String := "GCP_PROJECT"

/-- The text of an optional text, if it is not empty. -/
def nonEmpty? : Option String → Option String
  | some s => if s.isEmpty then none else some s
  | none => none

/-- The project of the configuration. -/
def configuredProject : Action String := do
  let project := Config.project (← Config.current)
  if !project.isGiven then Action.stop (.config .unresolvedProject)
  else
    let shown ← Action.ofExcept id (Config.shown project)
    Action.log .debug s!"Using project_id from config: {shown}"
    return shown

/-- The project that calls are made against. -/
def resolveProject (asked : Option String) : Action String := do
  match nonEmpty? asked with
  | some p => return p
  | none =>
    match nonEmpty? (← Action.getVariable projectVariable) with
    | some p => do
      Action.log .debug s!"Using GCP_PROJECT from environment: {p}"
      return p
    | none => configuredProject

/-- The timeout of the configuration; none if there is no configuration file. -/
def configuredTimeout : Action (Option Timeout) :=
  tryCatch (do return Config.timeout? (← Config.current)) fun
    | .config (.notFound _) => do
      Action.log .debug "No config file, calls run without a timeout"
      return none
    | f => Action.stop f

/-- The timeout of calls. -/
def resolveTimeout (asked : Option Timeout) : Action (Option Timeout) :=
  match asked with
  | some t => if t.isGiven then return some t else configuredTimeout
  | none => configuredTimeout

/-- A new client, with what the context leaves open resolved. -/
def new (context : Context) : Action Client := do
  let project ← resolveProject context.project
  let timeout ← resolveTimeout context.timeout
  let shown := Timeout.optionalText timeout
  Action.log .debug s!"Client bound to project {project} (timeout={shown})"
  let w ← get
  set { w with nextConnection := w.nextConnection + 1 }
  return ⟨w.nextConnection, ⟨some project, timeout⟩⟩

end Client

end CloudSecrets
