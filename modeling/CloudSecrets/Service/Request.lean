import CloudSecrets.Secret
import CloudSecrets.Timeout

/-!
# Requests and answers

What is sent to the secret service and what it answers. The service is given as a script: for each
method a queue of answers, taken one per call; when a queue is empty the service does what was
asked. Every call is recorded in order, with its request and its timeout.
-/

namespace CloudSecrets.Service

/-- The ways the service refuses a request. -/
inductive Status where
  | invalidArgument
  | unauthenticated
  | permissionDenied
  | notFound
  | alreadyExists
  | resourceExhausted
  | internal
  | unavailable
  | deadlineExceeded
  deriving Repr, BEq, DecidableEq

/-- The number of a status. -/
def Status.code : Status → Nat
  | .invalidArgument => 400
  | .unauthenticated => 401
  | .permissionDenied => 403
  | .notFound => 404
  | .alreadyExists => 409
  | .resourceExhausted => 429
  | .internal => 500
  | .unavailable => 503
  | .deadlineExceeded => 504

/-- A failed call. -/
inductive Failure where
  /-- The service refuses. -/
  | status (s : Status) (message : String)
  /-- A look-up in the client fails. -/
  | missingKey (key : String)
  /-- Anything else that goes wrong, with the name of its kind. -/
  | other (kind message : String)
  deriving Repr, BEq, DecidableEq

/-- The wording of a failure. -/
def Failure.message : Failure → String
  | .status s message => s!"{s.code} {message}"
  | .missingKey key => Text.quoted key
  | .other _ message => message

/-- A secret or a version as the service knows it. -/
structure Resource where
  name : Option String
  labels : Labels := []
  annotations : Entries String String := []
  deriving Repr, BEq, DecidableEq

/-- An item of a list as it is reached. -/
inductive Item where
  | resource (r : Resource)
  | failure (f : Failure)
  | interrupt
  deriving Repr, BEq, DecidableEq

/-- A scripted answer. -/
inductive Answer where
  | done
  | resource (r : Resource)
  | items (items : List Item)
  | failure (f : Failure)
  | interrupt
  deriving Repr, BEq, DecidableEq

/-- What can be asked of the service; `connect` opens the connection. -/
inductive Method where
  | connect
  | createSecret
  | addVersion
  | getSecret
  | listSecrets
  | deleteSecret
  | listVersions
  | disableVersion
  deriving Repr, BEq, ReflBEq, LawfulBEq, DecidableEq

/-- The answers that are still to come, by method. -/
abbrev Script := Entries Method (List Answer)

/-- A request. -/
inductive Request where
  | createSecret (parent id : String) (labels : Labels) (description : Supplied)
  | addVersion (parent : Option String) (payload : String)
  | getSecret (name : String)
  | listSecrets (parent : String)
  | deleteSecret (name : String)
  | listVersions (parent filter : String)
  | disableVersion (name : Option String)
  deriving Repr, BEq, DecidableEq

/-- The method of a request. -/
def Request.method : Request → Method
  | .createSecret .. => .createSecret
  | .addVersion .. => .addVersion
  | .getSecret _ => .getSecret
  | .listSecrets _ => .listSecrets
  | .deleteSecret _ => .deleteSecret
  | .listVersions .. => .listVersions
  | .disableVersion _ => .disableVersion

/-- The annotation that holds a secret's description. -/
def descriptionKey : String := "description"

/-- An optional name in a request. -/
def optionalName (name : Option String) : Json :=
  match name with
  | some s => .text s
  | none => .null

/-- What is sent for a request. A new secret is replicated automatically. -/
def Request.body : Request → Json
  | .createSecret parent id labels description =>
    .object [
      ("parent", .text parent),
      ("secret_id", .text id),
      ("secret", .object [
        ("replication", .object [("automatic", .object [])]),
        ("labels", .object (labels.map fun (k, v) => (k, .text v))),
        ("annotations", .object [(descriptionKey, description.toJson)])])]
  | .addVersion parent payload =>
    .object [("parent", optionalName parent), ("payload", .object [("data", .text payload)])]
  | .getSecret name => .object [("name", .text name)]
  | .listSecrets parent => .object [("parent", .text parent)]
  | .deleteSecret name => .object [("name", .text name)]
  | .listVersions parent filter => .object [("parent", .text parent), ("filter", .text filter)]
  | .disableVersion name => .object [("name", optionalName name)]

/-- A recorded call: an attempt to open the connection, or a request. -/
inductive Call where
  | connected
  | sent (request : Request) (timeout : Option Timeout)
  deriving Repr, BEq, DecidableEq

end CloudSecrets.Service
