import CloudSecrets.Json.Printer
import CloudSecrets.Label
import CloudSecrets.Table

/-!
# Secrets

A secret has a name, labels and a description, which are public, and credentials, which are carried
only until they are stored. The public view never holds the credentials, and the payload holds
nothing else.
-/

namespace CloudSecrets

/-- A secret: `id` is its resource name, empty until the service has given one. -/
structure Secret where
  id : String := ""
  name : String
  labels : Labels := []
  description : Supplied := .text ""
  username : Supplied := .text ""
  password : Supplied := .text ""
  deriving Repr, BEq

/-- What an option supplied as JSON: a text, or an empty array. -/
def Supplied.toJson : Supplied → Json
  | .text s => .text s
  | .nothing => .array []

/-- What an option supplied as a cell of a table. -/
def Supplied.cell : Supplied → String
  | .text s => s
  | .nothing => ""

namespace Secret

/-- The public view of a secret. -/
def view (s : Secret) : Json :=
  .object [
    ("ID", .text s.id),
    ("Name", .text s.name),
    ("Labels", .object (s.labels.map fun (k, v) => (k, .text v))),
    ("Description", s.description.toJson)]

/-- The public view as text, one member per line behind tabs. -/
def publicText (s : Secret) : String := s.view.render (.indented ['\t'])

/-- The credentials of a secret. -/
def credentials (s : Secret) : Json :=
  .object [("username", s.username.toJson), ("password", s.password.toJson)]

/-- The credentials as one line of text, which is what the service stores. -/
def payload (s : Secret) : String := s.credentials.render .inline

/-- The table of a list of secrets, one row each in the given order. -/
def table (secrets : List Secret) : Except Table.Fault String :=
  Table.format ["ID", "NAME", "DESCRIPTION"]
    (secrets.map fun s => [s.id, s.name, s.description.cell])
    Table.leastWidth Table.columnPadding

end Secret

end CloudSecrets
