import CloudSecrets.Fault
import CloudSecrets.Yaml.Document

/-!
# Readers of configuration files

A reader says which value the content of a file has. It takes the octets as they are, so how they
are decoded, and in which order it notices what is wrong with them, is its own matter. That the
content is no document makes it no configuration; whatever else a reader comes to stops the action
as it is.
-/

namespace CloudSecrets.Config

/-- Why a reader gives no value. -/
inductive ReadFault where
  /-- The content is no document. -/
  | malformed (why : String)
  /-- The content is no UTF-8. -/
  | encoding (f : Utf8.Fault)
  /-- A scalar has no value. -/
  | scalar (f : Yaml.Fault)
  | other (kind wording : String)

/-- What a fault of the reader is for the file at a path. -/
def ReadFault.inFile (path : String) : ReadFault → CloudSecrets.Fault
  | .malformed why => .config (.unparsable path why)
  | .encoding f => .encoding f
  | .scalar f => .scalar f
  | .other kind wording => .foreign kind wording

/-- How the content of a configuration file is read. -/
abbrev Reader := Bytes → Except ReadFault Yaml.Value

/-- A fault of a document as one of the reader. -/
def ReadFault.ofYaml : Yaml.Fault → ReadFault
  | .malformed => .malformed Yaml.Fault.malformed.message
  | f => .scalar f

/-- Reads the content as the text of a document. All of it is decoded before any of it is read. So
an octet that is no UTF-8 is noticed first, wherever it stands, while a reader that decodes piece by
piece may notice something else in front of it. -/
def readDocument : Reader := fun bytes =>
  match Utf8.decodeFile bytes with
  | .error f => .error (.encoding f)
  | .ok cs => (Yaml.read (Text.unifyLineEnds cs)).mapError ReadFault.ofYaml

end CloudSecrets.Config
