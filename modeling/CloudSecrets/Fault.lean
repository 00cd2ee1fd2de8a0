import CloudSecrets.Config.Fault
import CloudSecrets.Service.Request
import CloudSecrets.Yaml.Value

/-!
# Faults

Everything that can stop an action, with one wording for each cause.
-/

namespace CloudSecrets

/-- What stopped an action. -/
inductive Fault where
  /-- The file system refused an operation. -/
  | file (f : FileFault)
  /-- A file is no UTF-8. -/
  | encoding (f : Utf8.Fault)
  /-- An integer is too long to be read or written. -/
  | numeral (f : Numeral.Fault)
  /-- A scalar of the configuration has no value. -/
  | scalar (f : Yaml.Fault)
  /-- The reader of the configuration stopped for a reason of its own. -/
  | foreign (kind wording : String)
  /-- The configuration cannot be used. -/
  | config (f : Config.Fault)
  /-- A call to the service failed. -/
  | service (f : Service.Failure)
  /-- The user or the system interrupted the action. -/
  | interrupted
  /-- A preference of this kind is no path. -/
  | notPath (kind : String)
  /-- A configured value of this kind is no path. -/
  | notAccountPath (kind : String)
  /-- A descriptor is out of range, above it or below it. -/
  | descriptor (above : Bool)
  /-- A value of this kind cannot be put into the environment. -/
  | notVariable (kind : String)
  /-- An integer is too large to be compared with the floating-point numbers. -/
  | tooLarge
  /-- A path holds the null character. -/
  | nullInPath
  /-- There is no such user. -/
  | noHome
  /-- A symbolic link leads back to itself. -/
  | linkLoop (path : String)
  /-- A table lacks a cell. -/
  | table (f : Table.Fault)
  /-- A label is no text. -/
  | labelNotText
  /-- A resource has no name. -/
  | unnamed
  deriving Repr, DecidableEq

/-- The wording of a fault. -/
def Fault.message : Fault → String
  | .file f => f.message
  | .encoding f => f.message
  | .numeral f => f.message
  | .scalar f => f.message
  | .foreign _ wording => wording
  | .config f => f.message
  | .service f => f.message
  | .interrupted => ""
  | .notPath kind => s!"expected str, bytes or os.PathLike object, not {kind}"
  | .notAccountPath kind =>
    s!"stat: path should be string, bytes, os.PathLike or integer, not {kind}"
  | .descriptor above => if above then "fd is greater than maximum" else "fd is less than minimum"
  | .notVariable kind => s!"str expected, not {kind}"
  | .tooLarge => "int too large to convert to float"
  | .nullInPath => "embedded null byte"
  | .noHome => "Could not determine home directory."
  | .linkLoop path => s!"Symlink loop from {Text.quoted path}"
  | .table f => f.message
  | .labelNotText => Labels.notTextMessage
  | .unnamed => "'NoneType' object has no attribute 'rsplit'"

end CloudSecrets
