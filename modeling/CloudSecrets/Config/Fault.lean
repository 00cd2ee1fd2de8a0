import CloudSecrets.FileTree.Lookup

/-!
# Configuration faults

Why there is no usable configuration, or why a call has no project. Each cause carries what its
wording shows.
-/

namespace CloudSecrets.Config

/-- Why a configuration cannot be used. -/
inductive Fault where
  /-- No file exists at the preferred or the default place. -/
  | notFound (usual : String)
  | unparsable (path why : String)
  | unreadable (path : String) (why : FileFault)
  | empty (path : String)
  | notMapping (path : String)
  | noAuthentication (path : String)
  | noType (path : String)
  | unsupportedType (shown : String)
  | noAccount
  | accountMissing (shown path : String)
  | accountNotFile (shown : String)
  | noCloud (path : String)
  | noProject
  | badTimeout (shown : String)
  /-- No source gives a project. -/
  | unresolvedProject
  /-- A call was made without a project. -/
  | unboundProject
  deriving Repr, DecidableEq

/-- The supported types of authentication. -/
def supportedTypes : List String := ["service_account", "application_default"]

/-- The line that lists the supported types. -/
def supportedLine : String := "Supported types: " ++ String.intercalate ", " supportedTypes

/-- The wording of a fault. -/
def Fault.message : Fault → String
  | .notFound usual =>
    "Configuration file not found. Either:\n\n"
      ++ s!"1. Create {usual}\n"
      ++ "2. Point to an existing file: secret config set-path /path/to/config.yml\n"
      ++ "3. Skip the file entirely by setting GCP_PROJECT (credentials then come\n"
      ++ "   from Application Default Credentials)"
  | .unparsable path why => s!"Failed to parse YAML config at {path}: {why}"
  | .unreadable path why => s!"Failed to read config file at {path}: {why.message}"
  | .empty path => s!"Config file at {path} is empty"
  | .notMapping path => s!"Config file at {path} must be a YAML mapping"
  | .noAuthentication path =>
    s!"Missing 'authentication' section in config at {path}\n"
      ++ "Required format:\n"
      ++ "authentication:\n"
      ++ "  type: service_account\n"
      ++ "  service_account_path: /path/to/service-account.json"
  | .noType path => s!"Missing 'authentication.type' in config at {path}\n" ++ supportedLine
  | .unsupportedType shown => s!"Unsupported authentication type: {shown}\n" ++ supportedLine
  | .noAccount =>
    "Missing 'authentication.service_account_path' in config\n"
      ++ "Please specify the absolute path to your service account JSON file."
  | .accountMissing shown path =>
    s!"Service account file not found at: {shown}\n"
      ++ s!"Please ensure the file exists or update the path in {path}"
  | .accountNotFile shown => s!"Service account path is not a file: {shown}"
  | .noCloud path =>
    s!"Missing 'gcp' section in config at {path}\n"
      ++ "Required format:\n"
      ++ "gcp:\n"
      ++ "  project_id: your-project-id"
  | .noProject => "Missing 'gcp.project_id' in config"
  | .badTimeout shown => s!"'gcp.timeout' must be a positive number of seconds, got: {shown}"
  | .unresolvedProject =>
    "Project ID not found. Pass --project-id, set the GCP_PROJECT environment "
      ++ "variable or configure gcp.project_id in the config file"
  | .unboundProject => "No GCP project bound to this call"

end CloudSecrets.Config
