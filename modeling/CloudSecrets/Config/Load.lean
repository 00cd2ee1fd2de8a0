import CloudSecrets.Config.Place

/-!
# Loading the configuration

A configuration is a non-empty mapping with a section `authentication`, whose type is supported and
which for a service account names an existing file, and a section `gcp` with a `project_id` and
perhaps a `timeout`, which is a positive finite number. `check` says whether a value is one, `load`
reads and checks the file, and `current` does so once: from then on the loaded value is used,
whatever happens to the file.
-/

namespace CloudSecrets.Config

open Yaml (Value)

/-- The variable that tells the service which credentials to use. -/
def credentialsVariable : String := "GOOGLE_APPLICATION_CREDENTIALS"

/-- The least and the greatest number that a descriptor may have. -/
def descriptorRange : Int × Int := (-2147483648, 2147483647)

/-- What a value leads to when it is taken for a path: an entry and whether that is a file. A number
is taken for an open descriptor and leads to what that is open on. -/
def entryAt (files : FileTree) (here : Location) (v : Value) :
    Except CloudSecrets.Fault (Option Bool) :=
  let atPath (path : String) : Option Bool :=
    if files.exists? here path then some (files.isFile here path) else none
  let atDescriptor (n : Int) : Except CloudSecrets.Fault (Option Bool) :=
    if descriptorRange.2 < n then .error (.descriptor true)
    else if n < descriptorRange.1 then .error (.descriptor false)
    else .ok (Entries.get? n files.descriptors)
  match v with
  | .text s => .ok (atPath s)
  | .octets bs =>
    match Utf8.decode bs with
    | .ok cs => .ok (atPath (String.ofList cs))
    | .error _ => .ok none
  | .integer n => atDescriptor n
  | .bool b => atDescriptor (if b then 1 else 0)
  | v => .error (.notAccountPath v.kind)

/-- A value as messages embed it. -/
def shown (v : Value) : Except CloudSecrets.Fault String := v.shown.mapError .numeral

/-- Checks the service account of an authentication section. -/
def checkAccount (files : FileTree) (here : Location) (path : String) (auth : Value) :
    Except CloudSecrets.Fault Unit :=
  let account := (auth.get? "service_account_path").getD .null
  if !account.isGiven then .error (.config .noAccount)
  else do
    match ← entryAt files here account with
    | none => .error (.config (.accountMissing (← shown account) path))
    | some false => .error (.config (.accountNotFile (← shown account)))
    | some true => .ok ()

/-- Checks an authentication section. -/
def checkAuthentication (files : FileTree) (here : Location) (path : String) (auth : Value) :
    Except CloudSecrets.Fault Unit :=
  match auth.get? "type" with
  | none => .error (.config (.noType path))
  | some (.text t) =>
    if !supportedTypes.contains t then .error (.config (.unsupportedType t))
    else if t == "service_account" then checkAccount files here path auth
    else .ok ()
  | some t => do .error (.config (.unsupportedType (← shown t)))

/-- The timeout that a value gives, if it is a positive finite number. An integer too large to be
compared is a fault of its own. -/
def timeoutOf : Value → Except CloudSecrets.Fault (Option Timeout)
  | .integer n =>
    match Binary64.ofInt? n with
    | none => .error .tooLarge
    | some _ => .ok (if 0 < n then some (.whole n) else none)
  | .decimal x => .ok (if x.isFinite && x.isPositive then some (.fractional x) else none)
  | _ => .ok none

/-- Checks the timeout of a cloud section: absent, null, or a positive finite number. -/
def checkTimeout (cloud : Value) : Except CloudSecrets.Fault Unit :=
  match cloud.get? "timeout" with
  | none | some .null => .ok ()
  | some v => do
    match ← timeoutOf v with
    | some _ => .ok ()
    | none => .error (.config (.badTimeout (← v.listing.mapError .numeral)))

/-- Checks the cloud section of a value that was read from a path. -/
def checkCloud (path : String) (v : Value) : Except CloudSecrets.Fault Unit :=
  match v.get? "gcp" with
  | some (.map cloud) =>
    match Value.entry? "project_id" cloud with
    | none => .error (.config .noProject)
    | some _ => checkTimeout (.map cloud)
  | _ => .error (.config (.noCloud path))

/-- Checks a value that was read from a path. -/
def check (files : FileTree) (here : Location) (path : String) (v : Value) :
    Except CloudSecrets.Fault Unit :=
  if !v.isGiven then .error (.config (.empty path))
  else if !v.isMap then .error (.config (.notMapping path))
  else do
    match v.get? "authentication" with
    | none => .error (.config (.noAuthentication path))
    | some auth => checkAuthentication files here path auth
    checkCloud path v

/-- The type of authentication of a checked configuration. -/
def authenticationType (v : Value) : Value :=
  ((v.get? "authentication").bind (·.get? "type")).getD .null

/-- The service account of a checked configuration. -/
def account (v : Value) : Value :=
  ((v.get? "authentication").bind (·.get? "service_account_path")).getD .null

/-- The project of a checked configuration. -/
def project (v : Value) : Value := ((v.get? "gcp").bind (·.get? "project_id")).getD .null

/-- The timeout of a checked configuration. -/
def timeout? (v : Value) : Option Timeout :=
  match (v.get? "gcp").bind (·.get? "timeout") with
  | some (.integer n) => some (.whole n)
  | some (.decimal x) => some (.fractional x)
  | _ => none

/-- Reads the value in a file. -/
def readFile (reader : Reader) (path : String) : Action Value := do
  let w ← get
  match w.files.read w.here path with
  | .error f => Action.stop (.config (.unreadable path f))
  | .ok bytes => Action.ofExcept (ReadFault.inFile path) (reader bytes)

/-- Loads the configuration with a reader. -/
def loadWith (reader : Reader) : Action Value := do
  let path ← place
  let v ← readFile reader path
  let w ← get
  Action.ofExcept id (check w.files w.here path v)
  Action.log .info s!"Configuration loaded successfully from {path}"
  let t ← Action.ofExcept id (shown (authenticationType v))
  Action.log .debug s!"Using authentication type: {t}"
  let p ← Action.ofExcept id (shown (project v))
  Action.log .debug s!"Using project ID: {p}"
  return v

/-- Loads the configuration. -/
def load : Action Value := do loadWith (← get).reader

/-- Makes the service account of a configuration the credentials of the process. -/
def exportAccount (v : Value) : Action Unit := do
  if authenticationType v == .text "service_account" then
    match account v with
    | .text path => do
      Action.setVariable credentialsVariable path
      Action.log .info s!"Set {credentialsVariable} from config: {path}"
    | other => Action.stop (.notVariable other.kind)
  else return ()

/-- The configuration, which is loaded on first use. -/
def current : Action Value := do
  match (← get).config with
  | some v => return v
  | none => do
    let v ← load
    modify fun w => { w with config := some v }
    exportAccount v
    return v

end CloudSecrets.Config
