import CloudSecrets.Preference

/-!
# Where the configuration is

The configuration file is the one a preference names, if it exists; otherwise the one at the default
place in the settings folder. The preference counts as unset when it is empty.
-/

namespace CloudSecrets.Config

/-- The default place of the configuration file. -/
def usualPath (home : String) : Path := (Preferences.folder home).child "config.yml"

/-- The preference that names the configuration file. -/
def preferenceKey : String := "config_path"

/-- The name of the kind of a JSON value. -/
def jsonKind : Json → String
  | .null => "NoneType"
  | .bool _ => "bool"
  | .integer _ => "int"
  | .decimal _ => "float"
  | .text _ => "str"
  | .array _ => "list"
  | .object _ => "dict"

/-- The path that a preference writes. -/
def pathOf : Json → Action Path
  | .text s => return Path.ofText s
  | j => Action.stop (.notPath (jsonKind j))

/-- The path that the preference names, unless it is unset or empty. -/
def preferred : Action (Option Path) := do
  match ← Preferences.value? preferenceKey with
  | some j => if j.isGiven then some <$> pathOf j else return none
  | none => return none

/-- The default path of the configuration file. -/
def usual : Action Path := return usualPath (← get).home

/-- The default path if it exists. -/
def usualIfPresent : Action String := do
  let path := (← usual).text
  if ← Action.pathExists path then
    Action.log .info s!"Using default config location: {path}"
    return path
  else Action.stop (.config (.notFound path))

/-- The path of the configuration file. -/
def place : Action String := do
  match ← preferred with
  | none => usualIfPresent
  | some p =>
    let path := p.text
    if ← Action.pathExists path then
      Action.log .info s!"Using config from preference: {path}"
      return path
    else
      Action.log .warning s!"Config path from preference doesn't exist: {path}"
      usualIfPresent

end CloudSecrets.Config
