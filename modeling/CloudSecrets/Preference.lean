import CloudSecrets.Json.Parser
import CloudSecrets.Json.Printer
import CloudSecrets.World
import CloudSecrets.Text.Lines

/-!
# Preferences

The preferences are a JSON object in a file of the settings folder. A file that is missing, cannot
be read, or does not hold a JSON object counts as empty. Setting a preference writes the whole
object back and keeps the other entries and their order; clearing one that is not set leaves the
file alone.
-/

namespace CloudSecrets

/-- The preferences in the order in which they were first set. -/
abbrev Preferences := Entries String Json

namespace Preferences

/-- The folder below the home folder that holds all settings. -/
def folder (home : String) : Path := ((Path.ofText home).child ".config").child "secretctl"

/-- The file that holds the preferences. -/
def file (home : String) : Path := (folder home).child "preferences.json"

/-- The preferences that a text holds: an object, or the reason why there are none. -/
def parse (cs : List Char) : Except Json.Fault (Option Preferences) :=
  (Json.parse (Text.unifyLineEnds cs)).map fun
    | .object fields => some fields
    | _ => none

/-- The text of preferences, one member per line behind two spaces. -/
def text (ps : Preferences) : List Char := Json.chars (.indented [' ', ' ']) 0 (.object ps)

/-- Notes that the preferences file is ignored. -/
def ignore (path why : String) : Action Preferences := do
  Action.log .error s!"Ignoring unreadable preferences file {path}: {why}"
  return []

/-- Reads the preferences. -/
def read : Action Preferences := do
  let path := (file (← get).home).text
  if !(← Action.pathExists path) then return []
  else
    let w ← get
    match w.files.read w.here path with
    | .error f => ignore path f.message
    | .ok bytes =>
      match Utf8.decode bytes with
      | .error f => Action.stop (.encoding f)
      | .ok cs =>
        match parse cs with
        | .ok (some ps) => return ps
        | .ok none => do
          Action.log .error s!"Ignoring preferences file {path}: expected a JSON object"
          return []
        | .error (.oversized digits) => Action.stop (.numeral (.tooLong digits))
        | .error f => ignore path f.message

/-- Writes the preferences, making the settings folder if it is missing. -/
def write (ps : Preferences) : Action Unit := do
  let w ← get
  match w.files.makeFolders w.here (folder w.home) with
  | .error (f, files) => do
    set { w with files := files }
    Action.stop (.file f)
  | .ok files => do
    set { w with files := files }
    let files ← Action.ofExcept .file
      (files.write w.here (file w.home).text (Utf8.encode (text ps)))
    modify fun w => { w with files := files }

/-- The value of a preference, if it is set. -/
def value? (key : String) : Action (Option Json) := do
  return Entries.get? key (← read)

/-- Sets a preference to a text. -/
def put (key value : String) : Action Unit := do
  write (Entries.put key (.text value) (← read))
  Action.log .info s!"Preference '{key}' set to: {value}"

/-- Clears a preference; nothing happens if it is not set. -/
def clear (key : String) : Action Unit := do
  let ps ← read
  if !Entries.has key ps then Action.log .debug s!"Preference '{key}' not set, nothing to clear"
  else
    write (Entries.erase key ps)
    Action.log .info s!"Preference '{key}' cleared"

end Preferences

end CloudSecrets
