import CloudSecrets.Entries
import CloudSecrets.Text.Blank
import CloudSecrets.Text.Lines

/-!
# Labels

Labels are given as `KEY=VALUE` texts. The key is what stands before the first equals sign, without
the blanks around it, and must not be empty; the value is everything behind the sign. Labels keep
the order in which their keys were first given, and the last value given for a key wins.
-/

namespace CloudSecrets

/-- What an option on the command line supplies: a text, or nothing when it was joined to the
separator `--`. -/
inductive Supplied where
  | text (s : String)
  | nothing
  deriving Repr, BEq, DecidableEq

namespace Supplied

/-- What a text supplies that is attached to an option. -/
def ofAttached (text : String) : Supplied := if text == "--" then .nothing else .text text

/-- The text that was supplied, if any. -/
def text? : Supplied → Option String
  | .text s => some s
  | .nothing => none

end Supplied

/-- The labels of a secret in the order of their keys. -/
abbrev Labels := Entries String String

namespace Labels

/-- Why a list of entries gives no labels. -/
inductive Fault where
  /-- The entry has no equals sign, or no key before it. -/
  | malformed (entry : String)
  /-- The entry is no text. -/
  | notText
  deriving Repr, DecidableEq

/-- The label that an entry writes: its key and its value. -/
def label? (s : String) : Option (String × String) :=
  match Text.cutFirst '=' s.toList with
  | none => none
  | some (before, after) =>
    let key := Text.trimEnds Text.isBlank before
    if key.isEmpty then none else some (String.ofList key, String.ofList after)

/-- Puts the label of one more entry. -/
def add (labels : Labels) : Supplied → Except Fault Labels
  | .nothing => .error .notText
  | .text s =>
    match label? s with
    | none => .error (.malformed s)
    | some (k, v) => .ok (Entries.put k v labels)

/-- The labels of a list of entries, or the fault of the first bad one. -/
def parse (entries : List Supplied) : Except Fault Labels := entries.foldlM add []

/-- What is told about a malformed entry. -/
def malformedMessage (entry : String) : String :=
  s!"Error: Invalid label '{entry}'\n\nLabels must be given as KEY=VALUE, e.g. -l env=prod\n"

/-- What is told about an entry that is no text. -/
def notTextMessage : String := "'list' object has no attribute 'partition'"

end Labels

end CloudSecrets
