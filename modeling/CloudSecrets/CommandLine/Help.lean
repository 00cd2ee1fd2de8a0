import CloudSecrets.CommandLine.Command
import CloudSecrets.Text.Lines

/-!
# Usage and help

The usage of a command is a line with all it takes; one that is too long continues below its first
item. Help is the usage, what the command does, one row per operand and flag, and a closing text. A
row has its explanation in a column to the right, which is as near as the longest item allows but
never farther than column 24; an item too long for that stands on a line of its own. Texts are
filled to 78 characters.
-/

namespace CloudSecrets.CommandLine

/-- The most characters of a line. -/
def lineWidth : Nat := 78

/-- The farthest column where explanations may start. -/
def farthestColumn : Nat := 24

/-- What an incomplete line becomes when words follow: each goes behind a space if it fits and
starts a new line if not. -/
def packAfter (width : Nat) (line : String) : List String → List String
  | [] => [line]
  | w :: ws =>
    if line.length + 1 + w.length ≤ width then packAfter width (line ++ " " ++ w) ws
    else line :: packAfter width w ws

/-- Packs words into lines as full as a width allows; a wider word gets a line of its own. -/
def pack (width : Nat) : List String → List String
  | [] => []
  | w :: ws => packAfter width w ws

/-- The words of a text. -/
def wordsOf (text : String) : List String :=
  (Text.splitAtEach ' ' text.toList).map String.ofList

/-- A text filled into lines. -/
def filled (width : Nat) (text : String) : List String :=
  if text.isEmpty then [] else pack width (wordsOf text)

/-- So many spaces. -/
def spaces (n : Nat) : String := String.ofList (List.replicate n ' ')

/-- Lines as text. -/
def unlines (lines : List String) : String := String.join (lines.map (· ++ "\n"))

namespace Flag

/-- A spelling with the name of the value behind it. -/
def withValue (f : Flag) (spelling : String) : String :=
  match f.valueName? with
  | some v => spelling ++ " " ++ v
  | none => spelling

/-- A flag in a usage line: its first spelling in brackets. -/
def usage (f : Flag) : String := "[" ++ f.withValue (f.short?.getD f.long) ++ "]"

/-- A flag in a row of help: all spellings. -/
def heading (f : Flag) : String := String.intercalate ", " (f.spellings.map f.withValue)

end Flag

/-- A command as help lists it, with its further names in parentheses. -/
def Choice.heading (c : Choice) : String :=
  match c.names with
  | [] => ""
  | [name] => name
  | name :: others => name ++ " (" ++ String.intercalate ", " others ++ ")"

namespace Command

/-- The names of a group in braces. -/
def braced (c : Command) : String := "\x7b" ++ String.intercalate "," c.choiceNames ++ "\x7d"

/-- The operands in a usage line. -/
def operandUsage (c : Command) : List String :=
  if c.isGroup then [c.braced, "..."] else c.operand?.toList.map (·.name)

/-- The usage of a command: one line if that fits, otherwise the flags and then the operands, each
packed into lines below the first item. -/
def usage (c : Command) : String :=
  let start := "usage: " ++ c.called
  let flags := c.flags.map Flag.usage
  let line := String.intercalate " " (start :: (flags ++ c.operandUsage))
  if line.length ≤ lineWidth then line ++ "\n"
  else
    let column := start.length + 1
    let lines := pack (lineWidth - column) flags ++ pack (lineWidth - column) c.operandUsage
    start ++ " " ++ String.intercalate ("\n" ++ spaces column) lines ++ "\n"

/-- What help says that a command does. -/
def description : Command → List String
  | .program => ["Manage secrets stored in GCP Secret Manager"]
  | .create => ["Create a secret and print its identifier."]
  | .inspect => ["Print secret details as JSON. Credentials are never shown."]
  | .list => ["List secrets of the project in the order returned by Secret Manager."]
  | .delete => [
      "Remove a secret.",
      "",
      "Without --recover the secret and all of its versions are deleted permanently.",
      "With --recover every enabled version is disabled instead, so the secret can be",
      "restored by re-enabling its versions.",
      spaces 8]
  | .version => ["Display the current version of secretctl"]
  | .config => ["Manage secretctl configuration"]
  | .setPath => filled lineWidth
      "Store the absolute path of the config file in ~/.config/secretctl/preferences.json"
  | .showPath => filled lineWidth
      "Display the config file path and whether it comes from a preference or the default"
  | .clearPath => filled lineWidth
      "Remove the config path preference and fall back to ~/.config/secretctl/config.yml"

/-- What help closes with. -/
def closing : Command → List String
  | .program => [
      "Exit codes:",
      "  0 - Success",
      "  1 - Runtime error (authentication, network, secret not found, etc.)",
      "  2 - Usage error (missing arguments, malformed flags)",
      "",
      "Environment variables:",
      "  GCP_PROJECT - GCP project ID (overrides config file)",
      "",
      "Configuration:",
      "  Default location: ~/.config/secretctl/config.yml",
      "  Custom path: Set with 'secret config set-path <path>'",
      spaces 8]
  | _ => []

end Command

/-- A row of help: an item behind an indent, and what explains it. -/
structure Row where
  indent : Nat
  heading : String
  summary : String

namespace Row

/-- The lines of a row whose explanation starts at a column. -/
def lines (column : Nat) (r : Row) : List String :=
  let start := spaces r.indent ++ r.heading
  match filled (lineWidth - column) r.summary with
  | [] => [start]
  | first :: rest =>
    let below := rest.map (spaces column ++ ·)
    if start.length + 2 ≤ column then
      (start ++ spaces (column - start.length) ++ first) :: below
    else start :: (spaces column ++ first) :: below

end Row

namespace Command

/-- The rows of the operands. -/
def operandRows (c : Command) : List Row :=
  if c.isGroup then
    ⟨2, c.braced, c.choiceSummary⟩
      :: c.choices.map fun choice => ⟨4, choice.heading, choice.summary⟩
  else c.operand?.toList.map fun o => ⟨2, o.name, o.summary⟩

/-- The rows of the flags. -/
def flagRows (c : Command) : List Row := c.flags.map fun f => ⟨2, f.heading, f.summary⟩

/-- The column where explanations start. -/
def column (c : Command) : Nat :=
  let lengths := (c.operandRows ++ c.flagRows).map fun r => r.heading.length + 4
  min (lengths.foldl max 0) farthestColumn

/-- A section of rows under a title; no rows make no section. -/
def rowSection (c : Command) (title : String) (rows : List Row) : List String :=
  if rows.isEmpty then [] else title :: rows.flatMap (Row.lines c.column)

/-- The help of a command: its sections with an empty line between them. -/
def help (c : Command) : String :=
  let sections := [c.description, c.rowSection "positional arguments:" c.operandRows,
    c.rowSection "options:" c.flagRows, c.closing].filter fun lines => !lines.isEmpty
  c.usage ++ String.join (sections.map fun lines => "\n" ++ unlines lines)

end Command

end CloudSecrets.CommandLine
