import CloudSecrets.CommandLine.Flag

/-!
# Commands

The commands form a tree: the program itself and `config` are groups, whose first operand chooses
one of the commands below; every other command is a leaf and takes at most one operand. A command
may be chosen by several names, and is always called by the first of them.
-/

namespace CloudSecrets.CommandLine

/-- The commands. -/
inductive Command where
  | program
  | create
  | inspect
  | list
  | delete
  | version
  | config
  | setPath
  | showPath
  | clearPath
  deriving Repr, BEq, DecidableEq

/-- A command that a group offers: its names, the usual one first, and what it is for. -/
structure Choice where
  command : Command
  names : List String
  summary : String

/-- What a command takes besides flags. -/
structure Operand where
  name : String
  summary : String

namespace Command

/-- How a command is called. -/
def called : Command → String
  | .program => "secret"
  | .create => "secret create"
  | .inspect => "secret inspect"
  | .list => "secret list"
  | .delete => "secret delete"
  | .version => "secret version"
  | .config => "secret config"
  | .setPath => "secret config set-path"
  | .showPath => "secret config show"
  | .clearPath => "secret config clear"

/-- The flags of a command. -/
def flags : Command → List Flag
  | .program => [.help, .project, .timeout, .verbose]
  | .create => [.help, .username, .password, .description, .label]
  | .delete => [.help, .recover]
  | _ => [.help]

/-- The operand of a leaf. -/
def operand? : Command → Option Operand
  | .create => some ⟨"NAME", "Secret name"⟩
  | .inspect => some ⟨"ID", "Secret name or full resource name"⟩
  | .delete => some ⟨"NAME", "Secret name or full resource name"⟩
  | .setPath => some ⟨"path", "Path to config file"⟩
  | _ => none

/-- The commands that a group offers; a leaf offers none. -/
def choices : Command → List Choice
  | .program => [
      ⟨.create, ["create"], "Creates a secret."⟩,
      ⟨.inspect, ["inspect"], "Displays secret details"⟩,
      ⟨.list, ["list", "ls"], "List secrets stored for the existing account."⟩,
      ⟨.delete, ["delete", "rm", "remove"], "Removes a secret."⟩,
      ⟨.version, ["version"], "Show version information"⟩,
      ⟨.config, ["config"], "Configuration management"⟩]
  | .config => [
      ⟨.setPath, ["set-path"], "Set config file path"⟩,
      ⟨.showPath, ["show"], "Show current config path"⟩,
      ⟨.clearPath, ["clear"], "Clear config path preference"⟩]
  | _ => []

/-- What messages call the operand of a group. -/
def choiceName : Command → String
  | .config => "config_command"
  | _ => "command"

/-- What help says about the operand of a group. -/
def choiceSummary : Command → String
  | .program => "Available commands"
  | _ => ""

/-- All names that a group can be given, in order. -/
def choiceNames (c : Command) : List String := c.choices.flatMap (·.names)

/-- Whether a command is a group. -/
def isGroup (c : Command) : Bool := !c.choices.isEmpty

/-- The command of a name in a group. -/
def choose? (c : Command) (name : String) : Option Command :=
  (c.choices.find? fun choice => choice.names.contains name).map (·.command)

/-- The flag of a command with a letter. -/
def lettered? (c : Command) (letter : Char) : Option Flag :=
  c.flags.find? fun f => f.letter? == some letter

/-- The flag of a command with exactly this spelling. -/
def spelled? (c : Command) (spelling : List Char) : Option Flag :=
  c.flags.find? fun f => f.spellings.any fun s => s.toList == spelling

/-- The flags of a command whose long spelling starts with a text. -/
def abbreviated (c : Command) (start : List Char) : List Flag :=
  c.flags.filter fun f => start.isPrefixOf f.long.toList

end Command

end CloudSecrets.CommandLine
