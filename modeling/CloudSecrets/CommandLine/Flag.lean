/-!
# Flags

A flag is a word that starts with a dash. It is spelled with one dash and a letter, with two dashes
and a word, or both; it is a switch, or it takes a value.
-/

namespace CloudSecrets.CommandLine

/-- The flags of all commands. -/
inductive Flag where
  | help
  | project
  | timeout
  | verbose
  | username
  | password
  | description
  | label
  | recover
  deriving Repr, BEq, ReflBEq, LawfulBEq, DecidableEq

namespace Flag

/-- The letter that spells a flag behind one dash. -/
def letter? : Flag → Option Char
  | .help => some 'h'
  | .project => none
  | .timeout => none
  | .verbose => some 'v'
  | .username => some 'u'
  | .password => some 'p'
  | .description => some 'd'
  | .label => some 'l'
  | .recover => none

/-- The word that spells a flag behind two dashes. -/
def word : Flag → String
  | .help => "help"
  | .project => "project-id"
  | .timeout => "timeout"
  | .verbose => "verbose"
  | .username => "username"
  | .password => "password"
  | .description => "description"
  | .label => "label"
  | .recover => "recover"

/-- How the value of a flag is called; a switch has none. -/
def valueName? : Flag → Option String
  | .help => none
  | .project => some "PROJECT_ID"
  | .timeout => some "TIMEOUT"
  | .verbose => none
  | .username => some "USERNAME"
  | .password => some "PASSWORD"
  | .description => some "DESCRIPTION"
  | .label => some "KEY=VALUE"
  | .recover => none

/-- What a flag is for. -/
def summary : Flag → String
  | .help => "show this help message and exit"
  | .project => "GCP project ID (defaults to GCP_PROJECT env var, then the config file)"
  | .timeout => "Timeout in seconds for each call to Secret Manager"
  | .verbose => "Log progress to stderr (repeat for debug output)"
  | .username => "username"
  | .password => "password"
  | .description => "Secret description"
  | .label => "Label to attach to the secret (repeatable)"
  | .recover => "Enable recovery."

/-- Whether a flag takes a value. -/
def takesValue (f : Flag) : Bool := f.valueName?.isSome

/-- The spelling with two dashes. -/
def long (f : Flag) : String := "--" ++ f.word

/-- The spelling with one dash. -/
def short? (f : Flag) : Option String := f.letter?.map fun c => String.ofList ['-', c]

/-- All spellings of a flag, the short one first. -/
def spellings (f : Flag) : List String := f.short?.toList ++ [f.long]

/-- What messages call a flag. -/
def name (f : Flag) : String := String.intercalate "/" f.spellings

end Flag

end CloudSecrets.CommandLine
