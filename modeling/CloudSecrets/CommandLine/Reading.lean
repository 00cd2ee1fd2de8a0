import CloudSecrets.Client
import CloudSecrets.CommandLine.Word
import CloudSecrets.Number.Numeral

/-!
# Reading the command line

A command takes its words from left to right: flags become settings, the first operand of a leaf is
its operand, and the first operand of a group chooses the command that takes all words behind it.
Words that nothing takes are left over, which is a misuse once all commands have taken theirs.
Reading stops at the first misuse, or where help is asked for. What has been read is an invocation:
what to do, with which settings.
-/

namespace CloudSecrets.CommandLine

/-- Why reading stops: help is asked for, or a command is misused. -/
inductive Stop where
  | help (c : Command)
  | misuse (c : Command) (m : Misuse)
  deriving Repr, DecidableEq

/-- The settings that flags make. -/
structure Settings where
  verbosity : Nat := 0
  project : Option String := none
  timeout : Option Timeout := none
  username : Supplied := .text ""
  password : Supplied := .text ""
  description : Supplied := .text ""
  labels : List Supplied := []
  recover : Bool := false
  deriving Repr, BEq

/-! ## Settings -/

/-- The timeout that a text writes: a positive finite number. -/
def readTimeout (text : String) : Except Misuse Timeout :=
  match Numeral.readFloat? text with
  | none => .error (.timeoutNotNumber text)
  | some x =>
    if x.isFinite && x.isPositive then .ok (.fractional x) else .error (.timeoutOutOfRange text)

namespace Settings

/-- Turns a switch on. Help is no setting. -/
def switch (s : Settings) : Flag → Settings
  | .verbose => { s with verbosity := s.verbosity + 1 }
  | .recover => { s with recover := true }
  | _ => s

/-- Gives a flag a value. The last value counts, except that labels add up. -/
def assign (s : Settings) (f : Flag) (value : Supplied) : Except Misuse Settings :=
  match f with
  | .project => .ok { s with project := value.text? }
  | .timeout =>
    match value with
    | .nothing => .ok { s with timeout := none }
    | .text text => (readTimeout text).map fun t => { s with timeout := some t }
  | .username => .ok { s with username := value }
  | .password => .ok { s with password := value }
  | .description => .ok { s with description := value }
  | .label => .ok { s with labels := s.labels ++ [value] }
  | _ => .ok s

end Settings

/-! ## Words -/

/-- Switches that share one dash, and the last flag behind it with what is attached to that. -/
structure Bundle where
  switches : List Flag
  last : Flag
  attached : Option (List Char)
  deriving Repr, DecidableEq

/-- The flags that a switch and the letters behind it spell. -/
def Command.unbundle (c : Command) (f : Flag) : List Char → Except Misuse Bundle
  | [] => .ok ⟨[], f, none⟩
  | letter :: rest =>
    if f.takesValue then .ok ⟨[], f, some (letter :: rest)⟩
    else
      match c.lettered? letter with
      | none => .error (.valueUnexpected f (String.ofList (letter :: rest)))
      | some g => (c.unbundle g rest).map fun b => { b with switches := f :: b.switches }

/-- The flags of one word. A switch takes no value, but letters may follow its own. -/
def Command.bundle (c : Command) (f : Flag) (short : Bool) :
    Option (List Char) → Except Misuse Bundle
  | none => .ok ⟨[], f, none⟩
  | some value =>
    if f.takesValue then .ok ⟨[], f, some value⟩
    else if short && !value.isEmpty then c.unbundle f value
    else .error (.valueUnexpected f (String.ofList value))

/-- What a command has taken so far. -/
structure Taken where
  settings : Settings
  operand : Option String := none
  /-- The words that nothing takes. -/
  left : List String := []
  /-- The chosen command and the words for it. -/
  chosen : Option (Command × List String) := none
  deriving Repr, BEq

namespace Taken

/-- Leaves words over. -/
def leave (t : Taken) (words : List Word) : Taken :=
  { t with left := t.left ++ words.map Word.text }

/-- Turns switches on, in order; asking for help stops. -/
def turnOn (c : Command) (t : Taken) : List Flag → Except Stop Taken
  | [] => .ok t
  | .help :: _ => .error (.help c)
  | f :: fs => turnOn c { t with settings := t.settings.switch f } fs

/-- Gives a flag a value. -/
def assign (c : Command) (t : Taken) (f : Flag) (value : Supplied) : Except Stop Taken :=
  match t.settings.assign f value with
  | .ok s => .ok { t with settings := s }
  | .error m => .error (.misuse c m)

/-- Chooses a command by name, with the words for it. -/
def choose (c : Command) (t : Taken) (name : String) (words : List Word) : Except Stop Taken :=
  match c.choose? name with
  | none => .error (.misuse c (.unknownChoice c name))
  | some d => .ok { t with chosen := some (d, words.map Word.text) }

/-- Whether a leaf still waits for its operand. -/
def waits (c : Command) (t : Taken) : Bool := c.operand?.isSome && t.operand.isNone

end Taken

namespace Command

/-- Takes words from left to right. The separator goes with the operand next to it. -/
def take (c : Command) (t : Taken) : List Word → Except Stop Taken
  | [] => .ok t
  | .unknown text :: ws => c.take (t.leave [.unknown text]) ws
  | .flag _ f short attached :: ws =>
    match c.bundle f short attached with
    | .error m => .error (.misuse c m)
    | .ok ⟨switches, last, attached⟩ =>
      if last.takesValue then
        match attached, ws with
        | some value, ws => do
          let t ← Taken.turnOn c t switches
          c.take (← t.assign c last (Supplied.ofAttached (String.ofList value))) ws
        | none, .operand value :: ws => do
          let t ← Taken.turnOn c t switches
          c.take (← t.assign c last (.text value)) ws
        | none, _ => .error (.misuse c (.valueMissing last))
      else do c.take (← Taken.turnOn c t (switches ++ [last])) ws
  | .operand text :: ws =>
    if c.isGroup then t.choose c text ws
    else if t.waits c then
      match ws with
      | .separator :: ws => c.take { t with operand := some text } ws
      | ws => c.take { t with operand := some text } ws
    else c.take (t.leave [.operand text]) ws
  | .separator :: .operand text :: ws =>
    if c.isGroup then t.choose c Word.separator.text (.operand text :: ws)
    else if t.waits c then c.take { t with operand := some text } ws
    else c.take (t.leave [.separator, .operand text]) ws
  | .separator :: ws => c.take (t.leave [.separator]) ws

/-- What a command takes of its words. A leaf must have got its operand. -/
def takeAll (c : Command) (s : Settings) (args : List String) : Except Stop Taken :=
  match c.words args with
  | .error m => .error (.misuse c m)
  | .ok ws => do
    let t ← c.take { settings := s } ws
    match c.operand?, t.operand with
    | some o, none => .error (.misuse c (.operandMissing o.name))
    | _, _ => return t

end Command

/-! ## Invocations -/

/-- What to do. -/
inductive Verb where
  /-- Nothing was chosen in a group. -/
  | help (c : Command)
  | create (name : String) (username password description : Supplied) (labels : List Supplied)
  | inspect (id : String)
  | list
  | delete (name : String) (recover : Bool)
  | version
  | setPath (path : String)
  | showPath
  | clearPath
  deriving Repr, DecidableEq

/-- What to do, for which project, within which time, and how much to tell. -/
structure Invocation where
  verbosity : Nat
  context : Context
  verb : Verb
  deriving Repr, BEq, DecidableEq

/-- What a command is to do with its settings and its operand. -/
def Command.verb (c : Command) (s : Settings) (operand : String) : Verb :=
  match c with
  | .program => .help .program
  | .create => .create operand s.username s.password s.description s.labels
  | .inspect => .inspect operand
  | .list => .list
  | .delete => .delete operand s.recover
  | .version => .version
  | .config => .help .config
  | .setPath => .setPath operand
  | .showPath => .showPath
  | .clearPath => .clearPath

/-- The command that was chosen last and what it has taken, with what all commands on the way have
left over. Commands are chosen at most `depth` deep. -/
def Command.descend (s : Settings) (args : List String) :
    (depth : Nat) → Command → Except Stop (Command × Taken)
  | 0, c => do return (c, ← c.takeAll s args)
  | depth + 1, c => do
    let t ← c.takeAll s args
    match t.chosen with
    | some (d, words) => do
      let (last, u) ← Command.descend t.settings words depth d
      return (last, { u with left := t.left ++ u.left })
    | none => return (c, t)

/-- How deep commands are nested below the program. -/
def deepest : Nat := 2

/-- The invocation that a command line writes. -/
def read (args : List String) : Except Stop Invocation := do
  let (c, t) ← Command.descend {} args deepest .program
  if !t.left.isEmpty then .error (.misuse .program (.unrecognized t.left))
  else return ⟨t.settings.verbosity, ⟨t.settings.project, t.settings.timeout⟩,
    c.verb t.settings (t.operand.getD "")⟩

end CloudSecrets.CommandLine
