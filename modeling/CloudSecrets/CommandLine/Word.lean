import CloudSecrets.CommandLine.Command
import CloudSecrets.Text.Digit
import CloudSecrets.Text.Lines
import CloudSecrets.Text.Quoted

/-!
# Words of the command line

Before anything is done, a command looks at each word it is given and decides what it is. The first
`--` is the separator, and all words behind it are operands. A word that starts with a dash is a
flag if it spells one, or begins like exactly one long spelling; a value may be attached to it
behind an equals sign, or directly behind a letter. Negative numbers, words with a space in them and
a lone dash are operands; any other word with a dash is unknown.
-/

namespace CloudSecrets.CommandLine

/-- What is wrong with a command line. -/
inductive Misuse where
  /-- A word begins like several flags. -/
  | ambiguous (word : String) (flags : List Flag)
  /-- A flag takes a value and has none. -/
  | valueMissing (f : Flag)
  /-- A switch has a value. -/
  | valueUnexpected (f : Flag) (value : String)
  /-- A timeout is no number. -/
  | timeoutNotNumber (text : String)
  /-- A timeout is not positive or not finite. -/
  | timeoutOutOfRange (text : String)
  /-- A group has no command of this name. -/
  | unknownChoice (c : Command) (name : String)
  /-- A command lacks its operand. -/
  | operandMissing (name : String)
  /-- No command takes these words. -/
  | unrecognized (words : List String)
  deriving Repr, DecidableEq

/-- The wording of a misuse. -/
def Misuse.message : Misuse → String
  | .ambiguous word flags =>
    "ambiguous option: " ++ word ++ " could match " ++ String.intercalate ", " (flags.map Flag.long)
  | .valueMissing f => s!"argument {f.name}: expected one argument"
  | .valueUnexpected f value =>
    s!"argument {f.name}: ignored explicit argument {Text.quoted value}"
  | .timeoutNotNumber text =>
    s!"argument {Flag.timeout.name}: invalid timeout: {Text.quoted text}"
  | .timeoutOutOfRange text =>
    s!"argument {Flag.timeout.name}: timeout must be a positive finite number, got {text}"
  | .unknownChoice c name =>
    let names := String.intercalate ", " (c.choiceNames.map Text.quoted)
    s!"argument {c.choiceName}: invalid choice: {Text.quoted name} (choose from {names})"
  | .operandMissing name => s!"the following arguments are required: {name}"
  | .unrecognized words => "unrecognized arguments: " ++ String.intercalate " " words

/-- What a word is to a command. -/
inductive Word where
  | separator
  | operand (text : String)
  /-- A flag, whether it is spelled with one dash, and what is attached to it. -/
  | flag (text : String) (f : Flag) (short : Bool) (attached : Option (List Char))
  | unknown (text : String)
  deriving Repr, DecidableEq

/-- A word as it was given. -/
def Word.text : Word → String
  | .separator => "--"
  | .operand text => text
  | .flag text .. => text
  | .unknown text => text

/-- Whether a character is a decimal digit of any script. -/
def isDigit (c : Char) : Bool := (Text.digitValue? c).isSome

/-- A text without a line feed at its end. -/
def withoutLineEnd (cs : List Char) : List Char :=
  if cs.getLast? == some '\n' then cs.dropLast else cs

/-- Whether digits, with a point before or between them, stand behind the dash of a word. -/
def isNumber (cs : List Char) : Bool :=
  match Text.cutFirst '.' (withoutLineEnd cs) with
  | none => let ds := withoutLineEnd cs; !ds.isEmpty && ds.all isDigit
  | some (whole, part) => whole.all isDigit && !part.isEmpty && part.all isDigit

/-- A word cut at its first equals sign. -/
def cutAttached (cs : List Char) : List Char × Option (List Char) :=
  match Text.cutFirst '=' cs with
  | some (start, value) => (start, some value)
  | none => (cs, none)

/-- Whether a text starts with two dashes. -/
def isLong : List Char → Bool
  | '-' :: '-' :: _ => true
  | _ => false

namespace Command

/-- What a word is that starts with a dash and begins like the given flags. -/
def wordLike (text : String) : List (Flag × Bool × Option (List Char)) → Except Misuse Word
  | [] =>
    if isNumber (text.toList.drop 1) || text.toList.contains ' ' then .ok (.operand text)
    else .ok (.unknown text)
  | [(f, short, attached)] => .ok (.flag text f short attached)
  | several => .error (.ambiguous text (several.map (·.1)))

/-- What a word is that starts with a dash. -/
def dashed (c : Command) (text : String) : Except Misuse Word :=
  let (start, attached) := cutAttached text.toList
  match c.spelled? start with
  | some f => .ok (.flag text f (!isLong start) attached)
  | none =>
    if isLong start then
      wordLike text ((c.abbreviated start).map fun f => (f, false, attached))
    else
      match text.toList with
      | '-' :: letter :: rest =>
        wordLike text ((c.lettered? letter).toList.map fun f => (f, true, some rest))
      | _ => .ok (.operand text)

/-- What a word before the separator is. -/
def wordOf (c : Command) (text : String) : Except Misuse Word :=
  if text.toList.head? == some '-' then c.dashed text else .ok (.operand text)

/-- What the words of a command are. -/
def words (c : Command) : List String → Except Misuse (List Word)
  | [] => .ok []
  | text :: rest =>
    if text == "--" then .ok (.separator :: rest.map .operand)
    else do
      let w ← c.wordOf text
      return w :: (← c.words rest)

/-! ## Words keep their text -/

theorem text_wordLike {text : String} {candidates : List (Flag × Bool × Option (List Char))}
    {w : Word} (h : wordLike text candidates = .ok w) : w.text = text := by
  unfold wordLike at h
  split at h
  · split at h <;> cases h <;> rfl
  · cases h; rfl
  · cases h

theorem text_dashed {c : Command} {text : String} {w : Word} (h : c.dashed text = .ok w) :
    w.text = text := by
  unfold dashed at h
  split at h
  split at h
  · cases h; rfl
  · split at h
    · exact text_wordLike h
    · split at h
      · exact text_wordLike h
      · cases h; rfl

theorem text_wordOf {c : Command} {text : String} {w : Word} (h : c.wordOf text = .ok w) :
    w.text = text := by
  unfold wordOf at h
  split at h
  · exact text_dashed h
  · cases h; rfl

/-- Looking at words changes none of them. -/
theorem map_text_words {c : Command} {args : List String} {ws : List Word}
    (h : c.words args = .ok ws) : ws.map Word.text = args := by
  induction args generalizing ws with
  | nil => cases h; rfl
  | cons text rest ih =>
    rw [words] at h
    split at h
    · rename_i hs
      cases h
      simp [Word.text, eq_of_beq hs, Function.comp_def]
    · cases hw : c.wordOf text with
      | error m => simp [hw, bind, Except.bind] at h
      | ok w =>
        cases hr : c.words rest with
        | error m => simp [hw, hr, bind, Except.bind] at h
        | ok us =>
          simp only [hw, hr, bind, Except.bind, pure, Except.pure] at h
          cases h
          simp [text_wordOf hw, ih hr]

end Command

end CloudSecrets.CommandLine
