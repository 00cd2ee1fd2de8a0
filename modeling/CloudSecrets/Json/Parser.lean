import CloudSecrets.Json.Value
import CloudSecrets.Number.Numeral

/-!
# Reading JSON

The reader takes one value with blanks around it. Beyond the standard it knows the words `NaN`,
`Infinity` and `-Infinity`; of several fields with one name the first keeps its place and the last
its value. Every fault is reported with the position of the character it was noticed at.

Each function works on the characters still to be read and returns those after what it has read. The
fuel bounds the nesting; the length of the text is always enough, as each level takes a bracket.
-/

namespace CloudSecrets.Json

open Text

/-- What is wrong with a text. -/
inductive Cause where
  | leadingMark
  | value
  | propertyName
  | colon
  | comma
  | extraData
  | unterminated
  | control
  | escape
  | unicodeEscape
  | integerTooLong (digits : Nat)
  deriving Repr, DecidableEq

/-- The wording of a cause. -/
def Cause.message : Cause → String
  | .leadingMark => "Unexpected UTF-8 BOM (decode using utf-8-sig)"
  | .value => "Expecting value"
  | .propertyName => "Expecting property name enclosed in double quotes"
  | .colon => "Expecting ':' delimiter"
  | .comma => "Expecting ',' delimiter"
  | .extraData => "Extra data"
  | .unterminated => "Unterminated string starting at"
  | .control => "Invalid control character at"
  | .escape => "Invalid \\escape"
  | .unicodeEscape => "Invalid \\uXXXX escape"
  | .integerTooLong digits => (Numeral.Fault.tooLong digits).message

/-- A cause together with the number of characters from where it was noticed to the end. -/
structure Notice where
  cause : Cause
  remaining : Nat
  deriving Repr, DecidableEq

/-- Reading a part of a text: the part and the characters after it. -/
abbrev Reading (α : Type) := Except Notice (α × List Char)

/-- A fault noticed before the given characters. -/
def refuse {α : Type} (cause : Cause) (before : List Char) : Except Notice α :=
  .error ⟨cause, before.length⟩

/-- Whether a character may stand between the parts of a value. -/
def isSpace (c : Char) : Bool := c == ' ' || c == '\t' || c == '\n' || c == '\r'

/-- Skips blanks. -/
def skip (cs : List Char) : List Char := cs.dropWhile isSpace

/-! ## Texts -/

/-- The value of a hexadecimal digit. -/
def hexValue? (c : Char) : Option Nat := Numeral.digitIn? 16 c

/-- The number that four hexadecimal digits write. -/
def fourHex? (a b c d : Char) : Option Nat := do
  let a ← hexValue? a
  let b ← hexValue? b
  let c ← hexValue? c
  let d ← hexValue? d
  some (((a * 16 + b) * 16 + c) * 16 + d)

/-- The character that a one-letter escape stands for. -/
def escaped? : Char → Option Char
  | '"' => some '"'
  | '\\' => some '\\'
  | '/' => some '/'
  | 'b' => some '\x08'
  | 'f' => some '\x0c'
  | 'n' => some '\n'
  | 'r' => some '\r'
  | 't' => some '\t'
  | _ => none

/-- Whether a unit is the first of a surrogate pair. -/
def isHighSurrogate (n : Nat) : Bool := 0xD800 ≤ n && n ≤ 0xDBFF

/-- Whether a unit is the second of a surrogate pair. -/
def isLowSurrogate (n : Nat) : Bool := 0xDC00 ≤ n && n ≤ 0xDFFF

/-- The character of one unit. A surrogate without its partner is no character and becomes the
replacement character. Which surrogate it was is lost: texts that differ in nothing else are read as
one text, and keys that do as one key. -/
def unitChar (n : Nat) : Char :=
  if isHighSurrogate n || isLowSurrogate n then '\ufffd' else Char.ofNat n

/-- The characters of a list of units, each surrogate pair making one. -/
def joinUnits : List Nat → List Char
  | [] => []
  | high :: low :: ns =>
    if isHighSurrogate high && isLowSurrogate low then
      Char.ofNat (0x10000 + (high - 0xD800) * 0x400 + (low - 0xDC00)) :: joinUnits ns
    else unitChar high :: joinUnits (low :: ns)
  | [n] => [unitChar n]

/-- Reads a text up to the closing quote, as units; `remaining` counts from the opening quote. -/
def readUnits (remaining : Nat) : List Char → Reading (List Nat)
  | [] => .error ⟨.unterminated, remaining⟩
  | '"' :: cs => .ok ([], cs)
  | '\\' :: 'u' :: a :: b :: c :: d :: cs =>
    match fourHex? a b c d, cs with
    | some n, _ :: _ => (readUnits remaining cs).map fun (ns, rest) => (n :: ns, rest)
    | _, _ => .error ⟨.unicodeEscape, cs.length + 5⟩
  | ['\\'] => .error ⟨.unterminated, remaining⟩
  | '\\' :: c :: cs =>
    if c == 'u' then .error ⟨.unicodeEscape, cs.length + 1⟩
    else match escaped? c with
    | none => .error ⟨.escape, cs.length + 2⟩
    | some c => (readUnits remaining cs).map fun (ns, rest) => (c.toNat :: ns, rest)
  | c :: cs =>
    if c.toNat < 0x20 then .error ⟨.control, cs.length + 1⟩
    else (readUnits remaining cs).map fun (ns, rest) => (c.toNat :: ns, rest)

/-- Reads a text whose opening quote has been read. -/
def readText (cs : List Char) : Reading String :=
  (readUnits (cs.length + 1) cs).map fun (ns, rest) => (String.ofList (joinUnits ns), rest)

/-! ## Numbers -/

/-- The digits of a whole number: a lone zero, or a run that starts with another digit. -/
def wholeDigits : List Char → List Char
  | '0' :: _ => ['0']
  | cs => cs.takeWhile isAsciiDigit

/-- The decimal places behind a point, if there is at least one. -/
def places : List Char → List Char
  | '.' :: cs => cs.takeWhile isAsciiDigit
  | _ => []

/-- The exponent's sign and digits behind its letter, if there is at least one digit. -/
def exponentPart : List Char → Option (Bool × List Char × Nat)
  | c :: cs =>
    if c == 'e' || c == 'E' then
      let (negative, ds) := Numeral.signed cs
      let digits := ds.takeWhile isAsciiDigit
      if digits.isEmpty then none
      else some (negative, digits, 1 + (cs.length - ds.length) + digits.length)
    else none
  | [] => none

/-- Reads a number. -/
def readNumber (cs : List Char) : Reading Json :=
  let (negative, body) := match cs with
    | '-' :: body => (true, body)
    | body => (false, body)
  let whole := wholeDigits body
  if whole.isEmpty then refuse .value cs
  else
    let rest := body.drop whole.length
    let fraction := places rest
    let rest := if fraction.isEmpty then rest else rest.drop (fraction.length + 1)
    match fraction, exponentPart rest with
    | [], none =>
      if Numeral.mostDigits < whole.length then
        refuse (.integerTooLong whole.length) cs
      else
        let n : Int := digitsValue whole
        .ok (.integer (if negative then -n else n), rest)
    | fraction, none =>
      let digits := digitsValue (whole ++ fraction)
      .ok (.decimal (.ofDecimal negative digits (-fraction.length)), rest)
    | fraction, some (down, digits, length) =>
      let e : Int := digitsValue digits
      .ok (.decimal (.ofDecimal negative (digitsValue (whole ++ fraction))
        ((if down then -e else e) - fraction.length)), rest.drop length)

/-! ## Values -/

mutual

/-- Reads a value that starts at the first character. -/
def readValue : Nat → List Char → Reading Json
  | 0, cs => refuse .value cs
  | fuel + 1, cs =>
    match cs with
    | '"' :: rest => (readText rest).map fun (s, rest) => (.text s, rest)
    | '\x7b' :: rest =>
      match skip rest with
      | '\x7d' :: rest => .ok (.object [], rest)
      | rest => (readFields fuel [] rest).map fun (fs, rest) => (.object fs, rest)
    | '[' :: rest =>
      match skip rest with
      | ']' :: rest => .ok (.array [], rest)
      | rest => (readItems fuel rest).map fun (xs, rest) => (.array xs, rest)
    | 'n' :: 'u' :: 'l' :: 'l' :: rest => .ok (.null, rest)
    | 't' :: 'r' :: 'u' :: 'e' :: rest => .ok (.bool true, rest)
    | 'f' :: 'a' :: 'l' :: 's' :: 'e' :: rest => .ok (.bool false, rest)
    | 'N' :: 'a' :: 'N' :: rest => .ok (.decimal .nan, rest)
    | 'I' :: 'n' :: 'f' :: 'i' :: 'n' :: 'i' :: 't' :: 'y' :: rest =>
      .ok (.decimal (.infinite false), rest)
    | '-' :: 'I' :: 'n' :: 'f' :: 'i' :: 'n' :: 'i' :: 't' :: 'y' :: rest =>
      .ok (.decimal (.infinite true), rest)
    | cs => readNumber cs

/-- Reads the items of an array up to its bracket; at least one is due. -/
def readItems : Nat → List Char → Except Notice (List Json × List Char)
  | 0, cs => refuse .value cs
  | fuel + 1, cs => do
    let (x, rest) ← readValue fuel cs
    match skip rest with
    | ']' :: rest => .ok ([x], rest)
    | ',' :: rest => (readItems fuel (skip rest)).map fun (xs, rest) => (x :: xs, rest)
    | rest => refuse .comma rest

/-- Reads the fields of an object up to its brace, onto those already read; at least one is due. -/
def readFields : Nat → List (String × Json) → List Char →
    Except Notice (List (String × Json) × List Char)
  | 0, _, cs => refuse .value cs
  | fuel + 1, fs, cs =>
    match cs with
    | '"' :: rest => do
      let (name, rest) ← readText rest
      match skip rest with
      | ':' :: rest =>
        let (v, rest) ← readValue fuel (skip rest)
        let fs := Entries.put name v fs
        match skip rest with
        | '\x7d' :: rest => .ok (fs, rest)
        | ',' :: rest => readFields fuel fs (skip rest)
        | rest => refuse .comma rest
      | rest => refuse .colon rest
    | cs => refuse .propertyName cs

end

/-! ## Documents -/

/-- Why a text is refused: it is no JSON value, with the place where that was noticed, or it holds
an integer with too many digits. -/
inductive Fault where
  | malformed (cause : Cause) (line column position : Nat)
  | oversized (digits : Nat)
  deriving Repr, DecidableEq

/-- The fault of a notice about a text. -/
def Notice.fault (text : List Char) (n : Notice) : Fault :=
  match n.cause with
  | .integerTooLong digits => .oversized digits
  | cause =>
    let position := text.length - n.remaining
    let before := text.take position
    let column := (before.reverse.takeWhile (· != '\n')).length + 1
    .malformed cause (before.count '\n' + 1) column position

/-- The wording of a fault. -/
def Fault.message : Fault → String
  | .malformed cause line column position =>
    s!"{cause.message}: line {line} column {column} (char {position})"
  | .oversized digits => (Numeral.Fault.tooLong digits).message

/-- Reads a text that holds one value. -/
def parse (text : List Char) : Except Fault Json :=
  let outcome : Except Notice Json := do
    if text.head? == some '\ufeff' then refuse .leadingMark text
    else
      let (v, rest) ← readValue (2 * text.length + 2) (skip text)
      match skip rest with
      | [] => .ok v
      | rest => refuse .extraData rest
  outcome.mapError (·.fault text)

end CloudSecrets.Json
