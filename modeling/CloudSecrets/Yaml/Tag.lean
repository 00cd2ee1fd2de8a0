import CloudSecrets.Entries
import CloudSecrets.Text.Lines
import CloudSecrets.Yaml.Cursor

/-!
# Tags

A tag says what kind of value a node stands for. A plain text without a tag gets one by its form:
truth values, integers in four bases and in sexagesimal notation, fractions, null, dates and times,
the merge key `<<` and the value key `=`; any other text is a string.
-/

namespace CloudSecrets.Yaml

/-- The start of the standard tags. -/
def standardTags : String := "tag:yaml.org,2002:"

/-- The kind of value that a tag asks for. -/
inductive Tag where
  | null
  | bool
  | int
  | float
  | binary
  | timestamp
  | omap
  | pairs
  | set
  | str
  | seq
  | map
  | merge
  | value
  | other
  deriving Repr, BEq, DecidableEq

namespace Tag

/-- The kind of a written-out tag. -/
def ofName (name : String) : Tag :=
  match (Entries.get? name known) with
  | some t => t
  | none => .other
where
  /-- The tags that have a kind of their own. -/
  known : Entries String Tag :=
    [("null", .null), ("bool", .bool), ("int", .int), ("float", .float), ("binary", .binary),
      ("timestamp", .timestamp), ("omap", .omap), ("pairs", .pairs), ("set", .set), ("str", .str),
      ("seq", .seq), ("map", .map), ("merge", .merge), ("value", .value)].map fun (n, t) =>
        (standardTags ++ n, t)

end Tag

/-! ## The forms of plain texts -/

/-- Whether a character is a digit or an underscore. -/
def isDigitChar (c : Char) : Bool := Text.isAsciiDigit c || c == '_'

/-- The exponent of a fraction, with its sign: the whole rest of a text. -/
def isExponent : List Char → Bool
  | [] => true
  | e :: sign :: digits =>
    (e == 'e' || e == 'E') && (sign == '+' || sign == '-') && !digits.isEmpty
      && digits.all Text.isAsciiDigit
  | _ => false

/-- A place of a sexagesimal number: below sixty, in one or two digits. -/
def isSexagesimalPlace : List Char → Bool
  | [d] => Text.isAsciiDigit d
  | [t, d] => '0' ≤ t && t ≤ '5' && Text.isAsciiDigit d
  | _ => false

/-- A digit other than those in `refused`, then digits and underscores. -/
def isDigitRun (refused : List Char) : List Char → Bool
  | d :: cs => Text.isAsciiDigit d && !refused.contains d && cs.all isDigitChar
  | [] => false

/-- A sexagesimal integer, without a leading zero. -/
def isSexagesimal (cs : List Char) : Bool :=
  match Text.splitAtEach ':' cs with
  | first :: place :: places =>
    isDigitRun ['0'] first && (place :: places).all isSexagesimalPlace
  | _ => false

/-- A sexagesimal number with a point in its last place. -/
def isSexagesimalFraction (cs : List Char) : Bool :=
  match Text.cutFirst '.' cs with
  | none => false
  | some (before, after) =>
    after.all isDigitChar
      && match Text.splitAtEach ':' before with
        | first :: place :: places =>
          isDigitRun [] first && (place :: places).all isSexagesimalPlace
        | _ => false

/-- An integer in base two, eight, ten or sixteen, or sexagesimal. -/
def isIntegerForm (cs : List Char) : Bool :=
  match (Numeral.signed cs).2 with
  | ['0'] => true
  | '0' :: 'b' :: c :: cs => (c :: cs).all fun c => c == '0' || c == '1' || c == '_'
  | '0' :: 'x' :: c :: cs => (c :: cs).all fun c => (Numeral.digitIn? 16 c).isSome || c == '_'
  | '0' :: c :: cs => (c :: cs).all fun c => ('0' ≤ c && c ≤ '7') || c == '_'
  | cs => isDigitRun ['0'] cs || isSexagesimal cs

/-- A fraction with a point, a sexagesimal fraction, an infinity or the absent number. -/
def isFractionForm (cs : List Char) : Bool :=
  let body := (Numeral.signed cs).2
  let words (ws : List String) (cs : List Char) : Bool := ws.contains (String.ofList cs)
  words [".nan", ".NaN", ".NAN"] cs || words [".inf", ".Inf", ".INF"] body
    || isSexagesimalFraction body
    || (match Text.cutFirst '.' body with
      | some (whole, places) =>
        isDigitRun [] whole && isExponent (places.dropWhile isDigitChar)
      | none => false)
    || (match cs with
      | '.' :: d :: places => Text.isAsciiDigit d && isExponent (places.dropWhile isDigitChar)
      | _ => false)

/-! ## Timestamps -/

/-- The numbers of a timestamp. -/
structure Timestamp where
  year : Nat
  month : Nat
  day : Nat
  /-- Whether month and day have two digits. -/
  full : Bool
  /-- Hour, minute, second and the digits of the fraction. -/
  time : Option (Nat × Nat × Nat × List Char)
  /-- The offset: none, universal time, or a sign with hours and minutes. -/
  zone : Option (Option (Bool × Nat × Nat))

/-- Between `least` and `most` digits, as many as there are. -/
def digits? (least most : Nat) (cs : List Char) : Option (List Char × List Char) :=
  let ds := (cs.take most).takeWhile Text.isAsciiDigit
  if least ≤ ds.length then some (ds, cs.drop ds.length) else none

/-- A character that must come next. -/
def expect? (c : Char) : List Char → Option (List Char)
  | d :: cs => if c == d then some cs else none
  | [] => none

/-- Whether a character is a space or a tab. -/
def isGapChar (c : Char) : Bool := c == ' ' || c == '\t'

/-- The offset at the end of a timestamp. -/
def zone? (cs : List Char) : Option (Option (Option (Bool × Nat × Nat))) := do
  if cs.isEmpty then some none
  else
    match cs.dropWhile isGapChar with
    | ['Z'] => some (some none)
    | sign :: cs =>
      if sign == '-' || sign == '+' then
        let (hours, cs) ← digits? 1 2 cs
        let minutes ← match cs with
          | [] => some []
          | ':' :: cs => (digits? 2 2 cs).bind fun (ds, rest) =>
            if rest.isEmpty then some ds else none
          | _ => none
        some (some (some (sign == '-', Text.digitsValue hours, Text.digitsValue minutes)))
      else none
    | [] => none

/-- The numbers of a text that has the form of a timestamp. -/
def timestamp? (cs : List Char) : Option Timestamp := do
  let (year, cs) ← digits? 4 4 cs
  let cs ← expect? '-' cs
  let (month, cs) ← digits? 1 2 cs
  let cs ← expect? '-' cs
  let (day, cs) ← digits? 1 2 cs
  let (y, m, d) := (Text.digitsValue year, Text.digitsValue month, Text.digitsValue day)
  let full := month.length == 2 && day.length == 2
  match cs with
  | [] => some ⟨y, m, d, full, none, none⟩
  | c :: rest =>
    let rest ←
      if c == 'T' || c == 't' then some rest
      else if isGapChar c then some (rest.dropWhile isGapChar)
      else none
    let (hour, rest) ← digits? 1 2 rest
    let rest ← expect? ':' rest
    let (minute, rest) ← digits? 2 2 rest
    let rest ← expect? ':' rest
    let (second, rest) ← digits? 2 2 rest
    let (fraction, rest) := match rest with
      | '.' :: rest => (rest.takeWhile Text.isAsciiDigit, rest.dropWhile Text.isAsciiDigit)
      | rest => ([], rest)
    let zone ← zone? rest
    let time := (Text.digitsValue hour, Text.digitsValue minute, Text.digitsValue second, fraction)
    some ⟨y, m, d, full, some time, zone⟩

/-- A date alone, with two digits for month and day, or a date with a time. -/
def isTimestampForm (cs : List Char) : Bool :=
  match timestamp? cs with
  | some t => t.full || t.time.isSome
  | none => false

/-! ## Choosing a tag -/

/-- The words that stand for truth values, in lower case. -/
def truthWords : Entries String Bool :=
  [("yes", true), ("no", false), ("true", true), ("false", false), ("on", true), ("off", false)]

/-- Whether a word is a truth value in lower case, in upper case, or with one capital. -/
def isTruthForm (cs : List Char) : Bool :=
  let lower := cs.map Char.toLower
  let capital := match lower with
    | c :: rest => c.toUpper :: rest
    | [] => []
  Entries.has (String.ofList lower) truthWords
    && (cs == lower || cs == lower.map Char.toUpper || cs == capital)

/-- A text without the line break at its end, which forms ignore. -/
def withoutLastBreak (cs : List Char) : List Char :=
  if cs.getLast? == some '\n' then cs.dropLast else cs

/-- The tag of a plain text by its form. -/
def formTag (cs : List Char) : Tag :=
  if cs.isEmpty then .null
  else
    let cs := withoutLastBreak cs
    if isTruthForm cs then .bool
    else if isFractionForm cs then .float
    else if isIntegerForm cs then .int
    else if cs == ['<', '<'] then .merge
    else if ["~", "null", "Null", "NULL"].contains (String.ofList cs) then .null
    else if isTimestampForm cs then .timestamp
    else if cs == ['='] then .value
    else .str

end CloudSecrets.Yaml
