import CloudSecrets.Yaml.Token.Scalar

/-!
# Tokens

The tokens of a document, in the order of the text. Whether a text is a key shows only at the colon
behind it, so a token that may start a key is remembered until the colon is found, the line ends, or
1024 characters have passed; at the colon the key token is put in front of it, together with the
start of a block mapping if one begins there. Indentation opens and closes block collections, except
inside brackets.

Tokens are asked for one at a time by their reader, which stops at its first fault. So `Token.scan`
gives the tokens that can be had before the fault that ends them, if the text has one.
-/

namespace CloudSecrets.Yaml

/-- A token. -/
inductive Token where
  /-- A version directive. -/
  | version (major : Int)
  /-- A directive that names the start of tags with a handle. -/
  | tagHandle (handle start : String)
  /-- Any other directive. -/
  | directive
  | documentStart
  | documentEnd
  | streamEnd
  | blockSequenceStart
  | blockMappingStart
  | blockEnd
  | flowSequenceStart
  | flowSequenceEnd
  | flowMappingStart
  | flowMappingEnd
  | blockEntry
  | flowEntry
  | key
  | value
  | alias (name : String)
  | anchor (name : String)
  | tag (handle : Option String) (suffix : String)
  | scalar (text : List Char) (plain : Bool)
  deriving Repr, DecidableEq

namespace Token

/-! ## Names, tags and directives -/

/-- A name behind `&` or `*`. -/
def name (s : Cursor) : Except Fault (String × Cursor) :=
  let cs := s.run isWordChar
  let s := s.forwardBy cs.length
  let ends (c : Char) : Bool :=
    isGapOrEnd c || c == '?' || c == ':' || c == ',' || c == ']' || c == '\x7d' || c == '%'
      || c == '@' || c == '\x60'
  if cs.isEmpty || !ends s.peek then .error .malformed else .ok (String.ofList cs, s)

/-- A tag handle: an exclamation mark alone, or two with a word between them. -/
def handle (s : Cursor) : Except Fault (String × Cursor) :=
  if s.peek != '!' then .error .malformed
  else if s.peekAt 1 == ' ' then .ok ("!", s.forward)
  else
    let word := s.forward.run isWordChar
    if s.peekAt (word.length + 1) != '!' then .error .malformed
    else .ok (String.ofList ('!' :: (word ++ ['!'])), s.forwardBy (word.length + 2))

/-- Whether a character other than the escape sign may stand in a tag. -/
def isTagChar (c : Char) : Bool :=
  isWordChar c || ";/?:@&=+$,.!~*'()[]".toList.contains c

/-- The octets that a run of percent escapes writes. -/
def escapedOctets : Nat → Cursor → Except Fault (Bytes × Cursor)
  | 0, _ => .error .malformed
  | fuel + 1, s =>
    if s.peek == '%' then
      match hexNumber? (s.forward.rest.take 2) with
      | some n =>
        if s.forward.rest.length < 2 then .error .malformed
        else (escapedOctets fuel (s.forwardBy 3)).map fun (bs, s) => (UInt8.ofNat n :: bs, s)
      | none => .error .malformed
    else .ok ([], s)

/-- The characters of a tag. -/
def tagText : Nat → Cursor → Except Fault (List Char × Cursor)
  | 0, s => .ok ([], s)
  | fuel + 1, s =>
    if isTagChar s.peek then (tagText fuel s.forward).map fun (cs, t) => (s.peek :: cs, t)
    else if s.peek == '%' then do
      let (bs, s) ← escapedOctets (s.rest.length + 1) s
      match Utf8.decode bs with
      | .ok cs => (tagText fuel s).map fun (ds, s) => (cs ++ ds, s)
      | .error _ => .error .malformed
    else .ok ([], s)

/-- The text of a tag, which must not be empty. -/
def tagSuffix (s : Cursor) : Except Fault (String × Cursor) := do
  let (cs, t) ← tagText (s.rest.length + 1) s
  if s.index == t.index then .error .malformed else .ok (String.ofList cs, t)

/-- A tag, from its exclamation mark on. -/
def tagToken (s : Cursor) : Except Fault (Token × Cursor) := do
  let next := s.peekAt 1
  let (token, s) ←
    if next == '<' then do
      let (suffix, s) ← tagSuffix (s.forwardBy 2)
      if s.peek != '>' then .error .malformed else .ok (.tag none suffix, s.forward)
    else if isGapOrEnd next then .ok (.tag none "!", s.forward)
    else if (s.forward.run fun c => !isSpaceOrEnd c).contains '!' then do
      let (h, s) ← handle s
      let (suffix, s) ← tagSuffix s
      .ok (.tag (some h) suffix, s)
    else do
      let (suffix, s) ← tagSuffix s.forward
      .ok (.tag (some "!") suffix, s)
  if isSpaceOrEnd s.peek then .ok (token, s) else .error .malformed

/-- A number of a version. -/
def versionNumber (s : Cursor) : Except Fault (Int × Cursor) :=
  let digits := s.run Text.isAsciiDigit
  if digits.isEmpty then .error .malformed
  else
    match Numeral.readInt 10 (String.ofList digits) with
    | .ok n => .ok (n, s.forwardBy digits.length)
    | .error f => .error (.numeral f)

/-- A version behind its directive's name. -/
def versionToken (s : Cursor) : Except Fault (Token × Cursor) := do
  let (major, s) ← versionNumber s.skipSpaces
  if s.peek != '.' then .error .malformed
  else
    let (_, s) ← versionNumber s.forward
    if isSpaceOrEnd s.peek then .ok (.version major, s) else .error .malformed

/-- A handle and the start of tags behind their directive's name. -/
def tagHandleToken (s : Cursor) : Except Fault (Token × Cursor) := do
  let (h, s) ← handle s.skipSpaces
  if s.peek != ' ' then .error .malformed
  else
    let (start, s) ← tagSuffix s.skipSpaces
    if isSpaceOrEnd s.peek then .ok (.tagHandle h start, s) else .error .malformed

/-- A directive, from its percent sign on, to the end of its line. -/
def directiveToken (s : Cursor) : Except Fault (Token × Cursor) := do
  let s := s.forward
  let word := s.run isWordChar
  let s := s.forwardBy word.length
  if word.isEmpty || !isSpaceOrEnd s.peek then .error .malformed
  else
    let (token, s) ←
      if word == ['Y', 'A', 'M', 'L'] then versionToken s
      else if word == ['T', 'A', 'G'] then tagHandleToken s
      else .ok (.directive, s.skip fun c => !isBreakOrEnd c)
    match s.blankLine? with
    | some s => .ok (token, s)
    | none => .error .malformed

end Token

/-! ## The scanner -/

/-- A place where a key may have started: how many tokens there were, where it is in the text, and
whether it must turn out to be a key because it starts a line of a block mapping. -/
structure KeyStart where
  tokens : Nat
  required : Bool
  index : Nat
  line : Nat
  column : Nat

/-- The state between two tokens. `levels` holds for each open bracket, the innermost first, and for
the block outside them, the place where a key may have started. -/
structure Scanner where
  cursor : Cursor
  tokens : Array Token := #[]
  indent : Int := -1
  outerIndents : List Int := []
  block : Option KeyStart := none
  flows : List (Option KeyStart) := []
  keyAllowed : Bool := true

namespace Scanner

/-- A step of the scanner. -/
abbrev Step := Except Fault Scanner

/-- Whether a bracket is open. -/
def inFlow (s : Scanner) : Bool := !s.flows.isEmpty

/-- The place where a key may have started at the current level. -/
def keyStart (s : Scanner) : Option KeyStart :=
  match s.flows with
  | [] => s.block
  | k :: _ => k

/-- Remembers or forgets the place where a key may have started at the current level. -/
def setKeyStart (s : Scanner) (k : Option KeyStart) : Scanner :=
  match s.flows with
  | [] => { s with block := k }
  | _ :: ks => { s with flows := k :: ks }

/-- Adds a token at the end. -/
def push (s : Scanner) (t : Token) : Scanner := { s with tokens := s.tokens.push t }

/-- Puts a token before those that have been added since there were `n`. -/
def insertAt (s : Scanner) (n : Nat) (t : Token) : Scanner :=
  { s with tokens := s.tokens.extract 0 n ++ #[t] ++ s.tokens.extract n s.tokens.size }

/-- Moves the cursor one character on. -/
def forward (s : Scanner) : Scanner := { s with cursor := s.cursor.forward }

/-- Whether a place is too far back to be the start of a key. -/
def isStale (s : Scanner) (k : KeyStart) : Bool :=
  k.line != s.cursor.line || 1024 < s.cursor.index - k.index

/-- Forgets a place that is too far back, unless it must be a key. -/
def freshen (s : Scanner) : Option KeyStart → Except Fault (Option KeyStart)
  | none => .ok none
  | some k =>
    if s.isStale k then (if k.required then .error .malformed else .ok none) else .ok (some k)

/-- Forgets all places that are too far back. -/
def dropStale (s : Scanner) : Step := do
  let block ← s.freshen s.block
  let flows ← s.flows.mapM s.freshen
  .ok { s with block := block, flows := flows }

/-- Forgets the place at the current level, unless it must be a key. -/
def dropKeyStart (s : Scanner) : Step :=
  match s.keyStart with
  | some k => if k.required then .error .malformed else .ok (s.setKeyStart none)
  | none => .ok s

/-- Remembers that the next token may start a key. -/
def saveKeyStart (s : Scanner) : Step :=
  if s.keyAllowed then do
    let required := !s.inFlow && s.indent == s.cursor.column
    let s ← s.dropKeyStart
    let c := s.cursor
    .ok (s.setKeyStart (some ⟨s.tokens.size, required, c.index, c.line, c.column⟩))
  else .ok s

/-- Closes the block collections that are indented more than a column; brackets ignore columns. -/
def unwind (s : Scanner) (column : Int) : Scanner :=
  if s.inFlow then s else go s s.outerIndents
where
  /-- Closes blocks from the inside out; `outer` are the indentations outside the current one. -/
  go (s : Scanner) : List Int → Scanner
    | [] => s
    | i :: outer =>
      if column < s.indent then
        go { s.push .blockEnd with indent := i, outerIndents := outer } outer
      else s

/-- Opens a block collection at a column if that is deeper than the current one. -/
def deepen (s : Scanner) (column : Int) : Option Scanner :=
  if s.indent < column then
    some { s with indent := column, outerIndents := s.indent :: s.outerIndents }
  else none

/-- Skips blanks, comments and line breaks. A line break outside brackets allows a key again. -/
def skipToToken : Nat → Scanner → Scanner
  | 0, s => s
  | fuel + 1, s =>
    let c := s.cursor.skipSpaces.skipComment
    match c.lineBreak with
    | (some _, c) =>
      skipToToken fuel { s with cursor := c, keyAllowed := s.keyAllowed || !s.inFlow }
    | (none, c) => { s with cursor := c }

/-! ## One token each -/

/-- The end of the text closes every block. -/
def fetchStreamEnd (s : Scanner) : Step := do
  let s ← (s.unwind (-1)).dropKeyStart
  .ok ({ s with keyAllowed := false, block := none, flows := [] }.push .streamEnd)

/-- A directive. -/
def fetchDirective (s : Scanner) : Step := do
  let s ← (s.unwind (-1)).dropKeyStart
  let (t, c) ← Token.directiveToken s.cursor
  .ok ({ s with keyAllowed := false, cursor := c }.push t)

/-- A document marker. -/
def fetchDocumentMark (t : Token) (s : Scanner) : Step := do
  let s ← (s.unwind (-1)).dropKeyStart
  .ok ({ s with keyAllowed := false, cursor := s.cursor.forwardBy 3 }.push t)

/-- An opening bracket, which may start a key and inside which a key may start. -/
def fetchFlowStart (t : Token) (s : Scanner) : Step := do
  let s ← s.saveKeyStart
  .ok ({ s with flows := none :: s.flows, keyAllowed := true }.forward.push t)

/-- A closing bracket. One that closes nothing is refused. -/
def fetchFlowEnd (t : Token) (s : Scanner) : Step := do
  let s ← s.dropKeyStart
  match s.flows with
  | [] => .error .malformed
  | _ :: flows => .ok ({ s with flows := flows, keyAllowed := false }.forward.push t)

/-- A comma. -/
def fetchFlowEntry (s : Scanner) : Step := do
  let s ← { s with keyAllowed := true }.dropKeyStart
  .ok (s.forward.push .flowEntry)

/-- Starts a block collection at the cursor if it is deeper, where a key would be allowed. -/
def startBlock (t : Token) (s : Scanner) : Step :=
  if s.inFlow then .ok s
  else if !s.keyAllowed then .error .malformed
  else
    match s.deepen s.cursor.column with
    | some s => .ok (s.push t)
    | none => .ok s

/-- A dash. -/
def fetchBlockEntry (s : Scanner) : Step := do
  let s ← s.startBlock .blockSequenceStart
  let s ← { s with keyAllowed := true }.dropKeyStart
  .ok (s.forward.push .blockEntry)

/-- A question mark. -/
def fetchKey (s : Scanner) : Step := do
  let s ← s.startBlock .blockMappingStart
  let s ← { s with keyAllowed := !s.inFlow }.dropKeyStart
  .ok (s.forward.push .key)

/-- A colon: behind the start of a key it makes that a key. -/
def fetchValue (s : Scanner) : Step :=
  match s.keyStart with
  | some k =>
    let s := (s.setKeyStart none).insertAt k.tokens .key
    let s :=
      if s.inFlow then s
      else match s.deepen k.column with
        | some s => s.insertAt k.tokens .blockMappingStart
        | none => s
    .ok ({ s with keyAllowed := false }.forward.push .value)
  | none => do
    let s ← s.startBlock .blockMappingStart
    let s ← { s with keyAllowed := !s.inFlow }.dropKeyStart
    .ok (s.forward.push .value)

/-- An alias or an anchor. -/
def fetchName (t : String → Token) (s : Scanner) : Step := do
  let s ← s.saveKeyStart
  let (name, c) ← Token.name s.cursor.forward
  .ok ({ s with keyAllowed := false, cursor := c }.push (t name))

/-- A tag. -/
def fetchTag (s : Scanner) : Step := do
  let s ← s.saveKeyStart
  let (t, c) ← Token.tagToken s.cursor
  .ok ({ s with keyAllowed := false, cursor := c }.push t)

/-- A block scalar, behind which a key may start. -/
def fetchBlockScalar (folded : Bool) (s : Scanner) : Step := do
  let s ← { s with keyAllowed := true }.dropKeyStart
  let (text, c) ← blockScalar folded s.indent s.cursor
  .ok ({ s with cursor := c }.push (.scalar text false))

/-- A text in quotes. -/
def fetchQuoted (double : Bool) (s : Scanner) : Step := do
  let s ← s.saveKeyStart
  let (text, c) ← quotedScalar double s.cursor
  .ok ({ s with keyAllowed := false, cursor := c }.push (.scalar text false))

/-- A plain text, behind which a key may start if it ends with a line break. -/
def fetchPlain (s : Scanner) : Step := do
  let s ← s.saveKeyStart
  let (text, crossed, c) := plainScalar s.inFlow s.indent s.cursor
  .ok ({ s with keyAllowed := crossed, cursor := c }.push (.scalar text true))

/-- Whether a plain text may start with a character, given the one behind it. -/
def startsPlain (inFlow : Bool) (c next : Char) : Bool :=
  !(isGapOrEnd c || "-?:,[]\x7b\x7d#&*!|>'\"%@\x60".toList.contains c)
    || (!isGapOrEnd next && (c == '-' || (!inFlow && (c == '?' || c == ':'))))

/-- Reads the next token. -/
def fetch (s : Scanner) : Step := do
  let s := s.skipToToken (s.cursor.rest.length + 1)
  let s ← s.dropStale
  let s := s.unwind s.cursor.column
  let c := s.cursor.peek
  let next := s.cursor.peekAt 1
  let lineStart := s.cursor.column == 0
  if s.cursor.atEnd then s.fetchStreamEnd
  else if c == '%' && lineStart then s.fetchDirective
  else if lineStart && s.cursor.hasMark '-' then s.fetchDocumentMark .documentStart
  else if lineStart && s.cursor.hasMark '.' then s.fetchDocumentMark .documentEnd
  else if c == '[' then s.fetchFlowStart .flowSequenceStart
  else if c == '\x7b' then s.fetchFlowStart .flowMappingStart
  else if c == ']' then s.fetchFlowEnd .flowSequenceEnd
  else if c == '\x7d' then s.fetchFlowEnd .flowMappingEnd
  else if c == ',' then s.fetchFlowEntry
  else if c == '-' && isGapOrEnd next then s.fetchBlockEntry
  else if c == '?' && (s.inFlow || isGapOrEnd next) then s.fetchKey
  else if c == ':' && (s.inFlow || isGapOrEnd next) then s.fetchValue
  else if c == '*' then s.fetchName .alias
  else if c == '&' then s.fetchName .anchor
  else if c == '!' then s.fetchTag
  else if c == '|' && !s.inFlow then s.fetchBlockScalar false
  else if c == '>' && !s.inFlow then s.fetchBlockScalar true
  else if c == '\'' then s.fetchQuoted false
  else if c == '"' then s.fetchQuoted true
  else if startsPlain s.inFlow c next then s.fetchPlain
  else .error .malformed

/-- How many tokens can be had without reading on: those before the first that may still turn out to
be the start of a key. -/
def settled (s : Scanner) : Nat :=
  (s.block :: s.flows).foldl
    (fun n k => match k with
      | some k => if s.isStale k then n else min n k.tokens
      | none => n)
    s.tokens.size

/-- Reads tokens to the end of the text or to a fault. -/
def run : Nat → Scanner → List Token × Option Fault
  | 0, s => (s.tokens.toList, some .malformed)
  | fuel + 1, s =>
    match s.fetch with
    | .error f => (s.tokens.toList.take s.settled, some f)
    | .ok s' => if s'.tokens.back? == some .streamEnd then (s'.tokens.toList, none) else run fuel s'

end Scanner

/-- The tokens of a text that can be had before its first fault, and that fault. -/
def Token.scan (cs : List Char) : List Token × Option Fault :=
  let start := Cursor.ofText cs
  let start := if start.peek == '\ufeff' then start.forward else start
  Scanner.run (cs.length + 2) { cursor := start }

end CloudSecrets.Yaml
