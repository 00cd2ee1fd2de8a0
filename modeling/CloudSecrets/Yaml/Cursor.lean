import CloudSecrets.Yaml.Value

/-!
# Reading positions

A cursor is a place in a text: the characters still to be read, how many have been read, and the
line and column of the next one. Behind the end stands the null character, which no text holds.
Besides the line feed, the next-line character and Unicode's line and paragraph separators end a
line.
-/

namespace CloudSecrets.Yaml

/-- A place in a text. -/
structure Cursor where
  rest : List Char
  index : Nat := 0
  line : Nat := 0
  column : Nat := 0

/-- Whether a character ends a line. -/
def isBreak (c : Char) : Bool :=
  c == '\r' || c == '\n' || c == '\x85' || c == '\u2028' || c == '\u2029'

/-- Whether a character ends a line or the text. -/
def isBreakOrEnd (c : Char) : Bool := c == '\x00' || isBreak c

/-- Whether a character is a space or ends a line or the text. -/
def isSpaceOrEnd (c : Char) : Bool := c == ' ' || isBreakOrEnd c

/-- Whether a character is a space or a tab or ends a line or the text. -/
def isGapOrEnd (c : Char) : Bool := c == '\t' || isSpaceOrEnd c

/-- Whether a character may stand in names of anchors, directives and tag handles. -/
def isWordChar (c : Char) : Bool := c.isAlphanum || c == '-' || c == '_'

namespace Cursor

/-- The start of a text. -/
def ofText (cs : List Char) : Cursor := { rest := cs }

/-- The character `k` places ahead. -/
def peekAt (s : Cursor) (k : Nat) : Char := s.rest.getD k '\x00'

/-- The next character. -/
def peek (s : Cursor) : Char := s.peekAt 0

/-- Whether the text ends here. -/
def atEnd (s : Cursor) : Bool := s.rest.isEmpty

/-- The place after the next character. A byte order mark takes no column. -/
def forward (s : Cursor) : Cursor :=
  match s.rest with
  | [] => s
  | c :: cs =>
    if c == '\n' || c == '\x85' || c == '\u2028' || c == '\u2029'
        || (c == '\r' && cs.head? != some '\n') then
      ⟨cs, s.index + 1, s.line + 1, 0⟩
    else if c == '\ufeff' then ⟨cs, s.index + 1, s.line, s.column⟩
    else ⟨cs, s.index + 1, s.line, s.column + 1⟩

/-- The place `n` characters ahead. -/
def forwardBy : Nat → Cursor → Cursor
  | 0, s => s
  | n + 1, s => forwardBy n s.forward

/-- The characters of a class from here on. -/
def run (p : Char → Bool) (s : Cursor) : List Char := s.rest.takeWhile p

/-- The place after the characters of a class. -/
def skip (p : Char → Bool) (s : Cursor) : Cursor := s.forwardBy (s.run p).length

/-- The place after spaces. -/
def skipSpaces (s : Cursor) : Cursor := s.skip (· == ' ')

/-- The place after a comment, if one starts here. -/
def skipComment (s : Cursor) : Cursor :=
  if s.peek == '#' then s.skip fun c => !isBreakOrEnd c else s

/-- The line break here, as the character it counts as, and the place after it. -/
def lineBreak (s : Cursor) : Option Char × Cursor :=
  match s.rest with
  | '\r' :: '\n' :: _ => (some '\n', s.forwardBy 2)
  | c :: _ =>
    if c == '\r' || c == '\n' || c == '\x85' then (some '\n', s.forward)
    else if c == '\u2028' || c == '\u2029' then (some c, s.forward)
    else (none, s)
  | [] => (none, s)

/-- Whether three equal characters stand here and nothing but a gap behind them. -/
def hasMark (c : Char) (s : Cursor) : Bool :=
  s.peek == c && s.peekAt 1 == c && s.peekAt 2 == c && isGapOrEnd (s.peekAt 3)

/-- Whether a document marker stands here. -/
def hasDocumentMark (s : Cursor) : Bool := s.hasMark '-' || s.hasMark '.'

/-- The end of a line on which nothing but a comment may stand, and the place after it. -/
def blankLine? (s : Cursor) : Option Cursor :=
  let s := s.skipSpaces.skipComment
  if isBreakOrEnd s.peek then some s.lineBreak.2 else none

end Cursor

end CloudSecrets.Yaml
