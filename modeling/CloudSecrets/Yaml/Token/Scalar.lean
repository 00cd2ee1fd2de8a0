import CloudSecrets.Yaml.Cursor

/-!
# Scalars in the text

The four ways to write a text in a document: in single or double quotes, as a block behind `|` or
`>`, and plain. Each function starts at a cursor and gives the text with the cursor behind it. A
line break inside quotes or a plain text counts as a space, and further ones as themselves; a block
keeps its line breaks behind `|` and joins its lines behind `>`.

The fuel bounds the number of lines; the length of the rest of the text is always enough.
-/

namespace CloudSecrets.Yaml

open Cursor

/-- The characters of an optional line break. -/
def breakChars (b : Option Char) : List Char := b.toList

/-! ## Quoted texts -/

/-- The character that a one-letter escape stands for. -/
def escapeChar? : Char → Option Char
  | '0' => some '\x00'
  | 'a' => some '\x07'
  | 'b' => some '\x08'
  | 't' => some '\t'
  | '\t' => some '\t'
  | 'n' => some '\n'
  | 'v' => some '\x0b'
  | 'f' => some '\x0c'
  | 'r' => some '\r'
  | 'e' => some '\x1b'
  | ' ' => some ' '
  | '"' => some '"'
  | '\\' => some '\\'
  | '/' => some '/'
  | 'N' => some '\x85'
  | '_' => some '\u00a0'
  | 'L' => some '\u2028'
  | 'P' => some '\u2029'
  | _ => none

/-- The number of hexadecimal digits behind an escape letter. -/
def escapeLength? : Char → Option Nat
  | 'x' => some 2
  | 'u' => some 4
  | 'U' => some 8
  | _ => none

/-- The number that hexadecimal digits write. -/
def hexNumber? (cs : List Char) : Option Nat :=
  cs.foldlM (fun n c => (Numeral.digitIn? 16 c).map (16 * n + ·)) 0

/-- The character with a number. Surrogates, which are no characters, become the replacement. -/
def numberedChar (n : Nat) : Except Fault Char :=
  if 0x80000000 ≤ n then .error (.notCharacter true)
  else if 0x110000 ≤ n then .error (.notCharacter false)
  else if 0xD800 ≤ n && n ≤ 0xDFFF then .ok '\ufffd'
  else .ok (Char.ofNat n)

/-- The line breaks from here on, with the blanks around them dropped, up to the next text. A
document marker at the start of a line is refused. -/
def quotedBreaks : Nat → Cursor → Except Fault (List Char × Cursor)
  | 0, _ => .error .malformed
  | fuel + 1, s =>
    if s.hasDocumentMark then .error .malformed
    else
      let s := s.skip fun c => c == ' ' || c == '\t'
      match s.lineBreak with
      | (some b, s) => (quotedBreaks fuel s).map fun (bs, s) => (b :: bs, s)
      | (none, s) => .ok ([], s)

/-- The text of the blanks from here on: as they are within a line, folded across lines. -/
def quotedBlanks (s : Cursor) : Except Fault (List Char × Cursor) :=
  let blanks := s.run fun c => c == ' ' || c == '\t'
  let s := s.forwardBy blanks.length
  if s.atEnd then .error .malformed
  else
    match s.lineBreak with
    | (some b, s) =>
      (quotedBreaks (s.rest.length + 1) s).map fun (bs, s) =>
        if b != '\n' then (b :: bs, s)
        else if bs.isEmpty then ([' '], s)
        else (bs, s)
    | (none, s) => .ok (blanks, s)

/-- One escape behind its backslash. -/
def escape (s : Cursor) : Except Fault (List Char × Cursor) :=
  match escapeChar? s.peek, escapeLength? s.peek with
  | some c, _ => .ok ([c], s.forward)
  | none, some n =>
    let s := s.forward
    let digits := s.rest.take n
    match hexNumber? digits with
    | some code =>
      if digits.length == n then
        (numberedChar code).map fun c => ([c], s.forwardBy n)
      else .error .malformed
    | none => .error .malformed
  | none, none =>
    match s.lineBreak with
    | (some _, s) => quotedBreaks (s.rest.length + 1) s
    | (none, _) => .error .malformed

/-- Whether a character stands for itself inside quotes of both kinds. -/
def isQuotedPlain (c : Char) : Bool :=
  !(c == '\'' || c == '"' || c == '\\' || isGapOrEnd c)

/-- The text up to the closing quote. -/
def quotedText (double : Bool) : Nat → Cursor → Except Fault (List Char × Cursor)
  | 0, _ => .error .malformed
  | fuel + 1, s =>
    let plain := s.run isQuotedPlain
    let s := s.forwardBy plain.length
    let c := s.peek
    let continueWith (part : List Char) (s : Cursor) : Except Fault (List Char × Cursor) :=
      (quotedText double fuel s).map fun (cs, s) => (plain ++ part ++ cs, s)
    if !double && c == '\'' && s.peekAt 1 == '\'' then continueWith ['\''] (s.forwardBy 2)
    else if (double && c == '"') || (!double && c == '\'') then .ok (plain, s.forward)
    else if (double && c == '\'') || (!double && (c == '"' || c == '\\')) then
      continueWith [c] s.forward
    else if double && c == '\\' then do
      let (part, s) ← escape s.forward
      continueWith part s
    else do
      let (part, s) ← quotedBlanks s
      continueWith part s

/-- A text in quotes, from its opening quote on. -/
def quotedScalar (double : Bool) (s : Cursor) : Except Fault (List Char × Cursor) :=
  quotedText double (s.rest.length + 1) s.forward

/-! ## Blocks -/

/-- What becomes of the line breaks at the end of a block. -/
inductive Chomping where
  | clip
  | strip
  | keep
  deriving DecidableEq

/-- The sign that asks for a chomping. -/
def chomping? : Char → Option Chomping
  | '+' => some .keep
  | '-' => some .strip
  | _ => none

/-- The digit that gives a block's indentation; zero is refused. -/
def increment? (s : Cursor) : Except Fault (Option Nat × Cursor) :=
  if '0' ≤ s.peek && s.peek ≤ '9' then
    if s.peek == '0' then .error .malformed
    else .ok (some (s.peek.toNat - 48), s.forward)
  else .ok (none, s)

/-- The header of a block: chomping and indentation in either order, then the end of the line. -/
def blockHeader (s : Cursor) : Except Fault (Chomping × Option Nat × Cursor) := do
  let (chomping, increment, s) ←
    match chomping? s.peek with
    | some ch => (increment? s.forward).map fun (n, s) => (ch, n, s)
    | none => do
      let (n, s) ← increment? s
      match n, chomping? s.peek with
      | some _, some ch => .ok (ch, n, s.forward)
      | _, _ => .ok (.clip, n, s)
  if !isSpaceOrEnd s.peek then .error .malformed
  else
    match s.blankLine? with
    | some s => .ok (chomping, increment, s)
    | none => .error .malformed

/-- The line breaks before a block whose indentation is to be found out, and the greatest column
that spaces reach. -/
def leadingBreaks : Nat → Nat → Cursor → List Char × Nat × Cursor
  | 0, deepest, s => ([], deepest, s)
  | fuel + 1, deepest, s =>
    if s.peek == ' ' then leadingBreaks fuel (max deepest (s.column + 1)) s.forward
    else match s.lineBreak with
      | (some b, s) =>
        let (bs, deepest, s) := leadingBreaks fuel deepest s
        (b :: bs, deepest, s)
      | (none, s) => ([], deepest, s)

/-- The place after the spaces that lead up to a column. -/
def skipIndent (indent : Nat) (s : Cursor) : Cursor :=
  s.forwardBy (min (s.run (· == ' ')).length (indent - s.column))

/-- The empty lines from here on, and the place where the next line's text starts. -/
def emptyLines (indent : Nat) : Nat → Cursor → List Char × Cursor
  | 0, s => ([], s)
  | fuel + 1, s =>
    let s := skipIndent indent s
    match s.lineBreak with
    | (some b, s) =>
      let (bs, s) := emptyLines indent fuel s
      (b :: bs, s)
    | (none, s) => ([], s)

/-- The lines of a block: the text, the last line break, and the empty lines behind it. -/
def blockLines (folded : Bool) (indent : Nat) :
    Nat → List Char → Cursor → List Char × Option Char × List Char × Cursor
  | 0, breaks, s => ([], none, breaks, s)
  | fuel + 1, breaks, s =>
    if s.column != indent || s.atEnd then ([], none, breaks, s)
    else
      let startsBlank := s.peek == ' ' || s.peek == '\t'
      let line := s.run fun c => !isBreakOrEnd c
      let (lineEnd, s) := (s.forwardBy line.length).lineBreak
      let (nextBreaks, s) := emptyLines indent (s.rest.length + 1) s
      if s.column == indent && !s.atEnd then
        let joins := folded && lineEnd == some '\n' && !startsBlank
          && !(s.peek == ' ' || s.peek == '\t')
        let glue := if !joins then breakChars lineEnd else if nextBreaks.isEmpty then [' '] else []
        let (cs, last, tail, s) := blockLines folded indent fuel nextBreaks s
        (breaks ++ line ++ glue ++ cs, last, tail, s)
      else (breaks ++ line, lineEnd, nextBreaks, s)

/-- A block, from its indicator on, inside a collection at an indentation. -/
def blockScalar (folded : Bool) (outer : Int) (s : Cursor) : Except Fault (List Char × Cursor) := do
  let (chomping, increment, s) ← blockHeader s.forward
  let least := (max (outer + 1) 1).toNat
  let fuel := s.rest.length + 1
  let (breaks, indent, s) :=
    match increment with
    | some n =>
      let indent := least + n - 1
      let (bs, s) := emptyLines indent fuel s
      (bs, indent, s)
    | none =>
      let (bs, deepest, s) := leadingBreaks fuel 0 s
      (bs, max least deepest, s)
  let (text, last, tail, s) := blockLines folded indent fuel breaks s
  let ending := match chomping with
    | .strip => []
    | .clip => breakChars last
    | .keep => breakChars last ++ tail
  .ok (text ++ ending, s)

/-! ## Plain texts -/

/-- The characters of a plain text from here to the next gap. Inside brackets the flow indicators
end it too. -/
def plainRun (inFlow : Bool) : List Char → List Char
  | [] => []
  | c :: cs =>
    let next := cs.headD '\x00'
    let flowEnd (c : Char) : Bool :=
      c == ',' || c == '[' || c == ']' || c == '\x7b' || c == '\x7d'
    if isGapOrEnd c then []
    else if c == ':' && (isGapOrEnd next || (inFlow && flowEnd next)) then []
    else if inFlow && (flowEnd c || c == '?') then []
    else c :: plainRun inFlow cs

/-- The further line breaks behind a line break, spaces dropped; `none` if a document marker stands
at the start of a line. -/
def plainBreaks : Nat → Cursor → Option (List Char) × Cursor
  | 0, s => (some [], s)
  | fuel + 1, s =>
    if s.peek == ' ' then plainBreaks fuel s.forward
    else match s.lineBreak with
      | (some b, s) =>
        if s.hasDocumentMark then (none, s)
        else
          let (bs, s) := plainBreaks fuel s
          (bs.map (b :: ·), s)
      | (none, s) => (some [], s)

/-- The text of the gap from here on, and whether it crosses a line; `none` if there is no gap or a
document marker ends the text. -/
def plainGap (s : Cursor) : Option (List Char) × Bool × Cursor :=
  let spaces := s.run (· == ' ')
  let s := s.forwardBy spaces.length
  match s.lineBreak with
  | (some b, s) =>
    if s.hasDocumentMark then (none, true, s)
    else
      match plainBreaks (s.rest.length + 1) s with
      | (none, s) => (none, true, s)
      | (some bs, s) =>
        let text := if b != '\n' then b :: bs else if bs.isEmpty then [' '] else bs
        (some text, true, s)
  | (none, s) => (if spaces.isEmpty then none else some spaces, false, s)

/-- The runs of a plain text with the gaps between them, and whether the last gap crosses a line. -/
def plainText (inFlow : Bool) (indent : Int) :
    Nat → List Char → Bool → Cursor → List Char × Bool × Cursor
  | 0, _, crossed, s => ([], crossed, s)
  | fuel + 1, gap, crossed, s =>
    if s.peek == '#' then ([], crossed, s)
    else
      let part := plainRun inFlow s.rest
      if part.isEmpty then ([], crossed, s)
      else
        match plainGap (s.forwardBy part.length) with
        | (none, crossed, s) => (gap ++ part, crossed, s)
        | (some nextGap, crossed, s) =>
          if s.peek == '#' || (!inFlow && (s.column : Int) < indent) then (gap ++ part, crossed, s)
          else
            let (cs, crossed, s) := plainText inFlow indent fuel nextGap crossed s
            (gap ++ part ++ cs, crossed, s)

/-- A plain text inside a collection at an indentation, and whether a line was crossed behind it. -/
def plainScalar (inFlow : Bool) (outer : Int) (s : Cursor) : List Char × Bool × Cursor :=
  plainText inFlow (outer + 1) (s.rest.length + 1) [] false s

end CloudSecrets.Yaml
