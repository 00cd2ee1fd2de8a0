import CloudSecrets.Json.Value
import CloudSecrets.Text.Quoted

/-!
# Writing JSON

Texts are written in ASCII: quotes, backslashes and everything outside the printable ASCII range are
escaped, and characters beyond the basic plane as two surrogate escapes. A layout is either one
line, or one member per line with an indentation unit repeated for each level.
-/

namespace CloudSecrets.Json

/-- How the members of arrays and objects are laid out. -/
inductive Layout where
  /-- All on one line, with a space after each comma. -/
  | inline
  /-- One member per line, each level indented by the unit. -/
  | indented (unit : List Char)

/-- The line break before a member or closing bracket at a depth; empty on one line. -/
def Layout.lineBreak : Layout → Nat → List Char
  | .inline, _ => []
  | .indented unit, depth => '\n' :: (List.replicate depth unit).flatten

/-- What separates two members at a depth. -/
def Layout.separator : Layout → Nat → List Char
  | .inline, _ => [',', ' ']
  | l, depth => ',' :: l.lineBreak depth

/-- The escape of a sixteen-bit unit. -/
def escapeUnit (n : Nat) : List Char := '\\' :: 'u' :: Text.hex 4 n

/-- A character as it stands between double quotes. -/
def escapeChar (c : Char) : List Char :=
  if c == '"' then ['\\', '"']
  else if c == '\\' then ['\\', '\\']
  else if c == '\n' then ['\\', 'n']
  else if c == '\r' then ['\\', 'r']
  else if c == '\t' then ['\\', 't']
  else if c == '\x08' then ['\\', 'b']
  else if c == '\x0c' then ['\\', 'f']
  else if 0x20 ≤ c.toNat && c.toNat < 0x7F then [c]
  else if c.toNat ≤ 0xFFFF then escapeUnit c.toNat
  else
    let n := c.toNat - 0x10000
    escapeUnit (0xD800 + n / 0x400) ++ escapeUnit (0xDC00 + n % 0x400)

/-- A text in double quotes. -/
def textChars (s : String) : List Char := '"' :: (s.toList.flatMap escapeChar ++ ['"'])

/-- Numbers are written like those in messages, but with the words `Infinity` and `NaN`. -/
def numbers : NumberStyle := { messageNumbers with infinityWord := "Infinity", nanWord := "NaN" }

mutual

/-- A value in a layout, its members one level below `depth`. -/
def chars (l : Layout) (depth : Nat) : Json → List Char
  | .null => "null".toList
  | .bool b => if b then "true".toList else "false".toList
  | .integer n => (Int.repr n).toList
  | .decimal x => (numbers.text x).toList
  | .text s => textChars s
  | .array [] => ['[', ']']
  | .array (x :: xs) =>
    '[' :: (l.lineBreak (depth + 1) ++ (chars l (depth + 1) x
      ++ (itemChars l (depth + 1) xs ++ (l.lineBreak depth ++ [']']))))
  | .object [] => ['\x7b', '\x7d']
  | .object ((k, v) :: fs) =>
    '\x7b' :: (l.lineBreak (depth + 1) ++ (textChars k ++ (':' :: ' ' :: (chars l (depth + 1) v
      ++ (fieldChars l (depth + 1) fs ++ (l.lineBreak depth ++ ['\x7d']))))))

/-- The items after the first, each behind a separator. -/
def itemChars (l : Layout) (depth : Nat) : List Json → List Char
  | [] => []
  | x :: xs => l.separator depth ++ (chars l depth x ++ itemChars l depth xs)

/-- The fields after the first, each behind a separator. -/
def fieldChars (l : Layout) (depth : Nat) : List (String × Json) → List Char
  | [] => []
  | (k, v) :: fs =>
    l.separator depth ++ (textChars k ++ (':' :: ' ' :: (chars l depth v ++ fieldChars l depth fs)))

end

/-- The text of a value in a layout. -/
def render (l : Layout) (j : Json) : String := String.ofList (chars l 0 j)

end CloudSecrets.Json
