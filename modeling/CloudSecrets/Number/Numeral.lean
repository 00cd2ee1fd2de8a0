import CloudSecrets.Number.Shortest
import CloudSecrets.Text.Blank
import CloudSecrets.Text.Quoted

/-!
# Numerals in text

Reading numbers from text. Digits may belong to any script, blanks may stand at both ends, a sign
may come first, and single underscores may stand between digits. `readFloat?` reads decimal
fractions, exponents, infinities and the absent number; `readInt` reads whole numbers in a base and
refuses decimal numerals of more than 4300 digits, and `writtenInt` refuses to write them.
-/

namespace CloudSecrets.Numeral

open Text

/-- The most decimal digits of an integer that are read or written. -/
def mostDigits : Nat := 4300

/-- Why a text is no integer, or an integer has no text. -/
inductive Fault where
  | malformed (base : Nat) (text : String)
  | tooLong (digits : Nat)
  | tooLongToWrite
  deriving Repr, DecidableEq

/-- The wording of a fault. Of a malformed text at most 200 characters are shown. -/
def Fault.message : Fault → String
  | .malformed base text =>
    s!"invalid literal for int() with base {base}: "
      ++ String.ofList ((quoted text).toList.take 200)
  | .tooLong digits =>
    s!"Exceeds the limit ({mostDigits} digits) for integer string conversion: value has {digits} "
      ++ "digits; use sys.set_int_max_str_digits() to increase the limit"
  | .tooLongToWrite =>
    s!"Exceeds the limit ({mostDigits} digits) for integer string conversion; "
      ++ "use sys.set_int_max_str_digits() to increase the limit"

/-- The decimal text of an integer, unless it is too long. -/
def writtenInt (n : Int) : Except Fault String :=
  if tenTo mostDigits ≤ n.natAbs then .error .tooLongToWrite else .ok (Int.repr n)

/-- A character as numerals see it: blanks and digits outside ASCII in their plain form, and a
question mark for everything else outside ASCII. -/
def plainChar (c : Char) : Char :=
  if c.toNat < 127 then c
  else if isBlank c then ' '
  else match digitValue? c with
    | some n => asciiDigit n
    | none => '?'

/-- A text as numerals see it, without the blanks at both ends. -/
def plain (s : String) : List Char := trimEnds isAsciiBlank (s.toList.map plainChar)

/-- Whether an optional sign leads, `true` for minus, and the characters after it. -/
def signed : List Char → Bool × List Char
  | '-' :: cs => (true, cs)
  | '+' :: cs => (false, cs)
  | cs => (false, cs)

/-- Removes underscores that stand between two characters of a class; any other underscore is an
error. `before` says whether the character before belongs to the class. -/
def joined? (p : Char → Bool) : Bool → List Char → Option (List Char)
  | _, [] => some []
  | before, '_' :: c :: cs => if before && p c then (joined? p true cs).map (c :: ·) else none
  | _, ['_'] => none
  | _, c :: cs => (joined? p (p c) cs).map (c :: ·)

/-! ## Decimal fractions -/

/-- The exponent part of a numeral, which must fill the rest of it. -/
def exponent? : List Char → Option Int
  | [] => some 0
  | c :: cs =>
    let (negative, ds) := signed cs
    if (c == 'e' || c == 'E') && !ds.isEmpty && ds.all isAsciiDigit then
      some (if negative then -(digitsValue ds : Int) else digitsValue ds)
    else none

/-- The value of an unsigned decimal numeral. -/
def fraction? (negative : Bool) (cs : List Char) : Option Binary64 := do
  let whole := cs.takeWhile isAsciiDigit
  let (places, rest) := match cs.dropWhile isAsciiDigit with
    | '.' :: rest => (rest.takeWhile isAsciiDigit, rest.dropWhile isAsciiDigit)
    | rest => ([], rest)
  if whole.isEmpty && places.isEmpty then none
  else
    let e ← exponent? rest
    some (.ofDecimal negative (digitsValue (whole ++ places)) (e - places.length))

/-- The number that a text writes. -/
def readFloat? (s : String) : Option Binary64 := do
  let cs ← joined? isAsciiDigit false (plain s)
  let (negative, body) := signed cs
  let word := String.ofList (body.map Char.toLower)
  if word == "inf" || word == "infinity" then some (.infinite negative)
  else if word == "nan" then some .nan
  else fraction? negative body

/-! ## Integers -/

/-- The value of a digit in bases up to sixteen. -/
def digitIn? (base : Nat) (c : Char) : Option Nat :=
  let n :=
    if isAsciiDigit c then c.toNat - 48
    else if 'a' ≤ c.toLower ∧ c.toLower ≤ 'f' then c.toLower.toNat - 87
    else 16
  if n < base then some n else none

/-- Removes the letter that announces a base, with its zero. -/
def unmarked (base : Nat) : List Char → List Char
  | '0' :: c :: cs =>
    let marked := (base == 16 && c.toLower == 'x') || (base == 8 && c.toLower == 'o')
      || (base == 2 && c.toLower == 'b')
    if marked then
      match cs with
      | '_' :: cs => cs
      | cs => cs
    else '0' :: c :: cs
  | cs => cs

/-- The integer that a text writes in a base. -/
def readInt (base : Nat) (s : String) : Except Fault Int :=
  let (negative, body) := signed (plain s)
  match joined? (fun c => (digitIn? base c).isSome) false (unmarked base body) with
  | none => .error (.malformed base s)
  | some [] => .error (.malformed base s)
  | some ds =>
    if ds.all fun c => (digitIn? base c).isSome then
      if base == 10 && mostDigits < ds.length then .error (.tooLong ds.length)
      else
        let n := ds.foldl (fun n c => base * n + (digitIn? base c).getD 0) 0
        .ok (if negative then -(n : Int) else n)
    else .error (.malformed base s)

end CloudSecrets.Numeral
