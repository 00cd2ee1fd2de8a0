import CloudSecrets.Yaml.Tag

/-!
# Values of texts

What the text of a node stands for under its tag. A text that was given a tag by its form always
fits it, apart from numerals without digits, impossible dates and integers that are too long; under
a written tag any text may turn up, and each kind refuses in its own way.
-/

namespace CloudSecrets.Yaml

open Text

/-- A text without its underscores. -/
def withoutUnderscores (cs : List Char) : List Char := cs.filter (· != '_')

/-- The sign of a numeral and the rest of it; a numeral without any character is refused. -/
def signedNumeral (cs : List Char) : Except Fault (Bool × List Char) :=
  if cs.isEmpty then .error .noDigits else .ok (Numeral.signed cs)

/-- The integer that a numeral writes in a base. -/
def integerIn (base : Nat) (cs : List Char) : Except Fault Int :=
  (Numeral.readInt base (String.ofList cs)).mapError .numeral

/-- The integer of a numeral without a sign. -/
def unsignedInteger (cs : List Char) : Except Fault Int :=
  match cs with
  | [] => .error .noDigits
  | ['0'] => .ok 0
  | '0' :: 'b' :: digits => integerIn 2 digits
  | '0' :: 'x' :: digits => integerIn 16 digits
  | '0' :: _ => integerIn 8 cs
  | _ =>
    if cs.contains ':' then do
      let places ← (splitAtEach ':' cs).mapM (integerIn 10)
      .ok (places.foldl (fun n place => 60 * n + place) 0)
    else integerIn 10 cs

/-- The integer of a numeral. -/
def integer (cs : List Char) : Except Fault Value := do
  let (negative, body) ← signedNumeral (withoutUnderscores cs)
  let n ← unsignedInteger body
  .ok (.integer (if negative then -n else n))

/-- The number that a numeral writes. -/
def floatOf (cs : List Char) : Except Fault Binary64 :=
  match Numeral.readFloat? (String.ofList cs) with
  | some x => .ok x
  | none => .error (.notNumber (String.ofList cs))

/-- The sum of sexagesimal places, the least first; each product and each sum is rounded. -/
def sexagesimalSum : Nat → Binary64 → List Binary64 → Except Fault Binary64
  | _, sum, [] => .ok sum
  | base, sum, place :: places =>
    match Binary64.ofInt? base with
    | some b => sexagesimalSum (base * 60) (sum.add (place.mul b)) places
    | none => .error .tooLarge

/-- The number of a numeral without a sign. -/
def unsignedFloat (cs : List Char) : Except Fault Binary64 :=
  if cs == ".inf".toList then .ok (.infinite false)
  else if cs == ".nan".toList then .ok .nan
  else if cs.contains ':' then do
    let places ← (splitAtEach ':' cs).mapM floatOf
    sexagesimalSum 1 (.zero false) places.reverse
  else floatOf cs

/-- The number of a numeral. -/
def float (cs : List Char) : Except Fault Value := do
  let (negative, body) ← signedNumeral ((withoutUnderscores cs).map Char.toLower)
  let x ← unsignedFloat body
  .ok (.decimal (if negative && x != .nan then x.neg else x))

/-- The truth value of a word. -/
def truth (cs : List Char) : Except Fault Value :=
  let word := String.ofList (cs.map Char.toLower)
  match Entries.get? word truthWords with
  | some b => .ok (.bool b)
  | none => .error (.notTruth word)

/-- The offset of a timestamp's zone, in minutes. -/
def zoneOffset : Option (Option (Bool × Nat × Nat)) → Except Calendar.Fault (Option Int)
  | none => .ok none
  | some none => .ok (some 0)
  | some (some (negative, hours, minutes)) =>
    let n : Int := (hours * 60 + minutes : Nat)
    (Calendar.offset (if negative then -n else n)).map some

/-- The microseconds that the digits of a fraction write; further digits are dropped. -/
def microseconds (fraction : List Char) : Nat :=
  let ds := fraction.take 6
  digitsValue (ds ++ List.replicate (6 - ds.length) '0')

/-- The date or moment of a timestamp. -/
def Timestamp.value (t : Timestamp) : Except Calendar.Fault Value :=
  match t.time with
  | none => (Calendar.date t.year t.month t.day).map .date
  | some (hour, minute, second, fraction) => do
    let offset ← zoneOffset t.zone
    let d ← Calendar.date t.year t.month t.day
    (Calendar.moment d hour minute second (microseconds fraction) offset).map .moment

/-- The date or moment that a text writes. -/
def timestamp (cs : List Char) : Except Fault Value :=
  match timestamp? (withoutLastBreak cs) with
  | some t => t.value.mapError .calendar
  | none => .error .notTimestamp

/-! ## Octets -/

/-- The six bits that a character of the sixty-four stands for. -/
def sixBits? (c : Char) : Option Nat :=
  let n := c.toNat
  if 'A' ≤ c ∧ c ≤ 'Z' then some (n - 65)
  else if 'a' ≤ c ∧ c ≤ 'z' then some (n - 71)
  else if '0' ≤ c ∧ c ≤ '9' then some (n + 4)
  else if c == '+' then some 62
  else if c == '/' then some 63
  else none

/-- Decodes four characters to three octets at a time. `filled` counts the characters of the current
four, `left` holds their bits that are not yet in an octet, and `pads` counts the padding signs in a
row. Other characters are skipped; padding ends the text once it fills up the four. -/
def sixtyFour : Nat → Nat → Nat → List Char → Option Bytes
  | filled, _, _, [] => if filled == 0 then some [] else none
  | filled, left, pads, c :: cs =>
    if c == '=' then
      if 2 ≤ filled then
        if 4 ≤ filled + pads + 1 then some [] else sixtyFour filled left (pads + 1) cs
      else sixtyFour filled left pads cs
    else
      match sixBits? c with
      | none => sixtyFour filled left pads cs
      | some n =>
        match filled with
        | 0 => sixtyFour 1 n 0 cs
        | 1 => (sixtyFour 2 (n % 16) 0 cs).map (UInt8.ofNat (left * 4 + n / 16) :: ·)
        | 2 => (sixtyFour 3 (n % 4) 0 cs).map (UInt8.ofNat (left * 16 + n / 4) :: ·)
        | _ => (sixtyFour 0 0 0 cs).map (UInt8.ofNat (left * 64 + n) :: ·)

/-- The octets that a text encodes. -/
def octets (cs : List Char) : Except Fault Value :=
  if cs.any fun c => 127 < c.toNat then .error .malformed
  else
    match sixtyFour 0 0 0 cs with
    | some bs => .ok (.octets bs)
    | none => .error .malformed

/-- The value of a text under a tag that takes texts; `none` for a tag that does not. -/
def scalarValue? (tag : Tag) (cs : List Char) : Option (Except Fault Value) :=
  match tag with
  | .null => some (.ok .null)
  | .bool => some (truth cs)
  | .int => some (integer cs)
  | .float => some (float cs)
  | .binary => some (octets cs)
  | .timestamp => some (timestamp cs)
  | .str => some (.ok (.text (String.ofList cs)))
  | _ => none

end CloudSecrets.Yaml
