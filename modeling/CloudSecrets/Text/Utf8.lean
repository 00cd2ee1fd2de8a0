import CloudSecrets.Text.Quoted

/-!
# UTF-8

Text is stored as UTF-8. `decode` accepts exactly the well-formed sequences and otherwise says where
the first ill-formed one stands and why it is refused: an octet that can start no character, a
continuation that is not one, or an end in the middle of a character. `decodePieces` decodes a
stream that arrives in pieces and counts positions from the start of a piece.
-/

namespace CloudSecrets

/-- The content of a file. -/
abbrev Bytes := List UInt8

namespace Utf8

/-- Why a sequence of octets is no UTF-8. -/
inductive Reason where
  /-- The octet starts no character. -/
  | invalidStart
  /-- A continuation octet was due. -/
  | invalidContinuation
  /-- The octets end inside a character. -/
  | unexpectedEnd
  deriving Repr, DecidableEq

/-- An ill-formed sequence: its octets, where they start, and why they are refused. -/
structure Fault where
  octets : Bytes
  position : Nat
  reason : Reason
  deriving Repr, DecidableEq

/-- How many continuations a lead octet asks for, and the range of the first of them. -/
def lead? (b : UInt8) : Option (Nat × UInt8 × UInt8) :=
  if b < 0x80 then some (0, 0x80, 0xBF)
  else if b < 0xC2 then none
  else if b < 0xE0 then some (1, 0x80, 0xBF)
  else if b == 0xE0 then some (2, 0xA0, 0xBF)
  else if b == 0xED then some (2, 0x80, 0x9F)
  else if b < 0xF0 then some (2, 0x80, 0xBF)
  else if b == 0xF0 then some (3, 0x90, 0xBF)
  else if b < 0xF4 then some (3, 0x80, 0xBF)
  else if b == 0xF4 then some (3, 0x80, 0x8F)
  else none

/-- The bits of the lead octet that belong to the code point. -/
def leadBits (count : Nat) (b : UInt8) : Nat :=
  match count with
  | 0 => b.toNat
  | 1 => b.toNat % 32
  | 2 => b.toNat % 16
  | _ => b.toNat % 8

/-- Reads `count` continuations, the first in `[lo, hi]`, onto the code point so far; `seen` counts
the octets of this character already read, and an error keeps that count. -/
def continuations : Nat → UInt8 → UInt8 → Nat → Nat → Bytes → Except (Nat × Reason) (Nat × Bytes)
  | 0, _, _, code, _, rest => .ok (code, rest)
  | _ + 1, _, _, _, seen, [] => .error (seen, .unexpectedEnd)
  | n + 1, lo, hi, code, seen, b :: rest =>
    if lo ≤ b && b ≤ hi then
      continuations n 0x80 0xBF (code * 64 + b.toNat % 64) (seen + 1) rest
    else .error (seen, .invalidContinuation)

/-- Reads one character: it and the octets after it, or how many octets are ill-formed and why. -/
def next (b : UInt8) (rest : Bytes) : Except (Nat × Reason) (Char × Bytes) :=
  match lead? b with
  | none => .error (1, .invalidStart)
  | some (count, lo, hi) =>
    (continuations count lo hi (leadBits count b) 1 rest).map fun (code, rest) =>
      (Char.ofNat code, rest)

/-- Decodes with a bound on the number of characters, counting octets from `position`. -/
def decodeFrom : Nat → Nat → Bytes → Except Fault (List Char)
  | _, _, [] => .ok []
  | 0, _, _ :: _ => .ok []
  | n + 1, position, b :: rest =>
    match next b rest with
    | .error (count, reason) => .error ⟨(b :: rest).take count, position, reason⟩
    | .ok (c, rest') =>
      (decodeFrom n (position + (rest.length + 1 - rest'.length)) rest').map (c :: ·)

/-- The characters that a sequence of octets encodes. -/
def decode (bs : Bytes) : Except Fault (List Char) := decodeFrom bs.length 0 bs

/-- Whether more octets could complete the ill-formed sequence. -/
def Fault.unfinished (f : Fault) : Bool := f.reason == .unexpectedEnd

/-- Decodes a stream of pieces of at most `size + 1` octets. An unfinished character is carried into
the next piece, whose positions then count from its first octet. -/
def decodePieces (size : Nat) : Nat → Bytes → Bytes → Except Fault (List Char)
  | 0, carried, _ => decode carried
  | n + 1, carried, rest =>
    let piece := carried ++ rest.take (size + 1)
    let rest := rest.drop (size + 1)
    match decode piece with
    | .ok cs => if rest.isEmpty then .ok cs else (decodePieces size n [] rest).map (cs ++ ·)
    | .error f =>
      if f.unfinished then do
        let cs ← decode (piece.take f.position)
        (decodePieces size n f.octets rest).map (cs ++ ·)
      else .error f

/-- The characters of a file that is read in pieces of 8192 octets. -/
def decodeFile (bs : Bytes) : Except Fault (List Char) :=
  decodePieces 8191 (bs.length / 8192 + 2) [] bs

/-- The wording of a reason. -/
def Reason.message : Reason → String
  | .invalidStart => "invalid start byte"
  | .invalidContinuation => "invalid continuation byte"
  | .unexpectedEnd => "unexpected end of data"

/-- The wording of a fault: one octet is shown, several are given by their positions. -/
def Fault.message (f : Fault) : String :=
  let place := match f.octets with
    | [b] => s!"byte 0x{String.ofList (Text.hex 2 b.toNat)} in position {f.position}"
    | bs => s!"bytes in position {f.position}-{f.position + bs.length - 1}"
  s!"'utf-8' codec can't decode {place}: {f.reason.message}"

/-- The octets of a text. -/
def encode (cs : List Char) : Bytes := cs.flatMap String.utf8EncodeChar

end Utf8

end CloudSecrets
