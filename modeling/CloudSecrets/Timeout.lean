import CloudSecrets.Number.Shortest

/-!
# Timeouts

A timeout is a number of seconds, whole or not. Zero means that none is given.
-/

namespace CloudSecrets

/-- A number of seconds. -/
inductive Timeout where
  | whole (seconds : Int)
  | fractional (seconds : Binary64)
  deriving Repr, BEq, DecidableEq

namespace Timeout

/-- Whether a timeout is given at all. -/
def isGiven : Timeout → Bool
  | .whole n => n != 0
  | .fractional x => !x.isZero

/-- The text of a timeout. -/
def text : Timeout → String
  | .whole n => Int.repr n
  | .fractional x => messageNumbers.text x

/-- The text of an optional timeout. -/
def optionalText : Option Timeout → String
  | some t => t.text
  | none => "None"

end Timeout

end CloudSecrets
