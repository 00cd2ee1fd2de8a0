import CloudSecrets.Number.Shortest
import CloudSecrets.Entries

/-!
# JSON values

Objects keep their fields in insertion order, whole numbers are exact, and numbers with a fraction
or an exponent are binary floating point, which may be infinite or no number.
-/

namespace CloudSecrets

/-- A JSON value. -/
inductive Json where
  | null
  | bool (b : Bool)
  | integer (n : Int)
  | decimal (x : Binary64)
  | text (s : String)
  | array (items : List Json)
  | object (fields : List (String × Json))
  deriving Repr, BEq, Inhabited

namespace Json

/-- Whether a value counts as given: it is neither null, false, zero nor empty. -/
def isGiven : Json → Bool
  | .null => false
  | .bool b => b
  | .integer n => n != 0
  | .decimal x => !x.isZero
  | .text s => !s.isEmpty
  | .array items => !items.isEmpty
  | .object fields => !fields.isEmpty

end Json

end CloudSecrets
