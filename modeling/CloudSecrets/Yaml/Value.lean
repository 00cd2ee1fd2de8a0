import CloudSecrets.Number.Numeral
import CloudSecrets.Text.Utf8
import CloudSecrets.Yaml.Calendar

/-!
# YAML values

What a YAML document stands for: besides texts, numbers, lists and maps there are octet strings,
dates, moments, sets and pairs. Maps keep the order of their keys, which are compared as values:
`1`, `1.0` and `true` are one key.

A value is shown in two ways: as messages embed it, where a text stands for itself, and as it is
listed inside another value, where a text is quoted.
-/

namespace CloudSecrets.Yaml

/-- The value of a YAML node. -/
inductive Value where
  | null
  | bool (b : Bool)
  | integer (n : Int)
  | decimal (x : Binary64)
  | text (s : String)
  | octets (bs : Bytes)
  | date (d : Calendar.Date)
  | moment (m : Calendar.Moment)
  | list (items : List Value)
  | pair (first second : Value)
  | set (items : List Value)
  | map (entries : List (Value × Value))
  /-- An enclosing list (`false`) or map (`true`) once more. -/
  | enclosing (isMap : Bool)
  deriving Repr, Inhabited

namespace Value

/-! ## Equality -/

mutual

/-- Whether two values are built alike from equal parts. -/
def equal : Value → Value → Bool
  | .null, .null => true
  | .bool a, .bool b => a == b
  | .integer m, .integer n => m == n
  | .decimal x, .decimal y => decide (x = y)
  | .text s, .text t => s == t
  | .octets bs, .octets cs => bs == cs
  | .date d, .date e => decide (d = e)
  | .moment m, .moment n => decide (m = n)
  | .list vs, .list us => equalItems vs us
  | .pair a b, .pair c d => equal a c && equal b d
  | .set vs, .set us => equalItems vs us
  | .map es, .map fs => equalEntries es fs
  | .enclosing a, .enclosing b => a == b
  | _, _ => false

/-- Whether two lists have equal values in the same order. -/
def equalItems : List Value → List Value → Bool
  | [], [] => true
  | v :: vs, u :: us => equal v u && equalItems vs us
  | _, _ => false

/-- Whether two maps have equal entries in the same order. -/
def equalEntries : List (Value × Value) → List (Value × Value) → Bool
  | [], [] => true
  | (k, v) :: es, (l, u) :: fs => equal k l && equal v u && equalEntries es fs
  | _, _ => false

end

mutual

theorem equal_refl : (v : Value) → equal v v = true
  | .null => rfl
  | .bool _ | .integer _ | .decimal _ | .text _ | .octets _ | .date _ | .moment _
  | .enclosing _ => by
    simp [equal]
  | .list vs => by simp [equal, equalItems_refl vs]
  | .pair a b => by simp [equal, equal_refl a, equal_refl b]
  | .set vs => by simp [equal, equalItems_refl vs]
  | .map es => by simp [equal, equalEntries_refl es]

theorem equalItems_refl : (vs : List Value) → equalItems vs vs = true
  | [] => rfl
  | v :: vs => by simp [equalItems, equal_refl v, equalItems_refl vs]

theorem equalEntries_refl : (es : List (Value × Value)) → equalEntries es es = true
  | [] => rfl
  | (k, v) :: es => by simp [equalEntries, equal_refl k, equal_refl v, equalEntries_refl es]

end

mutual

theorem eq_of_equal : (v u : Value) → equal v u = true → v = u
  | .null, u, h | .bool _, u, h | .integer _, u, h | .decimal _, u, h | .text _, u, h
  | .octets _, u, h | .date _, u, h | .moment _, u, h | .enclosing _, u, h => by
    cases u <;> simp_all [equal]
  | .list vs, u, h => by
    cases u <;> simp only [equal, Bool.false_eq_true] at h
    rw [eq_of_equalItems vs _ h]
  | .pair a b, u, h => by
    cases u <;> simp only [equal, Bool.false_eq_true, Bool.and_eq_true] at h
    rw [eq_of_equal a _ h.1, eq_of_equal b _ h.2]
  | .set vs, u, h => by
    cases u <;> simp only [equal, Bool.false_eq_true] at h
    rw [eq_of_equalItems vs _ h]
  | .map es, u, h => by
    cases u <;> simp only [equal, Bool.false_eq_true] at h
    rw [eq_of_equalEntries es _ h]

theorem eq_of_equalItems : (vs us : List Value) → equalItems vs us = true → vs = us
  | [], us, h => by cases us <;> simp_all [equalItems]
  | v :: vs, us, h => by
    cases us <;> simp only [equalItems, Bool.false_eq_true, Bool.and_eq_true] at h
    rw [eq_of_equal v _ h.1, eq_of_equalItems vs _ h.2]

theorem eq_of_equalEntries : (es fs : List (Value × Value)) → equalEntries es fs = true → es = fs
  | [], fs, h => by cases fs <;> simp_all [equalEntries]
  | (k, v) :: es, fs, h => by
    cases fs <;> simp only [equalEntries, Bool.false_eq_true, Bool.and_eq_true] at h
    rename_i f fs
    rw [eq_of_equal k _ h.1.1, eq_of_equal v _ h.1.2, eq_of_equalEntries es _ h.2]

end

instance : DecidableEq Value := fun v u =>
  decidable_of_iff (equal v u = true) ⟨eq_of_equal v u, fun h => h ▸ equal_refl v⟩

/-! ## Views -/

/-- Whether a value counts as given: it is neither null, false, zero nor empty. -/
def isGiven : Value → Bool
  | .null => false
  | .bool b => b
  | .integer n => n != 0
  | .decimal x => !x.isZero
  | .text s => !s.isEmpty
  | .octets bs => !bs.isEmpty
  | .date _ => true
  | .moment _ => true
  | .list items => !items.isEmpty
  | .pair .. => true
  | .set items => !items.isEmpty
  | .map entries => !entries.isEmpty
  | .enclosing _ => true

/-- The name of a value's kind. -/
def kind : Value → String
  | .null => "NoneType"
  | .bool _ => "bool"
  | .integer _ => "int"
  | .decimal _ => "float"
  | .text _ => "str"
  | .octets _ => "bytes"
  | .date _ => "date"
  | .moment _ => "datetime"
  | .list _ => "list"
  | .pair .. => "tuple"
  | .set _ => "set"
  | .map _ => "dict"
  | .enclosing isMap => if isMap then "dict" else "list"

/-- Whether values of this kind can be keys of a map. -/
def canBeKey : Value → Bool
  | .list _ | .set _ | .map _ | .enclosing _ => false
  | _ => true

/-- The integer that a value counts as: truth values are zero and one. -/
def asInteger? : Value → Option Int
  | .bool b => some (if b then 1 else 0)
  | .integer n => some n
  | .decimal x => x.toInt?
  | _ => none

/-- Whether two keys are one key. -/
def sameKey (a b : Value) : Bool :=
  match a.asInteger?, b.asInteger? with
  | some m, some n => m == n
  | none, none =>
    match a, b with
    | .moment m, .moment n => m.same n
    | .pair a b, .pair c d => sameKey a c && sameKey b d
    | a, b => a == b
  | _, _ => false

/-- Gives a key of a map a value, in place if the key is present. -/
def putEntry (k v : Value) : List (Value × Value) → List (Value × Value)
  | [] => [(k, v)]
  | (k', v') :: es => if k'.sameKey k then (k', v) :: es else (k', v') :: putEntry k v es

/-- The value of a text key. -/
def entry? (name : String) : List (Value × Value) → Option Value
  | [] => none
  | (.text s, v) :: es => if s == name then some v else entry? name es
  | _ :: es => entry? name es

/-- The value of a text key, if the value is a map with that key. -/
def get? (name : String) : Value → Option Value
  | .map entries => entry? name entries
  | _ => none

/-- Whether a value is a map. -/
def isMap : Value → Bool
  | .map _ => true
  | .enclosing isMap => isMap
  | _ => false

/-! ## Text -/

mutual

/-- A value as it is listed inside another. Integers that are too long have no text. A set has no
order of its own; here its members are listed in the order of the document. -/
def listing : Value → Except Numeral.Fault String
  | .null => .ok "None"
  | .bool b => .ok (if b then "True" else "False")
  | .integer n => Numeral.writtenInt n
  | .decimal x => .ok (messageNumbers.text x)
  | .text s => .ok (Text.quoted s)
  | .octets bs => .ok (Text.quotedBytes bs)
  | .date d => .ok d.listing
  | .moment m => .ok m.listing
  | .list items => do
    let parts ← listings items
    .ok ("[" ++ String.intercalate ", " parts ++ "]")
  | .pair a b => do
    let a ← a.listing
    let b ← b.listing
    .ok ("(" ++ a ++ ", " ++ b ++ ")")
  | .set [] => .ok "set()"
  | .set items => do
    let parts ← listings items
    .ok ("\x7b" ++ String.intercalate ", " parts ++ "\x7d")
  | .map entries => do
    let parts ← entryListings entries
    .ok ("\x7b" ++ String.intercalate ", " parts ++ "\x7d")
  | .enclosing isMap => .ok (if isMap then "\x7b...\x7d" else "[...]")

/-- The listings of several values. -/
def listings : List Value → Except Numeral.Fault (List String)
  | [] => .ok []
  | v :: vs => do
    let part ← v.listing
    let parts ← listings vs
    .ok (part :: parts)

/-- The listings of the entries of a map. -/
def entryListings : List (Value × Value) → Except Numeral.Fault (List String)
  | [] => .ok []
  | (k, v) :: es => do
    let key ← k.listing
    let value ← v.listing
    let parts ← entryListings es
    .ok ((key ++ ": " ++ value) :: parts)

end

/-- A value as messages embed it. -/
def shown : Value → Except Numeral.Fault String
  | .text s => .ok s
  | .date d => .ok d.text
  | .moment m => .ok m.text
  | v => v.listing

end Value

/-! ## Faults -/

/-- Why a text stands for no value. -/
inductive Fault where
  /-- The text is not well-formed, or asks for a value that does not exist. -/
  | malformed
  /-- A numeral is no integer, or too long. -/
  | numeral (f : Numeral.Fault)
  /-- A text is no number. -/
  | notNumber (text : String)
  /-- A numeral has no digits at all. -/
  | noDigits
  /-- A number is too large for a factor of a sexagesimal fraction. -/
  | tooLarge
  /-- A word is no truth value. -/
  | notTruth (word : String)
  /-- A text is no timestamp. -/
  | notTimestamp
  /-- Numbers make no date or time. -/
  | calendar (f : Calendar.Fault)
  /-- An escape stands for no character; `wide` if its number has more than 31 bits. -/
  | notCharacter (wide : Bool)
  deriving Repr, DecidableEq

/-- The wording of a fault. -/
def Fault.message : Fault → String
  | .malformed => "<yaml error>"
  | .numeral f => f.message
  | .notNumber text => s!"could not convert string to float: {Text.quoted text}"
  | .noDigits => "string index out of range"
  | .tooLarge => "int too large to convert to float"
  | .notTruth word => Text.quoted word
  | .notTimestamp => "'NoneType' object has no attribute 'groupdict'"
  | .calendar f => f.message
  | .notCharacter wide =>
    if wide then "Python int too large to convert to C int" else "chr() arg not in range(0x110000)"

end CloudSecrets.Yaml
