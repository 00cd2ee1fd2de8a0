import CloudSecrets.Number.Power

/-!
# Binary floating point

A number of the binary64 format, kept as the exact dyadic rational it stands for: a sign, a mantissa
below `2 ^ 53` and a power of two not below `-1074`. Every operation computes the exact result as a
fraction of natural numbers and rounds once, to the nearest number of the format and to the even one
of two equally near.
-/

namespace CloudSecrets

/-- A number of the binary64 format. -/
inductive Binary64 where
  /-- `± mantissa * 2 ^ exponent`. -/
  | finite (negative : Bool) (mantissa : Nat) (exponent : Int)
  | infinite (negative : Bool)
  | nan
  deriving Repr, BEq, DecidableEq

namespace Binary64

/-- The least exponent of the format. -/
def leastExponent : Int := -1074

/-- The greatest exponent of the format. -/
def greatestExponent : Int := 971

/-- Zero of either sign. -/
def zero (negative : Bool) : Binary64 := .finite negative 0 leastExponent

/-- The fraction `num / den * 2 ^ (-e)` as numerator and denominator. -/
def scaled (num den : Nat) (e : Int) : Nat × Nat :=
  if 0 ≤ e then (num, den * twoTo e.toNat) else (num * twoTo (-e).toNat, den)

/-- The power of two that the last place of `num / den` has in the format, for positive `num` and
`den`: the value then has at most 53 binary places before the point. -/
def lastPlace (num den : Nat) : Int :=
  let k : Int := (num.log2 : Int) - den.log2
  let (a, b) := scaled num den k
  max (if b ≤ a then k - 52 else k - 53) leastExponent

/-- The quotient rounded to the nearest integer, and to the even one of two equally near. -/
def roundedQuotient (num den : Nat) : Nat :=
  let q := num / den
  let r := num % den
  if den < 2 * r || (2 * r == den && q % 2 == 1) then q + 1 else q

/-- The number of the format nearest to `± num / den`, for a positive `den`. -/
def ofRatio (negative : Bool) (num den : Nat) : Binary64 :=
  if num == 0 then zero negative
  else
    let e := lastPlace num den
    let (a, b) := scaled num den e
    let m := roundedQuotient a b
    let (m, e) := if m == twoTo 53 then (twoTo 52, e + 1) else (m, e)
    if greatestExponent < e then .infinite negative else .finite negative m e

/-- The number of the format nearest to `± digits * 10 ^ exponent`. Far outside the format's range
the answer is infinity or zero without computing the power. -/
def ofDecimal (negative : Bool) (digits : Nat) (exponent : Int) : Binary64 :=
  let magnitude : Int := (Nat.repr digits).length + exponent
  if digits == 0 || magnitude < -330 then zero negative
  else if 310 < magnitude then .infinite negative
  else if 0 ≤ exponent then ofRatio negative (digits * tenTo exponent.toNat) 1
  else ofRatio negative digits (tenTo (-exponent).toNat)

/-- An integer as a number of the format, unless it is too large for it. -/
def ofInt? (n : Int) : Option Binary64 :=
  match ofRatio (n < 0) n.natAbs 1 with
  | .infinite _ => none
  | x => some x

/-- The value of a finite number as a signed numerator over `2 ^ k`. -/
def dyadic (negative : Bool) (m : Nat) (e : Int) (k : Nat) : Int :=
  let n : Int := (m * twoTo (e + k).toNat : Nat)
  if negative then -n else n

/-- The sum of two numbers. -/
def add : Binary64 → Binary64 → Binary64
  | .finite s m e, .finite t n f =>
    let k := (max (-(min e f)) 0).toNat
    let sum := dyadic s m e k + dyadic t n f k
    if sum == 0 then zero (s && t) else ofRatio (sum < 0) sum.natAbs (twoTo k)
  | .infinite s, .infinite t => if s == t then .infinite s else .nan
  | .infinite s, .finite .. => .infinite s
  | .finite .., .infinite t => .infinite t
  | .nan, _ => .nan
  | _, .nan => .nan

/-- The product of two numbers. -/
def mul : Binary64 → Binary64 → Binary64
  | .finite s m e, .finite t n f =>
    let p := e + f
    if 0 ≤ p then ofRatio (s != t) (m * n * twoTo p.toNat) 1
    else ofRatio (s != t) (m * n) (twoTo (-p).toNat)
  | .infinite s, .infinite t => .infinite (s != t)
  | .infinite s, .finite t n _ => if n == 0 then .nan else .infinite (s != t)
  | .finite s m _, .infinite t => if m == 0 then .nan else .infinite (s != t)
  | .nan, _ => .nan
  | _, .nan => .nan

/-- The number with the other sign. -/
def neg : Binary64 → Binary64
  | .finite s m e => .finite (!s) m e
  | .infinite s => .infinite (!s)
  | .nan => .nan

/-- Whether the number is neither infinite nor the absent number. -/
def isFinite : Binary64 → Bool
  | .finite .. => true
  | _ => false

/-- Whether the number is zero of either sign. -/
def isZero : Binary64 → Bool
  | .finite _ m _ => m == 0
  | _ => false

/-- Whether the number is greater than zero. -/
def isPositive : Binary64 → Bool
  | .finite s m _ => !s && m != 0
  | .infinite s => !s
  | .nan => false

/-- The integer that a number is, if it is one. -/
def toInt? : Binary64 → Option Int
  | .finite s m e =>
    let signed (n : Nat) : Int := if s then -n else n
    if 0 ≤ e then some (signed (m * twoTo e.toNat))
    else if m % twoTo (-e).toNat == 0 then some (signed (m / twoTo (-e).toNat))
    else none
  | _ => none

end Binary64

end CloudSecrets
