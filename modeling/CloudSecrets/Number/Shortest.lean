import CloudSecrets.Number.Binary64
import CloudSecrets.Text.Digit

/-!
# Shortest decimal text

A finite number is written with the fewest digits that read back as the same number; of several such
texts, with the digits nearest to the number. The reals that round to `m * 2 ^ e` form an interval
around it, whose ends belong to it exactly when `m` is even. For each count of digits only the two
neighbours of the number on the decimal grid of that count can be the nearest hit, so they alone are
tested, in whole numbers.
-/

namespace CloudSecrets

/-- Positive decimal digits `digits * 10 ^ exponent`. -/
structure Decimal where
  digits : Nat
  exponent : Int
  deriving Repr, BEq, DecidableEq

namespace Decimal

/-- Removes trailing zeros from the digits, at most `fuel` of them. -/
def trimZeros : Nat → Decimal → Decimal
  | 0, d => d
  | fuel + 1, d =>
    if d.digits % 10 == 0 && d.digits != 0 then trimZeros fuel ⟨d.digits / 10, d.exponent + 1⟩
    else d

/-- The interval of reals that round to `m * 2 ^ e`: its ends and the number itself in units of a
quarter of the last place. Below a power of two the lower neighbour is only half as far away. -/
structure Interval where
  low : Nat
  value : Nat
  high : Nat
  closed : Bool

/-- The interval of `m * 2 ^ e` in units of `2 ^ (e - 2)`. -/
def interval (m : Nat) (e : Int) : Interval :=
  let near := if m == twoTo 52 && Binary64.leastExponent < e then 1 else 2
  ⟨4 * m - near, 4 * m, 4 * m + 2, m % 2 == 0⟩

/-- Whether a value in the units of the interval, scaled by `scale`, lies in it. -/
def Interval.holds (i : Interval) (scale x : Nat) : Bool :=
  if i.closed then i.low * scale ≤ x && x ≤ i.high * scale
  else i.low * scale < x && x < i.high * scale

/-- The decimal with grid step `10 ^ k` that lies in the interval and is nearest to the value, where
the unit of the interval is `2 ^ unit`. -/
def onGrid? (i : Interval) (unit k : Int) : Option Decimal :=
  -- a grid point `d * 10 ^ k` and a value `v * 2 ^ unit` are compared as `d * a` and `v * b`
  let a := twoTo (-unit).toNat * tenTo k.toNat
  let b := twoTo unit.toNat * tenTo (-k).toNat
  let v := i.value * b
  let d := v / a
  let below := i.holds b (d * a)
  let above := i.holds b ((d + 1) * a)
  let rest := v - d * a
  if below && (!above || 2 * rest < a || (2 * rest == a && d % 2 == 0)) && d != 0 then some ⟨d, k⟩
  else if above then some ⟨d + 1, k⟩
  else none

/-- The power of ten just above `num / den`: the least `k` with `num < den * 10 ^ k`, searched from
`k` upward for at most `fuel` steps. -/
def magnitude : Nat → Nat → Nat → Int → Int
  | 0, _, _, k => k
  | fuel + 1, num, den, k =>
    if num * tenTo (-k).toNat < den * tenTo k.toNat then k else magnitude fuel num den (k + 1)

/-- The first hit on the grids of `count`, `count + 1`, … digits. -/
def firstHit (i : Interval) (unit top : Int) : Nat → Int → Decimal
  | 0, count => (onGrid? i unit (top - count)).getD ⟨0, 0⟩
  | fuel + 1, count =>
    match onGrid? i unit (top - count) with
    | some d => d
    | none => firstHit i unit top fuel (count + 1)

/-- The shortest decimal that reads back as `m * 2 ^ e`, without trailing zeros; `m` is positive. -/
def shortest (m : Nat) (e : Int) : Decimal :=
  let (num, den) := Binary64.scaled m 1 (-e)
  let estimate : Int := ((m.log2 : Int) + e) * 30103 / 100000
  let top := magnitude 4 num den (estimate - 1)
  trimZeros 400 (firstHit (interval m e) (e - 2) top 17 1)

end Decimal

/-- How numbers are spelled: the powers of ten of the first digit that are written without an
exponent, and the words for what is no number. -/
structure NumberStyle where
  leastPositional : Int
  greatestPositional : Int
  infinityWord : String
  nanWord : String

namespace NumberStyle

/-- The sign and at least two digits of an exponent. -/
def exponentText (e : Int) : String :=
  let n := Nat.repr e.natAbs
  (if e < 0 then "-" else "+") ++ (if n.length < 2 then "0" ++ n else n)

/-- A positive decimal in the style. A whole number keeps a point and a zero. -/
def decimalText (style : NumberStyle) (d : Decimal) : String :=
  let digits := (Nat.repr d.digits).toList
  let first : Int := d.exponent + digits.length - 1
  if style.leastPositional ≤ first && first ≤ style.greatestPositional then
    if first < 0 then "0." ++ String.ofList (List.replicate (-first - 1).toNat '0' ++ digits)
    else
      let whole := (first + 1).toNat
      let fraction := digits.drop whole
      String.ofList (digits.take whole ++ List.replicate (whole - digits.length) '0') ++ "."
        ++ (if fraction.isEmpty then "0" else String.ofList fraction)
  else
    let tail := digits.drop 1
    String.ofList (digits.take 1) ++ (if tail.isEmpty then "" else "." ++ String.ofList tail)
      ++ "e" ++ exponentText first

/-- A number in the style. -/
def text (style : NumberStyle) : Binary64 → String
  | .finite negative m e =>
    (if negative then "-" else "")
      ++ (if m == 0 then "0.0" else style.decimalText (Decimal.shortest m e))
  | .infinite negative => (if negative then "-" else "") ++ style.infinityWord
  | .nan => style.nanWord

end NumberStyle

/-- Messages write numbers from `0.0001` up to below `10 ^ 16` without an exponent, and `inf` and
`nan` for what is no number. -/
def messageNumbers : NumberStyle := ⟨-4, 15, "inf", "nan"⟩

end CloudSecrets
