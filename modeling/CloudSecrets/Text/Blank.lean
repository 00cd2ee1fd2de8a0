/-!
# Blank characters

The blank characters are Unicode's white space together with the four information separators
`U+001C` to `U+001F`. `strip` removes them from both ends of a text: the result has none of them at
either end, so stripping it again changes nothing.
-/

namespace CloudSecrets.Text

/-- Whether a character counts as white space. -/
def isBlank (c : Char) : Bool :=
  let n := c.toNat
  (9 ≤ n && n ≤ 13) || (0x1C ≤ n && n ≤ 0x20) || n == 0x85 || n == 0xA0 || n == 0x1680
    || (0x2000 ≤ n && n ≤ 0x200A) || n == 0x2028 || n == 0x2029 || n == 0x202F || n == 0x205F
    || n == 0x3000

/-- Whether a character is one of the six blanks that numerals may stand between. -/
def isAsciiBlank (c : Char) : Bool := c == ' ' || (9 ≤ c.toNat && c.toNat ≤ 13)

/-- Removes the characters of a class from both ends of a list. -/
def trimEnds (p : Char → Bool) (cs : List Char) : List Char :=
  ((cs.dropWhile p).reverse.dropWhile p).reverse

/-- A list whose first and last elements are outside the class is left alone. -/
theorem trimEnds_eq_self {p : Char → Bool} {cs : List Char}
    (head : ∀ c, cs.head? = some c → p c = false)
    (last : ∀ c, cs.getLast? = some c → p c = false) : trimEnds p cs = cs := by
  have keep : ∀ xs : List Char, (∀ c, xs.head? = some c → p c = false) → xs.dropWhile p = xs := by
    intro xs h
    cases xs with
    | nil => rfl
    | cons c xs => simp [h c rfl]
  rw [trimEnds, keep cs head, keep cs.reverse (by simpa using last), List.reverse_reverse]

/-- Nothing of the class is left in front. -/
theorem head?_dropWhile_eq_false {p : Char → Bool} (cs : List Char) {c : Char}
    (h : (cs.dropWhile p).head? = some c) : p c = false := by
  induction cs with
  | nil => simp at h
  | cons d cs ih =>
    by_cases hd : p d = true
    · exact ih (by simpa [List.dropWhile_cons, hd] using h)
    · simp only [List.dropWhile_cons, hd] at h
      simp_all

/-- Nothing of the class is left at the end. -/
theorem getLast?_trimEnds {p : Char → Bool} (cs : List Char) {c : Char}
    (h : (trimEnds p cs).getLast? = some c) : p c = false :=
  head?_dropWhile_eq_false (cs.dropWhile p).reverse (by simpa [trimEnds] using h)

/-- Removes the blanks at both ends of a text. -/
def strip (s : String) : String := String.ofList (trimEnds isBlank s.toList)

end CloudSecrets.Text
