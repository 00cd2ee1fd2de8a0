import CloudSecrets.Proofs.Json.Text
import Mathlib.Data.List.TakeWhile

/-!
# Reading written values

A written value is read back as it was (`parse_chars`), on one line as well as over several, as long
as it has no decimals, its integers are short enough to be read, and the names of each object are
distinct (`Lossless`). The value is read up to its last character, whatever follows, except that a
number must be followed by something that cannot belong to it (`Ends`).
-/

namespace CloudSecrets.Json

open Text

/-! ## Whole numbers -/

theorem isAsciiDigit_of_mem {n : Nat} {c : Char} (h : c ∈ Nat.toDigits 10 n) :
    isAsciiDigit c = true := by
  have hd := Nat.isDigit_of_mem_toDigits (by decide) (by decide) h
  rw [Char.isDigit, Bool.and_eq_true] at hd
  exact (Bool.and_eq_true _ _).mpr hd

theorem toDigits_eq_cons (n : Nat) :
    ∃ d ds, Nat.toDigits 10 n = d :: ds ∧ isAsciiDigit d = true := by
  obtain ⟨d, ds, hd⟩ := List.exists_cons_of_ne_nil (Nat.toDigits_ne_nil (b := 10) (n := n))
  exact ⟨d, ds, hd, isAsciiDigit_of_mem (hd ▸ List.mem_cons_self)⟩

theorem digitsValue_toDigits (n : Nat) : digitsValue (Nat.toDigits 10 n) = n :=
  Nat.ofDigitChars_ten_toDigits

/-- Only zero is written with a leading zero. -/
theorem toDigits_eq_zero_cons {n : Nat} {cs : List Char} (h : Nat.toDigits 10 n = '0' :: cs) :
    cs = [] := by
  -- Without its last digit a larger number has a smaller one in front, which is not zero.
  induction n using Nat.strongRecOn generalizing cs with
  | ind n ih =>
    by_cases hn : n < 10
    · rw [Nat.toDigits_of_lt_base hn] at h
      exact (List.cons.inj h).2.symm
    · rw [Nat.toDigits_of_base_le (by decide) (by omega)] at h
      obtain ⟨d, ds, hd, -⟩ := toDigits_eq_cons (n / 10)
      rw [hd, List.cons_append] at h
      obtain ⟨rfl, hcs⟩ := List.cons.inj h
      have hds : ds = [] := ih (n / 10) (by omega) hd
      subst hds
      have hv : n / 10 = 0 := by
        rw [← digitsValue_toDigits (n / 10), hd]
        rfl
      omega

/-- Whether a text cannot continue a number. -/
def Ends (cs : List Char) : Prop :=
  ∀ c ∈ cs.head?, isAsciiDigit c = false ∧ c ≠ '.' ∧ c ≠ 'e' ∧ c ≠ 'E'

theorem Ends.nil : Ends [] := nofun

theorem Ends.of_head {c : Char} {cs : List Char}
    (h : isAsciiDigit c = false ∧ c ≠ '.' ∧ c ≠ 'e' ∧ c ≠ 'E') : Ends (c :: cs) := by
  intro d hd
  rwa [← Option.some.inj hd]

theorem Ends.places {cs : List Char} (h : Ends cs) : places cs = [] := by
  cases cs with
  | nil => rfl
  | cons c cs =>
    rw [Json.places]
    intro ds hds
    exact (h c rfl).2.1 (List.cons.inj hds).1

theorem Ends.exponentPart {cs : List Char} (h : Ends cs) : exponentPart cs = none := by
  cases cs with
  | nil => rfl
  | cons c cs =>
    have he : (c == 'e' || c == 'E') = false := by
      rw [Bool.or_eq_false_iff, beq_eq_false_iff_ne, beq_eq_false_iff_ne]
      exact (h c rfl).2.2
    rw [Json.exponentPart, he]
    rfl

/-- The digits of a number are read up to its end. -/
theorem wholeDigits_toDigits (n : Nat) {rest : List Char} (h : Ends rest) :
    wholeDigits (Nat.toDigits 10 n ++ rest) = Nat.toDigits 10 n := by
  obtain ⟨d, ds, hd, -⟩ := toDigits_eq_cons n
  by_cases h0 : d = '0'
  · subst h0
    rw [hd, toDigits_eq_zero_cons hd]
    rfl
  · rw [wholeDigits.eq_2 _ fun cs hcs => h0 (List.cons.inj (by rwa [hd] at hcs)).1,
      List.takeWhile_append_of_pos fun c hc => isAsciiDigit_of_mem hc]
    cases rest with
    | nil => rw [List.takeWhile_nil, List.append_nil]
    | cons c cs =>
      rw [List.takeWhile_cons_of_neg (by rw [(h c rfl).1]; decide), List.append_nil]

/-- Whether an integer is short enough to be read. -/
def Short (n : Int) : Prop := n.natAbs < tenTo Numeral.mostDigits

theorem length_toDigits_le {n k : Nat} (hk : 0 < k) (h : n < tenTo k) :
    (Nat.toDigits 10 n).length ≤ k :=
  (Nat.length_toDigits_le_iff (by decide) hk).mpr h

/-- The characters of an integer are a sign, if it is negative, and the digits of its size. -/
theorem toList_repr (n : Int) :
    n < 0 ∧ (Int.repr n).toList = '-' :: Nat.toDigits 10 n.natAbs ∨
      0 ≤ n ∧ (Int.repr n).toList = Nat.toDigits 10 n.natAbs := by
  cases n with
  | ofNat n => exact .inr ⟨Int.natCast_nonneg n, Nat.toList_repr⟩
  | negSucc n =>
    refine .inl ⟨Int.negSucc_lt_zero n, ?_⟩
    rw [Int.repr, String.toList_append, Nat.toList_repr]
    rfl

/-- A short integer is read back. -/
theorem readNumber_repr {n : Int} (hn : Short n) {rest : List Char} (h : Ends rest) :
    readNumber ((Int.repr n).toList ++ rest) = .ok (.integer n, rest) := by
  have hne : (Nat.toDigits 10 n.natAbs).isEmpty = false :=
    List.isEmpty_eq_false_iff.mpr Nat.toDigits_ne_nil
  have hlen : ¬Numeral.mostDigits < (Nat.toDigits 10 n.natAbs).length :=
    Nat.not_lt.mpr (length_toDigits_le (by decide) hn)
  rcases toList_repr n with ⟨hneg, hcs⟩ | ⟨hpos, hcs⟩
  · rw [hcs, List.cons_append, readNumber.eq_1]
    simp only [wholeDigits_toDigits _ h, hne, List.drop_left, h.places, List.isEmpty_nil,
      h.exponentPart, if_neg hlen, digitsValue_toDigits, if_true,
      Bool.false_eq_true, if_false]
    rw [Int.ofNat_natAbs_of_nonpos (Int.le_of_lt hneg), Int.neg_neg]
  · have hminus : ∀ body, Nat.toDigits 10 n.natAbs ++ rest = '-' :: body → False := by
      intro body heq
      obtain ⟨d, ds, hd, hdigit⟩ := toDigits_eq_cons n.natAbs
      rw [hd, List.cons_append] at heq
      rw [(List.cons.inj heq).1] at hdigit
      exact absurd hdigit (by decide)
    rw [hcs, readNumber.eq_2 _ hminus]
    simp only [wholeDigits_toDigits _ h, hne, List.drop_left, h.places, List.isEmpty_nil,
      h.exponentPart, if_neg hlen, digitsValue_toDigits, if_true,
      Bool.false_eq_true, if_false]
    rw [Int.natAbs_of_nonneg hpos]

/-! ## Blanks -/

/-- Whether a text is empty or starts with something other than a blank. -/
def Solid (cs : List Char) : Prop := ∀ c ∈ cs.head?, isSpace c = false

theorem Solid.of_head {c : Char} {cs : List Char} (h : isSpace c = false) : Solid (c :: cs) := by
  intro d hd
  rwa [← Option.some.inj hd]

theorem skip_of_solid {cs : List Char} (h : Solid cs) : skip cs = cs := by
  cases cs with
  | nil => rfl
  | cons c cs => exact List.dropWhile_cons_of_neg (by rw [h c rfl]; decide)

theorem skip_append {gap cs : List Char} (hg : ∀ c ∈ gap, isSpace c = true) (h : Solid cs) :
    skip (gap ++ cs) = cs := by
  rw [skip, List.dropWhile_append_of_pos hg]
  exact skip_of_solid h

/-- Whether a layout puts nothing but blanks between the parts of a value. -/
def Layout.Blank : Layout → Prop
  | .inline => True
  | .indented unit => ∀ c ∈ unit, isSpace c = true

theorem isSpace_of_mem_lineBreak {l : Layout} (hl : l.Blank) (depth : Nat) {c : Char}
    (hc : c ∈ l.lineBreak depth) : isSpace c = true := by
  cases l with
  | inline => exact absurd hc List.not_mem_nil
  | indented unit =>
    rcases List.mem_cons.mp hc with rfl | hc
    · rfl
    · obtain ⟨u, hu, hcu⟩ := List.mem_flatten.mp hc
      rw [List.eq_of_mem_replicate hu] at hcu
      exact hl c hcu

/-- A separator is a comma and blanks. -/
theorem separator_eq {l : Layout} (hl : l.Blank) (depth : Nat) :
    ∃ gap, l.separator depth = ',' :: gap ∧ ∀ c ∈ gap, isSpace c = true := by
  cases l with
  | inline =>
    refine ⟨[' '], rfl, fun c hc => ?_⟩
    rw [List.mem_singleton.mp hc]
    rfl
  | indented unit => exact ⟨_, rfl, fun _ => isSpace_of_mem_lineBreak hl depth⟩

/-! ## Values that are read back -/

/-- Values that their text determines: they have no decimals, their integers are short, and the
names of each object are distinct. -/
inductive Lossless : Json → Prop where
  | null : Lossless .null
  | bool (b : Bool) : Lossless (.bool b)
  | integer {n : Int} (h : Short n) : Lossless (.integer n)
  | text (s : String) : Lossless (.text s)
  | array {xs : List Json} (h : ∀ x ∈ xs, Lossless x) : Lossless (.array xs)
  | object {fs : List (String × Json)} (hn : (fs.map Prod.fst).Nodup)
      (h : ∀ f ∈ fs, Lossless f.2) : Lossless (.object fs)

/-- Whether a value is read back wherever it stands. -/
def ReadsBack (l : Layout) (j : Json) : Prop :=
  ∀ (depth fuel : Nat) (rest : List Char), (chars l depth j).length ≤ fuel → Ends rest →
    readValue fuel (chars l depth j ++ rest) = .ok (j, rest)

/-! ### Integers -/

theorem isSpace_of_isAsciiDigit {c : Char} (h : isAsciiDigit c = true) : isSpace c = false := by
  rw [isSpace, Bool.or_eq_false_iff, Bool.or_eq_false_iff, Bool.or_eq_false_iff]
  simp only [beq_eq_false_iff_ne]
  refine ⟨⟨⟨?_, ?_⟩, ?_⟩, ?_⟩ <;> rintro rfl <;> exact absurd h (by decide)

/-- An integer starts with a digit, or with a sign and a digit. -/
theorem repr_eq_cons (n : Int) :
    ∃ c cs, (Int.repr n).toList = c :: cs ∧
      (isAsciiDigit c = true ∨ c = '-' ∧ ∃ d ds, cs = d :: ds ∧ isAsciiDigit d = true) := by
  obtain ⟨d, ds, hd, hdigit⟩ := toDigits_eq_cons n.natAbs
  rcases toList_repr n with ⟨-, hcs⟩ | ⟨-, hcs⟩
  · exact ⟨'-', _, hcs, .inr ⟨rfl, d, ds, hd, hdigit⟩⟩
  · exact ⟨d, ds, hcs.trans hd, .inl hdigit⟩

/-- What starts like an integer is read as a number. -/
theorem readValue_of_digit {c : Char} {cs : List Char} (fuel : Nat)
    (h : isAsciiDigit c = true ∨ c = '-' ∧ ∃ d ds, cs = d :: ds ∧ isAsciiDigit d = true) :
    readValue (fuel + 1) (c :: cs) = readNumber (c :: cs) := by
  refine readValue.eq_11 _ fuel ?_ ?_ ?_ ?_ ?_ ?_ ?_ ?_ ?_
  all_goals
    intro rest heq
    obtain ⟨rfl, rfl⟩ := List.cons.inj heq
    rcases h with h | ⟨h, d, ds, hd, hdigit⟩
    · exact absurd h (by decide)
    · first
      | exact absurd h (by decide)
      | rw [← (List.cons.inj hd).1] at hdigit
        exact absurd hdigit (by decide)

theorem readsBack_integer (l : Layout) {n : Int} (hn : Short n) : ReadsBack l (.integer n) := by
  intro depth fuel rest hfuel hrest
  obtain ⟨c, cs, hcs, hc⟩ := repr_eq_cons n
  rw [chars, hcs] at hfuel ⊢
  cases fuel with
  | zero => exact absurd hfuel (Nat.not_succ_le_zero _)
  | succ f =>
    have hstart : isAsciiDigit c = true ∨ c = '-' ∧ ∃ d ds, cs ++ rest = d :: ds ∧
        isAsciiDigit d = true := by
      refine hc.imp_right fun ⟨hminus, d, ds, hds, hd⟩ => ⟨hminus, d, ds ++ rest, ?_, hd⟩
      rw [hds, List.cons_append]
    rw [List.cons_append, readValue_of_digit f hstart, ← List.cons_append, ← hcs]
    exact readNumber_repr hn hrest

/-! ### Texts and words -/

theorem readsBack_text (l : Layout) (s : String) : ReadsBack l (.text s) := by
  intro depth fuel rest hfuel _
  rw [chars, textChars] at hfuel ⊢
  cases fuel with
  | zero => exact absurd hfuel (Nat.not_succ_le_zero _)
  | succ f =>
    rw [List.cons_append, List.append_assoc, List.singleton_append, readValue, readText_flatMap]
    rfl

theorem readsBack_null (l : Layout) : ReadsBack l .null := by
  intro depth fuel rest hfuel _
  cases fuel with
  | zero => exact absurd hfuel (by rw [chars]; decide)
  | succ f =>
    rw [chars]
    exact readValue.eq_5 f rest

theorem readsBack_bool (l : Layout) (b : Bool) : ReadsBack l (.bool b) := by
  intro depth fuel rest hfuel _
  cases fuel with
  | zero => exact absurd hfuel (by rw [chars]; cases b <;> decide)
  | succ f =>
    rw [chars]
    cases b with
    | false => exact readValue.eq_7 f rest
    | true => exact readValue.eq_6 f rest

/-! ### Arrays -/

/-- A value starts with a character that is neither a blank nor the end of an array, nor a mark. -/
theorem chars_eq_cons (l : Layout) (depth : Nat) {j : Json} (hj : Lossless j) :
    ∃ c cs, chars l depth j = c :: cs ∧ isSpace c = false ∧ c ≠ ']' ∧ c ≠ '\ufeff' := by
  cases hj with
  | null => exact ⟨'n', _, by rw [chars]; rfl, rfl, by decide, by decide⟩
  | bool b =>
    cases b with
    | false => exact ⟨'f', _, by rw [chars]; rfl, rfl, by decide, by decide⟩
    | true => exact ⟨'t', _, by rw [chars]; rfl, rfl, by decide, by decide⟩
  | integer =>
    rename_i n hn
    obtain ⟨c, cs, hcs, hc⟩ := repr_eq_cons n
    refine ⟨c, cs, by rw [chars, hcs], ?_⟩
    rcases hc with hc | ⟨rfl, -⟩
    · refine ⟨isSpace_of_isAsciiDigit hc, ?_, ?_⟩ <;> rintro rfl <;> exact absurd hc (by decide)
    · decide
  | text s => exact ⟨'"', _, by rw [chars, textChars], rfl, by decide, by decide⟩
  | array =>
    rename_i xs _
    cases xs with
    | nil => exact ⟨'[', _, by rw [chars], rfl, by decide, by decide⟩
    | cons x xs => exact ⟨'[', _, by rw [chars], rfl, by decide, by decide⟩
  | object =>
    rename_i fs _ _
    cases fs with
    | nil => exact ⟨'\x7b', _, by rw [chars], rfl, by decide, by decide⟩
    | cons f fs => exact ⟨'\x7b', _, by rw [chars], rfl, by decide, by decide⟩

theorem solid_chars (l : Layout) (depth : Nat) {j : Json} (hj : Lossless j) (rest : List Char) :
    Solid (chars l depth j ++ rest) := by
  obtain ⟨c, cs, hcs, hc, -⟩ := chars_eq_cons l depth hj
  rw [hcs]
  exact .of_head hc

theorem readValue_array {cs ds : List Char} {c : Char} (hs : skip cs = c :: ds) (hc : c ≠ ']')
    (fuel : Nat) :
    readValue (fuel + 1) ('[' :: cs) =
      (readItems fuel (c :: ds)).map fun (xs, rest) => (.array xs, rest) := by
  rw [readValue, hs]
  split
  · rename_i heq
    exact absurd (List.cons.inj heq).1 hc
  · rfl

theorem readItems_last {fuel : Nat} {cs rest ds : List Char} {x : Json}
    (hv : readValue fuel cs = .ok (x, rest)) (hs : skip rest = ']' :: ds) :
    readItems (fuel + 1) cs = .ok ([x], ds) := by
  simp only [readItems, hv, bind, Except.bind, hs]

theorem readItems_more {fuel : Nat} {cs rest ds : List Char} {x : Json}
    (hv : readValue fuel cs = .ok (x, rest)) (hs : skip rest = ',' :: ds) :
    readItems (fuel + 1) cs =
      (readItems fuel (skip ds)).map fun (xs, rest) => (x :: xs, rest) := by
  simp only [readItems, hv, bind, Except.bind, hs]

theorem Ends.of_gap {gap cs : List Char} (hg : ∀ c ∈ gap, isSpace c = true) (h : Ends cs) :
    Ends (gap ++ cs) := by
  cases gap with
  | nil => exact h
  | cons g gap =>
    refine Ends.of_head ⟨?_, ?_, ?_, ?_⟩
    · by_contra hd
      have hspace := isSpace_of_isAsciiDigit (eq_true_of_ne_false hd)
      rw [hg g List.mem_cons_self] at hspace
      exact absurd hspace (by decide)
    all_goals
      rintro rfl
      exact absurd (hg _ List.mem_cons_self) (by decide)

/-- The items of an array are read up to its bracket. -/
theorem readItems_itemChars {l : Layout} (hl : l.Blank) {gap : List Char}
    (hg : ∀ c ∈ gap, isSpace c = true) (depth : Nat) (rest : List Char) (xs : List Json) :
    ∀ (x : Json) (fuel : Nat), (∀ y ∈ x :: xs, Lossless y) → (∀ y ∈ x :: xs, ReadsBack l y) →
      (chars l depth x).length + (itemChars l depth xs).length < fuel →
      readItems fuel (chars l depth x ++ (itemChars l depth xs ++ (gap ++ ']' :: rest))) =
        .ok (x :: xs, rest) := by
  -- Each item takes one unit of fuel, and the comma in front of the next one pays for it.
  induction xs with
  | nil =>
    intro x fuel _ hx hfuel
    rw [itemChars, List.nil_append]
    cases fuel with
    | zero => exact absurd hfuel (Nat.not_lt_zero _)
    | succ f =>
      have hends : Ends (gap ++ ']' :: rest) := .of_gap hg (.of_head (by decide))
      have hskip : skip (gap ++ ']' :: rest) = ']' :: rest :=
        skip_append hg (.of_head rfl)
      exact readItems_last (hx x List.mem_cons_self depth f _ (by omega) hends) hskip
  | cons y ys ih =>
    intro x fuel hxs hx hfuel
    obtain ⟨sep, hsep, hblank⟩ := separator_eq hl depth
    rw [itemChars, hsep] at hfuel ⊢
    simp only [List.cons_append, List.length_cons, List.length_append, List.append_assoc]
      at hfuel ⊢
    cases fuel with
    | zero => exact absurd hfuel (Nat.not_lt_zero _)
    | succ f =>
      have hy : Lossless y := hxs y (List.mem_cons_of_mem _ List.mem_cons_self)
      rw [readItems_more (hx x List.mem_cons_self depth f _ (by omega) (.of_head (by decide)))
        (skip_of_solid (.of_head rfl)), skip_append hblank (solid_chars l depth hy _),
        ih y f (fun z hz => hxs z (List.mem_cons_of_mem _ hz))
          (fun z hz => hx z (List.mem_cons_of_mem _ hz)) (by omega)]
      rfl

theorem readsBack_array {l : Layout} (hl : l.Blank) {xs : List Json}
    (hxs : ∀ x ∈ xs, Lossless x) (h : ∀ x ∈ xs, ReadsBack l x) : ReadsBack l (.array xs) := by
  intro depth fuel rest hfuel _
  cases xs with
  | nil =>
    rw [chars] at hfuel ⊢
    cases fuel with
    | zero => exact absurd hfuel (Nat.not_succ_le_zero _)
    | succ f => exact readValue.eq_4 f _
  | cons x xs =>
    rw [chars] at hfuel ⊢
    simp only [List.cons_append, List.length_cons, List.length_append, List.append_assoc,
      List.nil_append] at hfuel ⊢
    cases fuel with
    | zero => exact absurd hfuel (Nat.not_succ_le_zero _)
    | succ f =>
      have hx : Lossless x := hxs x List.mem_cons_self
      -- The first item does not start like the end of the array, so the array is not empty.
      obtain ⟨c, cs, hcs, hc, hbracket, -⟩ := chars_eq_cons l (depth + 1) hx
      have hskip := skip_append (fun _ => isSpace_of_mem_lineBreak hl (depth + 1))
        (solid_chars l (depth + 1) hx
          (itemChars l (depth + 1) xs ++ (l.lineBreak depth ++ ']' :: rest)))
      have hitems := readItems_itemChars hl (fun _ => isSpace_of_mem_lineBreak hl depth)
        (depth + 1) rest xs x f hxs h (by omega)
      rw [hcs, List.cons_append] at hskip hitems
      rw [hcs, List.cons_append, readValue_array hskip hbracket, hitems]
      rfl

/-! ### Objects -/

theorem readValue_object {cs ds : List Char} {c : Char} (hs : skip cs = c :: ds)
    (hc : c ≠ '\x7d') (fuel : Nat) :
    readValue (fuel + 1) ('\x7b' :: cs) =
      (readFields fuel [] (c :: ds)).map fun (fs, rest) => (.object fs, rest) := by
  rw [readValue, hs]
  split
  · rename_i heq
    exact absurd (List.cons.inj heq).1 hc
  · rfl

theorem readFields_last {fuel : Nat} {fs : List (String × Json)} {k : String} {v : Json}
    {cs rest ds : List Char} (hv : readValue fuel cs = .ok (v, rest)) (hc : Solid cs)
    (hs : skip rest = '\x7d' :: ds) :
    readFields (fuel + 1) fs (textChars k ++ ':' :: ' ' :: cs) = .ok (Entries.put k v fs, ds) := by
  have hcolon : skip (':' :: ' ' :: cs) = ':' :: ' ' :: cs := skip_of_solid (.of_head rfl)
  have hblank : skip (' ' :: cs) = cs := skip_of_solid hc
  rw [textChars, List.cons_append, List.append_assoc, List.singleton_append]
  simp only [readFields, readText_flatMap, bind, Except.bind, hcolon, hblank, hv, hs]

theorem readFields_more {fuel : Nat} {fs : List (String × Json)} {k : String} {v : Json}
    {cs rest ds : List Char} (hv : readValue fuel cs = .ok (v, rest)) (hc : Solid cs)
    (hs : skip rest = ',' :: ds) :
    readFields (fuel + 1) fs (textChars k ++ ':' :: ' ' :: cs) =
      readFields fuel (Entries.put k v fs) (skip ds) := by
  have hcolon : skip (':' :: ' ' :: cs) = ':' :: ' ' :: cs := skip_of_solid (.of_head rfl)
  have hblank : skip (' ' :: cs) = cs := skip_of_solid hc
  rw [textChars, List.cons_append, List.append_assoc, List.singleton_append]
  simp only [readFields, readText_flatMap, bind, Except.bind, hcolon, hblank, hv, hs]

theorem solid_textChars (s : String) (rest : List Char) : Solid (textChars s ++ rest) :=
  .of_head rfl

/-- The fields of an object are read up to its brace, behind those read before. -/
theorem readFields_fieldChars {l : Layout} (hl : l.Blank) {gap : List Char}
    (hg : ∀ c ∈ gap, isSpace c = true) (depth : Nat) (rest : List Char)
    (fs : List (String × Json)) :
    ∀ (k : String) (v : Json) (earlier : List (String × Json)) (fuel : Nat),
      ((earlier ++ (k, v) :: fs).map Prod.fst).Nodup →
      (∀ f ∈ (k, v) :: fs, Lossless f.2) → (∀ f ∈ (k, v) :: fs, ReadsBack l f.2) →
      (chars l depth v).length + (fieldChars l depth fs).length < fuel →
      readFields fuel earlier (textChars k ++ ':' :: ' ' :: (chars l depth v ++
        (fieldChars l depth fs ++ (gap ++ '\x7d' :: rest)))) =
        .ok (earlier ++ (k, v) :: fs, rest) := by
  -- As with items; the names read so far are distinct from the next, so its field goes to the end.
  induction fs with
  | nil =>
    intro k v earlier fuel hn hls h hfuel
    rw [fieldChars, List.nil_append]
    cases fuel with
    | zero => exact absurd hfuel (Nat.not_lt_zero _)
    | succ f =>
      have hnew := Entries.notMem_of_nodup hn
      have hlen : (chars l depth v).length ≤ f := by omega
      have hends : Ends (gap ++ '\x7d' :: rest) := .of_gap hg (.of_head (by decide))
      have hskip : skip (gap ++ '\x7d' :: rest) = '\x7d' :: rest :=
        skip_append hg (.of_head rfl)
      rw [readFields_last (h (k, v) List.mem_cons_self depth f _ hlen hends)
        (solid_chars l depth (hls (k, v) List.mem_cons_self) _) hskip,
        Entries.put_of_notMem hnew]
  | cons f fs ih =>
    obtain ⟨k', v'⟩ := f
    intro k v earlier fuel hn hls h hfuel
    obtain ⟨sep, hsep, hblank⟩ := separator_eq hl depth
    rw [fieldChars, hsep] at hfuel ⊢
    simp only [List.cons_append, List.length_cons, List.length_append, List.append_assoc]
      at hfuel ⊢
    cases fuel with
    | zero => exact absurd hfuel (Nat.not_lt_zero _)
    | succ f =>
      have hnew := Entries.notMem_of_nodup hn
      have hlen : (chars l depth v).length ≤ f := by omega
      rw [List.append_cons] at hn
      rw [readFields_more
        (h (k, v) List.mem_cons_self depth f _ hlen (.of_head (by decide)))
        (solid_chars l depth (hls (k, v) List.mem_cons_self) _)
        (skip_of_solid (.of_head rfl)), skip_append hblank (solid_textChars k' _),
        Entries.put_of_notMem hnew,
        ih k' v' (earlier ++ [(k, v)]) f hn (fun z hz => hls z (List.mem_cons_of_mem _ hz))
          (fun z hz => h z (List.mem_cons_of_mem _ hz)) (by omega), ← List.append_cons]

theorem readsBack_object {l : Layout} (hl : l.Blank) {fs : List (String × Json)}
    (hn : (fs.map Prod.fst).Nodup) (hfs : ∀ f ∈ fs, Lossless f.2)
    (h : ∀ f ∈ fs, ReadsBack l f.2) : ReadsBack l (.object fs) := by
  intro depth fuel rest hfuel _
  cases fs with
  | nil =>
    rw [chars] at hfuel ⊢
    cases fuel with
    | zero => exact absurd hfuel (Nat.not_succ_le_zero _)
    | succ f => exact readValue.eq_3 f _
  | cons field fs =>
    obtain ⟨k, v⟩ := field
    rw [chars] at hfuel ⊢
    simp only [List.cons_append, List.length_cons, List.length_append, List.append_assoc,
      List.nil_append] at hfuel ⊢
    cases fuel with
    | zero => exact absurd hfuel (Nat.not_succ_le_zero _)
    | succ f =>
      have hskip := skip_append (fun _ => isSpace_of_mem_lineBreak hl (depth + 1))
        (solid_textChars k (':' :: ' ' :: (chars l (depth + 1) v ++
          (fieldChars l (depth + 1) fs ++ (l.lineBreak depth ++ '\x7d' :: rest)))))
      have hfields := readFields_fieldChars hl
        (fun _ => isSpace_of_mem_lineBreak hl depth) (depth + 1) rest fs k v [] f hn
        hfs h (by omega)
      rw [textChars, List.cons_append] at hskip hfields
      rw [textChars, List.cons_append, readValue_object hskip (by decide), hfields]
      rfl

/-! ## Documents -/

theorem Lossless.readsBack {l : Layout} (hl : l.Blank) {j : Json} (hj : Lossless j) :
    ReadsBack l j := by
  induction hj with
  | null => exact readsBack_null l
  | bool b => exact readsBack_bool l b
  | integer hn => exact readsBack_integer l hn
  | text s => exact readsBack_text l s
  | array hxs ih => exact readsBack_array hl hxs ih
  | object hn hfs ih => exact readsBack_object hl hn hfs ih

/-- A written value is read back, in every layout that puts only blanks between its parts. -/
theorem parse_chars {l : Layout} (hl : l.Blank) {j : Json} (hj : Lossless j) :
    parse (chars l 0 j) = .ok j := by
  have hread := hj.readsBack hl 0 (2 * (chars l 0 j).length + 2) [] (by omega) .nil
  have hskip := skip_of_solid (solid_chars l 0 hj [])
  obtain ⟨c, cs, hcs, -, -, hmark⟩ := chars_eq_cons l 0 hj
  rw [List.append_nil] at hread hskip
  have hhead : ((chars l 0 j).head? == some '\ufeff') = false := by
    rw [hcs, List.head?_cons]
    exact beq_eq_false_iff_ne.mpr fun h => hmark (Option.some.inj h)
  have hnil : skip [] = [] := rfl
  simp only [parse, hhead, Bool.false_eq_true, if_false, hskip, hread, bind, Except.bind, hnil,
    Except.mapError]

end CloudSecrets.Json
