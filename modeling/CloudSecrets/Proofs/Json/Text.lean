import CloudSecrets.Json.Parser
import CloudSecrets.Json.Printer

/-!
# Reading written texts

A text that is written between quotes is read back as it was. Every character is written as its
sixteen-bit units, in a form that the reader turns into the same units (`readUnits_escapeChar`), and
the units of a text join to the text again (`joinUnits_flatMap_units`).
-/

namespace CloudSecrets.Json

open Text

/-! ## Hexadecimal digits -/

theorem hexValue?_digitChar : ∀ d < 16, hexValue? (Nat.digitChar d) = some d := by decide

/-- One more digit of width is one more digit. -/
theorem hex_succ {width : Nat} (hw : 0 < width) (n : Nat) :
    hex (width + 1) n = hex width (n / 16) ++ [Nat.digitChar (n % 16)] := by
  obtain ⟨w, rfl⟩ : ∃ w, width = w + 1 := ⟨width - 1, by omega⟩
  by_cases h : n < 16
  · -- Below the base the one digit is the last, and all before it are padding.
    rw [hex, hex, Nat.toDigits_of_lt_base h, Nat.div_eq_of_lt h, Nat.mod_eq_of_lt h,
      Nat.toDigits_zero]
    simp only [List.length_singleton, Nat.add_sub_cancel]
    rw [← List.replicate_succ']
  · have hn : 16 ≤ n := Nat.le_of_not_lt h
    rw [hex, hex, Nat.toDigits_of_base_le (by decide) hn]
    simp only [List.length_append, List.length_singleton, Nat.add_sub_add_right]
    rw [List.append_assoc]

/-- The four digits of a sixteen-bit unit. -/
theorem hex_four {n : Nat} (h : n < 65536) :
    hex 4 n = [Nat.digitChar (n / 4096), Nat.digitChar (n / 256 % 16), Nat.digitChar (n / 16 % 16),
      Nat.digitChar (n % 16)] := by
  have h₁ : hex 1 (n / 16 / 16 / 16) = [Nat.digitChar (n / 16 / 16 / 16)] := by
    rw [hex, Nat.toDigits_of_lt_base (by omega)]
    rfl
  have h₂ : n / 16 / 16 = n / 256 := Nat.div_div_eq_div_mul n 16 16
  have h₃ : n / 256 / 16 = n / 4096 := Nat.div_div_eq_div_mul n 256 16
  rw [hex_succ (by decide), hex_succ (by decide), hex_succ (by decide), h₁, h₂, h₃]
  rfl

/-- They are read as the unit. -/
theorem fourHex?_digitChar {n : Nat} (h : n < 65536) :
    fourHex? (Nat.digitChar (n / 4096)) (Nat.digitChar (n / 256 % 16))
      (Nat.digitChar (n / 16 % 16)) (Nat.digitChar (n % 16)) = some n := by
  rw [fourHex?, hexValue?_digitChar _ (by omega), hexValue?_digitChar _ (by omega),
    hexValue?_digitChar _ (by omega), hexValue?_digitChar _ (by omega)]
  refine congrArg some ?_
  omega

/-! ## Units -/

/-- The sixteen-bit units of a character. -/
def units (c : Char) : List Nat :=
  if c.toNat ≤ 0xFFFF then [c.toNat]
  else [0xD800 + (c.toNat - 0x10000) / 0x400, 0xDC00 + (c.toNat - 0x10000) % 0x400]

/-- Characters are no surrogates, and there are no others behind the last. -/
theorem toNat_bounds (c : Char) : c.toNat < 0xD800 ∨ 0xDFFF < c.toNat ∧ c.toNat < 0x110000 :=
  c.valid

theorem joinUnits_units (c : Char) (ns : List Nat) :
    joinUnits (units c ++ ns) = c :: joinUnits ns := by
  have hc := toNat_bounds c
  rw [units]
  split
  · -- A single unit is no surrogate, so it joins with nothing behind it.
    have hh : isHighSurrogate c.toNat = false := by
      rw [isHighSurrogate, Bool.and_eq_false_iff, decide_eq_false_iff_not, decide_eq_false_iff_not]
      omega
    have hl : isLowSurrogate c.toNat = false := by
      rw [isLowSurrogate, Bool.and_eq_false_iff, decide_eq_false_iff_not, decide_eq_false_iff_not]
      omega
    have hu : unitChar c.toNat = c := by
      rw [unitChar, hh, hl]
      exact Char.ofNat_toNat c
    cases ns with
    | nil => exact congrArg (· :: []) hu
    | cons n ns =>
      rw [List.singleton_append, joinUnits, hh, hu]
      rfl
  · have hh : isHighSurrogate (0xD800 + (c.toNat - 0x10000) / 0x400) = true := by
      rw [isHighSurrogate, Bool.and_eq_true, decide_eq_true_iff, decide_eq_true_iff]
      omega
    have hl : isLowSurrogate (0xDC00 + (c.toNat - 0x10000) % 0x400) = true := by
      rw [isLowSurrogate, Bool.and_eq_true, decide_eq_true_iff, decide_eq_true_iff]
      omega
    have hn : 0x10000 + (0xD800 + (c.toNat - 0x10000) / 0x400 - 0xD800) * 0x400
        + (0xDC00 + (c.toNat - 0x10000) % 0x400 - 0xDC00) = c.toNat := by
      omega
    rw [List.cons_append, List.singleton_append, joinUnits, hh, hl, hn, Char.ofNat_toNat]
    rfl

theorem joinUnits_flatMap_units (cs : List Char) : joinUnits (cs.flatMap units) = cs := by
  induction cs with
  | nil => rfl
  | cons c cs ih => rw [List.flatMap_cons, joinUnits_units, ih]

/-! ## Escapes -/

theorem readUnits_escapeUnit {n : Nat} (h : n < 65536) (r : Nat) (c : Char) (cs : List Char) :
    readUnits r (escapeUnit n ++ c :: cs) =
      (readUnits r (c :: cs)).map fun (ns, rest) => (n :: ns, rest) := by
  rw [escapeUnit, hex_four h]
  exact readUnits.eq_3 r _ _ _ _ n c cs (fourHex?_digitChar h)

theorem readUnits_letter {letter c : Char} (hl : letter ≠ 'u') (hc : escaped? letter = some c)
    (hu : c.toNat ≤ 0xFFFF) (r : Nat) (cs : List Char) :
    readUnits r ('\\' :: letter :: cs) =
      (readUnits r cs).map fun (ns, rest) => (units c ++ ns, rest) := by
  rw [readUnits.eq_6 r letter cs fun _ _ _ _ _ h => absurd h hl, if_neg (mt eq_of_beq hl), hc,
    units, if_pos hu]
  rfl

theorem readUnits_plain {c : Char} (hq : c ≠ '"') (hb : c ≠ '\\') (hc : 0x20 ≤ c.toNat)
    (hu : c.toNat ≤ 0xFFFF) (r : Nat) (cs : List Char) :
    readUnits r (c :: cs) = (readUnits r cs).map fun (ns, rest) => (units c ++ ns, rest) := by
  rw [readUnits.eq_7 r c cs hq (fun _ _ _ _ _ h => absurd h hb) (fun h => absurd h hb)
    (fun _ _ h => absurd h hb), if_neg (Nat.not_lt.mpr hc), units, if_pos hu]
  rfl

/-- The characters that are escaped by a letter, with their letters. -/
def letterEscapes : List (Char × Char) :=
  [('"', '"'), ('\\', '\\'), ('\n', 'n'), ('\r', 'r'), ('\t', 't'), ('\x08', 'b'), ('\x0c', 'f')]

theorem escapeChar_of_mem : ∀ e ∈ letterEscapes, escapeChar e.1 = ['\\', e.2] ∧ e.2 ≠ 'u' ∧
    escaped? e.2 = some e.1 ∧ e.1.toNat ≤ 0xFFFF := by
  decide

theorem escapeChar_of_ne {c : Char} (h : ∀ e ∈ letterEscapes, c ≠ e.1) :
    escapeChar c = if 0x20 ≤ c.toNat && c.toNat < 0x7F then [c]
      else if c.toNat ≤ 0xFFFF then escapeUnit c.toNat
      else escapeUnit (0xD800 + (c.toNat - 0x10000) / 0x400) ++
        escapeUnit (0xDC00 + (c.toNat - 0x10000) % 0x400) := by
  have hne {d letter : Char} (hd : (d, letter) ∈ letterEscapes) : (c == d) = false :=
    beq_eq_false_iff_ne.mpr (h _ hd)
  rw [escapeChar, hne (show ('"', '"') ∈ letterEscapes by decide),
    hne (show ('\\', '\\') ∈ letterEscapes by decide),
    hne (show ('\n', 'n') ∈ letterEscapes by decide),
    hne (show ('\r', 'r') ∈ letterEscapes by decide),
    hne (show ('\t', 't') ∈ letterEscapes by decide),
    hne (show ('\x08', 'b') ∈ letterEscapes by decide),
    hne (show ('\x0c', 'f') ∈ letterEscapes by decide)]
  rfl

/-- A written character is read as its units, if anything follows. -/
theorem readUnits_escapeChar (c : Char) (r : Nat) (d : Char) (cs : List Char) :
    readUnits r (escapeChar c ++ d :: cs) =
      (readUnits r (d :: cs)).map fun (ns, rest) => (units c ++ ns, rest) := by
  by_cases h : ∃ e ∈ letterEscapes, c = e.1
  · obtain ⟨e, he, rfl⟩ := h
    obtain ⟨heq, hl, hc, hu⟩ := escapeChar_of_mem e he
    rw [heq]
    exact readUnits_letter hl hc hu r _
  · have hne : ∀ e ∈ letterEscapes, c ≠ e.1 := fun e he heq => h ⟨e, he, heq⟩
    have hbounds := toNat_bounds c
    rw [escapeChar_of_ne hne]
    split
    · rename_i hplain
      rw [Bool.and_eq_true, decide_eq_true_iff, decide_eq_true_iff] at hplain
      exact readUnits_plain (hne _ (show ('"', '"') ∈ letterEscapes by decide))
        (hne _ (show ('\\', '\\') ∈ letterEscapes by decide)) hplain.1 (by omega) r _
    split
    · rename_i hunit
      rw [readUnits_escapeUnit (by omega), units, if_pos hunit]
      rfl
    · rename_i hpair
      -- The first escape of the pair is read like any other, as the second one follows it.
      obtain ⟨e, es, he⟩ : ∃ e es, escapeUnit (0xDC00 + (c.toNat - 0x10000) % 0x400) = e :: es :=
        ⟨_, _, rfl⟩
      rw [List.append_assoc, units, if_neg hpair, he, List.cons_append,
        readUnits_escapeUnit (by omega), ← List.cons_append, ← he, readUnits_escapeUnit (by omega)]
      cases readUnits r (d :: cs) <;> rfl

/-- So is a written text up to the closing quote. -/
theorem readUnits_flatMap (r : Nat) (rest cs : List Char) :
    readUnits r (cs.flatMap escapeChar ++ '"' :: rest) = .ok (cs.flatMap units, rest) := by
  induction cs with
  | nil => rfl
  | cons c cs ih =>
    obtain ⟨d, ds, hd⟩ : ∃ d ds, cs.flatMap escapeChar ++ '"' :: rest = d :: ds :=
      List.exists_cons_of_ne_nil (List.append_ne_nil_of_right_ne_nil _ (List.cons_ne_nil _ _))
    rw [List.flatMap_cons, List.append_assoc, hd, readUnits_escapeChar, ← hd, ih,
      List.flatMap_cons]
    rfl

/-- A text is read back from between its quotes. -/
theorem readText_flatMap (s : String) (rest : List Char) :
    readText (s.toList.flatMap escapeChar ++ '"' :: rest) = .ok (s, rest) := by
  rw [readText, readUnits_flatMap]
  change Except.ok (String.ofList (joinUnits (s.toList.flatMap units)), rest) = _
  rw [joinUnits_flatMap_units, String.ofList_toList]

end CloudSecrets.Json
