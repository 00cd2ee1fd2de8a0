import CloudSecrets.Proofs.Json.RoundTrip
import CloudSecrets.Proofs.Text.Plain

/-!
# Values that are read, and their text

What the reader gives is read back from its own text, unless it has decimals: its integers are short
and the names of its objects are distinct (`lossless_of_parse`). That text is printable ASCII, but
for the line breaks of its layout (`admits_chars`).
-/

namespace CloudSecrets.Json

open Text

/-! ## Reading -/

/-- Values without decimals, however deep. -/
inductive WithoutDecimals : Json → Prop where
  | null : WithoutDecimals .null
  | bool (b : Bool) : WithoutDecimals (.bool b)
  | integer (n : Int) : WithoutDecimals (.integer n)
  | text (s : String) : WithoutDecimals (.text s)
  | array {xs : List Json} (h : ∀ x ∈ xs, WithoutDecimals x) : WithoutDecimals (.array xs)
  | object {fs : List (String × Json)} (h : ∀ f ∈ fs, WithoutDecimals f.2) :
      WithoutDecimals (.object fs)

theorem Lossless.withoutDecimals {j : Json} (h : Lossless j) : WithoutDecimals j := by
  induction h with
  | null => exact .null
  | bool b => exact .bool b
  | integer _ => exact .integer _
  | text s => exact .text s
  | array _ ih => exact .array ih
  | object _ _ ih => exact .object ih

/-- The digits are the characters from 48 to 57. -/
theorem toNat_of_isAsciiDigit {c : Char} (h : isAsciiDigit c = true) :
    48 ≤ c.toNat ∧ c.toNat ≤ 57 := by
  rw [isAsciiDigit, Bool.and_eq_true, decide_eq_true_iff, decide_eq_true_iff] at h
  exact h

/-- Digits write a number below the power of ten that has one more. -/
theorem digitsValue_lt {cs : List Char} (h : ∀ c ∈ cs, isAsciiDigit c = true) :
    digitsValue cs < tenTo cs.length := by
  -- One digit more takes the value to ten times and a digit.
  have hstep : ∀ (ds : List Char) (n : Nat), (∀ c ∈ ds, isAsciiDigit c = true) →
      ds.foldl (fun n c => 10 * n + (c.toNat - 48)) n < (n + 1) * tenTo ds.length := by
    intro ds
    induction ds with
    | nil =>
      intro n _
      rw [List.foldl_nil, List.length_nil, tenTo_zero]
      omega
    | cons d ds ih =>
      intro n hds
      have hd : d.toNat - 48 ≤ 9 := by
        have hdigit := toNat_of_isAsciiDigit (hds d List.mem_cons_self)
        omega
      have hrest := ih (10 * n + (d.toNat - 48)) fun c hc => hds c (List.mem_cons_of_mem _ hc)
      rw [List.foldl_cons, List.length_cons, tenTo_succ]
      refine hrest.trans_le ?_
      calc (10 * n + (d.toNat - 48) + 1) * tenTo ds.length
          ≤ (10 * (n + 1)) * tenTo ds.length := Nat.mul_le_mul_right _ (by omega)
        _ = (n + 1) * (tenTo ds.length * 10) := by
          rw [Nat.mul_comm 10, Nat.mul_assoc, Nat.mul_comm 10]
  simpa [digitsValue] using hstep cs 0 h

theorem isAsciiDigit_of_mem_wholeDigits {cs : List Char} :
    ∀ c ∈ wholeDigits cs, isAsciiDigit c = true := by
  rw [wholeDigits.eq_def]
  split
  · intro c hc
    rw [List.mem_singleton.mp hc]
    rfl
  · exact fun c hc => List.mem_takeWhile_imp hc

/-- An integer is short if its digits are few, whatever its sign. -/
theorem short_of_digits {negative : Prop} [Decidable negative] {cs : List Char}
    (h : ¬Numeral.mostDigits < (wholeDigits cs).length) :
    Short (if negative then -(digitsValue (wholeDigits cs) : Int)
      else digitsValue (wholeDigits cs)) := by
  have hlt : digitsValue (wholeDigits cs) < tenTo Numeral.mostDigits :=
    (digitsValue_lt isAsciiDigit_of_mem_wholeDigits).trans_le (tenTo_le (Nat.not_lt.mp h))
  split
  · rw [Short, Int.natAbs_neg, Int.natAbs_natCast]
    exact hlt
  · rw [Short, Int.natAbs_natCast]
    exact hlt

/-- A number that is read is a short integer or a decimal. -/
theorem readNumber_eq_ok {cs rest : List Char} {j : Json} (h : readNumber cs = .ok (j, rest)) :
    (∃ n, j = .integer n ∧ Short n) ∨ ∃ x, j = .decimal x := by
  unfold readNumber at h
  simp only at h
  -- The sign makes two cases, each with a whole number, a fraction or an exponent.
  split at h
  all_goals
    simp only at h
    split at h
    · cases h
    · split at h
      · split at h
        · cases h
        · rename_i hlen
          cases h
          exact .inl ⟨_, rfl, short_of_digits hlen⟩
      · cases h
        exact .inr ⟨_, rfl⟩
      · cases h
        exact .inr ⟨_, rfl⟩

/-! ### Values -/

/-- Reading and changing the result succeeds if reading does. -/
theorem map_eq_ok {α β ε : Type} {r : Except ε α} {g : α → β} {y : β} (h : r.map g = .ok y) :
    ∃ x, r = .ok x ∧ g x = y := by
  cases r with
  | error e => cases h
  | ok x => exact ⟨x, rfl, Except.ok.inj h⟩

/-- Fields that are read: their names are distinct, and their values are lossless unless they have
decimals. -/
structure Legible (fs : List (String × Json)) : Prop where
  distinct : (fs.map Prod.fst).Nodup
  lossless : ∀ f ∈ fs, WithoutDecimals f.2 → Lossless f.2

theorem Legible.nil : Legible [] := ⟨List.nodup_nil, fun _ hf => absurd hf List.not_mem_nil⟩

theorem Legible.put {fs : List (String × Json)} (h : Legible fs) (name : String) {v : Json}
    (hv : WithoutDecimals v → Lossless v) : Legible (Entries.put name v fs) := by
  refine ⟨Entries.nodup_put h.distinct name v, fun f hf => ?_⟩
  rcases Entries.mem_of_mem_put hf with rfl | hf
  · exact hv
  · exact h.lossless f hf

/-- A value is lossless unless it has decimals, if that holds of the items and fields it is made of.
-/
theorem lossless_of_readValue {fuel : Nat} {cs rest : List Char} {j : Json}
    (hitems : ∀ ds xs rest, readItems fuel ds = .ok (xs, rest) →
      ∀ x ∈ xs, WithoutDecimals x → Lossless x)
    (hfields : ∀ ds fs rest, readFields fuel [] ds = .ok (fs, rest) → Legible fs)
    (h : readValue (fuel + 1) cs = .ok (j, rest)) (hd : WithoutDecimals j) : Lossless j := by
  rw [readValue.eq_def] at h
  simp only at h
  -- One case for each way a value can start: quote, brace, bracket, six words, and all else.
  split at h
  · obtain ⟨⟨s, ds⟩, -, hj⟩ := map_eq_ok h
    cases hj
    exact .text s
  · split at h
    · cases h
      exact .object List.nodup_nil fun _ hf => absurd hf List.not_mem_nil
    · obtain ⟨⟨fs, ds⟩, hr, hj⟩ := map_eq_ok h
      cases hj
      cases hd with
      | object hd =>
        have hfs := hfields _ fs ds hr
        exact .object hfs.distinct fun f hf => hfs.lossless f hf (hd f hf)
  · split at h
    · cases h
      exact .array fun _ hx => absurd hx List.not_mem_nil
    · obtain ⟨⟨xs, ds⟩, hr, hj⟩ := map_eq_ok h
      cases hj
      cases hd with
      | array hd => exact .array fun x hx => hitems _ xs ds hr x hx (hd x hx)
  · cases h
    exact .null
  · cases h
    exact .bool true
  · cases h
    exact .bool false
  · cases h
    cases hd
  · cases h
    cases hd
  · cases h
    cases hd
  · rcases readNumber_eq_ok h with ⟨n, rfl, hn⟩ | ⟨x, rfl⟩
    · exact .integer hn
    · cases hd

/-- Items that are read are values that are read. -/
theorem lossless_of_readItems {fuel : Nat} {cs rest : List Char} {xs : List Json}
    (hvalue : ∀ ds x rest, readValue fuel ds = .ok (x, rest) → WithoutDecimals x → Lossless x)
    (hitems : ∀ ds xs rest, readItems fuel ds = .ok (xs, rest) →
      ∀ x ∈ xs, WithoutDecimals x → Lossless x)
    (h : readItems (fuel + 1) cs = .ok (xs, rest)) : ∀ x ∈ xs, WithoutDecimals x → Lossless x := by
  rw [readItems] at h
  cases hv : readValue fuel cs with
  | error n =>
    rw [hv] at h
    cases h
  | ok r =>
    obtain ⟨v, ds⟩ := r
    rw [hv] at h
    simp only [bind, Except.bind] at h
    split at h
    · cases h
      intro x hx
      rw [List.mem_singleton.mp hx]
      exact hvalue cs v ds hv
    · obtain ⟨⟨more, es⟩, hr, hj⟩ := map_eq_ok h
      cases hj
      intro x hx
      rcases List.mem_cons.mp hx with rfl | hx
      · exact hvalue cs x ds hv
      · exact hitems _ more es hr x hx
    · cases h

/-- Fields that are read are put onto those that were read before. -/
theorem legible_of_readFields {fuel : Nat} {fs gs : List (String × Json)} {cs rest : List Char}
    (hvalue : ∀ ds x rest, readValue fuel ds = .ok (x, rest) → WithoutDecimals x → Lossless x)
    (hfields : ∀ fs ds gs rest, Legible fs → readFields fuel fs ds = .ok (gs, rest) → Legible gs)
    (hfs : Legible fs) (h : readFields (fuel + 1) fs cs = .ok (gs, rest)) : Legible gs := by
  rw [readFields.eq_def] at h
  simp only at h
  split at h
  · rename_i cs
    cases hn : readText cs with
    | error n =>
      rw [hn] at h
      cases h
    | ok r =>
      obtain ⟨name, ds⟩ := r
      rw [hn] at h
      simp only [bind, Except.bind] at h
      split at h
      · rename_i ds _
        cases hv : readValue fuel (skip ds) with
        | error n =>
          rw [hv] at h
          cases h
        | ok r =>
          obtain ⟨v, es⟩ := r
          rw [hv] at h
          have hput := hfs.put name (hvalue _ v es hv)
          simp only at h
          split at h
          · cases h
            exact hput
          · exact hfields _ _ gs rest hput h
          · cases h
      · cases h
  · cases h

/-- Whatever is read is lossless unless it has decimals. -/
theorem lossless_of_read (fuel : Nat) :
    (∀ cs j rest, readValue fuel cs = .ok (j, rest) → WithoutDecimals j → Lossless j) ∧
      (∀ cs xs rest, readItems fuel cs = .ok (xs, rest) →
        ∀ x ∈ xs, WithoutDecimals x → Lossless x) ∧
      ∀ fs cs gs rest, Legible fs → readFields fuel fs cs = .ok (gs, rest) → Legible gs := by
  induction fuel with
  | zero =>
    refine ⟨fun cs j rest h => ?_, fun cs xs rest h => ?_, fun fs cs gs rest _ h => ?_⟩
    · rw [readValue] at h
      cases h
    · rw [readItems] at h
      cases h
    · rw [readFields] at h
      cases h
  | succ fuel ih =>
    obtain ⟨hvalue, hitems, hfields⟩ := ih
    refine ⟨fun cs j rest h => ?_, fun cs xs rest h => ?_, fun fs cs gs rest hfs h => ?_⟩
    · exact lossless_of_readValue hitems (fun ds fs rest => hfields [] ds fs rest .nil) h
    · exact lossless_of_readItems hvalue hitems h
    · exact legible_of_readFields hvalue hfields hfs h

/-- A document without decimals is lossless. -/
theorem lossless_of_parse {cs : List Char} {j : Json} (h : parse cs = .ok j)
    (hd : WithoutDecimals j) : Lossless j := by
  simp only [parse, bind, Except.bind] at h
  split at h
  · cases h
  · cases hv : readValue (2 * cs.length + 2) (skip cs) with
    | error n =>
      rw [hv] at h
      cases h
    | ok r =>
      obtain ⟨v, ds⟩ := r
      rw [hv] at h
      simp only at h
      split at h
      · cases h
        exact (lossless_of_read _).1 _ _ _ hv hd
      · cases h

/-! ## Writing -/

theorem ascii_digitChar : ∀ d < 16, AsciiChar (Nat.digitChar d) := by decide

theorem ascii_escapeUnit {n : Nat} (h : n < 65536) : Ascii (escapeUnit n) := by
  have hd (d : Nat) (hd : d < 16) := ascii_digitChar d hd
  rw [escapeUnit, hex_four h]
  simp only [Ascii, List.forall_mem_cons]
  exact ⟨by decide, by decide, hd _ (by omega), hd _ (by omega), hd _ (by omega), hd _ (by omega),
    List.forall_mem_nil _⟩

theorem ascii_letterEscapes : ∀ e ∈ letterEscapes, Ascii ['\\', e.2] := by decide

theorem ascii_escapeChar (c : Char) : Ascii (escapeChar c) := by
  by_cases h : ∃ e ∈ letterEscapes, c = e.1
  · obtain ⟨e, he, rfl⟩ := h
    rw [(escapeChar_of_mem e he).1]
    exact ascii_letterEscapes e he
  · have hbounds := toNat_bounds c
    rw [escapeChar_of_ne fun e he heq => h ⟨e, he, heq⟩]
    split
    · rename_i hplain
      rw [Bool.and_eq_true, decide_eq_true_iff, decide_eq_true_iff] at hplain
      intro d hd
      exact List.mem_singleton.mp hd ▸ hplain
    split
    · exact ascii_escapeUnit (by omega)
    · exact List.forall_mem_append.mpr
        ⟨ascii_escapeUnit (by omega), ascii_escapeUnit (by omega)⟩

/-- Between its quotes a text is written in printable ASCII, whatever it holds. -/
theorem ascii_textChars (s : String) : Ascii (textChars s) := by
  have hbody : Ascii (s.toList.flatMap escapeChar) := by
    intro c hc
    obtain ⟨d, -, hd⟩ := List.mem_flatMap.mp hc
    exact ascii_escapeChar d c hd
  simp only [Ascii, textChars, List.forall_mem_cons, List.forall_mem_append]
  exact ⟨by decide, hbody, by decide, List.forall_mem_nil _⟩

theorem ascii_repr (n : Int) : Ascii (Int.repr n).toList := by
  have hdigits : Ascii (Nat.toDigits 10 n.natAbs) := by
    intro c hc
    obtain ⟨hlow, hhigh⟩ := toNat_of_isAsciiDigit (isAsciiDigit_of_mem hc)
    exact ⟨by omega, by omega⟩
  rcases toList_repr n with ⟨-, hcs⟩ | ⟨-, hcs⟩
  · rw [hcs]
    exact List.forall_mem_cons.mpr ⟨by decide, hdigits⟩
  · rw [hcs]
    exact hdigits

/-- Whether a character may stand in a value: it is printable ASCII, or belongs to a line break of
the layout. -/
def Layout.Admits (l : Layout) (c : Char) : Prop := AsciiChar c ∨ ∃ depth, c ∈ l.lineBreak depth

section Layout

variable {l : Layout}

theorem admits_of_ascii {cs : List Char} (h : Ascii cs) : ∀ c ∈ cs, l.Admits c :=
  fun c hc => .inl (h c hc)

theorem admits_lineBreak (depth : Nat) : ∀ c ∈ l.lineBreak depth, l.Admits c :=
  fun _ hc => .inr ⟨depth, hc⟩

theorem admits_textChars (s : String) : ∀ c ∈ textChars s, l.Admits c :=
  admits_of_ascii (ascii_textChars s)

theorem admits_separator (depth : Nat) : ∀ c ∈ l.separator depth, l.Admits c := by
  cases l with
  | inline => exact admits_of_ascii (show Ascii [',', ' '] by decide)
  | indented unit => exact List.forall_mem_cons.mpr ⟨.inl (by decide), admits_lineBreak depth⟩

theorem admits_itemChars (depth : Nat) {xs : List Json}
    (h : ∀ x ∈ xs, ∀ c ∈ chars l depth x, l.Admits c) :
    ∀ c ∈ itemChars l depth xs, l.Admits c := by
  induction xs with
  | nil =>
    rw [itemChars]
    exact List.forall_mem_nil _
  | cons x xs ih =>
    obtain ⟨hx, hxs⟩ := List.forall_mem_cons.mp h
    rw [itemChars]
    simp only [List.forall_mem_append]
    exact ⟨admits_separator depth, hx, ih hxs⟩

theorem admits_fieldChars (depth : Nat) {fs : List (String × Json)}
    (h : ∀ f ∈ fs, ∀ c ∈ chars l depth f.2, l.Admits c) :
    ∀ c ∈ fieldChars l depth fs, l.Admits c := by
  induction fs with
  | nil =>
    rw [fieldChars]
    exact List.forall_mem_nil _
  | cons f fs ih =>
    obtain ⟨hf, hfs⟩ := List.forall_mem_cons.mp h
    rw [fieldChars]
    simp only [List.forall_mem_append, List.forall_mem_cons]
    exact ⟨admits_separator depth, admits_textChars f.1, .inl (by decide), .inl (by decide), hf,
      ih hfs⟩

/-- A lossless value is written in printable ASCII, but for the line breaks of the layout. -/
theorem admits_chars {j : Json} (hj : Lossless j) (depth : Nat) :
    ∀ c ∈ chars l depth j, l.Admits c := by
  induction hj generalizing depth with
  | null =>
    rw [chars]
    exact admits_of_ascii (by decide)
  | bool b =>
    rw [chars]
    cases b <;> exact admits_of_ascii (by decide)
  | integer hn =>
    rw [chars]
    exact admits_of_ascii (ascii_repr _)
  | text s =>
    rw [chars]
    exact admits_textChars s
  | @array xs hxs ih =>
    cases xs with
    | nil =>
      rw [chars]
      exact admits_of_ascii (by decide)
    | cons x xs =>
      obtain ⟨hx, hitems⟩ := List.forall_mem_cons.mp fun y hy => ih y hy (depth + 1)
      rw [chars]
      simp only [List.forall_mem_append, List.forall_mem_cons]
      exact ⟨.inl (by decide), admits_lineBreak _, hx, admits_itemChars _ hitems,
        admits_lineBreak depth, .inl (by decide), List.forall_mem_nil _⟩
  | @object fs hn hfs ih =>
    cases fs with
    | nil =>
      rw [chars]
      exact admits_of_ascii (by decide)
    | cons f fs =>
      obtain ⟨hf, hfields⟩ := List.forall_mem_cons.mp fun g hg => ih g hg (depth + 1)
      rw [chars]
      simp only [List.forall_mem_append, List.forall_mem_cons]
      exact ⟨.inl (by decide), admits_lineBreak _, admits_textChars f.1, .inl (by decide),
        .inl (by decide), hf, admits_fieldChars _ hfields, admits_lineBreak depth,
        .inl (by decide), List.forall_mem_nil _⟩

/-- A lossless value is written as plain text if its layout breaks lines so. -/
theorem plain_chars (hl : ∀ depth, Plain (l.lineBreak depth)) {j : Json} (hj : Lossless j)
    (depth : Nat) : Plain (chars l depth j) := by
  intro c hc
  rcases admits_chars hj depth c hc with h | ⟨d, h⟩
  · exact .inr h
  · exact hl d c h

end Layout

end CloudSecrets.Json
