import CloudSecrets.Proofs.Yaml.Shown

/-!
# Values without a text

An integer of too many digits cannot be written, and no more can a value that holds one anywhere
inside. That is the only reason why a value has no text (`listing_eq_error_iff`,
`shown_eq_error_iff`).
-/

namespace CloudSecrets.Yaml.Value

variable {α β : Type} {P Q : Prop}

/-- Whether a value is, or holds somewhere inside, an integer that is too long to be written. -/
inductive Overlong : Value → Prop where
  | integer {n : Int} (h : tenTo Numeral.mostDigits ≤ n.natAbs) : Overlong (.integer n)
  | item {items : List Value} {v : Value} (hv : v ∈ items) (h : Overlong v) : Overlong (.list items)
  | first {a b : Value} (h : Overlong a) : Overlong (.pair a b)
  | second {a b : Value} (h : Overlong b) : Overlong (.pair a b)
  | member {items : List Value} {v : Value} (hv : v ∈ items) (h : Overlong v) : Overlong (.set items)
  | key {entries : List (Value × Value)} {e : Value × Value} (he : e ∈ entries)
      (h : Overlong e.1) : Overlong (.map entries)
  | value {entries : List (Value × Value)} {e : Value × Value} (he : e ∈ entries)
      (h : Overlong e.2) : Overlong (.map entries)

@[simp] theorem not_overlong_null : ¬Overlong .null := nofun

@[simp] theorem not_overlong_bool (b : Bool) : ¬Overlong (.bool b) := nofun

@[simp] theorem not_overlong_decimal (x : Binary64) : ¬Overlong (.decimal x) := nofun

@[simp] theorem not_overlong_text (s : String) : ¬Overlong (.text s) := nofun

@[simp] theorem not_overlong_octets (bs : Bytes) : ¬Overlong (.octets bs) := nofun

@[simp] theorem overlong_integer_iff {n : Int} :
    Overlong (.integer n) ↔ tenTo Numeral.mostDigits ≤ n.natAbs :=
  ⟨fun | .integer h => h, .integer⟩

@[simp] theorem overlong_list_iff {items : List Value} :
    Overlong (.list items) ↔ ∃ v ∈ items, Overlong v :=
  ⟨fun | .item hv h => ⟨_, hv, h⟩, fun ⟨_, hv, h⟩ => .item hv h⟩

@[simp] theorem overlong_pair_iff {a b : Value} :
    Overlong (.pair a b) ↔ Overlong a ∨ Overlong b :=
  ⟨fun | .first h => .inl h | .second h => .inr h, fun h => h.elim .first .second⟩

@[simp] theorem overlong_set_iff {items : List Value} :
    Overlong (.set items) ↔ ∃ v ∈ items, Overlong v :=
  ⟨fun | .member hv h => ⟨_, hv, h⟩, fun ⟨_, hv, h⟩ => .member hv h⟩

@[simp] theorem overlong_map_iff {entries : List (Value × Value)} :
    Overlong (.map entries) ↔ ∃ e ∈ entries, Overlong e.1 ∨ Overlong e.2 :=
  ⟨fun | .key he h => ⟨_, he, .inl h⟩ | .value he h => ⟨_, he, .inr h⟩,
    fun ⟨_, he, h⟩ => h.elim (.key he) (.value he)⟩

/-! ## Writing -/

/-- A text cannot be written exactly under a condition, and the reason is a long integer. -/
def UnwrittenIff (P : Prop) (r : Except Numeral.Fault α) : Prop :=
  ∀ f, r = .error f ↔ f = .tooLongToWrite ∧ P

namespace UnwrittenIff

theorem ok (x : α) : UnwrittenIff False (.ok x) := by
  simp [UnwrittenIff]

theorem bind {r : Except Numeral.Fault α} {g : α → Except Numeral.Fault β} (hr : UnwrittenIff P r)
    (hg : ∀ x, UnwrittenIff Q (g x)) : UnwrittenIff (P ∨ Q) (r >>= g) := by
  intro f
  cases r with
  | error e =>
    obtain ⟨rfl, hp⟩ := (hr e).mp rfl
    simp [Bind.bind, Except.bind, hp, eq_comm]
  | ok x =>
    have hp : ¬P := fun hp => nomatch (hr _).mpr ⟨rfl, hp⟩
    simpa [Bind.bind, Except.bind, hp] using hg x f

theorem congr {r : Except Numeral.Fault α} (hr : UnwrittenIff P r) (h : P ↔ Q) :
    UnwrittenIff Q r := by
  rwa [← propext h]

end UnwrittenIff

mutual

/-- A value cannot be listed if it has a long integer inside, and for no other reason. -/
theorem unwrittenIff_listing : (v : Value) → UnwrittenIff (Overlong v) v.listing
  | .null | .bool _ | .decimal _ | .text _ | .octets _ | .date _ | .moment _ | .enclosing _ =>
    (UnwrittenIff.ok _).congr ⟨nofun, nofun⟩
  | .integer n => by
    intro f
    rw [listing, Numeral.writtenInt, overlong_integer_iff]
    split <;> simp_all [eq_comm]
  | .list items => by
    have h := (unwrittenIff_listings items).bind fun parts =>
      UnwrittenIff.ok ("[" ++ String.intercalate ", " parts ++ "]")
    exact h.congr (by simp)
  | .pair a b => by
    have h := (unwrittenIff_listing a).bind fun s => (unwrittenIff_listing b).bind fun t =>
      UnwrittenIff.ok ("(" ++ s ++ ", " ++ t ++ ")")
    exact h.congr (by simp)
  | .set [] => (UnwrittenIff.ok _).congr (by simp)
  | .set (v :: vs) => by
    have h := (unwrittenIff_listings (v :: vs)).bind fun parts =>
      UnwrittenIff.ok ("\x7b" ++ String.intercalate ", " parts ++ "\x7d")
    exact h.congr (by simp)
  | .map es => by
    have h := (unwrittenIff_entryListings es).bind fun parts =>
      UnwrittenIff.ok ("\x7b" ++ String.intercalate ", " parts ++ "\x7d")
    exact h.congr (by simp)

theorem unwrittenIff_listings : (vs : List Value) →
    UnwrittenIff (∃ v ∈ vs, Overlong v) (listings vs)
  | [] => (UnwrittenIff.ok _).congr (by simp)
  | v :: vs => by
    have h := (unwrittenIff_listing v).bind fun part => (unwrittenIff_listings vs).bind fun parts =>
      UnwrittenIff.ok (part :: parts)
    exact h.congr (by simp)

theorem unwrittenIff_entryListings : (es : List (Value × Value)) →
    UnwrittenIff (∃ e ∈ es, Overlong e.1 ∨ Overlong e.2) (entryListings es)
  | [] => (UnwrittenIff.ok _).congr (by simp)
  | (k, v) :: es => by
    have h := (unwrittenIff_listing k).bind fun key => (unwrittenIff_listing v).bind fun value =>
      (unwrittenIff_entryListings es).bind fun parts =>
        UnwrittenIff.ok ((key ++ ": " ++ value) :: parts)
    exact h.congr (by simp [or_assoc])

end

theorem listing_eq_error_iff {v : Value} {f : Numeral.Fault} :
    v.listing = .error f ↔ f = .tooLongToWrite ∧ Overlong v := unwrittenIff_listing v f

/-- Texts, dates and moments are shown in their own way, which needs no integers of any length. -/
theorem shown_eq_error_iff {v : Value} {f : Numeral.Fault} :
    v.shown = .error f ↔ f = .tooLongToWrite ∧ Overlong v := by
  unfold shown
  split
  · exact iff_of_false nofun nofun
  · exact iff_of_false nofun nofun
  · exact iff_of_false nofun nofun
  · exact listing_eq_error_iff

end CloudSecrets.Yaml.Value
