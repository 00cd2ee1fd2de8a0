import CloudSecrets.Config.Load
import CloudSecrets.Proofs.Action

/-!
# Texts of values

Only an empty text is shown as nothing, so a value that is given is shown as something. The text of
every other kind of value has a mark, a digit or a word of its own.
-/

namespace CloudSecrets

/-- A text with a part that is not empty is not empty. -/
theorem append_ne_empty {s t : String} (h : s ≠ "" ∨ t ≠ "") : s ++ t ≠ "" := by
  rw [Ne, String.append_eq_empty_iff]
  rintro ⟨hs, ht⟩
  rcases h with h | h
  · exact h hs
  · exact h ht

theorem int_repr_ne_empty (n : Int) : Int.repr n ≠ "" := by
  cases n with
  | ofNat m => exact Nat.repr_ne_empty
  | negSucc m => exact append_ne_empty (.inl (by decide))

theorem NumberStyle.decimalText_ne_empty (style : NumberStyle) (d : Decimal) :
    style.decimalText d ≠ "" := by
  simp only [decimalText]
  split
  · split
    · exact append_ne_empty (.inl (by decide))
    · exact append_ne_empty (.inl (append_ne_empty (.inr (by decide))))
  · exact append_ne_empty (.inl (append_ne_empty (.inr (by decide))))

theorem messageNumbers_text_ne_empty (x : Binary64) : messageNumbers.text x ≠ "" := by
  cases x with
  | finite negative m e =>
    refine append_ne_empty (.inr ?_)
    split
    · decide
    · exact NumberStyle.decimalText_ne_empty _ _
  | infinite negative => exact append_ne_empty (.inr (by decide))
  | nan => decide

namespace Calendar

theorem Date.text_ne_empty (d : Date) : d.text ≠ "" :=
  append_ne_empty (.inl (append_ne_empty (.inr (by decide))))

theorem Date.listing_ne_empty (d : Date) : d.listing ≠ "" :=
  append_ne_empty (.inr (by decide))

theorem Moment.text_ne_empty (m : Moment) : m.text ≠ "" := by
  refine append_ne_empty (.inl (append_ne_empty (.inl ?_)))
  exact append_ne_empty (.inl (append_ne_empty (.inr (by decide))))

theorem Moment.listing_ne_empty (m : Moment) : m.listing ≠ "" :=
  append_ne_empty (.inr (by decide))

end Calendar

theorem Text.quoted_ne_empty (s : String) : Text.quoted s ≠ "" := by
  simp [Text.quoted]

theorem Text.quotedBytes_ne_empty (bs : List UInt8) : Text.quotedBytes bs ≠ "" := by
  simp [Text.quotedBytes]

namespace Yaml.Value

open CloudSecrets.Action (bind_eq_ok)

/-- The listing of a value is not empty. -/
theorem ne_empty_of_listing {v : Value} {s : String} (h : v.listing = .ok s) : s ≠ "" := by
  unfold listing at h
  split at h
  case h_3 n =>
    rw [Numeral.writtenInt] at h
    split at h
    · cases h
    · cases h
      exact int_repr_ne_empty n
  case h_9 | h_12 | h_13 =>
    obtain ⟨parts, -, h⟩ := bind_eq_ok.mp h
    cases h
    exact append_ne_empty (.inr (by decide))
  case h_10 =>
    obtain ⟨a, -, h⟩ := bind_eq_ok.mp h
    obtain ⟨b, -, h⟩ := bind_eq_ok.mp h
    cases h
    exact append_ne_empty (.inr (by decide))
  all_goals rw [← Except.ok.inj h]
  case h_1 | h_11 => decide
  case h_2 => split <;> decide
  case h_14 => split <;> decide
  case h_4 => exact messageNumbers_text_ne_empty _
  case h_5 => exact Text.quoted_ne_empty _
  case h_6 => exact Text.quotedBytes_ne_empty _
  case h_7 => exact Calendar.Date.listing_ne_empty _
  case h_8 => exact Calendar.Moment.listing_ne_empty _

/-- A value that is given is shown as a text that is not empty. -/
theorem ne_empty_of_shown {v : Value} {s : String} (hg : v.isGiven = true)
    (h : v.shown = .ok s) : s ≠ "" := by
  unfold shown at h
  split at h
  · rw [← Except.ok.inj h]
    simpa [isGiven] using hg
  · rw [← Except.ok.inj h]
    exact Calendar.Date.text_ne_empty _
  · rw [← Except.ok.inj h]
    exact Calendar.Moment.text_ne_empty _
  · exact ne_empty_of_listing h

end Yaml.Value

/-- The same of a value that messages embed. -/
theorem Config.ne_empty_of_shown {v : Yaml.Value} {s : String} (hg : v.isGiven = true)
    (h : Config.shown v = .ok s) : s ≠ "" := by
  rw [shown] at h
  cases hv : v.shown with
  | error f =>
    rw [hv] at h
    cases h
  | ok t =>
    rw [hv] at h
    cases h
    exact Yaml.Value.ne_empty_of_shown hg hv

end CloudSecrets
