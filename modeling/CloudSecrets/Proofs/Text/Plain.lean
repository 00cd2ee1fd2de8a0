import CloudSecrets.Text.Lines
import CloudSecrets.Text.Utf8

/-!
# Plain text

Plain text is printable ASCII (`Ascii`) with line feeds. It is stored and read back as it is: every
character takes one octet, and there are no other line ends to unify.
-/

namespace CloudSecrets

namespace Text

/-- Whether a character is printable ASCII. -/
def AsciiChar (c : Char) : Prop := 0x20 ≤ c.toNat ∧ c.toNat < 0x7F

instance (c : Char) : Decidable (AsciiChar c) := inferInstanceAs (Decidable (_ ∧ _))

/-- Whether a text is printable ASCII. -/
def Ascii (cs : List Char) : Prop := ∀ c ∈ cs, AsciiChar c

instance (cs : List Char) : Decidable (Ascii cs) := List.decidableBAll AsciiChar cs

/-- Whether a character is printable ASCII or a line feed. -/
def PlainChar (c : Char) : Prop := c = '\n' ∨ 0x20 ≤ c.toNat ∧ c.toNat < 0x7F

instance (c : Char) : Decidable (PlainChar c) := inferInstanceAs (Decidable (_ ∨ _))

/-- Whether a text is plain. -/
def Plain (cs : List Char) : Prop := ∀ c ∈ cs, PlainChar c

instance (cs : List Char) : Decidable (Plain cs) := List.decidableBAll PlainChar cs

theorem Plain.cons {c : Char} {cs : List Char} (hc : PlainChar c) (h : Plain cs) :
    Plain (c :: cs) := by
  intro d hd
  rcases List.mem_cons.mp hd with rfl | hd
  · exact hc
  · exact h d hd

/-- Plain text has only line feeds for line ends. -/
theorem unifyLineEnds_of_plain {cs : List Char} (h : Plain cs) : unifyLineEnds cs = cs := by
  induction cs with
  | nil => rfl
  | cons c cs ih =>
    have hc : c ≠ '\r' := by
      rintro rfl
      exact absurd (h _ List.mem_cons_self) (by decide)
    rw [unifyLineEnds.eq_4 c cs (fun _ hr _ => hc hr) hc,
      ih fun d hd => h d (List.mem_cons_of_mem _ hd)]

end Text

namespace Utf8

open Text

/-- A plain character is one octet. -/
theorem utf8EncodeChar_of_plain {c : Char} (h : PlainChar c) :
    String.utf8EncodeChar c = [UInt8.ofNat c.toNat] ∧ c.toNat < 0x80 := by
  have hlt : c.toNat < 0x80 := by
    rcases h with rfl | ⟨-, h⟩
    · decide
    · omega
  exact ⟨if_pos (Nat.le_of_lt_succ hlt), hlt⟩

theorem next_of_plain {c : Char} (h : PlainChar c) (rest : Bytes) :
    next (UInt8.ofNat c.toNat) rest = .ok (c, rest) := by
  obtain ⟨-, hlt⟩ := utf8EncodeChar_of_plain h
  have hnat : (UInt8.ofNat c.toNat).toNat = c.toNat := by
    rw [UInt8.toNat_ofNat']
    omega
  have hlead : lead? (UInt8.ofNat c.toNat) = some (0, 0x80, 0xBF) := by
    rw [lead?, if_pos]
    rw [UInt8.lt_iff_toNat_lt, hnat]
    exact hlt
  rw [next, hlead]
  simp only [continuations, leadBits, Except.map, hnat, Char.ofNat_toNat]

theorem decodeFrom_of_plain {cs : List Char} (h : Plain cs) (n position : Nat)
    (hn : cs.length ≤ n) : decodeFrom n position (encode cs) = .ok cs := by
  induction cs generalizing n position with
  | nil =>
    rw [encode, List.flatMap_nil, decodeFrom]
  | cons c cs ih =>
    have hc := h c List.mem_cons_self
    have hcs : Plain cs := fun d hd => h d (List.mem_cons_of_mem _ hd)
    cases n with
    | zero => exact absurd hn (Nat.not_succ_le_zero _)
    | succ n =>
      rw [encode, List.flatMap_cons, (utf8EncodeChar_of_plain hc).1, List.singleton_append,
        decodeFrom, next_of_plain hc]
      simp only
      rw [show List.flatMap String.utf8EncodeChar cs = encode cs from rfl,
        ih hcs n _ (Nat.le_of_succ_le_succ hn)]
      rfl

theorem length_encode_of_plain {cs : List Char} (h : Plain cs) :
    (encode cs).length = cs.length := by
  induction cs with
  | nil => rfl
  | cons c cs ih =>
    have hc := h c List.mem_cons_self
    rw [encode, List.flatMap_cons, (utf8EncodeChar_of_plain hc).1, List.singleton_append,
      List.length_cons, List.length_cons, ← ih fun d hd => h d (List.mem_cons_of_mem _ hd)]
    rfl

/-- Plain text is decoded as it was encoded. -/
theorem decode_encode_of_plain {cs : List Char} (h : Plain cs) : decode (encode cs) = .ok cs :=
  decodeFrom_of_plain h _ 0 (Nat.le_of_eq (length_encode_of_plain h).symm)

end Utf8

end CloudSecrets
