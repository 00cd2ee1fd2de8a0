import CloudSecrets.Label
import Mathlib.Data.List.TakeWhile

/-!
# Reading labels

Labels whose keys can be written are read back from their entries, in order. Entries of which one is
no label are refused, and it is the first such entry that is named (`parse_of_malformed`).
-/

namespace CloudSecrets.Labels

/-- Whether a key can be written: it is not empty, holds no equals sign, and has no blanks around
it. -/
structure Writable (key : String) : Prop where
  ne_empty : key ≠ ""
  notMem : '=' ∉ key.toList
  strip_eq : Text.strip key = key

/-- The entry of a label. -/
def entry (l : String × String) : String := l.1 ++ "=" ++ l.2

theorem toList_entry (l : String × String) :
    (entry l).toList = l.1.toList ++ '=' :: l.2.toList := by
  rw [entry, String.toList_append, String.toList_append, List.append_assoc]
  rfl

theorem label?_entry {l : String × String} (h : Writable l.1) : label? (entry l) = some l := by
  have htrim : Text.trimEnds Text.isBlank l.1.toList = l.1.toList := by
    have hs := congrArg String.toList h.strip_eq
    rwa [Text.strip, String.toList_ofList] at hs
  have hne : l.1.toList.isEmpty = false := by
    rw [List.isEmpty_eq_false_iff, ne_eq, String.toList_eq_nil_iff]
    exact h.ne_empty
  rw [label?, toList_entry, Text.cutFirst_eq_some_iff.mpr ⟨rfl, h.notMem⟩]
  simp only [htrim, hne, Bool.false_eq_true, if_false, String.ofList_toList]

/-- The entry of a new key goes behind the labels that are there. -/
theorem add_entry {l : String × String} (h : Writable l.1) {labels : Labels}
    (hnew : l.1 ∉ labels.map Prod.fst) : add labels (.text (entry l)) = .ok (labels ++ [l]) := by
  simp only [add, label?_entry h, Entries.put_of_notMem hnew]

/-- Entries with new keys go behind the labels that are there. -/
theorem foldlM_add {ls : Labels} (h : ∀ l ∈ ls, Writable l.1) {before : Labels}
    (hn : ((before ++ ls).map Prod.fst).Nodup) :
    (ls.map fun l => .text (entry l)).foldlM add before = .ok (before ++ ls) := by
  induction ls generalizing before with
  | nil =>
    rw [List.append_nil]
    rfl
  | cons l ls ih =>
    have hadd := add_entry (h l List.mem_cons_self) (Entries.notMem_of_nodup hn)
    rw [List.append_cons] at hn ⊢
    rw [List.map_cons, List.foldlM_cons, hadd]
    exact ih (fun m hm => h m (List.mem_cons_of_mem _ hm)) hn

/-- Labels with distinct keys that can be written are read back from their entries. -/
theorem parse_entries {ls : Labels} (h : ∀ l ∈ ls, Writable l.1) (hn : (ls.map Prod.fst).Nodup) :
    parse (ls.map fun l => .text (entry l)) = .ok ls :=
  foldlM_add h hn

/-! ## Malformed entries -/

/-- Whether an entry is no label: it has no equals sign, or nothing but blanks in front of the
first. -/
def Malformed (s : String) : Prop :=
  ∀ key value, s.toList = key ++ '=' :: value → '=' ∉ key → ∀ c ∈ key, Text.isBlank c = true

theorem trimEnds_eq_nil_iff {p : Char → Bool} {cs : List Char} :
    Text.trimEnds p cs = [] ↔ ∀ c ∈ cs, p c = true := by
  rw [Text.trimEnds, List.reverse_eq_nil_iff, List.dropWhile_eq_nil_iff]
  constructor
  · intro h
    cases hd : cs.dropWhile p with
    | nil => exact List.dropWhile_eq_nil_iff.mp hd
    | cons c rest =>
      -- What is left begins with a character that is not dropped.
      have hmem : c ∈ (cs.dropWhile p).reverse := by
        rw [hd]
        exact List.mem_reverse.mpr List.mem_cons_self
      have hkept : p c = false := Text.head?_dropWhile_eq_false cs (by rw [hd]; rfl)
      exact absurd (h c hmem) (by rw [hkept]; exact Bool.false_ne_true)
  · intro h c hc
    rw [List.dropWhile_eq_nil_iff.mpr h] at hc
    exact absurd hc List.not_mem_nil

/-- Exactly the malformed entries give no label. -/
theorem label?_eq_none_iff {s : String} : label? s = none ↔ Malformed s := by
  rw [label?]
  cases hc : Text.cutFirst '=' s.toList with
  | none =>
    refine iff_of_true rfl fun key value hs _ => ?_
    have hmem : '=' ∈ s.toList := by
      rw [hs]
      exact List.mem_append_right _ List.mem_cons_self
    exact absurd hmem (Text.cutFirst_eq_none_iff.mp hc)
  | some cut =>
    obtain ⟨before, after⟩ := cut
    obtain ⟨hs, hno⟩ := Text.cutFirst_eq_some_iff.mp hc
    have hblank : (Text.trimEnds Text.isBlank before).isEmpty = true ↔ Malformed s := by
      rw [List.isEmpty_iff, trimEnds_eq_nil_iff]
      refine ⟨fun h key value hk hn => ?_, fun h => h before after hs hno⟩
      have hsame := hc.symm.trans (Text.cutFirst_eq_some_iff.mpr ⟨hk, hn⟩)
      cases hsame
      exact h
    rw [← hblank]
    simp only [ite_eq_left_iff, reduceCtorEq, imp_false, not_not]

instance (s : String) : Decidable (Malformed s) := decidable_of_iff _ label?_eq_none_iff

/-- Labels in front of the first malformed entry make no difference to what it is told about. -/
theorem foldlM_add_of_malformed {good rest : List String} {bad : String}
    (hgood : ∀ e ∈ good, ¬Malformed e) (hbad : Malformed bad) (labels : Labels) :
    ((good ++ bad :: rest).map Supplied.text).foldlM add labels = .error (.malformed bad) := by
  induction good generalizing labels with
  | nil =>
    have hadd : add labels (.text bad) = .error (.malformed bad) := by
      rw [add, label?_eq_none_iff.mpr hbad]
    rw [List.nil_append, List.map_cons, List.foldlM_cons, hadd]
    rfl
  | cons e good ih =>
    have hsome : label? e ≠ none := mt label?_eq_none_iff.mp (hgood e List.mem_cons_self)
    obtain ⟨l, hl⟩ := Option.ne_none_iff_exists'.mp hsome
    have hadd : add labels (.text e) = .ok (Entries.put l.1 l.2 labels) := by
      rw [add, hl]
    rw [List.cons_append, List.map_cons, List.foldlM_cons, hadd]
    exact ih (fun e he => hgood e (List.mem_cons_of_mem _ he)) _

/-- Entries of which one is malformed are refused for the first such entry. -/
theorem parse_of_malformed {entries : List String} (h : ∃ e ∈ entries, Malformed e) :
    ∃ good bad rest, entries = good ++ bad :: rest ∧ (∀ e ∈ good, ¬Malformed e) ∧ Malformed bad ∧
      parse (entries.map Supplied.text) = .error (.malformed bad) := by
  obtain ⟨bad, hfind⟩ : ∃ bad, entries.find? (fun e => decide (Malformed e)) = some bad := by
    obtain ⟨e, he, hm⟩ := h
    exact Option.isSome_iff_exists.mp (List.find?_isSome.mpr ⟨e, he, decide_eq_true hm⟩)
  obtain ⟨hbad, good, rest, rfl, hgood⟩ := List.find?_eq_some_iff_append.mp hfind
  have hgood' : ∀ e ∈ good, ¬Malformed e := fun e he => by simpa using hgood e he
  have hbad' : Malformed bad := of_decide_eq_true hbad
  exact ⟨good, bad, rest, rfl, hgood', hbad', foldlM_add_of_malformed hgood' hbad' []⟩

end CloudSecrets.Labels
