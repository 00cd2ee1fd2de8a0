import CloudSecrets.Proofs.CommandLine.Misuse
import CloudSecrets.Proofs.Entries
import CloudSecrets.Proofs.Label
import Mathlib.Data.List.DropRight

/-!
# What a list of entries collects

Entries that are labels collect into a map: each key stands where it is first given, with the value
that is given last. Keys are compared without the blanks around them, so entries that are written
differently can name the same key; values are taken as they are. Entries are read one by one, so the
labels of two lists are those of the first, updated with those of the second
(`parse_collects_or_refuses`).
-/

namespace CloudSecrets

namespace Text

/-- Nothing of the class is left in front. -/
theorem head?_trimEnds {p : Char → Bool} (cs : List Char) {c : Char}
    (h : (trimEnds p cs).head? = some c) : p c = false := by
  have hprefix : trimEnds p cs <+: cs.dropWhile p := List.rdropWhile_prefix p (cs.dropWhile p)
  obtain ⟨rest, hrest⟩ := hprefix
  refine head?_dropWhile_eq_false cs (c := c) ?_
  rw [← hrest, List.head?_append, h]
  rfl

/-- A text without blanks around it stays as it is. -/
theorem strip_strip (s : String) : strip (strip s) = strip s := by
  rw [strip, strip, String.toList_ofList, trimEnds_eq_self]
  · exact fun c hc => head?_trimEnds s.toList hc
  · exact fun c hc => getLast?_trimEnds s.toList hc

/-- The first separator ends the longest beginning without any. -/
theorem cutFirst_of_mem {sep : Char} {cs : List Char} (h : sep ∈ cs) :
    cutFirst sep cs = some (cs.takeWhile (· != sep), (cs.dropWhile (· != sep)).tail) := by
  obtain ⟨before, after, rfl, hno⟩ := List.eq_append_cons_of_mem h
  have hbefore : ∀ c ∈ before, (c != sep) = true := by
    intro c hmem
    exact bne_iff_ne.mpr fun hc => hno (hc ▸ hmem)
  rw [cutFirst_eq_some_iff.mpr ⟨rfl, hno⟩, List.takeWhile_append_of_pos hbefore,
    List.takeWhile_cons_of_neg (by simp), List.append_nil, List.dropWhile_append_of_pos hbefore,
    List.dropWhile_cons_of_neg (by simp), List.tail_cons]

end Text

namespace Labels

/-! ## One entry -/

/-- The key of an entry: what stands before the first equals sign, without the blanks around it. -/
def keyOf (s : String) : String := Text.strip (String.ofList (s.toList.takeWhile (· != '=')))

/-- The value of an entry: all that stands behind the first equals sign. -/
def valueOf (s : String) : String := String.ofList (s.toList.dropWhile (· != '=')).tail

/-- An entry with an equals sign and a key is a label. -/
theorem label?_eq (s : String) :
    label? s = if '=' ∈ s.toList ∧ keyOf s ≠ "" then some (keyOf s, valueOf s) else none := by
  have hempty : (Text.trimEnds Text.isBlank (s.toList.takeWhile (· != '='))).isEmpty = true ↔
      keyOf s = "" := by
    rw [keyOf, Text.strip, String.toList_ofList, List.isEmpty_iff, ← String.toList_eq_nil_iff,
      String.toList_ofList]
  rw [label?]
  by_cases hsign : '=' ∈ s.toList
  · rw [Text.cutFirst_of_mem hsign]
    by_cases hk : keyOf s = ""
    · rw [if_neg fun h => h.2 hk]
      exact if_pos (hempty.mpr hk)
    · rw [if_pos ⟨hsign, hk⟩, keyOf, valueOf, Text.strip, String.toList_ofList]
      exact if_neg (mt hempty.mp hk)
  · rw [Text.cutFirst_eq_none_iff.mpr hsign, if_neg fun h => hsign h.1]

/-- An entry is a label if it has an equals sign, and not only blanks in front of the first. -/
theorem not_malformed_iff {s : String} : ¬Malformed s ↔ '=' ∈ s.toList ∧ keyOf s ≠ "" := by
  rw [← label?_eq_none_iff, label?_eq]
  by_cases h : '=' ∈ s.toList ∧ keyOf s ≠ ""
  · rw [if_pos h]
    exact iff_of_true nofun h
  · rw [if_neg h]
    exact iff_of_false (not_not.mpr rfl) h

theorem add_of_not_malformed {s : String} (h : ¬Malformed s) (labels : Labels) :
    add labels (.text s) = .ok (Entries.put (keyOf s) (valueOf s) labels) := by
  rw [add, label?_eq, if_pos (not_malformed_iff.mp h)]

/-! ## Many entries -/

/-- The key and the value of each entry. -/
def keyed (entries : List String) : Labels := entries.map fun s => (keyOf s, valueOf s)

theorem map_fst_keyed (entries : List String) :
    (keyed entries).map Prod.fst = entries.map keyOf := by
  rw [keyed, List.map_map]
  rfl

theorem keyed_append (entries more : List String) :
    keyed (entries ++ more) = keyed entries ++ keyed more := List.map_append

theorem keyed_cons (s : String) (entries : List String) :
    keyed (s :: entries) = (keyOf s, valueOf s) :: keyed entries := rfl

theorem foldlM_add_of_not_malformed {entries : List String} (h : ∀ s ∈ entries, ¬Malformed s)
    (labels : Labels) : (entries.map Supplied.text).foldlM add labels =
      .ok (Entries.putAll labels (keyed entries)) := by
  induction entries generalizing labels with
  | nil => rfl
  | cons s entries ih =>
    obtain ⟨hs, hentries⟩ := List.forall_mem_cons.mp h
    rw [List.map_cons, List.foldlM_cons, add_of_not_malformed hs]
    exact ih hentries _

/-- Entries are read if none is malformed, and give the map that they build. -/
theorem parse_eq_ok_iff {entries : List String} {labels : Labels} :
    parse (entries.map .text) = .ok labels ↔
      (∀ s ∈ entries, ¬Malformed s) ∧ labels = Entries.ofList (keyed entries) := by
  by_cases h : ∀ s ∈ entries, ¬Malformed s
  · rw [parse, foldlM_add_of_not_malformed h [], and_iff_right h]
    exact ⟨fun he => (Except.ok.inj he).symm, fun he => congrArg Except.ok he.symm⟩
  · have hbad : ∃ s ∈ entries, Malformed s := by simpa using h
    obtain ⟨_, bad, _, _, _, _, hparse⟩ := parse_of_malformed hbad
    rw [hparse]
    exact iff_of_false nofun fun hok => h hok.1

/-- What some entries collect: a map with each of their keys once, in the order in which they are
first given, none of which is empty or has blanks around it, and for each key the value of the last
entry that has it. -/
structure Collected (entries : List String) (labels : Labels) : Prop where
  keys : labels.map Prod.fst = (entries.map keyOf).eraseDups
  distinct : (labels.map Prod.fst).Nodup
  neat : ∀ key ∈ labels.map Prod.fst, key ≠ "" ∧ Text.strip key = key
  value : ∀ key value, Entries.get? key labels = some value ↔
    ∃ before s after, entries = before ++ s :: after ∧ keyOf s = key ∧ valueOf s = value ∧
      ∀ later ∈ after, keyOf later ≠ key

/-- The value of a key is that of the last entry that has it. -/
theorem get?_ofList_keyed {entries : List String} {key value : String} :
    Entries.get? key (Entries.ofList (keyed entries)) = some value ↔
      ∃ before s after, entries = before ++ s :: after ∧ keyOf s = key ∧ valueOf s = value ∧
        ∀ later ∈ after, keyOf later ≠ key := by
  have hkeys (after : List String) :
      key ∉ (keyed after).map Prod.fst ↔ ∀ later ∈ after, keyOf later ≠ key := by
    rw [map_fst_keyed, List.mem_map, not_exists]
    exact forall_congr' fun later => not_and
  rw [Entries.get?_ofList_eq_some_iff]
  constructor
  · rintro ⟨_, _, hsplit, hafter⟩
    obtain ⟨before, tail, rfl, -, htail⟩ := List.map_eq_append_iff.mp hsplit
    obtain ⟨s, after, rfl, hs, rfl⟩ := List.map_eq_cons_iff.mp htail
    obtain ⟨hkey, hvalue⟩ := Prod.mk.inj hs
    exact ⟨before, s, after, rfl, hkey, hvalue, (hkeys after).mp hafter⟩
  · rintro ⟨before, s, after, rfl, rfl, rfl, hafter⟩
    refine ⟨keyed before, keyed after, ?_, (hkeys after).mpr hafter⟩
    rw [keyed_append, keyed_cons]

theorem collected_ofList {entries : List String} (h : ∀ s ∈ entries, ¬Malformed s) :
    Collected entries (Entries.ofList (keyed entries)) where
  keys := by rw [Entries.keys_ofList, map_fst_keyed]
  distinct := Entries.nodup_ofList _
  neat := by
    intro key hkey
    rw [Entries.keys_ofList, map_fst_keyed, List.mem_eraseDups] at hkey
    obtain ⟨s, hs, rfl⟩ := List.mem_map.mp hkey
    exact ⟨(not_malformed_iff.mp (h s hs)).2, Text.strip_strip _⟩
  value _ _ := get?_ofList_keyed

/-- Reading labels agrees with what their entries say. Entries are read exactly if none is
malformed, and then they give what they collect. Otherwise the first malformed one is refused, and a
creation with them exits with 2 and names it, before anything else is done. The labels of two lists
are those of the first, updated with those of the second, and labels that can be written are read
back from their entries. -/
theorem parse_collects_or_refuses (entries : List String) :
    ((∃ labels, parse (entries.map .text) = .ok labels) ↔ ∀ s ∈ entries, ¬Malformed s) ∧
    (∀ labels, parse (entries.map .text) = .ok labels → Collected entries labels) ∧
    ((∃ s ∈ entries, Malformed s) → ∃ good bad rest, entries = good ++ bad :: rest ∧
      (∀ s ∈ good, ¬Malformed s) ∧ Malformed bad ∧
      parse (entries.map .text) = .error (.malformed bad) ∧
      ∀ context name username password description (w : World),
        (CommandLine.create context name username password description
          (entries.map .text)).run.run w = (.ok 2, { w with
            notes := w.notes ++ [.printed ("Error: Invalid label '" ++ bad ++
              "'\n\nLabels must be given as KEY=VALUE, e.g. -l env=prod\n")] })) ∧
    (∀ more labels labels', parse (entries.map .text) = .ok labels →
      parse (more.map .text) = .ok labels' →
      parse ((entries ++ more).map .text) = .ok (Entries.putAll labels labels')) ∧
    ∀ labels : Labels, (∀ l ∈ labels, Writable l.1) → (labels.map Prod.fst).Nodup →
      parse (labels.map fun l => .text (entry l)) = .ok labels := by
  refine ⟨?_, ?_, ?_, ?_, fun labels => parse_entries⟩
  · constructor
    · rintro ⟨labels, hparse⟩
      exact (parse_eq_ok_iff.mp hparse).1
    · exact fun h => ⟨_, parse_eq_ok_iff.mpr ⟨h, rfl⟩⟩
  · intro labels hparse
    obtain ⟨h, rfl⟩ := parse_eq_ok_iff.mp hparse
    exact collected_ofList h
  · intro h
    obtain ⟨good, bad, rest, hsplit, hgood, hbad, hparse⟩ := parse_of_malformed h
    exact ⟨good, bad, rest, hsplit, hgood, hbad, hparse,
      CommandLine.run_create_of_malformed hparse⟩
  · intro more labels labels' hparse hparse'
    obtain ⟨h, rfl⟩ := parse_eq_ok_iff.mp hparse
    obtain ⟨h', rfl⟩ := parse_eq_ok_iff.mp hparse'
    refine parse_eq_ok_iff.mpr ⟨List.forall_mem_append.mpr ⟨h, h'⟩, ?_⟩
    rw [keyed_append, Entries.ofList_append]

/-- Spellings of one key collide, with the last value at the first place, also across two lists; a
value keeps its blanks and equals signs. A list in which blanks stand for a key is refused. -/
theorem parse_of_respelled_keys :
    let entries := ["a =1", "b==", "\u00a0a= 2"]
    let more := ["b=", "c=x=y"]
    let refused := ["a=1", " =x", "b"]
    Collected entries [("a", " 2"), ("b", "=")] ∧
      parse ((entries ++ more).map .text) = .ok [("a", " 2"), ("b", ""), ("c", "x=y")] ∧
      (∃ good rest, refused = good ++ " =x" :: rest ∧
        parse (refused.map .text) = .error (.malformed " =x")) ∧
      parse ([("k", "v"), ("l", "")].map fun l => .text (entry l)) =
        .ok [("k", "v"), ("l", "")] := by
  intro entries more refused
  obtain ⟨-, hcollected, -, happend, hback⟩ := parse_collects_or_refuses entries
  obtain ⟨-, -, hrefused, -, -⟩ := parse_collects_or_refuses refused
  have hentries : parse (entries.map .text) = .ok [("a", " 2"), ("b", "=")] := by decide +kernel
  have hmore : parse (more.map .text) = .ok [("b", ""), ("c", "x=y")] := by decide +kernel
  have hfirst : parse (refused.map .text) = .error (.malformed " =x") := by decide +kernel
  refine ⟨hcollected _ hentries, happend more _ _ hentries hmore, ?_, ?_⟩
  · obtain ⟨good, bad, rest, hsplit, -, -, hparse, -⟩ :=
      hrefused ⟨" =x", by decide, by decide +kernel⟩
    obtain rfl : bad = " =x" := Fault.malformed.inj (Except.error.inj (hparse.symm.trans hfirst))
    exact ⟨good, rest, hsplit, hparse⟩
  · refine hback [("k", "v"), ("l", "")] ?_ (by decide)
    simp only [List.forall_mem_cons]
    exact ⟨⟨by decide, by decide, by decide +kernel⟩, ⟨by decide, by decide, by decide +kernel⟩,
      nofun⟩

end Labels

end CloudSecrets
