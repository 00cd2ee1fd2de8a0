import CloudSecrets.Proofs.Table.Lossless
import CloudSecrets.Proofs.Table.Spread
import Mathlib.Data.List.Forall2

/-!
# The rows of a table

The table of a list of secrets has a heading and one row for each secret, in order. Each of them
ends with a line feed, and a line feed in a cell is written as it is. So a table is read line by
line as its heading and one row for each secret exactly when no resource name, name or description
holds a line feed (`table_reads_by_lines_iff`).
-/

namespace CloudSecrets

namespace Text

/-- A text has one piece more than it has separators. -/
theorem length_splitAtEach (sep : Char) (cs : List Char) :
    (splitAtEach sep cs).length = cs.count sep + 1 := by
  induction cs with
  | nil => rfl
  | cons c cs ih =>
    by_cases hc : c = sep
    · rw [hc, splitAtEach_cons_self, List.length_cons, ih, List.count_cons_self]
    · have hne : splitAtEach sep cs ≠ [] := splitAtEach_ne_nil cs
      obtain ⟨piece, pieces, hsplit⟩ := List.exists_cons_of_ne_nil hne
      rw [hsplit] at ih
      rw [splitAtEach_cons_of_ne hc hsplit, List.count_cons_of_ne hc, ← ih]
      rfl

end Text

namespace Table

variable {rows : List (List String)} {lines : List String}

/-- The characters of all cells of some rows, row after row. -/
def contents (rows : List (List String)) : List Char :=
  rows.flatMap fun cells => cells.flatMap String.toList

theorem contents_cons (cells : List String) (rows : List (List String)) :
    contents (cells :: rows) = cells.flatMap String.toList ++ contents rows := rfl

/-- Each line brings one line feed, and each line feed of a cell is kept. -/
theorem count_lineFeed (h : List.Forall₂ Spread rows lines) :
    (String.join (lines.map (· ++ "\n"))).toList.count '\n' =
      rows.length + (contents rows).count '\n' := by
  induction h with
  | nil => rfl
  | @cons cells line rows lines hline _ ih =>
    have hcells : line.toList.count '\n' = (cells.flatMap String.toList).count '\n' :=
      hline.count_eq (by decide)
    have hfeed : "\n".toList.count '\n' = 1 := by decide
    rw [List.map_cons, String.join_cons, String.toList_append, String.toList_append,
      List.count_append, List.count_append, hcells, hfeed, ih, contents_cons, List.count_append,
      List.length_cons]
    omega

/-- Rows without line feeds have lines without them. -/
theorem lineFeed_notMem (h : List.Forall₂ Spread rows lines) (hn : '\n' ∉ contents rows) :
    ∀ line ∈ lines, '\n' ∉ line.toList := by
  induction h with
  | nil => exact fun _ hline => absurd hline List.not_mem_nil
  | @cons cells line rows lines hline _ ih =>
    rw [contents_cons, List.mem_append, not_or] at hn
    refine List.forall_mem_cons.mpr ⟨?_, ih hn.2⟩
    rw [← List.count_eq_zero, hline.count_eq (by decide), List.count_eq_zero]
    exact hn.1

/-- Splitting at the line feeds gives the lines back only if no cell holds a line feed. -/
theorem splitAtEach_eq_iff (h : List.Forall₂ Spread rows lines) :
    Text.splitAtEach '\n' (String.join (lines.map (· ++ "\n"))).toList =
      lines.map String.toList ++ [[]] ↔ '\n' ∉ contents rows := by
  constructor
  · intro hsplit
    have hlen := congrArg List.length hsplit
    rw [Text.length_splitAtEach, count_lineFeed h, List.length_append, List.length_map,
      List.length_singleton, h.length_eq] at hlen
    exact List.count_eq_zero.mp (by omega)
  · exact fun hn => splitAtEach_lines (lineFeed_notMem h hn)

end Table

namespace Secret

/-- Whether no cell of the row of a secret holds a line feed. -/
def Unbroken (s : Secret) : Prop := ∀ cell ∈ s.row, '\n' ∉ cell.toList

theorem lineFeed_notMem_contents_iff (secrets : List Secret) :
    '\n' ∉ Table.contents (heading :: secrets.map row) ↔ ∀ s ∈ secrets, s.Unbroken := by
  have hheading : '\n' ∉ heading.flatMap String.toList := by decide
  rw [Table.contents_cons, List.mem_append, not_or, and_iff_right hheading, Table.contents,
    List.flatMap_map]
  simp only [List.mem_flatMap, not_exists, not_and, Unbroken]

/-- The table of a list of secrets has a heading and one row for each secret, in order. It has a
line feed for each of these and one for each that a cell holds; it has one more line feed than there
are secrets, and reads line by line as its heading and its rows, exactly if no cell holds any. -/
theorem table_reads_by_lines_iff (secrets : List Secret) :
    ∃ text lines, Secret.table secrets = .ok text ∧
      text = String.join (lines.map (· ++ "\n")) ∧
      List.Forall₂ Table.Spread (heading :: secrets.map row) lines ∧
      text.toList.count '\n' =
        secrets.length + 1 + (Table.contents (secrets.map row)).count '\n' ∧
      (text.toList.count '\n' = secrets.length + 1 ↔ ∀ s ∈ secrets, s.Unbroken) ∧
      (Text.splitAtEach '\n' text.toList = lines.map String.toList ++ [[]] ↔
        ∀ s ∈ secrets, s.Unbroken) := by
  obtain ⟨text, htext⟩ := table_eq_ok secrets
  obtain ⟨lines, rfl, hshows⟩ := Table.shows_of_format (table_eq secrets ▸ htext)
  have hfull : ∀ cells ∈ heading :: secrets.map row, cells.length = heading.length := by
    intro cells hc
    rcases List.mem_cons.mp hc with rfl | hc
    · rfl
    · obtain ⟨s, -, rfl⟩ := List.mem_map.mp hc
      rfl
  have hspread : List.Forall₂ Table.Spread (heading :: secrets.map row) lines :=
    ((List.forall₂_and_left _ _).mpr ⟨hfull, hshows⟩).imp fun _ _ h => h.2.once h.1
  have hcount := Table.count_lineFeed hspread
  have hheading : (heading.flatMap String.toList).count '\n' = 0 := by decide
  rw [Table.contents_cons, List.count_append, hheading, Nat.zero_add, List.length_cons,
    List.length_map] at hcount
  have hunbroken := lineFeed_notMem_contents_iff secrets
  refine ⟨_, lines, htext, rfl, hspread, hcount, ?_, ?_⟩
  · rw [hcount, ← hunbroken, Table.contents_cons, ← List.count_eq_zero, List.count_append, hheading]
    omega
  · exact (Table.splitAtEach_eq_iff hspread).trans hunbroken

/-- A line feed in a description breaks the row of its secret in two. -/
example : Secret.table [{ id := "p", name := "n", description := .text "a\nb" }] =
    .ok ("ID                  NAME                DESCRIPTION\n" ++
      "p                   n                   a\nb\n") := by decide +kernel

end Secret

end CloudSecrets
