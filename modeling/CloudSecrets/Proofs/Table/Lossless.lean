import CloudSecrets.Proofs.Table
import CloudSecrets.Proofs.Table.Layout
import Mathlib.Data.List.DropRight

/-!
# Tables are lossless

A table can be read back. Its heading tells the widths, as long as each cell of it after the first
begins with another character than a space (`widths_eq_of_heading`), and each line is cut at the
widths (`cut_line?`). So a text is the table of at most one list of rows (`rows_eq_of_format`), and
the table of a list of secrets shows all that it is made of.
-/

namespace CloudSecrets

namespace Table

variable {least padding width : Int} {headers cells : List String}
  {rows rows' : List (List String)} {widths widths' : List Int} {cell text : String}

/-! ## Cells -/

/-- Whether a cell has no space at its end, where it could not be told from the filling. -/
def Trimmed (cell : String) : Prop := cell.toList.getLast? ≠ some ' '

instance : Decidable (Trimmed cell) := inferInstanceAs (Decidable (_ ≠ _))

/-- Whether a cell begins with something else than a space, which ends the filling before it. -/
def Marked (cell : String) : Prop := ∃ c, cell.toList.head? = some c ∧ c ≠ ' '

/-- A cell for which there is room is filled up to the width. -/
theorem length_pad (h : cell.length ≤ width) : (pad width cell).toList.length = width.toNat := by
  rw [toList_pad, List.length_append, List.length_replicate, String.length_toList]
  omega

/-- A cell without a space at its end is what is left of it without the filling. -/
theorem rdropWhile_pad (h : Trimmed cell) :
    (pad width cell).toList.rdropWhile (· == ' ') = cell.toList := by
  rw [toList_pad]
  generalize (width - cell.length).toNat = n
  induction n with
  | zero =>
    rw [List.replicate_zero, List.append_nil, List.rdropWhile_eq_self_iff]
    intro hne hlast
    exact h (by rw [List.getLast?_eq_some_getLast hne, eq_of_beq hlast])
  | succ n ih =>
    rw [List.replicate_succ', ← List.append_assoc, List.rdropWhile_concat_pos _ _ ' ' rfl, ih]

/-- Two fillings that end at a mark are equally long. -/
theorem replicate_append_inj {m n : Nat} {a b : String} (ha : Marked a) (hb : Marked b)
    (h : List.replicate m ' ' ++ a.toList = List.replicate n ' ' ++ b.toList) :
    m = n ∧ a = b := by
  obtain ⟨c, hc, hcs⟩ := ha
  obtain ⟨d, hd, hds⟩ := hb
  induction m generalizing n with
  | zero =>
    cases n with
    | zero => exact ⟨rfl, String.toList_inj.mp h⟩
    | succ n =>
      rw [List.replicate_zero, List.nil_append, List.replicate_succ, List.cons_append] at h
      rw [h] at hc
      exact absurd (Option.some.inj hc).symm hcs
  | succ m ih =>
    cases n with
    | zero =>
      rw [List.replicate_zero, List.nil_append, List.replicate_succ, List.cons_append] at h
      rw [← h] at hd
      exact absurd (Option.some.inj hd).symm hds
    | succ n =>
      obtain ⟨rfl, hab⟩ := ih (List.cons.inj h).2
      exact ⟨rfl, hab⟩

/-! ## Lines -/

/-- Beyond the first cell, a line that fits its widths fits the others. -/
theorem Fits.tail (h : Fits (width :: widths) (cell :: cells)) : Fits widths cells where
  length := Nat.succ.inj h.length
  room := fun hw hc => h.room (i := _ + 1) hw hc

theorem Fits.head (h : Fits (width :: widths) (cell :: cells)) : cell.length ≤ width :=
  h.room (i := 0) rfl rfl

theorem Fits.ne_nil (h : Fits widths cells) : cells ≠ [] :=
  List.ne_nil_of_length_pos (h.length ▸ Nat.succ_pos _)

/-- A line that fits has a text, which begins as its first cell does. -/
theorem marked_line? (h : Fits widths (cell :: cells)) (hm : Marked cell) :
    ∃ text, line? widths (cell :: cells) = some text ∧ Marked text := by
  cases widths with
  | nil =>
    obtain rfl := List.eq_nil_of_length_eq_zero (Nat.succ.inj h.length)
    exact ⟨cell, line?_nil, hm⟩
  | cons width widths =>
    have hne := h.tail.ne_nil
    obtain ⟨c, hc, hcs⟩ := hm
    rw [line?_cons width cell hne]
    cases ht : line? widths cells with
    | none =>
      rw [line?, Option.map_eq_none_iff, List.getLast?_eq_none_iff] at ht
      exact absurd ht hne
    | some text =>
      refine ⟨_, rfl, c, ?_, hcs⟩
      rw [String.toList_append, toList_pad, List.append_assoc, List.head?_append, hc]
      rfl

/-- The text of a heading tells the widths. -/
theorem widths_eq_of_heading (h : Fits widths cells) (h' : Fits widths' cells)
    (hm : ∀ cell ∈ cells.tail, Marked cell) (he : line? widths cells = line? widths' cells) :
    widths = widths' := by
  have hlen : widths.length = widths'.length := Nat.succ.inj (h.length.symm.trans h'.length)
  induction widths generalizing widths' cells with
  | nil => exact (List.eq_nil_of_length_eq_zero hlen.symm).symm
  | cons width widths ih =>
    obtain ⟨width', widths', rfl⟩ := List.exists_cons_of_length_eq_add_one hlen.symm
    obtain ⟨cell, cells, rfl⟩ := List.exists_cons_of_ne_nil h.ne_nil
    obtain ⟨next, cells, rfl⟩ := List.exists_cons_of_ne_nil h.tail.ne_nil
    obtain ⟨rest, hrest, hmark⟩ := marked_line? h.tail (hm next List.mem_cons_self)
    obtain ⟨rest', hrest', hmark'⟩ := marked_line? h'.tail (hm next List.mem_cons_self)
    rw [line?_cons _ _ h.tail.ne_nil, line?_cons _ _ h.tail.ne_nil, hrest, hrest'] at he
    have htext := congrArg String.toList (Option.some.inj he)
    simp only [String.toList_append, toList_pad, List.append_assoc, List.append_cancel_left_eq]
      at htext
    -- Both fillings end at the mark of the next cell, so they are equally long.
    obtain ⟨hfill, rfl⟩ := replicate_append_inj hmark hmark' htext
    have hwidth : width = width' := by
      have := h.head
      have := h'.head
      omega
    have hwidths := ih h.tail h'.tail (fun c hc => hm c (List.mem_cons_of_mem next hc))
      (hrest.trans hrest'.symm) (Nat.succ.inj hlen)
    rw [hwidth, hwidths]

/-- The cells of a line: as many characters as each width says without the spaces at their end, and
then what is left. -/
def cut : List Int → List Char → List String
  | [], cs => [String.ofList cs]
  | width :: widths, cs =>
    String.ofList ((cs.take width.toNat).rdropWhile (· == ' ')) ::
      cut widths (cs.drop width.toNat)

/-- Cutting the text of a line at the widths gives its cells back. -/
theorem cut_line? (h : Fits widths cells) (ht : ∀ cell ∈ cells.dropLast, Trimmed cell)
    (hl : line? widths cells = some text) : cut widths text.toList = cells := by
  induction widths generalizing cells text with
  | nil =>
    obtain ⟨cell, rfl⟩ := List.length_eq_one_iff.mp h.length
    rw [line?_nil, List.getLast?_singleton] at hl
    obtain rfl := Option.some.inj hl
    rw [cut, String.ofList_toList]
  | cons width widths ih =>
    obtain ⟨cell, cells, rfl⟩ := List.exists_cons_of_ne_nil h.ne_nil
    have hne := h.tail.ne_nil
    rw [line?_cons width cell hne, Option.map_eq_some_iff] at hl
    obtain ⟨rest, hrest, rfl⟩ := hl
    -- There is room for the cell, so the first cut falls right behind its filling.
    rw [List.dropLast_cons_of_ne_nil hne] at ht
    have hcell := ht cell List.mem_cons_self
    have hcells := ih h.tail (fun c hc => ht c (List.mem_cons_of_mem cell hc)) hrest
    have hlen := length_pad h.head
    rw [cut, String.toList_append, List.take_left' hlen, List.drop_left' hlen,
      rdropWhile_pad hcell, hcells, String.ofList_toList]

/-! ## Tables -/

/-- Whether a line of a table with so many columns can be read back. -/
structure Legible (columns : Nat) (cells : List String) : Prop where
  length : cells.length = columns
  lineFeed : ∀ cell ∈ cells, '\n' ∉ cell.toList
  trimmed : ∀ cell ∈ cells.dropLast, Trimmed cell

/-- Cutting the texts of the lines gives the lines back. -/
theorem cut_lines {columns : Nat} {lines : List (List String)} {texts : List String}
    (hf : ∀ cells ∈ lines, Fits widths cells) (hl : ∀ cells ∈ lines, Legible columns cells)
    (h : lines.map (line? widths) = texts.map some) :
    texts.map (fun line => cut widths line.toList) = lines := by
  induction lines generalizing texts with
  | nil => rw [List.map_eq_nil_iff.mp h.symm, List.map_nil]
  | cons cells lines ih =>
    obtain ⟨text, texts, rfl, htext, hrest⟩ := List.map_eq_cons_iff.mp h.symm
    have hcells := cut_line? (hf cells List.mem_cons_self) (hl cells List.mem_cons_self).trimmed
      htext.symm
    have hlines := ih (fun c hc => hf c (List.mem_cons_of_mem cells hc))
      (fun c hc => hl c (List.mem_cons_of_mem cells hc)) hrest.symm
    rw [List.map_cons, hcells, hlines]

/-- The lines of a table, each cut at the widths. -/
def readBack (widths : List Int) (text : String) : List (List String) :=
  (Text.splitAtEach '\n' text.toList).dropLast.map (cut widths)

/-- A table is read back with its widths, which its first line tells. -/
theorem readBack_of_format (hp : 0 ≤ padding) (hn : headers ≠ [])
    (hl : ∀ cells ∈ headers :: rows, Legible headers.length cells)
    (h : format headers rows least padding = .ok text) :
    ∃ widths, Fits widths headers ∧
      line? widths headers = (Text.splitAtEach '\n' text.toList).head?.map String.ofList ∧
        readBack widths text = headers :: rows := by
  obtain ⟨widths, texts, hw, ht, rfl⟩ := format_eq_ok_iff.mp h
  have hfits : ∀ cells ∈ headers :: rows, Fits widths cells := fun cells hc =>
    fits_of_widths? hw hp hc hn (hl cells hc).length
  have hfeed : ∀ line ∈ texts, '\n' ∉ line.toList := by
    intro line hline
    obtain ⟨cells, hc, hcells⟩ := List.mem_map.mp (ht ▸ List.mem_map_of_mem hline)
    exact lineFeed_notMem_line? (hl cells hc).lineFeed hcells
  have hcut := cut_lines hfits hl ht
  obtain ⟨head, tail, rfl, hhead, -⟩ := List.map_eq_cons_iff.mp ht.symm
  refine ⟨widths, hfits headers List.mem_cons_self, ?_, ?_⟩
  · rw [splitAtEach_lines hfeed, List.map_cons, List.cons_append, List.head?_cons,
      Option.map_some, String.ofList_toList, hhead]
  · rw [readBack, splitAtEach_lines hfeed, List.dropLast_concat, List.map_map]
    exact hcut

/-- A text is the table of one list of rows, if they can be read back and the heading tells the
widths. -/
theorem rows_eq_of_format (hp : 0 ≤ padding) (hn : headers ≠ [])
    (hm : ∀ cell ∈ headers.tail, Marked cell)
    (hl : ∀ cells ∈ headers :: rows, Legible headers.length cells)
    (hl' : ∀ cells ∈ headers :: rows', Legible headers.length cells)
    (h : format headers rows least padding = .ok text)
    (h' : format headers rows' least padding = .ok text) : rows = rows' := by
  obtain ⟨widths, hfits, hhead, hread⟩ := readBack_of_format hp hn hl h
  obtain ⟨widths', hfits', hhead', hread'⟩ := readBack_of_format hp hn hl' h'
  -- The rows of the two tables could differ in their widths, but the first line is the same.
  obtain rfl := widths_eq_of_heading hfits hfits' hm (hhead.trans hhead'.symm)
  exact (List.cons.inj (hread.symm.trans hread')).2

end Table

namespace Secret

open Table (Legible Marked Trimmed)

/-- Whether the row of a secret can be read back: its description is a text, no cell holds a line
feed, and neither its resource name nor its name has a space at its end. -/
structure Tabular (s : Secret) : Prop where
  id : '\n' ∉ s.id.toList ∧ Trimmed s.id
  name : '\n' ∉ s.name.toList ∧ Trimmed s.name
  description : ∃ text, s.description = .text text ∧ '\n' ∉ text.toList

/-- The names of the columns. -/
def heading : List String := ["ID", "NAME", "DESCRIPTION"]

/-- What a secret shows in a table. -/
def row (s : Secret) : List String := [s.id, s.name, s.description.cell]

theorem table_eq (secrets : List Secret) : Secret.table secrets =
    Table.format heading (secrets.map row) Table.leastWidth Table.columnPadding := rfl

/-- Whether two secrets have the same resource name, name and description. -/
def Alike (s t : Secret) : Prop := s.id = t.id ∧ s.name = t.name ∧ s.description = t.description

theorem Tabular.legible {s : Secret} (h : s.Tabular) : Legible heading.length s.row where
  length := rfl
  lineFeed := by
    obtain ⟨text, hd, htext⟩ := h.description
    rw [row, hd]
    simp [h.id.1, h.name.1, Supplied.cell, htext]
  trimmed := by
    simp [row, h.id.2, h.name.2]

theorem marked_heading : ∀ cell ∈ heading.tail, Marked cell := by
  simp only [heading, List.tail_cons, List.forall_mem_cons]
  exact ⟨⟨'N', rfl, by decide⟩, ⟨'D', rfl, by decide⟩, nofun⟩

/-- Secrets with texts as descriptions are alike if their rows are the same. -/
theorem alike_of_row_eq {s t : Secret} (hs : s.Tabular) (ht : t.Tabular) (h : s.row = t.row) :
    s.Alike t := by
  obtain ⟨d, hd, -⟩ := hs.description
  obtain ⟨e, he, -⟩ := ht.description
  simp only [row, hd, he, Supplied.cell, List.cons.injEq, and_true] at h
  obtain ⟨hid, hname, hdescription⟩ := h
  exact ⟨hid, hname, by rw [hd, he, hdescription]⟩

/-- Lists of secrets with the same rows are alike place by place. -/
theorem forall₂_alike_of_rows_eq {a b : List Secret} (ha : ∀ s ∈ a, s.Tabular)
    (hb : ∀ s ∈ b, s.Tabular) (h : a.map row = b.map row) : List.Forall₂ Alike a b := by
  induction a generalizing b with
  | nil =>
    rw [List.map_eq_nil_iff.mp h.symm]
    exact .nil
  | cons s a ih =>
    obtain ⟨t, b, rfl, hrow, hrows⟩ := List.map_eq_cons_iff.mp h.symm
    refine .cons ?_ ?_
    · exact alike_of_row_eq (ha s List.mem_cons_self) (hb t List.mem_cons_self) hrow.symm
    · exact ih (fun u hu => ha u (List.mem_cons_of_mem s hu))
        (fun u hu => hb u (List.mem_cons_of_mem t hu)) hrows.symm

/-- Secrets that are alike have the same row. -/
theorem rows_eq_of_forall₂_alike {a b : List Secret} (h : List.Forall₂ Alike a b) :
    a.map row = b.map row := by
  induction h with
  | nil => rfl
  | cons hst _ ih =>
    obtain ⟨hid, hname, hdescription⟩ := hst
    rw [List.map_cons, List.map_cons, ih, row, row, hid, hname, hdescription]

/-- The heading and the rows of secrets can be read back. -/
theorem legible_lines {secrets : List Secret} (h : ∀ s ∈ secrets, s.Tabular) :
    ∀ cells ∈ heading :: secrets.map row, Legible heading.length cells := by
  intro cells hc
  rcases List.mem_cons.mp hc with rfl | hc
  · exact ⟨rfl, by decide, by decide⟩
  · obtain ⟨s, hs, rfl⟩ := List.mem_map.mp hc
    exact (h s hs).legible

/-- Two lists of secrets have the same table if and only if they are equally long and agree, place
by place, on resource names, names and descriptions. -/
theorem table_eq_table_iff {a b : List Secret} (ha : ∀ s ∈ a, s.Tabular)
    (hb : ∀ s ∈ b, s.Tabular) : Secret.table a = Secret.table b ↔ List.Forall₂ Alike a b := by
  constructor
  · intro h
    obtain ⟨text, hta⟩ := table_eq_ok a
    have htb : Secret.table b = .ok text := h ▸ hta
    rw [table_eq] at hta htb
    have hrows := Table.rows_eq_of_format (by decide) (by decide) marked_heading
      (legible_lines ha) (legible_lines hb) hta htb
    exact forall₂_alike_of_rows_eq ha hb hrows
  · intro h
    rw [table_eq, table_eq, rows_eq_of_forall₂_alike h]

/-- A space within a resource name is not taken for the filling between two cells. -/
theorem table_ne_of_space :
    let together : Secret := { id := "a b", name := "", description := .text "c" }
    let apart : Secret := { id := "a", name := "b", description := .text "c" }
    together.Tabular ∧ apart.Tabular ∧ Secret.table [together] ≠ Secret.table [apart] := by
  intro together apart
  have ht : together.Tabular := ⟨by decide, by decide, "c", rfl, by decide⟩
  have ha : apart.Tabular := ⟨by decide, by decide, "c", rfl, by decide⟩
  refine ⟨ht, ha, fun h => ?_⟩
  have hlists := (table_eq_table_iff (List.forall_mem_singleton.mpr ht)
    (List.forall_mem_singleton.mpr ha)).mp h
  have hid : together.id = apart.id := (List.forall₂_cons.mp hlists).1.1
  exact absurd hid (by decide)

end Secret

end CloudSecrets
