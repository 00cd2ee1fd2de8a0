import CloudSecrets.Proofs.Table.Spread
import Mathlib.Algebra.BigOperators.Group.Finset.Basic
import Mathlib.Order.Bounds.Defs

/-!
# Aligned columns

A table in which every line has a cell for each column is aligned. A column is as wide as its
longest cell and the padding, and at least the least width (`fullWidth`); since the padding is not
negative, neither is a width, whatever the least width is. A line is then written column by column
(`aligned`), so a cell stands behind as many characters as the columns before it are wide, in every
line (`aligned_drop`), and no cell is cut (`format_aligns_columns`).
-/

namespace CloudSecrets.Table

variable {least padding : Int} {headers cells : List String} {rows lines : List (List String)}
  {column : Nat} {cell : String} {width : Nat → Int}

/-! ## Widths -/

/-- The length of the longest cell in a column. -/
def widest (lines : List (List String)) (column : Nat) : Nat :=
  ((lines.filterMap (·[column]?)).map String.length).max?.getD 0

/-- The width of a column: its longest cell and the padding, and at least the least width. -/
def fullWidth (least padding : Int) (lines : List (List String)) (column : Nat) : Int :=
  max least (widest lines column + padding)

/-- No cell of a column is longer than the longest, and one is as long. -/
theorem isGreatest_widest (hl : cells ∈ lines) (hc : cells[column]? = some cell) :
    IsGreatest {n | ∃ cells ∈ lines, ∃ cell, cells[column]? = some cell ∧ cell.length = n}
      (widest lines column) := by
  have hmem : ∀ n, n ∈ (lines.filterMap (·[column]?)).map String.length ↔
      ∃ cells ∈ lines, ∃ cell, cells[column]? = some cell ∧ cell.length = n := by
    intro n
    simp only [List.mem_map, List.mem_filterMap]
    constructor
    · rintro ⟨cell, ⟨cells, hl, hc⟩, hn⟩
      exact ⟨cells, hl, cell, hc, hn⟩
    · rintro ⟨cells, hl, cell, hc, hn⟩
      exact ⟨cell, ⟨cells, hl, hc⟩, hn⟩
  have hne : (lines.filterMap (·[column]?)).map String.length ≠ [] :=
    List.ne_nil_of_mem ((hmem _).mpr ⟨cells, hl, cell, hc, rfl⟩)
  obtain ⟨n, hn⟩ := Option.isSome_iff_exists.mp (List.isSome_max?_of_ne_nil hne)
  obtain ⟨hn', hmax⟩ := List.max?_eq_some_iff.mp hn
  rw [widest, hn, Option.getD_some]
  exact ⟨(hmem n).mp hn', fun m hm => hmax m ((hmem m).mpr hm)⟩

/-- A column has room for each of its cells and the padding. -/
theorem length_add_padding_le_fullWidth (hl : cells ∈ lines) (hc : cells[column]? = some cell) :
    cell.length + padding ≤ fullWidth least padding lines column := by
  have hle : cell.length ≤ widest lines column :=
    (isGreatest_widest hl hc).2 ⟨cells, hl, cell, hc, rfl⟩
  rw [fullWidth]
  omega

theorem columnWidth?_eq_some (h : ∀ cells ∈ lines, column < cells.length) :
    columnWidth? least padding lines column = some (fullWidth least padding lines column) := by
  have hlengths : cellLengths? column lines =
      some ((lines.filterMap (·[column]?)).map String.length) := by
    rw [cellLengths?, mapM_eq_some_iff]
    induction lines with
    | nil => rfl
    | cons cells lines ih =>
      obtain ⟨hhead, htail⟩ := List.forall_mem_cons.mp h
      rw [List.map_cons, ih htail, List.filterMap_cons, List.getElem?_eq_getElem hhead]
      rfl
  rw [columnWidth?, hlengths, Option.map_some, List.foldl_max, Nat.zero_max]
  rfl

/-- If every line has a cell for each column, all columns but the last have their full width. -/
theorem widths?_eq_some (h : ∀ cells ∈ lines, cells.length = headers.length) :
    widths? least padding headers lines =
      some ((List.range (headers.length - 1)).map (fullWidth least padding lines)) := by
  rw [widths?, mapM_eq_some_iff, List.map_map]
  refine List.map_congr_left fun column hcolumn => columnWidth?_eq_some fun cells hc => ?_
  have hlen := h cells hc
  have hrange := List.mem_range.mp hcolumn
  omega

/-! ## Lines -/

/-- The text of a line: behind each cell but the last stand the spaces that its column has left. -/
def aligned (width : Nat → Int) : List String → String
  | [] => ""
  | [cell] => cell
  | cell :: next :: cells =>
    cell ++ spaces (width 0 - cell.length).toNat ++
      aligned (fun column => width (column + 1)) (next :: cells)

theorem line?_eq_aligned {n : Nat} (width : Nat → Int) (h : cells.length = n + 1) :
    line? ((List.range n).map width) cells = some (aligned width cells) := by
  induction n generalizing cells width with
  | zero =>
    obtain ⟨cell, rfl⟩ := List.length_eq_one_iff.mp h
    exact line?_nil
  | succ n ih =>
    obtain ⟨cell, tail, rfl⟩ := List.exists_cons_of_length_eq_add_one h
    obtain ⟨next, cells, rfl⟩ := List.exists_cons_of_length_eq_add_one (Nat.succ.inj h)
    rw [List.range_succ_eq_map, List.map_cons, List.map_map, line?_cons _ _ (List.cons_ne_nil _ _),
      show width ∘ Nat.succ = fun column => width (column + 1) from rfl, ih _ (Nat.succ.inj h)]
    rfl

/-- Whether the columns have room for the cells of a line and the padding. -/
def Roomy (width : Nat → Int) (padding : Int) (cells : List String) : Prop :=
  ∀ column cell, cells[column]? = some cell → cell.length + padding ≤ width column

theorem Roomy.tail (h : Roomy width padding (cell :: cells)) :
    Roomy (fun column => width (column + 1)) padding cells :=
  fun column next hnext => h (column + 1) next hnext

theorem length_spaces (n : Nat) : (spaces n).length = n := by
  rw [spaces, String.length_ofList, List.length_replicate]

/-- A line begins with its first cell. -/
theorem aligned_cons (width : Nat → Int) (cell : String) (cells : List String) :
    ∃ after, aligned width (cell :: cells) = cell ++ after := by
  cases cells with
  | nil => exact ⟨"", String.append_empty.symm⟩
  | cons next cells => exact ⟨_, String.append_assoc⟩

/-- From any column on, a line goes on as a line of its own, behind as many characters as the
columns before are wide. -/
theorem aligned_drop (hp : 0 ≤ padding) (h : Roomy width padding cells)
    (hc : column < cells.length) :
    ∃ before : String, (before.length : Int) = ∑ i ∈ Finset.range column, width i ∧
      aligned width cells =
        before ++ aligned (fun i => width (column + i)) (cells.drop column) := by
  induction column generalizing cells width with
  | zero =>
    refine ⟨"", rfl, ?_⟩
    simp only [Nat.zero_add, List.drop_zero, String.empty_append]
  | succ column ih =>
    obtain ⟨cell, tail, rfl⟩ := List.exists_cons_of_length_pos (Nat.zero_lt_of_lt hc)
    have htail : column < tail.length := Nat.lt_of_succ_lt_succ hc
    obtain ⟨before, hlen, hline⟩ := ih h.tail htail
    obtain ⟨next, cells, rfl⟩ := List.exists_cons_of_length_pos (Nat.zero_lt_of_lt htail)
    have hroom : cell.length + padding ≤ width 0 := h 0 cell rfl
    have hshift : (fun i => width (column + i + 1)) = fun i => width (column + 1 + i) := by
      funext i
      rw [Nat.add_right_comm]
    refine ⟨cell ++ spaces (width 0 - cell.length).toNat ++ before, ?_, ?_⟩
    · -- The filling is as long as the difference, since the padding is not negative.
      rw [String.length_append, String.length_append, length_spaces, Finset.sum_range_succ', ← hlen]
      omega
    · rw [aligned, hline, hshift, List.drop_succ_cons]
      exact String.append_assoc.symm

/-- Whether a line has its cells in columns. Each cell stands behind as many characters as the
columns before it are wide. The last one ends the line; behind any other one stand as many spaces as
its column has left, at least the padding, and then the next cell. -/
def InColumns (width : Nat → Int) (padding : Int) (cells : List String) (line : String) : Prop :=
  ∀ column cell, cells[column]? = some cell →
    ∃ before : String, (before.length : Int) = ∑ i ∈ Finset.range column, width i ∧
      (cells[column + 1]? = none → line = before ++ cell) ∧
      ∀ next, cells[column + 1]? = some next → ∃ (gap : Nat) (after : String),
        line = before ++ cell ++ spaces gap ++ next ++ after ∧
          (gap : Int) = width column - cell.length ∧ padding ≤ gap

theorem inColumns_aligned (hp : 0 ≤ padding) (h : Roomy width padding cells) :
    InColumns width padding cells (aligned width cells) := by
  intro column cell hcell
  obtain ⟨hlt, hget⟩ := List.getElem?_eq_some_iff.mp hcell
  obtain ⟨before, hlen, hline⟩ := aligned_drop hp h hlt
  rw [List.drop_eq_getElem_cons hlt, hget] at hline
  refine ⟨before, hlen, ?_, ?_⟩
  · intro hnone
    rw [List.drop_eq_nil_iff.mpr (List.getElem?_eq_none_iff.mp hnone)] at hline
    exact hline
  · intro next hnext
    obtain ⟨hlt', hget'⟩ := List.getElem?_eq_some_iff.mp hnext
    have hroom := h column cell hcell
    rw [List.drop_eq_getElem_cons hlt', hget', aligned] at hline
    obtain ⟨after, hafter⟩ := aligned_cons (fun i => width (column + (i + 1))) next
      (cells.drop (column + 1 + 1))
    refine ⟨(width column - cell.length).toNat, after, ?_, ?_, ?_⟩
    · rw [hline, hafter]
      simp only [Nat.add_zero, String.append_assoc]
    · omega
    · omega

/-! ## The whole table -/

/-- A table in which every line has a cell for each column is aligned and tight. Its text is that of
the heading and of each row in order, each cell but the last filled up to the width of its column,
which is that of the longest cell and the padding or else the least width. So no cell is cut, those
of a column begin at the same place in every line, and between two cells of a line stands at least
the padding. -/
theorem format_aligns_columns (headers : List String) (rows : List (List String))
    (least padding : Int) (hn : headers ≠ []) (hr : ∀ cells ∈ rows, cells.length = headers.length)
    (hp : 0 ≤ padding) :
    let lines := headers :: rows
    let width := fullWidth least padding lines
    format headers rows least padding =
        .ok (String.join (lines.map fun cells => aligned width cells ++ "\n")) ∧
      ∀ cells ∈ lines, InColumns width padding cells (aligned width cells) := by
  intro lines width
  have hlen : ∀ cells ∈ lines, cells.length = headers.length := List.forall_mem_cons.mpr ⟨rfl, hr⟩
  have hpos := List.length_pos_iff.mpr hn
  constructor
  · refine format_eq_ok_iff.mpr ⟨_, lines.map (aligned width), widths?_eq_some hlen, ?_, ?_⟩
    · rw [List.map_map]
      refine List.map_congr_left fun cells hc => line?_eq_aligned width ?_
      rw [hlen cells hc]
      omega
    · rw [List.map_map]
      rfl
  · exact fun cells hc => inColumns_aligned hp fun column cell hcell =>
      length_add_padding_le_fullWidth hc hcell

/-- A negative least width asks for nothing: each column is as wide as its longest cell and the
padding, also where all cells of a column are empty. -/
theorem format_of_negative_least :
    let headers := ["", "ID", ""]
    let rows := [["", "db", "main "], ["", "", "x"]]
    headers ≠ [] ∧ (∀ cells ∈ rows, cells.length = headers.length) ∧ (0 : Int) ≤ 1 ∧
      format headers rows (-4) 1 = .ok " ID \n db main \n    x\n" ∧
      InColumns (fullWidth (-4) 1 (headers :: rows)) 1 ["", "", "x"] "    x" := by
  intro headers rows
  have hn : headers ≠ [] := by decide
  have hr : ∀ cells ∈ rows, cells.length = headers.length := by decide
  obtain ⟨htext, hcolumns⟩ := format_aligns_columns headers rows (-4) 1 hn hr (by decide)
  refine ⟨hn, hr, by decide, htext.trans ?_, ?_⟩
  · decide +kernel
  · exact hcolumns ["", "", "x"] (by decide)

end CloudSecrets.Table
