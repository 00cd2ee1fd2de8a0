import CloudSecrets.Secret

/-!
# Tables that exist

A table can lack a cell in two places: where the width of a column is taken over all lines, and
where the last cell of a line is written. The first asks every line for a cell in each column but
the last (`widths?_eq_none_iff`), the second asks it for any cell (`line?_eq_none_iff`). Together
they decide whether there is a table, whatever least width and padding are asked for
(`format_lacks_cell_iff`). The table of a list of secrets always exists.
-/

namespace CloudSecrets

/-- A list is mapped unless one of its members is not. -/
theorem mapM_eq_none_iff {α β : Type} {f : α → Option β} {xs : List α} :
    xs.mapM f = none ↔ ∃ x ∈ xs, f x = none := by
  induction xs with
  | nil => simp
  | cons x xs ih =>
    simp only [List.mapM_cons, List.mem_cons, exists_eq_or_imp, ← ih]
    cases f x with
    | none => simp
    | some y => cases xs.mapM f <;> simp

namespace Table

variable {least padding : Int} {headers cells : List String} {rows lines : List (List String)}

/-- A column has no width if a line has no cell in it. -/
theorem columnWidth?_eq_none_iff {column : Nat} :
    columnWidth? least padding lines column = none ↔ ∃ cells ∈ lines, cells.length ≤ column := by
  unfold columnWidth? cellLengths?
  rw [Option.map_eq_none_iff, mapM_eq_none_iff]
  simp only [Option.map_eq_none_iff, List.getElem?_eq_none_iff]

/-- There are no widths if a line has fewer cells than there are columns but the last. -/
theorem widths?_eq_none_iff :
    widths? least padding headers lines = none ↔
      ∃ cells ∈ lines, cells.length < headers.length - 1 := by
  rw [widths?, mapM_eq_none_iff]
  constructor
  · rintro ⟨column, hcolumn, hnone⟩
    obtain ⟨cells, hcells, hshort⟩ := columnWidth?_eq_none_iff.mp hnone
    have hrange := List.mem_range.mp hcolumn
    exact ⟨cells, hcells, by omega⟩
  · rintro ⟨cells, hcells, hshort⟩
    -- The first column that the line does not reach is the one with the number of its cells.
    refine ⟨cells.length, List.mem_range.mpr hshort, ?_⟩
    apply columnWidth?_eq_none_iff.mpr
    exact ⟨cells, hcells, Nat.le_refl _⟩

/-- A line has no text if it has no cell. -/
theorem line?_eq_none_iff {widths : List Int} : line? widths cells = none ↔ cells = [] := by
  rw [line?, Option.map_eq_none_iff, List.getLast?_eq_none_iff]

/-- There is no table if there are no widths, or a line has no cell. -/
theorem format_eq_error_iff_none :
    format headers rows least padding = .error .missingCell ↔
      widths? least padding headers (headers :: rows) = none ∨ [] ∈ headers :: rows := by
  simp only [format]
  generalize headers :: rows = lines
  cases hw : widths? least padding headers lines with
  | none => simp
  | some widths =>
    have htexts : lines.mapM (line? widths) = none ↔ [] ∈ lines := by
      rw [mapM_eq_none_iff]
      simp only [line?_eq_none_iff, exists_eq_right]
    cases ht : lines.mapM (line? widths) with
    | none => simp [ht, htexts.mp ht]
    | some texts =>
      have hcells : [] ∉ lines := fun h => by
        rw [htexts.mpr h] at ht
        cases ht
      simp [ht, hcells]

/-- So there is no table if a line, the heading included, has too few cells. -/
theorem format_eq_error_iff :
    format headers rows least padding = .error .missingCell ↔
      ∃ cells ∈ headers :: rows, cells.length < max 1 (headers.length - 1) := by
  rw [format_eq_error_iff_none, widths?_eq_none_iff]
  constructor
  · rintro (⟨cells, hcells, hshort⟩ | hempty)
    · exact ⟨cells, hcells, by omega⟩
    · refine ⟨[], hempty, ?_⟩
      rw [List.length_nil]
      omega
  · rintro ⟨cells, hcells, hshort⟩
    by_cases hnone : cells = []
    · exact .inr (hnone ▸ hcells)
    · have hpos := List.length_pos_iff.mpr hnone
      exact .inl ⟨cells, hcells, by omega⟩

/-- A table that does not lack a cell exists. -/
theorem format_eq_ok (h : format headers rows least padding ≠ .error .missingCell) :
    ∃ text, format headers rows least padding = .ok text := by
  cases ht : format headers rows least padding with
  | error f =>
    cases f
    exact absurd ht h
  | ok text => exact ⟨text, rfl⟩

/-- A table lacks a cell exactly if its heading is empty, or one of its rows has no cell or fewer
cells than there are columns but the last. In all other cases there is a table. The least width and
the padding have no part in it. -/
theorem format_lacks_cell_iff (headers : List String) (rows : List (List String))
    (least padding : Int) :
    (format headers rows least padding = .error .missingCell ↔
        headers = [] ∨ ∃ cells ∈ rows, cells.length < max 1 (headers.length - 1)) ∧
      ((∃ text, format headers rows least padding = .ok text) ↔
        headers ≠ [] ∧ ∀ cells ∈ rows, max 1 (headers.length - 1) ≤ cells.length) := by
  have hheading : headers.length < max 1 (headers.length - 1) ↔ headers = [] := by
    rw [← List.length_eq_zero_iff]
    omega
  have hlacks : format headers rows least padding = .error .missingCell ↔
      headers = [] ∨ ∃ cells ∈ rows, cells.length < max 1 (headers.length - 1) := by
    rw [format_eq_error_iff]
    simp only [List.mem_cons, exists_eq_or_imp, hheading]
  refine ⟨hlacks, ?_⟩
  have hexists : (∃ text, format headers rows least padding = .ok text) ↔
      format headers rows least padding ≠ .error .missingCell := by
    refine ⟨?_, format_eq_ok⟩
    rintro ⟨text, ht⟩
    rw [ht]
    nofun
  rw [hexists, ne_eq, hlacks, not_or]
  simp only [not_exists, not_and, Nat.not_lt, ne_eq]

/-- A row may lack its last cell. -/
example : format ["A", "B", "C"] [["x", "y"]] (-1) 0 = .ok "ABC\nxyy\n" := rfl

end Table

/-- The table of a list of secrets exists. -/
theorem Secret.table_eq_ok (secrets : List Secret) : ∃ text, Secret.table secrets = .ok text := by
  apply Table.format_eq_ok
  rw [ne_eq, Table.format_eq_error_iff]
  rintro ⟨cells, hc, hshort⟩
  rcases List.mem_cons.mp hc with rfl | hc
  · exact absurd hshort (by decide)
  · obtain ⟨s, -, rfl⟩ := List.mem_map.mp hc
    exact absurd hshort (by simp)

end CloudSecrets
