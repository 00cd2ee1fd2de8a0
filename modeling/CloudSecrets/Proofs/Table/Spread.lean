import CloudSecrets.Proofs.Table.Layout

/-!
# The cells of a line

A line of a table is spread over its columns: its cells stand one after the other, with nothing but
spaces between them. The cells that it shows are one for each column but the last, and then its own
last cell (`spread_line?`). A line with as many cells as the heading shows each of them once. Of a
longer line the cells in between are left out, and of a shorter one the last cell is written twice
(`shows_of_format`); this can be seen in the text unless these cells hold nothing but spaces.
-/

namespace CloudSecrets.Table

variable {least padding : Int} {columns : Nat} {headers cells : List String}
  {rows lines : List (List String)} {widths : List Int} {line text : String}

/-! ## Spreading cells over a line -/

/-- So many spaces. -/
def spaces (n : Nat) : String := String.ofList (List.replicate n ' ')

/-- Whether a line consists of cells, in order and each exactly once, with nothing but spaces behind
them. -/
inductive Spread : List String → String → Prop where
  | nil : Spread [] ""
  | cons {cells : List String} {line : String} (cell : String) (n : Nat)
      (rest : Spread cells line) : Spread (cell :: cells) (cell ++ spaces n ++ line)

theorem Spread.singleton (cell : String) : Spread [cell] cell := by
  have h := Spread.cons cell 0 .nil
  rwa [String.append_empty, show spaces 0 = "" from rfl, String.append_empty] at h

theorem Spread.append {cells' : List String} {line' : String} (h : Spread cells line)
    (h' : Spread cells' line') : Spread (cells ++ cells') (line ++ line') := by
  induction h with
  | nil =>
    rw [String.empty_append]
    exact h'
  | cons cell n _ ih =>
    rw [List.cons_append, String.append_assoc]
    exact .cons cell n ih

/-- Any character but the space stands in a line as often as in its cells. -/
theorem Spread.count_eq {c : Char} (hc : c ≠ ' ') (h : Spread cells line) :
    line.toList.count c = (cells.flatMap String.toList).count c := by
  induction h with
  | nil => rfl
  | cons cell n _ ih =>
    have hspaces : (spaces n).toList.count c = 0 := by
      rw [spaces, String.toList_ofList, List.count_eq_zero]
      exact fun hmem => hc (List.eq_of_mem_replicate hmem)
    rw [String.toList_append, String.toList_append, List.count_append, List.count_append, hspaces,
      ih, List.flatMap_cons, List.count_append, Nat.add_zero]

/-- What each member of a list was mapped to is related to it. -/
theorem forall₂_of_map_eq {α β : Type} {R : α → β → Prop} {f : α → Option β}
    {xs : List α} {ys : List β} (h : xs.map f = ys.map some)
    (hR : ∀ x ∈ xs, ∀ y, f x = some y → R x y) : List.Forall₂ R xs ys := by
  induction xs generalizing ys with
  | nil =>
    rw [List.map_eq_nil_iff.mp h.symm]
    exact .nil
  | cons x xs ih =>
    obtain ⟨y, ys, rfl, hy, hys⟩ := List.map_eq_cons_iff.mp h.symm
    exact .cons (hR x List.mem_cons_self y hy.symm)
      (ih hys.symm fun x' hx' => hR x' (List.mem_cons_of_mem x hx'))

/-! ## What a line shows -/

/-- The cells that a line of a table with so many columns shows: one for each column but the last,
and then its own last cell. -/
def shown (columns : Nat) (cells : List String) : List String :=
  cells.take (columns - 1) ++ cells.getLast?.toList

/-- The cells that a line of a table with so many columns does not show exactly once: if it has more
cells than columns, those that it leaves out; if it has fewer, the one that it repeats. -/
def amiss (columns : Nat) (cells : List String) : List String :=
  if cells.length < columns then cells.getLast?.toList else (cells.drop (columns - 1)).dropLast

theorem spread_join (widths : List Int) (cells : List String) :
    Spread (cells.take widths.length) (String.join (List.zipWith pad widths cells)) := by
  induction widths generalizing cells with
  | nil => exact .nil
  | cons width widths ih =>
    cases cells with
    | nil => exact .nil
    | cons cell cells =>
      rw [List.length_cons, List.take_succ_cons, List.zipWith_cons_cons, String.join_cons]
      exact .cons cell (width - cell.length).toNat (ih cells)

/-- The text of a line has the cells that are filled up to a width, and the last one. -/
theorem spread_line? (h : line? widths cells = some line) :
    Spread (cells.take widths.length ++ cells.getLast?.toList) line := by
  rw [line?, Option.map_eq_some_iff] at h
  obtain ⟨last, hlast, rfl⟩ := h
  rw [hlast]
  exact (spread_join widths cells).append (.singleton last)

theorem ne_nil_of_line? (h : line? widths cells = some line) : cells ≠ [] := by
  rintro rfl
  cases h

/-- A line that is not too short consists of what it shows and, in front of the last cell, what it
leaves out. -/
theorem eq_of_columns_le (hpos : 0 < columns) (h : columns ≤ cells.length) :
    cells = cells.take (columns - 1) ++ (amiss columns cells ++ cells.getLast?.toList) := by
  have hlast : cells.getLast? = (cells.drop (columns - 1)).getLast? := by
    rw [List.getLast?_drop, if_neg (by omega)]
  have hrest : cells.drop (columns - 1) ≠ [] := by
    rw [ne_eq, List.drop_eq_nil_iff]
    omega
  have hsplit := List.take_append_drop (columns - 1) cells
  rw [amiss, if_neg (Nat.not_lt.mpr h), hlast, List.getLast?_eq_some_getLast hrest,
    Option.toList_some, List.dropLast_concat_getLast, hsplit]

/-- A line that is too short shows all its cells, and the last one again. -/
theorem shown_of_length_lt (h : cells.length < columns) :
    shown columns cells = cells ++ amiss columns cells := by
  rw [shown, amiss, if_pos h, List.take_of_length_le (by omega)]

/-- A line with a cell for each column shows its cells. -/
theorem shown_eq_self (hpos : 0 < columns) (h : cells.length = columns) :
    shown columns cells = cells := by
  have hle : columns ≤ cells.length := Nat.le_of_eq h.symm
  have hnone : amiss columns cells = [] := by
    rw [amiss, if_neg (Nat.not_lt.mpr hle), ← List.length_eq_zero_iff, List.length_dropLast,
      List.length_drop]
    omega
  have hsplit := eq_of_columns_le hpos hle
  rw [hnone, List.nil_append] at hsplit
  exact hsplit.symm

/-- Any other line does not show each of its cells exactly once. -/
theorem amiss_ne_nil (hpos : 0 < columns) (hne : cells ≠ []) (h : cells.length ≠ columns) :
    amiss columns cells ≠ [] := by
  have hlen := List.length_pos_iff.mpr hne
  rw [amiss]
  split
  · rw [List.getLast?_eq_some_getLast hne]
    exact List.cons_ne_nil _ _
  · rw [← List.length_pos_iff, List.length_dropLast, List.length_drop]
    omega

/-- Whether a cell holds nothing but spaces. -/
def Blank (cell : String) : Prop := ∀ c ∈ cell.toList, c = ' '

instance (cell : String) : Decidable (Blank cell) :=
  inferInstanceAs (Decidable (∀ c ∈ cell.toList, c = ' '))

/-- A line that consists of its cells, although some are amiss, lacks or repeats nothing but
spaces. -/
theorem blank_of_spread (hpos : 0 < columns) (hs : Spread (shown columns cells) line)
    (h : Spread cells line) : ∀ cell ∈ amiss columns cells, Blank cell := by
  intro cell hcell c hc
  by_contra hspace
  have hnone : ((amiss columns cells).flatMap String.toList).count c = 0 := by
    have hsame := (h.count_eq hspace).symm.trans (hs.count_eq hspace)
    rcases Nat.lt_or_ge cells.length columns with hlt | hge
    · rw [shown_of_length_lt hlt, List.flatMap_append, List.count_append] at hsame
      omega
    · have hsplit := congrArg (fun cs => (cs.flatMap String.toList).count c)
        (eq_of_columns_le hpos hge)
      simp only [shown, List.flatMap_append, List.count_append] at hsplit hsame
      omega
  exact List.count_eq_zero.mp hnone (List.mem_flatMap.mpr ⟨cell, hcell, hc⟩)

/-! ## Lines of a table -/

/-- How a line of a table with so many columns shows its cells. -/
structure Shows (columns : Nat) (cells : List String) (line : String) : Prop where
  spread : Spread (shown columns cells) line
  once : cells.length = columns → Spread cells line
  astray : cells.length ≠ columns → amiss columns cells ≠ [] ∧
    (Spread cells line → ∀ cell ∈ amiss columns cells, Blank cell)

theorem shows_of_spread (hpos : 0 < columns) (hne : cells ≠ [])
    (h : Spread (shown columns cells) line) : Shows columns cells line where
  spread := h
  once hlen := shown_eq_self hpos hlen ▸ h
  astray hlen := ⟨amiss_ne_nil hpos hne hlen, blank_of_spread hpos h⟩

/-- Each line of a table shows one cell for every column but the last, and then its own last cell,
in order and each exactly once. A line as long as the heading thereby shows its cells; in any other
one some cell is left out or written twice, which only cells of nothing but spaces can hide. -/
theorem shows_of_format (h : format headers rows least padding = .ok text) :
    ∃ lines, text = String.join (lines.map (· ++ "\n")) ∧
      List.Forall₂ (Shows headers.length) (headers :: rows) lines := by
  obtain ⟨widths, texts, hw, ht, rfl⟩ := format_eq_ok_iff.mp h
  have hpos : 0 < headers.length := by
    obtain ⟨heading, _, -, hheading, -⟩ := List.map_eq_cons_iff.mp ht.symm
    exact List.length_pos_iff.mpr (ne_nil_of_line? hheading.symm)
  refine ⟨texts, rfl, forall₂_of_map_eq ht fun cells hc line hline => ?_⟩
  have hspread := spread_line? hline
  rw [length_of_widths? hw] at hspread
  exact shows_of_spread hpos (ne_nil_of_line? hline) hspread

/-- The last cell of a row that is too short is written twice, and a cell in the middle of a row
that is too long is left out. -/
theorem not_spread_of_ragged :
    let short := ["x", "y"]
    let long := ["x", "y", "z", "w"]
    ∃ (text : String) (lines : List String),
      format ["A", "B", "C"] [short, long] 4 1 = .ok text ∧
      text = String.join (lines.map (· ++ "\n")) ∧
      List.Forall₂ (fun cells line => ¬Spread cells line) [short, long] lines.tail := by
  intro short long
  have hformat : format ["A", "B", "C"] [short, long] 4 1 =
      .ok "A   B   C\nx   y   y\nx   y   w\n" := by decide +kernel
  obtain ⟨lines, htext, hshows⟩ := shows_of_format hformat
  cases hshows with
  | cons _ hrows =>
    cases hrows with
    | cons hshort hrest =>
      cases hrest with
      | cons hlong hnil =>
        cases hnil
        refine ⟨_, _, hformat, htext, .cons (fun h => ?_) (.cons (fun h => ?_) .nil)⟩
        · have hblank := (hshort.astray (by decide)).2 h "y" List.mem_cons_self
          exact absurd (hblank 'y' (by decide)) (by decide)
        · have hblank := (hlong.astray (by decide)).2 h "z" List.mem_cons_self
          exact absurd (hblank 'z' (by decide)) (by decide)

end CloudSecrets.Table
