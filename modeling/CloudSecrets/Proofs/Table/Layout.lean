import CloudSecrets.Proofs.FileTree.Path
import CloudSecrets.Table

/-!
# The layout of a table

A table that exists has a width for every column but the last, with room for each cell of the column
and the padding (`room_of_widths?`), and one text for each line, which the line feeds keep apart
(`splitAtEach_lines`).
-/

namespace CloudSecrets

/-- What a list was mapped to, in order. -/
theorem mapM_eq_some_iff {α β : Type} {f : α → Option β} {xs : List α} {ys : List β} :
    xs.mapM f = some ys ↔ xs.map f = ys.map some := by
  induction xs generalizing ys with
  | nil => cases ys <;> simp
  | cons x xs ih =>
    rw [List.mapM_cons, List.map_cons]
    cases hx : f x with
    | none => cases ys <;> simp
    | some y =>
      cases ys with
      | nil => cases xs.mapM f <;> simp
      | cons z zs =>
        rw [List.map_cons, List.cons.injEq, ← ih]
        cases xs.mapM f <;> simp

namespace Table

variable {least padding : Int} {headers cells : List String} {rows lines : List (List String)}
  {widths : List Int} {text : String}

/-! ## Widths -/

/-- A column is wide enough for each of its cells and the padding. -/
theorem length_add_padding_le {column : Nat} {width : Int} {cell : String}
    (hw : columnWidth? least padding lines column = some width) (hl : cells ∈ lines)
    (hc : cells[column]? = some cell) : cell.length + padding ≤ width := by
  rw [columnWidth?, Option.map_eq_some_iff] at hw
  obtain ⟨lengths, hlengths, rfl⟩ := hw
  rw [cellLengths?, mapM_eq_some_iff] at hlengths
  have hm : cells[column]?.map String.length ∈ lengths.map some :=
    hlengths ▸ List.mem_map_of_mem hl
  rw [hc, Option.map_some] at hm
  obtain ⟨length, hmem, hlength⟩ := List.mem_map.mp hm
  obtain rfl := Option.some.inj hlength
  have hmax : cell.length ≤ lengths.foldl max 0 := by
    rw [List.foldl_max]
    exact Nat.le_trans (List.le_max?_getD_of_mem hmem) (Nat.le_max_right 0 _)
  omega

/-- There is one width for every column but the last. -/
theorem length_of_widths? (h : widths? least padding headers lines = some widths) :
    widths.length = headers.length - 1 := by
  simpa using (congrArg List.length (mapM_eq_some_iff.mp h)).symm

/-- The widths belong to the columns, from the first on. -/
theorem columnWidth?_of_widths? (h : widths? least padding headers lines = some widths)
    {column : Nat} {width : Int} (hc : widths[column]? = some width) :
    columnWidth? least padding lines column = some width := by
  have hi := congrArg (·[column]?) (mapM_eq_some_iff.mp h)
  simp only [List.getElem?_map, hc, Option.map_some] at hi
  obtain ⟨i, hi, hwidth⟩ := Option.map_eq_some_iff.mp hi
  obtain ⟨_, rfl⟩ := List.getElem?_eq_some_iff.mp hi
  rw [List.getElem_range] at hwidth
  exact hwidth

/-- Whether a line has a cell for each width and one more, and the cells leave room. -/
structure Fits (widths : List Int) (cells : List String) : Prop where
  length : cells.length = widths.length + 1
  room : ∀ {i : Nat} {width : Int} {cell : String}, widths[i]? = some width →
    cells[i]? = some cell → cell.length ≤ width

/-- Each full line fits the widths of its table. -/
theorem fits_of_widths? (h : widths? least padding headers lines = some widths)
    (hp : 0 ≤ padding) (hl : cells ∈ lines) (hn : headers ≠ [])
    (hc : cells.length = headers.length) : Fits widths cells where
  length := by
    have hpos := List.length_pos_iff.mpr hn
    have hlen := length_of_widths? h
    omega
  room := by
    intro i width cell hwidth hcell
    have hroom := length_add_padding_le (columnWidth?_of_widths? h hwidth) hl hcell
    omega

/-! ## Lines -/

@[simp] theorem toList_pad (width : Int) (cell : String) :
    (pad width cell).toList =
      cell.toList ++ List.replicate (width - cell.length).toNat ' ' := by
  rw [pad, String.toList_append, String.toList_ofList]

@[simp] theorem line?_nil : line? [] cells = cells.getLast? := by
  simp [line?]

/-- A line starts with its first cell, filled up. -/
theorem line?_cons (width : Int) (cell : String) (h : cells ≠ []) :
    line? (width :: widths) (cell :: cells) =
      (line? widths cells).map (pad width cell ++ ·) := by
  obtain ⟨next, cells, rfl⟩ := List.exists_cons_of_ne_nil h
  rw [line?, line?, List.getLast?_cons_cons, List.zipWith_cons_cons, String.join_cons,
    Option.map_map]
  simp only [Function.comp_def, String.append_assoc]

/-- A line holds no line feed if its cells hold none. -/
theorem lineFeed_notMem_line? (hc : ∀ cell ∈ cells, '\n' ∉ cell.toList)
    (h : line? widths cells = some text) : '\n' ∉ text.toList := by
  have hfilled : '\n' ∉ (String.join (List.zipWith pad widths cells)).toList := by
    clear h
    induction cells generalizing widths with
    | nil => simp
    | cons cell cells ih =>
      cases widths with
      | nil => simp
      | cons width widths =>
        have hcell := hc cell List.mem_cons_self
        have hrest := @ih widths fun c hm => hc c (List.mem_cons_of_mem cell hm)
        rw [List.zipWith_cons_cons, String.join_cons, String.toList_append, List.mem_append,
          not_or]
        exact ⟨by simp [hcell], hrest⟩
  rw [line?, Option.map_eq_some_iff] at h
  obtain ⟨last, hlast, rfl⟩ := h
  rw [String.toList_append, List.mem_append, not_or]
  exact ⟨hfilled, hc last (List.mem_of_getLast? hlast)⟩

/-! ## The whole table -/

/-- A table is made of its widths and the texts of its lines. -/
theorem format_eq_ok_iff : format headers rows least padding = .ok text ↔
    ∃ (widths : List Int) (texts : List String), widths? least padding headers (headers :: rows) = some widths ∧
        (headers :: rows).map (line? widths) = texts.map some ∧
          text = String.join (texts.map (· ++ "\n")) := by
  simp only [format, ← mapM_eq_some_iff]
  generalize headers :: rows = lines
  cases hw : widths? least padding headers lines with
  | none => simp
  | some widths =>
    cases ht : lines.mapM (line? widths) with
    | none => simp [ht]
    | some texts => simp [ht, eq_comm]

/-- Splitting at the line feeds gives the lines back. -/
theorem splitAtEach_lines {texts : List String} (h : ∀ line ∈ texts, '\n' ∉ line.toList) :
    Text.splitAtEach '\n' (String.join (texts.map (· ++ "\n"))).toList =
      texts.map String.toList ++ [[]] := by
  induction texts with
  | nil => rfl
  | cons line texts ih =>
    have hline := h line List.mem_cons_self
    have hrest := ih fun l hl => h l (List.mem_cons_of_mem line hl)
    have hfeed : (line ++ "\n").toList = line.toList ++ ['\n'] := String.toList_append
    rw [List.map_cons, String.join_cons, String.toList_append, hfeed, List.append_assoc,
      List.singleton_append, Text.splitAtEach_append hline, hrest, List.map_cons, List.cons_append]

end Table

end CloudSecrets
