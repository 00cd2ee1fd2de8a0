import CloudSecrets.Proofs.FileTree.Path

/-!
# Canonical paths

A path that is proper and leads down only is read back from its own text (`ofText_text`). The
canonical path of a text is the text of such a path, and it is absolute, so it can be stored as a
text and be read as the same path from every folder.
-/

namespace CloudSecrets

namespace Path

/-! ## Reading a text back -/

/-- The root of a text is what leads it, if no slash follows. -/
theorem rootOf_append {root : String} (hr : root = "" ∨ root = "/" ∨ root = "//") {rest : String}
    (h : rest.toList.head? ≠ some '/') : rootOf (root ++ rest) = root := by
  have hrest : rest.toList.takeWhile (· == '/') = [] := by
    cases hl : rest.toList with
    | nil => rfl
    | cons c cs =>
      rw [hl] at h
      have hc : ¬(c == '/') = true := fun he => h (congrArg some (eq_of_beq he))
      exact List.takeWhile_cons_of_neg hc
  rw [rootOf, String.toList_append]
  rcases hr with rfl | rfl | rfl
  · rw [show ("" : String).toList = [] from rfl, List.nil_append, hrest]
    rfl
  · rw [show ("/" : String).toList = ['/'] from rfl, List.singleton_append,
      List.takeWhile_cons_of_pos rfl, hrest]
    rfl
  · rw [show ("//" : String).toList = ['/', '/'] from rfl, List.cons_append, List.singleton_append,
      List.takeWhile_cons_of_pos rfl, List.takeWhile_cons_of_pos rfl, hrest]
    rfl

/-- Names between slashes do not begin with a slash. -/
theorem head?_intercalate {names : List String} (h : ∀ s ∈ names, ProperName s) :
    (String.intercalate "/" names).toList.head? ≠ some '/' := by
  cases names with
  | nil => exact nofun
  | cons name names =>
    obtain ⟨hne, hslash⟩ := h name List.mem_cons_self
    have hchars : name.toList ≠ [] := fun he => hne (String.toList_eq_nil_iff.mp he)
    have hhead : (String.intercalate "/" (name :: names)).toList.head? = name.toList.head? := by
      cases names with
      | nil => rw [String.intercalate_singleton]
      | cons next names =>
        rw [String.intercalate_cons_cons, String.append_assoc, String.toList_append,
          List.head?_append_of_ne_nil _ hchars]
    rw [hhead]
    intro he
    exact hslash (List.mem_of_mem_head? he)

/-- A proper path that leads down only is read back from its text. -/
theorem ofText_text {p : Path} (hp : p.Proper) (hs : p.Straight) : ofText p.text = p := by
  by_cases hparts : p.parts = []
  · obtain ⟨root, parts⟩ := p
    subst hparts
    rcases hp.root with hr | hr | hr
    all_goals
      rw [show root = _ from hr]
      rfl
  · have hkeep : p.parts.filter (· != ".") = p.parts := by
      rw [List.filter_eq_self]
      exact fun name hname => bne_iff_ne.mpr (hs name hname).1
    rw [ofText, pathNames_text hp hparts, hkeep, text_of_parts hparts,
      rootOf_append hp.root (head?_intercalate hp.parts)]

/-! ## Going up -/

theorem mem_follow {l : Location} {names : List String} {name : String}
    (h : name ∈ follow l names) : name ∈ l ∨ name ∈ names ∧ name ≠ ".." := by
  induction names generalizing l with
  | nil => exact .inl h
  | cons next names ih =>
    rcases ih h with hl | ⟨hn, hne⟩
    · dsimp only at hl
      split at hl
      · exact .inl (List.dropLast_subset _ hl)
      · rename_i hup
        rcases List.mem_append.mp hl with hl | hl
        · exact .inl hl
        · rw [List.mem_singleton.mp hl]
          exact .inr ⟨List.mem_cons_self, fun he => hup (by rw [he]; rfl)⟩
    · exact .inr ⟨List.mem_cons_of_mem _ hn, hne⟩

/-- What is left when every `..` has removed a name leads down only. -/
theorem lexical_ofText (s : String) :
    (ofText s).lexical.Proper ∧ (ofText s).lexical.Straight := by
  have hproper := proper_ofText s
  have hmem : ∀ name ∈ (ofText s).lexical.parts, name ∈ (ofText s).parts ∧ name ≠ ".." :=
    fun name hname => (mem_follow hname).resolve_left List.not_mem_nil
  refine ⟨⟨hproper.root, fun name hname => hproper.parts name (hmem name hname).1⟩, ?_⟩
  intro name hname
  obtain ⟨hin, hup⟩ := hmem name hname
  exact ⟨by simpa using (List.mem_filter.mp hin).2, hup⟩

end Path

/-! ## Canonical texts -/

/-- A text that is read as an absolute path and written by the path again. -/
structure Canonical (s : String) : Prop where
  text_ofText : (Path.ofText s).text = s
  absolute : (Path.ofText s).root ≠ ""

theorem Canonical.ne_empty {s : String} (h : Canonical s) : s ≠ "" := by
  rintro rfl
  exact h.absolute rfl

theorem rootOf_ne_empty {s : String} (h : s.toList.head? = some '/') : Path.rootOf s ≠ "" := by
  obtain ⟨cs, hs⟩ := List.head?_eq_some_iff.mp h
  rw [Path.rootOf, hs, List.takeWhile_cons_of_pos rfl]
  split
  · rename_i hlength
    cases hlength
  · decide
  · decide

/-- What a path continues is absolute if the path is. -/
theorem head?_continued {path : String} (h : path.toList.head? = some '/') (rest : String) :
    (Path.continued path rest).toList.head? = some '/' := by
  have hne : path.toList ≠ [] := by
    intro he
    rw [he] at h
    cases h
  rw [Path.continued]
  split
  · rename_i habsolute
    exact eq_of_beq habsolute
  · split
    · rw [String.toList_append, List.head?_append_of_ne_nil _ hne, h]
    · rw [String.append_assoc, String.toList_append, List.head?_append_of_ne_nil _ hne, h]

/-- Resolving the links of a path gives a canonical text. -/
theorem FileTree.canonical_canonical (t : FileTree) (here : Location) (path : String) :
    Canonical (t.canonical here path) := by
  have hhere : (Location.text here).toList.head? = some '/' := by
    rw [Location.text, String.toList_append]
    rfl
  rw [FileTree.canonical]
  generalize hwhole : Path.continued here.text _ = whole
  have hhead : whole.toList.head? = some '/' := hwhole ▸ head?_continued hhere _
  obtain ⟨hproper, hstraight⟩ := Path.lexical_ofText whole
  have hback := Path.ofText_text hproper hstraight
  exact ⟨by rw [hback], by rw [hback]; exact rootOf_ne_empty hhead⟩

end CloudSecrets
