import CloudSecrets.FileTree.Lookup
import Mathlib.Data.List.Basic

/-!
# The names in the text of a path

A path whose parts are proper names leads along these names when it is followed through its text
(`steps_text`), and every path that is read from a text is such a path.
-/

namespace CloudSecrets

namespace Text

variable {sep : Char}

theorem splitAtEach_ne_nil (cs : List Char) : splitAtEach sep cs ≠ [] := by
  cases cs with
  | nil => exact List.cons_ne_nil _ _
  | cons c cs =>
    rw [splitAtEach]
    split
    · exact List.cons_ne_nil _ _
    · split
      · exact List.cons_ne_nil _ _
      · exact List.cons_ne_nil _ _

/-- A separator starts a new piece. -/
theorem splitAtEach_cons_self (cs : List Char) :
    splitAtEach sep (sep :: cs) = [] :: splitAtEach sep cs := by
  rw [splitAtEach]
  split
  · rename_i h
    exact absurd h (splitAtEach_ne_nil cs)
  · rename_i h
    rw [beq_self_eq_true, if_pos rfl, h]

/-- Any other character goes on with the first piece. -/
theorem splitAtEach_cons_of_ne {c : Char} (hc : c ≠ sep) {cs p : List Char} {ps : List (List Char)}
    (h : splitAtEach sep cs = p :: ps) : splitAtEach sep (c :: cs) = (c :: p) :: ps := by
  rw [splitAtEach, h, beq_eq_false_iff_ne.mpr hc]
  rfl

/-- A text without the separator is one piece. -/
theorem splitAtEach_of_notMem {cs : List Char} (h : sep ∉ cs) : splitAtEach sep cs = [cs] := by
  induction cs with
  | nil => rfl
  | cons c cs ih =>
    rw [List.mem_cons, not_or] at h
    exact splitAtEach_cons_of_ne (Ne.symm h.1) (ih h.2)

theorem splitAtEach_append {a : List Char} (h : sep ∉ a) (b : List Char) :
    splitAtEach sep (a ++ sep :: b) = a :: splitAtEach sep b := by
  induction a with
  | nil => exact splitAtEach_cons_self b
  | cons c a ih =>
    rw [List.mem_cons, not_or] at h
    exact splitAtEach_cons_of_ne (Ne.symm h.1) (ih h.2)

/-- No piece holds the separator. -/
theorem notMem_of_mem_splitAtEach {cs p : List Char} (h : p ∈ splitAtEach sep cs) : sep ∉ p := by
  induction cs generalizing p with
  | nil =>
    rw [List.mem_singleton.mp h]
    exact List.not_mem_nil
  | cons c cs ih =>
    have hne : splitAtEach sep cs ≠ [] := splitAtEach_ne_nil cs
    obtain ⟨q, qs, hq⟩ := List.exists_cons_of_ne_nil hne
    by_cases hc : c = sep
    · subst hc
      rw [splitAtEach_cons_self] at h
      rcases List.mem_cons.mp h with rfl | h
      · exact List.not_mem_nil
      · exact ih h
    · rw [splitAtEach_cons_of_ne hc hq] at h
      rcases List.mem_cons.mp h with rfl | h
      · rw [List.mem_cons, not_or]
        exact ⟨Ne.symm hc, ih (hq ▸ List.mem_cons_self)⟩
      · exact ih (hq ▸ List.mem_cons_of_mem _ h)

end Text

/-! ## Names -/

/-- Whether a text can be the name of an entry. -/
def ProperName (s : String) : Prop := s ≠ "" ∧ '/' ∉ s.toList

theorem properName_of_mem_pathNames {s name : String} (h : name ∈ pathNames s) :
    ProperName name := by
  obtain ⟨hp, hne⟩ := List.mem_filter.mp h
  obtain ⟨p, hm, rfl⟩ := List.mem_map.mp hp
  refine ⟨fun he => by simp [he] at hne, ?_⟩
  rw [String.toList_ofList]
  exact Text.notMem_of_mem_splitAtEach hm

/-- A leading slash adds no name. -/
theorem pathNames_slash (s : String) : pathNames ("/" ++ s) = pathNames s := by
  have hs : ("/" ++ s).toList = '/' :: s.toList := by
    rw [String.toList_append]
    rfl
  rw [pathNames, pathPieces, hs, Text.splitAtEach_cons_self]
  rfl

/-- The names between slashes are those that were joined. -/
theorem pathNames_intercalate {names : List String} (h : ∀ s ∈ names, ProperName s) :
    pathNames (String.intercalate "/" names) = names := by
  induction names with
  | nil => rfl
  | cons name names ih =>
    have hname := h name List.mem_cons_self
    have hrest := ih fun s hs => h s (List.mem_cons_of_mem _ hs)
    have hkeep : (!name.isEmpty) = true := by
      simpa using hname.1
    cases names with
    | nil =>
      rw [String.intercalate_singleton, pathNames, pathPieces, Text.splitAtEach_of_notMem hname.2,
        List.map_singleton, String.ofList_toList, List.filter_cons, if_pos hkeep, List.filter_nil]
    | cons next names =>
      have hjoin : (String.intercalate "/" (name :: next :: names)).toList =
          name.toList ++ '/' :: (String.intercalate "/" (next :: names)).toList := by
        rw [String.intercalate_cons_cons, String.toList_append, String.toList_append,
          List.append_assoc]
        rfl
      rw [pathNames, pathPieces, hjoin, Text.splitAtEach_append hname.2, List.map_cons,
        String.ofList_toList, List.filter_cons, if_pos hkeep]
      exact congrArg (name :: ·) hrest

namespace Path

/-- Whether a path can be followed through its text: its root is one of the three, and its parts are
names. -/
structure Proper (p : Path) : Prop where
  root : p.root = "" ∨ p.root = "/" ∨ p.root = "//"
  parts : ∀ s ∈ p.parts, ProperName s

theorem proper_ofText (s : String) : (ofText s).Proper := by
  refine ⟨?_, fun name hname => ?_⟩
  · rw [show (ofText s).root = rootOf s from rfl, rootOf]
    split
    · exact .inl rfl
    · exact .inr (.inr rfl)
    · exact .inr (.inl rfl)
  · exact properName_of_mem_pathNames (List.mem_filter.mp hname).1

theorem Proper.child {p : Path} (h : p.Proper) {name : String} (hn : ProperName name) :
    (p.child name).Proper := by
  refine ⟨h.root, fun s hs => ?_⟩
  rcases List.mem_append.mp hs with hs | hs
  · exact h.parts s hs
  · rw [List.mem_singleton.mp hs]
    exact hn

theorem Proper.of_child {p : Path} {name : String} (h : (p.child name).Proper) : p.Proper :=
  ⟨h.root, fun s hs => h.parts s (List.mem_append_left _ hs)⟩

/-- Whether a path leads down only. -/
def Straight (p : Path) : Prop := ∀ name ∈ p.parts, name ≠ "." ∧ name ≠ ".."

/-- A path that is read from a text leads up only where the text says so. -/
theorem straight_ofText {s : String} (h : ".." ∉ (ofText s).parts) : (ofText s).Straight := by
  intro name hname
  refine ⟨?_, fun he => h (he ▸ hname)⟩
  have hdot := (List.mem_filter.mp hname).2
  simpa using hdot

theorem Straight.child {p : Path} (h : p.Straight) {name : String}
    (hn : name ≠ "." ∧ name ≠ "..") : (p.child name).Straight := by
  intro s hs
  rcases List.mem_append.mp hs with hs | hs
  · exact h s hs
  · rw [List.mem_singleton.mp hs]
    exact hn

theorem Straight.of_child {p : Path} {name : String} (h : (p.child name).Straight) :
    p.Straight :=
  fun s hs => h s (List.mem_append_left _ hs)

/-- The text of a path with parts is its root and the parts between slashes. -/
theorem text_of_parts {p : Path} (h : p.parts ≠ []) :
    p.text = p.root ++ String.intercalate "/" p.parts := by
  rw [text, if_neg]
  rw [List.isEmpty_eq_false_iff.mpr h, Bool.and_false]
  exact Bool.false_ne_true

theorem pathNames_text {p : Path} (h : p.Proper) (hp : p.parts ≠ []) :
    pathNames p.text = p.parts := by
  have hnames := pathNames_intercalate h.parts
  rw [text_of_parts hp]
  rcases h.root with hr | hr | hr
  · rw [hr, String.empty_append, hnames]
  · rw [hr, pathNames_slash, hnames]
  · rw [hr, show "//" = "/" ++ "/" from rfl, String.append_assoc, pathNames_slash,
      pathNames_slash, hnames]

/-- The text of a path in a folder that has a name is that of the folder, a slash and its name. -/
theorem text_child {p : Path} (hp : p.parts ≠ []) (name : String) :
    (p.child name).text = p.text ++ ("/" ++ name) := by
  have hjoin : ∀ names : List String, names ≠ [] →
      String.intercalate "/" (names ++ [name]) = String.intercalate "/" names ++ ("/" ++ name) := by
    intro names
    induction names with
    | nil => exact fun h => absurd rfl h
    | cons first names ih =>
      intro _
      cases names with
      | nil => rw [List.singleton_append, String.intercalate_cons_cons,
          String.intercalate_singleton, String.intercalate_singleton, String.append_assoc]
      | cons second names =>
        rw [List.cons_append, List.cons_append, String.intercalate_cons_cons, ← List.cons_append,
          ih (List.cons_ne_nil _ _), String.intercalate_cons_cons, String.append_assoc,
          String.append_assoc, String.append_assoc]
  have hchild : (p.child name).parts ≠ [] :=
    List.append_ne_nil_of_right_ne_nil _ (List.cons_ne_nil _ _)
  rw [text_of_parts hchild, text_of_parts hp, child, hjoin _ hp, String.append_assoc]

/-- The text of names ends with a character that is no slash. -/
theorem getLast?_intercalate {names : List String} (h : ∀ s ∈ names, ProperName s)
    (hne : names ≠ []) :
    ∃ c, (String.intercalate "/" names).toList.getLast? = some c ∧ c ≠ '/' := by
  induction names with
  | nil => exact absurd rfl hne
  | cons name names ih =>
    cases names with
    | nil =>
      obtain ⟨hname, hslash⟩ := h name List.mem_cons_self
      have hchars : name.toList ≠ [] := fun he => hname (String.toList_eq_nil_iff.mp he)
      refine ⟨name.toList.getLast hchars, ?_, ?_⟩
      · rw [String.intercalate_singleton, List.getLast?_eq_some_getLast]
      · exact fun he => hslash (he ▸ List.getLast_mem hchars)
    | cons next names =>
      obtain ⟨c, hc, hslash⟩ := ih (fun s hs => h s (List.mem_cons_of_mem _ hs))
        (List.cons_ne_nil _ _)
      refine ⟨c, ?_, hslash⟩
      rw [String.intercalate_cons_cons, String.toList_append, List.getLast?_append, hc]
      rfl

theorem getLast?_text {p : Path} (h : p.Proper) (hp : p.parts ≠ []) :
    ∃ c, p.text.toList.getLast? = some c ∧ c ≠ '/' := by
  obtain ⟨c, hc, hslash⟩ := getLast?_intercalate h.parts hp
  refine ⟨c, ?_, hslash⟩
  rw [text_of_parts hp, String.toList_append, List.getLast?_append, hc]
  rfl

theorem text_ne_empty {p : Path} (h : p.Proper) (hp : p.parts ≠ []) : p.text ≠ "" := by
  obtain ⟨c, hc, -⟩ := getLast?_text h hp
  intro he
  rw [he] at hc
  cases hc

/-- A path with parts is followed along its parts. -/
theorem steps_text {p : Path} (h : p.Proper) (hp : p.parts ≠ []) :
    FileTree.steps p.text = p.parts := by
  obtain ⟨c, hc, hslash⟩ := getLast?_text h hp
  have hno : (some c == some '/') = false := beq_eq_false_iff_ne.mpr (by simpa using hslash)
  rw [FileTree.steps, hc, hno, pathNames_text h hp]
  exact List.append_nil _

/-- A path in a folder that has a name starts where the folder's path does. -/
theorem start_child {p : Path} (h : p.Proper) (hp : p.parts ≠ []) (here : Location)
    (name : String) : FileTree.start here (p.child name).text = FileTree.start here p.text := by
  have hne : p.text.toList ≠ [] := fun he => text_ne_empty h hp (String.toList_eq_nil_iff.mp he)
  rw [FileTree.start, FileTree.start, text_child hp, String.toList_append,
    List.head?_append_of_ne_nil _ hne]

end Path

end CloudSecrets
