import CloudSecrets.Proofs.FileTree.Folders

/-!
# What the contents of files decide

Two trees have the same outline if they differ in the contents of their files at most. Every path
leads alike in both (`SameOutline.findAim`), so only reading a file tells them apart: links are
resolved to the same paths, the same folders are made, and writing a file fails alike or leaves it
with the same content in both (`SameOutline.makeFolders`, `SameOutline.write`).
-/

namespace CloudSecrets

namespace FileTree

variable {t t' : FileTree} {aim : Aim} {here : Location}

/-- Two trees have the same entries at the same locations, and as many of them, up to the contents of
files. Neither their order nor the open descriptors matter. -/
structure SameOutline (t t' : FileTree) : Prop where
  lookup : ∀ l, t'.lookup l = t.lookup l ∨
    ∃ c c', t.lookup l = some (.file c) ∧ t'.lookup l = some (.file c')
  size : t'.entries.length = t.entries.length

/-- Two ways end alike: at the same, or at files in the same place. -/
def SameEnd (r r' : Except FileCause Found) : Prop :=
  r' = r ∨ ∃ l c c', r = .ok (.entry l (.file c)) ∧ r' = .ok (.entry l (.file c'))

namespace SameOutline

/-! ## Following paths -/

theorem walkAcross (h : t.SameOutline t')
    {cross cross' : Location → String → List String → Except FileCause Found}
    (hcross : ∀ l target rest, SameEnd (cross l target rest) (cross' l target rest))
    (names : List String) :
    SameEnd (t.walkAcross aim cross here names) (t'.walkAcross aim cross' here names) := by
  induction names generalizing here with
  | nil => exact .inl rfl
  | cons name rest ih =>
    rw [FileTree.walkAcross, FileTree.walkAcross]
    split
    · exact ih
    split
    · exact ih
    split
    · exact .inl rfl
    split
    · exact .inl rfl
    dsimp only
    rcases h.lookup (here ++ [name]) with hsame | ⟨c, c', hold, hnew⟩
    · rw [hsame]
      cases t.lookup (here ++ [name]) with
      | none => exact .inl rfl
      | some e =>
        cases e with
        | folder => exact ih
        | link target =>
          dsimp only
          split
          · exact .inl rfl
          · exact hcross here target rest
        | file c => exact .inl rfl
        | device => exact .inl rfl
    · rw [hold, hnew]
      dsimp only
      split
      · exact .inr ⟨_, c, c', rfl, rfl⟩
      · exact .inl rfl

theorem walk (h : t.SameOutline t') (links : Nat) (names : List String) :
    SameEnd (t.walk aim links here names) (t'.walk aim links here names) := by
  induction links generalizing here names with
  | zero => exact h.walkAcross (fun _ _ _ => .inl rfl) names
  | succ links ih =>
    refine h.walkAcross (fun l target rest => ?_) names
    split
    · exact .inl rfl
    · exact ih _

theorem findAim (h : t.SameOutline t') (aim : Aim) (here : Location) (path : String) :
    SameEnd (t.findAim aim here path) (t'.findAim aim here path) := by
  rw [FileTree.findAim, FileTree.findAim]
  split
  · exact .inl rfl
  split
  · exact .inl rfl
  exact h.walk _ _

theorem find (h : t.SameOutline t') (here : Location) (path : String) :
    SameEnd (t.find here path) (t'.find here path) :=
  h.findAim .target here path

theorem exists?_eq (h : t.SameOutline t') (here : Location) (path : String) :
    t'.exists? here path = t.exists? here path := by
  rw [exists?, exists?]
  rcases h.find here path with hsame | ⟨l, c, c', hold, hnew⟩
  · rw [hsame]
  · rw [hold, hnew]

theorem isFile_eq (h : t.SameOutline t') (here : Location) (path : String) :
    t'.isFile here path = t.isFile here path := by
  rw [isFile, isFile]
  rcases h.find here path with hsame | ⟨l, c, c', hold, hnew⟩
  · rw [hsame]
  · rw [hold, hnew]

theorem isFolder_eq (h : t.SameOutline t') (here : Location) (path : String) :
    t'.isFolder here path = t.isFolder here path := by
  rw [isFolder, isFolder]
  rcases h.find here path with hsame | ⟨l, c, c', hold, hnew⟩
  · rw [hsame]
  · rw [hold, hnew]

theorem checked_eq {α : Type} (h : t.SameOutline t') (here : Location) (path : String)
    (answer : α) :
    t'.checked here path answer = t.checked here path answer := by
  rw [checked, checked]
  rcases h.find here path with hsame | ⟨l, c, c', hold, hnew⟩
  · rw [hsame]
  · rw [hold, hnew]

/-- What is read differs only where the path leads to a file. -/
theorem read_eq_or (h : t.SameOutline t') (here : Location) (path : String) :
    t'.read here path = t.read here path ∨ ∃ l c, t.find here path = .ok (.entry l (.file c)) := by
  rcases h.find here path with hsame | ⟨l, c, c', hold, -⟩
  · rw [FileTree.read, FileTree.read, hsame]
    exact .inl rfl
  · exact .inr ⟨l, c, hold⟩

/-! ## Canonical paths -/

theorem resolveWith_eq (h : t.SameOutline t') (here : Location)
    (enter : Entries Path (Option Path) → Path → List String → Option Progress)
    (seen : Entries Path (Option Path)) (folder : Path) (pieces : List String) :
    t'.resolveWith here enter seen folder pieces = t.resolveWith here enter seen folder pieces := by
  induction pieces generalizing seen folder with
  | nil => rfl
  | cons name rest ih =>
    rw [resolveWith, resolveWith]
    simp only [ih]
    rcases h.lookup ((folder.child name).location here) with hsame | ⟨c, c', hold, hnew⟩
    · rw [hsame]
    · rw [hold, hnew]

theorem resolve_eq (h : t.SameOutline t') (here : Location) (depth : Nat) :
    t'.resolve here depth = t.resolve here depth := by
  induction depth with
  | zero =>
    funext seen folder pieces
    exact h.resolveWith_eq here _ seen folder pieces
  | succ depth ih =>
    funext seen folder pieces
    rw [resolve, resolve, ih]
    exact h.resolveWith_eq here _ seen folder pieces

theorem canonical_eq (h : t.SameOutline t') (here : Location) (path : String) :
    t'.canonical here path = t.canonical here path := by
  rw [canonical, canonical, h.size, h.resolve_eq here]

/-! ## Putting entries -/

theorem put (h : t.SameOutline t') {l : Location} (hl : l ≠ []) (e : Entry) :
    (t.put l e).SameOutline (t'.put l e) := by
  refine ⟨fun m => ?_, ?_⟩
  · by_cases hm : l = m
    · subst hm
      exact .inl ((lookup_put_self hl t' e).trans (lookup_put_self hl t e).symm)
    · rw [lookup_put_of_ne hm, lookup_put_of_ne hm]
      exact h.lookup m
  · have hhas : Entries.has l t'.entries = Entries.has l t.entries := by
      rw [Entries.has, Entries.has, ← lookup_of_ne_nil hl, ← lookup_of_ne_nil hl]
      rcases h.lookup l with hsame | ⟨c, c', hold, hnew⟩
      · rw [hsame]
      · rw [hold, hnew]
        rfl
    rw [FileTree.put, FileTree.put, Entries.length_put, Entries.length_put, hhas, h.size]

/-- A file with another content leaves the outline as it is. -/
theorem put_file {l : Location} {c : Bytes} (hl : t.lookup l = some (.file c)) (c' : Bytes) :
    t.SameOutline (t.put l (.file c')) := by
  have hne : l ≠ [] := by
    rintro rfl
    cases hl
  refine ⟨fun m => ?_, ?_⟩
  · by_cases hm : l = m
    · subst hm
      exact .inr ⟨c, c', hl, lookup_put_self hne t _⟩
    · exact .inl (lookup_put_of_ne hm t _)
  · have hhas : Entries.has l t.entries = true := by
      rw [Entries.has, ← lookup_of_ne_nil hne, hl, Option.isSome_some]
    rw [FileTree.put, Entries.length_put, hhas, if_pos rfl]

/-! ## Making folders -/

/-- Two attempts fail alike or give trees of the same outline. -/
def Both (r r' : Except FileFault FileTree) : Prop :=
  (∃ fault, r = .error fault ∧ r' = .error fault) ∨
    ∃ u u', r = .ok u ∧ r' = .ok u' ∧ u.SameOutline u'

/-- Two attempts fail alike or succeed, and leave trees of the same outline. -/
def BothLeave (r r' : Except (FileFault × FileTree) FileTree) : Prop :=
  (∃ fault u u', r = .error (fault, u) ∧ r' = .error (fault, u') ∧ u.SameOutline u') ∨
    ∃ u u', r = .ok u ∧ r' = .ok u' ∧ u.SameOutline u'

theorem makeFolder (h : t.SameOutline t') (here : Location) (p : Path) :
    Both (t.makeFolder here p) (t'.makeFolder here p) := by
  rw [FileTree.makeFolder, FileTree.makeFolder]
  rcases h.findAim .entry here p.text with hsame | ⟨l, c, c', hold, hnew⟩
  · rw [findEntry, findEntry, hsame]
    cases hf : t.findAim .entry here p.text with
    | error cause => exact .inl ⟨_, rfl, rfl⟩
    | ok found =>
      cases found with
      | vacant l => exact .inr ⟨_, _, rfl, rfl, h.put (ne_nil_of_takes hf (.inl rfl)) _⟩
      | entry l e => exact .inl ⟨_, rfl, rfl⟩
  · rw [findEntry, findEntry, hold, hnew]
    exact .inl ⟨_, rfl, rfl⟩

theorem orPresent (h : t.SameOutline t') (here : Location) (p : Path) (fault : FileFault) :
    BothLeave (t.orPresent here p fault) (t'.orPresent here p fault) := by
  rw [FileTree.orPresent, FileTree.orPresent, h.isFolder_eq]
  split
  · exact .inr ⟨t, t', rfl, rfl, h⟩
  · exact .inl ⟨fault, t, t', rfl, rfl, h⟩

theorem makeFoldersFrom (h : t.SameOutline t') (here : Location) (root : String)
    (names : List String) :
    BothLeave (t.makeFoldersFrom here root names) (t'.makeFoldersFrom here root names) := by
  induction names with
  | nil =>
    rw [FileTree.makeFoldersFrom, FileTree.makeFoldersFrom]
    rcases h.makeFolder here ⟨root, []⟩ with ⟨fault, hold, hnew⟩ | ⟨u, u', hold, hnew, hu⟩
    · rw [hold, hnew]
      exact h.orPresent here _ fault
    · rw [hold, hnew]
      exact .inr ⟨u, u', rfl, rfl, hu⟩
  | cons name above ih =>
    rw [FileTree.makeFoldersFrom, FileTree.makeFoldersFrom]
    rcases h.makeFolder here ⟨root, (name :: above).reverse⟩ with
      ⟨fault, hold, hnew⟩ | ⟨u, u', hold, hnew, hu⟩
    · rw [hold, hnew]
      dsimp only
      split
      · rcases ih with ⟨upper, u, u', hold, hnew, hu⟩ | ⟨u, u', hold, hnew, hu⟩
        · rw [hold, hnew]
          exact .inl ⟨upper, u, u', rfl, rfl, hu⟩
        · rw [hold, hnew]
          simp only [bind, Except.bind]
          rcases hu.makeFolder here ⟨root, (name :: above).reverse⟩ with
            ⟨second, hold, hnew⟩ | ⟨v, v', hold, hnew, hv⟩
          · rw [hold, hnew]
            dsimp only
            split
            · exact .inl ⟨second, u, u', rfl, rfl, hu⟩
            · exact hu.orPresent here _ second
          · rw [hold, hnew]
            exact .inr ⟨v, v', rfl, rfl, hv⟩
      · exact h.orPresent here _ fault
    · rw [hold, hnew]
      exact .inr ⟨u, u', rfl, rfl, hu⟩

/-- The same folders are made, also where not all of them can be. -/
theorem makeFolders (h : t.SameOutline t') (here : Location) (p : Path) :
    BothLeave (t.makeFolders here p) (t'.makeFolders here p) :=
  h.makeFoldersFrom here p.root p.parts.reverse

/-! ## Writing -/

/-- Writing a file fails alike, and not because of a file that is there, or the path is read alike
afterwards. -/
theorem write (h : t.SameOutline t') (here : Location) (path : String) (content : Bytes) :
    (∃ fault, t.write here path content = .error fault ∧ t'.write here path content = .error fault ∧
        t'.read here path = t.read here path) ∨
      ∃ u u', t.write here path content = .ok u ∧ t'.write here path content = .ok u' ∧
        u.SameOutline u' ∧ u'.read here path = u.read here path := by
  have hput {l : Location} {f f' : Found} (hf : t.findAim .place here path = .ok f)
      (hf' : t'.findAim .place here path = .ok f') (hl : f.Takes l) (hl' : f'.Takes l) :
      (t.put l (.file content)).SameOutline (t'.put l (.file content)) ∧
        (t'.put l (.file content)).read here path = (t.put l (.file content)).read here path := by
    rw [read_put hf hl, read_put hf' hl']
    exact ⟨h.put (ne_nil_of_takes hf hl) _, rfl⟩
  -- Only what is read from a file can differ, and a file is always a place for one.
  have hread {r : Except FileCause Found} (hf : t.findAim .place here path = r)
      (hno : ∀ l c, r ≠ .ok (.entry l (.file c))) : t'.read here path = t.read here path := by
    rcases h.read_eq_or here path with hsame | ⟨l, c, hfile⟩
    · exact hsame
    · exact absurd (hf.symm.trans (place_of_find hfile)) (hno l c)
  rw [FileTree.write, FileTree.write]
  rcases h.findAim .place here path with hsame | ⟨l, c, c', hold, hnew⟩
  · rw [hsame]
    cases hf : t.findAim .place here path with
    | error cause => exact .inl ⟨_, rfl, rfl, hread hf fun _ _ he => by cases he⟩
    | ok found =>
      have hf' : t'.findAim .place here path = .ok found := hsame.trans hf
      cases found with
      | vacant l => exact .inr ⟨_, _, rfl, rfl, hput hf hf' (.inl rfl) (.inl rfl)⟩
      | entry l e =>
        cases e with
        | file c => exact .inr ⟨_, _, rfl, rfl, hput hf hf' (.inr ⟨c, rfl⟩) (.inr ⟨c, rfl⟩)⟩
        | folder => exact .inl ⟨_, rfl, rfl, hread hf fun _ _ he => by cases he⟩
        | link target => exact .inr ⟨t, t', rfl, rfl, h, hread hf fun _ _ he => by cases he⟩
        | device => exact .inr ⟨t, t', rfl, rfl, h, hread hf fun _ _ he => by cases he⟩
  · rw [hold, hnew]
    exact .inr ⟨_, _, rfl, rfl, hput hold hnew (.inr ⟨c, rfl⟩) (.inr ⟨c', rfl⟩)⟩

end SameOutline

end FileTree

end CloudSecrets
