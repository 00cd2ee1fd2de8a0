import CloudSecrets.Proofs.FileTree.Folders

/-!
# What making folders changes

Making folders changes nothing but that folders stand where nothing was, each where a path above the
one that is made leads (`grown_makeFolders`). If every name behind the folders that are there can be
given to a new entry it is all or nothing: either the folder is made, with the missing ones above
it, or the tree stays as it is (`makeFolders_of_makeable`).
-/

namespace CloudSecrets

/-- Whether a name can be given to a new entry. -/
def NewName (name : String) : Prop :=
  (name ≠ "." ∧ name ≠ "..") ∧ name.utf8ByteSize ≤ FileTree.longestName ∧ holdsNull name = false

instance (name : String) : Decidable (NewName name) :=
  inferInstanceAs (Decidable ((name ≠ "." ∧ name ≠ "..") ∧
    name.utf8ByteSize ≤ FileTree.longestName ∧ holdsNull name = false))

namespace FileTree

variable {t t' : FileTree} {aim : Aim} {here : Location}

/-! ## Growth -/

/-- Folders stand where nothing was, at locations of a kind, and nothing else has changed. -/
def Grown (P : Location → Prop) (t t' : FileTree) : Prop :=
  ∀ l, t'.lookup l = t.lookup l ∨ P l ∧ t.lookup l = none ∧ t'.lookup l = some .folder

namespace Grown

variable {P Q : Location → Prop}

theorem refl (P : Location → Prop) (t : FileTree) : Grown P t t := fun _ => .inl rfl

theorem mono (h : Grown P t t') (hpq : ∀ l, P l → Q l) : Grown Q t t' :=
  fun l => (h l).imp id fun ⟨hp, hl⟩ => ⟨hpq l hp, hl⟩

theorem trans {u : FileTree} (h : Grown P t t') (h' : Grown P t' u) : Grown P t u := by
  intro l
  rcases h' l with hsame | ⟨hp, hnone, hfolder⟩
  · rw [hsame]
    exact h l
  · rcases h l with hsame | ⟨-, -, hthere⟩
    · exact .inr ⟨hp, hsame.symm.trans hnone, hfolder⟩
    · rw [hthere] at hnone
      cases hnone

theorem put {l : Location} (hl : t.lookup l = none) (hp : P l) : Grown P t (t.put l .folder) := by
  intro m
  by_cases h : l = m
  · subst h
    have hne : l ≠ [] := by
      rintro rfl
      cases hl
    exact .inr ⟨hp, hl, lookup_put_self hne t _⟩
  · exact .inl (lookup_put_of_ne h t _)

end Grown

/-! ## What stays -/

/-- The folders and links of a tree stand in another one as well. -/
def Standing (t t' : FileTree) : Prop :=
  ∀ l e, t.lookup l = some e → (e = .folder ∨ ∃ target, e = .link target) → t'.lookup l = some e

theorem Standing.refl (t : FileTree) : Standing t t := fun _ _ h _ => h

theorem Grown.standing {P : Location → Prop} (h : Grown P t t') : Standing t t' := by
  intro l e he _
  rcases h l with hsame | ⟨-, hnone, -⟩
  · rw [hsame, he]
  · rw [he] at hnone
    cases hnone

/-- A file that is put where there was one, or nothing, takes the place of no folder or link. -/
theorem standing_put {l : Location} {content : Bytes}
    (hl : t.lookup l = none ∨ ∃ old, t.lookup l = some (.file old)) :
    Standing t (t.put l (.file content)) := by
  intro m e he hkind
  have hne : l ≠ m := by
    rintro rfl
    rcases hl with hl | ⟨old, hl⟩
    · rw [hl] at he
      cases he
    · rw [hl] at he
      cases he
      rcases hkind with hkind | ⟨target, hkind⟩
      · cases hkind
      · cases hkind
  rw [lookup_put_of_ne hne, he]

/-- Names that lead to a folder lead there only through folders and links. -/
theorem Leads.standing {links : Nat} {names : List String} {l : Location}
    (h : Leads t aim links here names (.entry l .folder)) (hs : Standing t t') :
    Leads t' aim links here names (.entry l .folder) := by
  generalize hf : Found.entry l .folder = found at h
  induction h with
  | arrived => exact .arrived
  | stay hn _ ih => exact .stay hn (ih hf)
  | up _ ih => exact .up (ih hf)
  | down hn hl _ ih => exact .down hn (hs _ _ hl (.inl rfl)) (ih hf)
  | vacant => cases hf
  | entry _ _ he _ =>
    cases hf
    exact absurd rfl he
  | across hn hl ha ht _ ih => exact .across hn (hs _ _ hl (.inr ⟨_, rfl⟩)) ha ht (ih hf)

theorem find_of_standing {path : String} {l : Location} (hs : Standing t t')
    (h : t.find here path = .ok (.entry l .folder)) : t'.find here path = .ok (.entry l .folder) := by
  obtain ⟨hne, hlen, hr⟩ := findAim_eq_ok_iff.mp h
  exact findAim_eq_ok_iff.mpr ⟨hne, hlen, hr.standing hs⟩

/-- A path leads to a folder at a location, or one above that path does. -/
def LeadsAbove (t : FileTree) (here : Location) (p : Path) (l : Location) : Prop :=
  ∃ names, names <+: p.parts ∧ t.find here (⟨p.root, names⟩ : Path).text = .ok (.entry l .folder)

theorem LeadsAbove.mono {p q : Path} {l : Location} (h : LeadsAbove t here p l)
    (hroot : p.root = q.root) (hparts : p.parts <+: q.parts) (hs : Standing t t') :
    LeadsAbove t' here q l := by
  obtain ⟨names, hprefix, hf⟩ := h
  rw [hroot] at hf
  exact ⟨names, hprefix.trans hparts, find_of_standing hs hf⟩

/-! ## Making folders -/

theorem grown_makeFolder {p : Path} (h : t.makeFolder here p = .ok t') :
    Grown (t'.LeadsAbove here p) t t' := by
  obtain ⟨l, hf⟩ := vacant_of_makeFolder h
  rw [makeFolder, hf] at h
  cases h
  refine .put ((findAim_eq_ok_iff.mp hf).2.2.lookup_eq.1 l rfl) ⟨p.parts, List.prefix_rfl, ?_⟩
  exact find_put hf (.inl rfl) fun _ h => Entry.noConfusion h

/-- The tree that an attempt to make folders leaves. -/
def remaining : Except (FileFault × FileTree) FileTree → FileTree
  | .ok t => t
  | .error (_, t) => t

theorem remaining_orPresent (p : Path) (fault : FileFault) : remaining (orPresent t here p fault) = t := by
  rw [orPresent]
  split <;> rfl

theorem grown_makeFoldersFrom (root : String) (names : List String) :
    Grown ((remaining (makeFoldersFrom here root names t)).LeadsAbove here ⟨root, names.reverse⟩) t
      (remaining (makeFoldersFrom here root names t)) := by
  induction names with
  | nil =>
    rw [makeFoldersFrom]
    cases hmake : t.makeFolder here ⟨root, []⟩ with
    | ok t₁ => exact grown_makeFolder hmake
    | error fault =>
      dsimp only
      rw [remaining_orPresent]
      exact .refl _ t
  | cons name above ih =>
    -- What the folders above have grown stays above when the last one is added.
    have hmore {t₁ t₂ : FileTree} (hg : Grown (t₁.LeadsAbove here ⟨root, above.reverse⟩) t t₁)
        (hs : Standing t₁ t₂) :
        Grown (t₂.LeadsAbove here ⟨root, (name :: above).reverse⟩) t t₁ := by
      have hparts : above.reverse <+: (name :: above).reverse := by
        rw [List.reverse_cons]
        exact List.prefix_append _ _
      exact hg.mono fun l hl => hl.mono rfl hparts hs
    rw [makeFoldersFrom]
    cases hmake : t.makeFolder here ⟨root, (name :: above).reverse⟩ with
    | ok t₁ => exact grown_makeFolder hmake
    | error fault =>
      dsimp only
      split
      · cases habove : makeFoldersFrom here root above t with
        | error failure =>
          rw [habove] at ih
          exact hmore ih (.refl _)
        | ok t₁ =>
          rw [habove] at ih
          simp only [bind, Except.bind]
          cases hsecond : t₁.makeFolder here ⟨root, (name :: above).reverse⟩ with
          | ok t₂ =>
            have hlast := grown_makeFolder hsecond
            exact (hmore ih hlast.standing).trans hlast
          | error second =>
            dsimp only
            split
            · exact hmore ih (.refl _)
            · rw [remaining_orPresent]
              exact hmore ih (.refl _)
      · rw [remaining_orPresent]
        exact .refl _ t

/-- Making folders only adds folders on the way, also where it fails. -/
theorem grown_makeFolders (t : FileTree) (here : Location) (p : Path) :
    Grown ((remaining (t.makeFolders here p)).LeadsAbove here p) t
      (remaining (t.makeFolders here p)) := by
  have h : Grown ((remaining (t.makeFolders here p)).LeadsAbove here
      ⟨p.root, p.parts.reverse.reverse⟩) t (remaining (t.makeFolders here p)) :=
    grown_makeFoldersFrom p.root p.parts.reverse
  rwa [List.reverse_reverse] at h

/-! ## A name in a folder -/

/-- A name that is looked up is also looked up in front of names of which the last is not empty. -/
theorem Looked.before {other : Aim} {name last : String} {rest : List String}
    (h : Looked aim name rest) (hlast : last ≠ "") (behind : List String) :
    Looked other name (behind ++ [last]) := by
  refine ⟨h.ne_empty, h.ne_dot, h.ne_dots, fun _ => ?_, h.short⟩
  have hempty : last.isEmpty = false := by
    simpa using hlast
  rw [asksForFolder, List.all_append, List.all_cons, hempty, Bool.false_and, Bool.and_false,
    Bool.and_false]

/-- A name behind names that lead to a folder leads where it does from the folder. -/
theorem Leads.concat {links : Nat} {names : List String} {l : Location}
    (h : Leads t .target links here names (.entry l .folder)) :
    ∃ n, ∀ {aim : Aim} {name : String} {f : Found}, name ≠ "" → Leads t aim n l [name] f →
      Leads t aim links here (names ++ [name]) f := by
  generalize hf : Found.entry l .folder = found at h
  induction h with
  | @arrived links here =>
    cases hf
    exact ⟨links, fun _ hl => hl⟩
  | stay hn hr ih =>
    obtain ⟨n, ih⟩ := ih hf
    exact ⟨n, fun hne hl => .stay hn (ih hne hl)⟩
  | up hr ih =>
    obtain ⟨n, ih⟩ := ih hf
    exact ⟨n, fun hne hl => .up (ih hne hl)⟩
  | down hn hlook hr ih =>
    obtain ⟨n, ih⟩ := ih hf
    exact ⟨n, fun hne hl => .down (hn.before hne _) hlook (ih hne hl)⟩
  | vacant hn hlook => cases hf
  | entry hn hlook he ha =>
    cases hf
    exact absurd rfl he
  | @across links here first target rest found hn hlook ha ht hr ih =>
    obtain ⟨n, ih⟩ := ih hf
    refine ⟨n, fun {aim name f} hne hl => ?_⟩
    have hbehind := ih hne hl
    rw [List.append_assoc] at hbehind
    exact .across (hn.before hne rest) hlook
      (fun _ => List.append_ne_nil_of_right_ne_nil _ (List.cons_ne_nil _ _)) ht hbehind

/-- A name that nothing has in a folder leads to its vacant place there. -/
theorem findAim_child {p : Path} (hp : p.Proper) (hparts : p.parts ≠ []) {name : String}
    (hname : ProperName name) (hnew : NewName name)
    (hlen : (p.child name).text.utf8ByteSize ≤ longestPath) {d : Location}
    (hf : t.find here p.text = .ok (.entry d .folder)) (hnone : t.lookup (d ++ [name]) = none) :
    t.findAim aim here (p.child name).text = .ok (.vacant (d ++ [name])) := by
  have hchild : (p.child name).parts ≠ [] :=
    List.append_ne_nil_of_right_ne_nil _ (List.cons_ne_nil _ _)
  obtain ⟨hdots, hshort, -⟩ := hnew
  obtain ⟨-, -, hr⟩ := findAim_eq_ok_iff.mp hf
  rw [Path.steps_text hp hparts] at hr
  obtain ⟨n, hlast⟩ := hr.concat
  refine findAim_eq_ok_iff.mpr ⟨Path.text_ne_empty (hp.child hname) hchild, hlen, ?_⟩
  rw [Path.steps_text (hp.child hname) hchild, Path.start_child hp hparts]
  exact hlast hname.1 (.vacant ⟨hname.1, hdots.1, hdots.2, fun _ => rfl, hshort⟩ hnone)

/-! ## All or nothing -/

/-- Whether what is missing of a path can be made: all names behind a folder that is there can be
given to new entries. -/
def Makeable (t : FileTree) (here : Location) (p : Path) : Prop :=
  ∃ base rest, p.parts = base ++ rest ∧ t.isFolder here (⟨p.root, base⟩ : Path).text = true ∧
    ∀ name ∈ rest, NewName name

/-- A root is there, so any path of new names can be made. -/
theorem makeable_of_newNames {p : Path} (hp : p.Proper) (h : ∀ name ∈ p.parts, NewName name) :
    t.Makeable here p := by
  have hroot : (⟨p.root, []⟩ : Path).Proper := ⟨hp.root, List.forall_mem_nil _⟩
  exact ⟨[], p.parts, rfl, isFolder_root hroot rfl, h⟩

theorem Makeable.child {p : Path} (h : t.Makeable here p) {name : String} (hn : NewName name) :
    t.Makeable here (p.child name) := by
  obtain ⟨base, rest, hparts, hfolder, hnew⟩ := h
  refine ⟨base, rest ++ [name], ?_, hfolder, fun s hs => ?_⟩
  · rw [← List.append_assoc, ← hparts]
    rfl
  · rcases List.mem_append.mp hs with hs | hs
    · exact hnew s hs
    · rw [List.mem_singleton.mp hs]
      exact hn

/-- The last name of a folder that is not there is a new one. -/
theorem Makeable.of_child {p : Path} {name : String} (h : t.Makeable here (p.child name))
    (hno : t.isFolder here (p.child name).text = false) : t.Makeable here p ∧ NewName name := by
  obtain ⟨base, rest, hparts, hfolder, hnew⟩ := h
  rcases List.eq_nil_or_concat rest with rfl | ⟨front, last, rfl⟩
  · have hbase : base = (p.child name).parts := by rw [hparts, List.append_nil]
    rw [hbase] at hfolder
    exact absurd hfolder (Bool.eq_false_iff.mp hno)
  · rw [List.concat_eq_append] at hparts hnew
    obtain ⟨hfront, hlast⟩ := List.append_inj' (hparts.trans (List.append_assoc ..).symm) rfl
    obtain rfl : name = last := List.cons.inj hlast |>.1
    exact ⟨⟨base, front, hfront, hfolder, fun s hs => hnew s (List.mem_append_left _ hs)⟩,
      hnew name List.mem_concat_self⟩

/-- A folder has been made: it holds nothing, and only it and folders that hold it are new. -/
structure Made (t t' : FileTree) (here : Location) (p : Path) (d : Location) : Prop where
  find : t'.find here p.text = .ok (.entry d .folder)
  bare : ∀ name rest, t'.lookup (d ++ name :: rest) = none
  grown : Grown (· <+: d) t t'

/-- A folder that is made at a vacant place below which nothing is. -/
theorem made_put {p : Path} {l : Location} (hf : t.findEntry here p.text = .ok (.vacant l))
    (hbelow : ∀ names, t.lookup (l ++ names) = none) : Made t (t.put l .folder) here p l := by
  refine ⟨find_put hf (.inl rfl) nofun, fun name rest => ?_, .put ?_ List.prefix_rfl⟩
  · rw [lookup_put_of_ne ?_]
    · exact hbelow (name :: rest)
    · exact fun he => List.cons_ne_nil name rest (List.self_eq_append_right.mp he)
  · have hself := hbelow []
    rwa [List.append_nil] at hself

/-- A folder that is made in one that has been made. -/
theorem Made.child {p : Path} {d : Location} {name : String} (h : Made t t' here p d)
    (hf : t'.findEntry here (p.child name).text = .ok (.vacant (d ++ [name]))) :
    Made t (t'.put (d ++ [name]) .folder) here (p.child name) (d ++ [name]) := by
  have hput : Made t' (t'.put (d ++ [name]) .folder) here (p.child name) (d ++ [name]) := by
    refine made_put hf fun names => ?_
    rw [List.append_assoc]
    exact h.bare name names
  have habove : Grown (· <+: d ++ [name]) t t' :=
    h.grown.mono fun l hl => hl.trans (List.prefix_append d [name])
  exact ⟨hput.find, hput.bare, habove.trans hput.grown⟩

theorem makeFoldersFrom_of_makeable (ht : t.Closed) {root : String} {names : List String}
    {p : Path} (hpath : p = ⟨root, names.reverse⟩) (hp : p.Proper) (hm : t.Makeable here p)
    (hlen : p.text.utf8ByteSize ≤ longestPath) (hno : t.isFolder here p.text = false) :
    (∃ fault, makeFoldersFrom here root names t = .error (fault, t)) ∨
      ∃ t' d, makeFoldersFrom here root names t = .ok t' ∧ Made t t' here p d := by
  -- From the last name up: where the folder above had to be made, the name is vacant in it.
  induction names generalizing p with
  | nil =>
    subst hpath
    rw [isFolder_root hp rfl] at hno
    cases hno
  | cons name above ih =>
    have hself : (⟨root, (name :: above).reverse⟩ : Path) = p := hpath.symm
    rw [makeFoldersFrom, hself]
    cases hmake : t.makeFolder here p with
    | ok t₁ =>
      obtain ⟨l, hf⟩ := vacant_of_makeFolder hmake
      have hnone : t.lookup l = none := (findAim_eq_ok_iff.mp hf).2.2.lookup_eq.1 l rfl
      rw [makeFolder, hf] at hmake
      cases hmake
      exact .inr ⟨_, l, rfl, made_put hf (ht.lookup_below hnone)⟩
    | error fault =>
      simp only [orPresent_of_not hno]
      split
      case isFalse => exact .inl ⟨fault, rfl⟩
      case isTrue hmissing =>
        let q : Path := ⟨root, above.reverse⟩
        have hchild : p = q.child name := by
          rw [hpath, List.reverse_cons]
          rfl
        rw [hchild] at hp hm hlen hno
        obtain ⟨hmq, hnew⟩ := hm.of_child hno
        have hname : ProperName name := hp.parts name List.mem_concat_self
        cases hfolder : t.isFolder here q.text with
        | true =>
          -- The second attempt fails like the first.
          have hsame : t.makeFolders here q = .ok t := makeFolders_of_isFolder hfolder
          rw [makeFolders, List.reverse_reverse] at hsame
          rw [hsame]
          refine .inl ⟨fault, ?_⟩
          simp only [bind, Except.bind, hmake, hmissing, if_true]
        | false =>
          have hparts : q.parts ≠ [] := by
            intro he
            rw [isFolder_root hp.of_child he] at hfolder
            cases hfolder
          have hshorter : q.text.utf8ByteSize ≤ longestPath := by
            rw [Path.text_child hparts, String.utf8ByteSize_append] at hlen
            omega
          rcases ih rfl hp.of_child hmq hshorter hfolder with
            ⟨above, habove⟩ | ⟨t₁, d, habove, hmade⟩
          · rw [habove]
            exact .inl ⟨above, rfl⟩
          · have hf : t₁.findEntry here (q.child name).text = .ok (.vacant (d ++ [name])) :=
              findAim_child hp.of_child hparts hname hnew hlen hmade.find (hmade.bare name [])
            have hsecond : t₁.makeFolder here p = .ok (t₁.put (d ++ [name]) .folder) := by
              rw [makeFolder, hchild, hf]
            rw [habove]
            refine .inr ⟨_, d ++ [name], ?_, hchild ▸ hmade.child hf⟩
            simp only [bind, Except.bind, hsecond]

/-- In a closed tree a folder that is not there, but can be made, is made, or the tree stays as it
is. -/
theorem makeFolders_of_makeable (ht : t.Closed) {p : Path} (hp : p.Proper) (hm : t.Makeable here p)
    (hlen : p.text.utf8ByteSize ≤ longestPath) (hno : t.isFolder here p.text = false) :
    (∃ fault, t.makeFolders here p = .error (fault, t)) ∨
      ∃ t' d, t.makeFolders here p = .ok t' ∧ Made t t' here p d := by
  refine makeFoldersFrom_of_makeable ht ?_ hp hm hlen hno
  rw [List.reverse_reverse]

end FileTree

end CloudSecrets
