import CloudSecrets.Proofs.FileTree.Lookup

/-!
# Making folders

A path leads somewhere only through folders. Making a folder that is there changes nothing, and one
that was not there holds nothing when it is made (`bare_of_makeFolders`), provided that every entry
of the tree stands in a folder and the path does not lead up.
-/

namespace CloudSecrets.FileTree

variable {t t' : FileTree} {aim : Aim} {here : Location} {f : Found}

/-! ## Closed trees -/

theorem lookup_of_ne_nil {l : Location} (h : l ≠ []) : t.lookup l = Entries.get? l t.entries := by
  cases l with
  | nil => exact absurd rfl h
  | cons name l => rfl

/-- A tree is closed if every entry stands in a folder. -/
def Closed (t : FileTree) : Prop := ∀ e ∈ t.entries, t.lookup e.1.parent = some .folder

instance (t : FileTree) : Decidable t.Closed :=
  List.decidableBAll (fun e : Location × Entry => t.lookup e.1.parent = some .folder) t.entries

/-- Where there is nothing, there is nothing below either. -/
theorem Closed.lookup_below (h : t.Closed) {l : Location} (hl : t.lookup l = none)
    (names : List String) : t.lookup (l ++ names) = none := by
  induction names generalizing l with
  | nil => rwa [List.append_nil]
  | cons name names ih =>
    have hnext : t.lookup (l ++ [name]) = none := by
      rw [lookup_of_ne_nil (List.append_ne_nil_of_right_ne_nil _ (List.cons_ne_nil _ _)),
        Entries.get?_eq_none_iff]
      intro hkey
      obtain ⟨e, he, heq⟩ := List.mem_map.mp hkey
      have hparent := h e he
      rw [heq, Location.parent, List.dropLast_concat, hl] at hparent
      cases hparent
    rw [List.append_cons]
    exact ih hnext

/-! ## The folder that holds an entry -/

/-- Names lead somewhere only if those in front of the last lead to a folder, from which the last
one goes on. -/
theorem Leads.last {links : Nat} {names : List String} {name : String}
    (h : Leads t aim links here (names ++ [name]) f) :
    ∃ n l, Leads t .target links here names (.entry l .folder) ∧ Leads t aim n l [name] f := by
  generalize hall : names ++ [name] = all at h
  -- The path of a link stands in front of the names behind it, so the names in front may change.
  induction h generalizing names with
  | arrived => exact absurd hall (List.append_ne_nil_of_right_ne_nil _ (List.cons_ne_nil _ _))
  | @stay links here first rest f hn hr ih =>
    cases names with
    | nil =>
      cases hall
      exact ⟨links, here, .arrived, .stay hn hr⟩
    | cons head names =>
      obtain ⟨rfl, hrest⟩ := List.cons.inj hall
      obtain ⟨n, l, hfolder, hlast⟩ := ih hrest
      exact ⟨n, l, .stay hn hfolder, hlast⟩
  | @up links here rest f hr ih =>
    cases names with
    | nil =>
      cases hall
      exact ⟨links, here, .arrived, .up hr⟩
    | cons head names =>
      obtain ⟨rfl, hrest⟩ := List.cons.inj hall
      obtain ⟨n, l, hfolder, hlast⟩ := ih hrest
      exact ⟨n, l, .up hfolder, hlast⟩
  | @down links here first rest f hn hlook hr ih =>
    cases names with
    | nil =>
      cases hall
      exact ⟨links, here, .arrived, .down hn hlook hr⟩
    | cons head names =>
      obtain ⟨rfl, hrest⟩ := List.cons.inj hall
      obtain ⟨n, l, hfolder, hlast⟩ := ih hrest
      exact ⟨n, l, .down (hn.of_ne_place nofun) hlook hfolder, hlast⟩
  | @vacant links here first hn hlook =>
    cases names with
    | nil =>
      cases hall
      exact ⟨links, here, .arrived, .vacant hn hlook⟩
    | cons head names =>
      obtain ⟨-, hrest⟩ := List.cons.inj hall
      exact absurd hrest (List.append_ne_nil_of_right_ne_nil _ (List.cons_ne_nil _ _))
  | @entry links here first e hn hlook he ha =>
    cases names with
    | nil =>
      cases hall
      exact ⟨links, here, .arrived, .entry hn hlook he ha⟩
    | cons head names =>
      obtain ⟨-, hrest⟩ := List.cons.inj hall
      exact absurd hrest (List.append_ne_nil_of_right_ne_nil _ (List.cons_ne_nil _ _))
  | @across links here first target rest f hn hlook ha ht hr ih =>
    cases names with
    | nil =>
      cases hall
      exact ⟨links + 1, here, .arrived, .across hn hlook ha ht hr⟩
    | cons head names =>
      obtain ⟨rfl, hrest⟩ := List.cons.inj hall
      have hlonger : (steps target ++ names) ++ [name] = steps target ++ rest := by
        rw [List.append_assoc]
        exact congrArg (steps target ++ ·) hrest
      obtain ⟨n, l, hfolder, hlast⟩ := ih hlonger
      exact ⟨n, l, .across (hn.of_ne_place nofun) hlook nofun ht hfolder, hlast⟩

/-- A name that nothing has leads to its vacant place. -/
theorem Leads.eq_vacant {links : Nat} {name : String} (h : Leads t aim links here [name] f)
    (hn : ProperName name) (hd : name ≠ "." ∧ name ≠ "..")
    (hl : t.lookup (here ++ [name]) = none) : f = .vacant (here ++ [name]) := by
  cases h with
  | stay hskip hr =>
    rcases hskip with hskip | hskip
    · exact absurd hskip hn.1
    · exact absurd hskip hd.1
  | up hr => exact absurd rfl hd.2
  | down _ hlook _ => exact absurd (hl.symm.trans hlook) nofun
  | vacant _ _ => rfl
  | entry _ hlook _ _ => exact absurd (hl.symm.trans hlook) nofun
  | across _ hlook _ _ _ => exact absurd (hl.symm.trans hlook) nofun

/-- Names in front of trailing slashes lead to a folder. -/
theorem Leads.folder_of_asks {links : Nat} {names rest : List String}
    (h : Leads t aim links here (names ++ rest) f) (hrest : asksForFolder rest = true) :
    ∃ l, f = .entry l .folder := by
  rw [asksForFolder, Bool.and_eq_true, List.all_eq_true] at hrest
  obtain ⟨hne, hall⟩ := hrest
  rcases List.eq_nil_or_concat rest with rfl | ⟨before, last, rfl⟩
  · cases hne
  · rw [List.concat_eq_append] at h hall
    have hlast : last = "" := by
      simpa using hall last List.mem_concat_self
    rw [← List.append_assoc] at h
    obtain ⟨n, l, -, hend⟩ := h.last
    cases hend with
    | stay _ hr =>
      cases hr
      exact ⟨l, rfl⟩
    | up _ => exact absurd hlast (by decide)
    | down hn _ _ => exact absurd hlast hn.ne_empty
    | vacant hn _ => exact absurd hlast hn.ne_empty
    | entry hn _ _ _ => exact absurd hlast hn.ne_empty
    | across hn _ _ _ _ => exact absurd hlast hn.ne_empty

/-- Names that lead to a file lead to it as a place for a file. -/
theorem Leads.place_of_file {links : Nat} {names : List String} {l : Location} {c : Bytes}
    (h : Leads t .target links here names (.entry l (.file c))) :
    Leads t .place links here names (.entry l (.file c)) := by
  generalize hf : Found.entry l (.file c) = f at h
  have hplace {name : String} {rest : List String} (hn : Looked .target name rest)
      (hrest : asksForFolder rest ≠ true) : Looked .place name rest :=
    ⟨hn.ne_empty, hn.ne_dot, hn.ne_dots, fun _ => Bool.eq_false_iff.mpr hrest, hn.short⟩
  induction h with
  | arrived => cases hf
  | stay hn hr ih => exact .stay hn (ih hf)
  | up hr ih => exact .up (ih hf)
  | @down links here name rest f hn hl hr ih =>
    refine .down (hplace hn fun hrest => ?_) hl (ih hf)
    have hbehind : Leads t .target links (here ++ [name]) ([] ++ rest) f := hr
    obtain ⟨m, hm⟩ := hbehind.folder_of_asks hrest
    rw [← hf] at hm
    cases hm
  | vacant hn hl => cases hf
  | entry hn hl he ha =>
    exact .entry (hplace hn Bool.false_ne_true) hl he fun target hlink => nomatch ha target hlink
  | across hn hl ha ht hr ih =>
    refine .across (hplace hn fun hrest => ?_) hl nofun ht (ih hf)
    obtain ⟨m, hm⟩ := hr.folder_of_asks hrest
    rw [← hf] at hm
    cases hm

/-- A path that leads to a file leads to it as a place for a file. -/
theorem place_of_find {path : String} {l : Location} {c : Bytes}
    (h : t.find here path = .ok (.entry l (.file c))) :
    t.findAim .place here path = .ok (.entry l (.file c)) := by
  obtain ⟨hne, hlen, hr⟩ := findAim_eq_ok_iff.mp h
  exact findAim_eq_ok_iff.mpr ⟨hne, hlen, hr.place_of_file⟩

/-- A path in a named folder leads somewhere only if the folder is there, and its name goes on from
there. -/
theorem find_of_child {p : Path} (h : p.Proper) (hp : p.parts ≠ []) {name : String}
    (hn : ProperName name) (hf : t.findAim aim here (p.child name).text = .ok f) :
    ∃ n l, t.find here p.text = .ok (.entry l .folder) ∧ Leads t aim n l [name] f := by
  obtain ⟨-, hlen, hr⟩ := findAim_eq_ok_iff.mp hf
  have hchild : (p.child name).parts ≠ [] :=
    List.append_ne_nil_of_right_ne_nil _ (List.cons_ne_nil _ _)
  rw [Path.steps_text (h.child hn) hchild, Path.start_child h hp] at hr
  obtain ⟨n, l, hfolder, hlast⟩ := hr.last
  have hshort : p.text.utf8ByteSize ≤ longestPath := by
    rw [Path.text_child hp, String.utf8ByteSize_append] at hlen
    omega
  refine ⟨n, l, findAim_eq_ok_iff.mpr ⟨Path.text_ne_empty h hp, hshort, ?_⟩, hlast⟩
  rwa [Path.steps_text h hp]

theorem isFolder_of_child {p : Path} (h : p.Proper) (hp : p.parts ≠ []) {name : String}
    (hn : ProperName name) (hf : t.findAim aim here (p.child name).text = .ok f) :
    t.isFolder here p.text = true := by
  obtain ⟨n, l, hfind, -⟩ := find_of_child h hp hn hf
  rw [isFolder, hfind]

/-! ## A folder that is there -/

/-- Names that lead to a folder name that or a link to it. -/
theorem Leads.entry_of_target {links : Nat} {names : List String} {l : Location} {e : Entry}
    (h : Leads t .target links here names (.entry l e)) :
    ∃ m e, Leads t .entry links here names (.entry m e) := by
  generalize hf : Found.entry l e = f at h
  induction h with
  | @arrived links here => exact ⟨here, .folder, .arrived⟩
  | stay hn hr ih =>
    obtain ⟨m, e, h⟩ := ih hf
    exact ⟨m, e, .stay hn h⟩
  | up hr ih =>
    obtain ⟨m, e, h⟩ := ih hf
    exact ⟨m, e, .up h⟩
  | down hn hl hr ih =>
    obtain ⟨m, e, h⟩ := ih hf
    exact ⟨m, e, .down (hn.of_ne_place nofun) hl h⟩
  | vacant hn hl => cases hf
  | entry hn hl he ha =>
    exact ⟨_, _, .entry (hn.of_ne_place nofun) hl he fun _ _ => rfl⟩
  | @across links here name target rest f hn hl ha ht hr ih =>
    have hn' : Looked .entry name rest := hn.of_ne_place nofun
    cases rest with
    | nil => exact ⟨_, _, .entry hn' hl nofun fun _ _ => rfl⟩
    | cons next rest =>
      obtain ⟨m, e, h⟩ := ih hf
      exact ⟨m, e, .across hn' hl (fun _ => List.cons_ne_nil _ _) ht h⟩

/-- A path that leads to a folder names that or a link to it. -/
theorem findEntry_of_isFolder {path : String} (h : t.isFolder here path = true) :
    ∃ m e, t.findEntry here path = .ok (.entry m e) := by
  rw [isFolder] at h
  split at h
  · rename_i l hf
    obtain ⟨hne, hlen, hr⟩ := findAim_eq_ok_iff.mp hf
    obtain ⟨m, e, hr⟩ := hr.entry_of_target
    exact ⟨m, e, findAim_eq_ok_iff.mpr ⟨hne, hlen, hr⟩⟩
  · cases h

/-- A folder that is there is not made again. -/
theorem makeFolders_of_isFolder {p : Path} (h : t.isFolder here p.text = true) :
    t.makeFolders here p = .ok t := by
  -- The attempt to make it fails, but not because something above it is missing.
  obtain ⟨m, e, he⟩ := findEntry_of_isFolder h
  have hmake : t.makeFolder here p = .error ⟨.occupied, p.text⟩ := by
    rw [makeFolder, he]
  have hpresent : orPresent t here p ⟨.occupied, p.text⟩ = .ok t := by
    rw [orPresent, if_pos h]
  have hpath : (⟨p.root, p.parts.reverse.reverse⟩ : Path) = p := by
    rw [List.reverse_reverse]
  rw [makeFolders]
  cases hparts : p.parts.reverse with
  | nil =>
    rw [hparts] at hpath
    rw [makeFoldersFrom, show (⟨p.root, []⟩ : Path) = p from hpath, hmake]
    exact hpresent
  | cons name above =>
    rw [hparts] at hpath
    rw [makeFoldersFrom, hpath]
    simp only [hmake]
    exact hpresent

/-! ## A folder that is not there -/

/-- A path leads to a folder that holds nothing. -/
def Bare (t : FileTree) (here : Location) (path : String) : Prop :=
  ∃ l, t.find here path = .ok (.entry l .folder) ∧
    ∀ name rest, t.lookup (l ++ name :: rest) = none

/-- In a folder that holds nothing every name leads to its vacant place. -/
theorem Bare.child {p : Path} (hb : t.Bare here p.text) (h : p.Proper) (hp : p.parts ≠ [])
    {name : String} (hn : ProperName name) (hd : name ≠ "." ∧ name ≠ "..")
    (hf : t.findAim aim here (p.child name).text = .ok f) :
    ∃ l, f = .vacant l ∧ ∀ name rest, t.lookup (l ++ name :: rest) = none := by
  obtain ⟨l, hfind, hnone⟩ := hb
  obtain ⟨n, m, hfolder, hlast⟩ := find_of_child h hp hn hf
  rw [hfind] at hfolder
  cases hfolder
  refine ⟨l ++ [name], hlast.eq_vacant hn hd (hnone name []), fun next rest => ?_⟩
  rw [List.append_assoc]
  exact hnone name (next :: rest)

/-- A folder that is made where nothing is holds nothing. -/
theorem bare_of_makeFolder {p : Path} {l : Location}
    (hf : t.findEntry here p.text = .ok (.vacant l))
    (hl : ∀ name rest, t.lookup (l ++ name :: rest) = none)
    (h : t.makeFolder here p = .ok t') : t'.Bare here p.text := by
  rw [makeFolder, hf] at h
  cases h
  refine ⟨l, find_put hf (.inl rfl) nofun, fun name rest => ?_⟩
  rw [lookup_put_of_ne ?_]
  · exact hl name rest
  · exact fun he => List.cons_ne_nil name rest (List.self_eq_append_right.mp he)

/-- A folder is made at a vacant place only. -/
theorem vacant_of_makeFolder {p : Path} (h : t.makeFolder here p = .ok t') :
    ∃ l, t.findEntry here p.text = .ok (.vacant l) := by
  rw [makeFolder] at h
  split at h
  · cases h
  · exact ⟨_, ‹_›⟩
  · cases h

theorem orPresent_of_not {p : Path} (h : t.isFolder here p.text = false) (fault : FileFault) :
    orPresent t here p fault = .error (fault, t) := by
  rw [orPresent, h]
  rfl

/-- A root is a folder. -/
theorem isFolder_root {p : Path} (h : p.Proper) (hp : p.parts = []) :
    t.isFolder here p.text = true := by
  obtain ⟨root, parts⟩ := p
  subst hp
  rcases h.root with hr | hr | hr
  all_goals
    rw [show root = _ from hr]
    rfl

/-- Where an attempt to make a folder fails in the end, it is not there. -/
theorem isFolder_of_orPresent {p : Path} {fault failure : FileFault}
    (h : orPresent t here p fault = .error (failure, t')) : t'.isFolder here p.text = false := by
  rw [orPresent] at h
  split at h
  · cases h
  · rename_i hno
    cases h
    exact Bool.eq_false_iff.mpr hno

/-- Where folders of some names below a root cannot all be made, the last one is not there. -/
theorem isFolder_of_makeFoldersFrom {root : String} {names : List String} {p : Path}
    {failure : FileFault} (hpath : p = ⟨root, names.reverse⟩) (hp : p.Proper)
    (h : makeFoldersFrom here root names t = .error (failure, t')) :
    t'.isFolder here p.text = false := by
  -- From the last name up: without the folder above, there is none in it.
  induction names generalizing p t' with
  | nil =>
    subst hpath
    rw [makeFoldersFrom] at h
    split at h
    · cases h
    · exact isFolder_of_orPresent h
  | cons name above ih =>
    rw [makeFoldersFrom, show (⟨root, (name :: above).reverse⟩ : Path) = p from hpath.symm] at h
    cases hmake : t.makeFolder here p with
    | ok t₁ =>
      simp only [hmake] at h
      cases h
    | error fault =>
      simp only [hmake] at h
      split at h
      case isFalse => exact isFolder_of_orPresent h
      case isTrue =>
        let q : Path := ⟨root, above.reverse⟩
        have hchild : p = q.child name := by
          rw [hpath, List.reverse_cons]
          rfl
        have hname : ProperName name := by
          rw [hchild] at hp
          exact hp.parts name List.mem_concat_self
        have hq : q.Proper := by
          rw [hchild] at hp
          exact hp.of_child
        cases habove : makeFoldersFrom here root above t with
        | error upper =>
          rw [habove] at h
          cases h
          have hno : t'.isFolder here q.text = false := ih rfl hq habove
          have hparts : q.parts ≠ [] := by
            intro he
            rw [isFolder_root hq he] at hno
            cases hno
          rw [Bool.eq_false_iff]
          intro hfolder
          obtain ⟨m, e, hf⟩ := findEntry_of_isFolder hfolder
          rw [hchild] at hf
          rw [isFolder_of_child hq hparts hname hf] at hno
          cases hno
        | ok t₁ =>
          simp only [habove, bind, Except.bind] at h
          split at h
          · cases h
          · rename_i second hsecond
            split at h
            · rename_i hmissing
              cases h
              rw [Bool.eq_false_iff]
              intro hfolder
              obtain ⟨m, e, hf⟩ := findEntry_of_isFolder hfolder
              rw [makeFolder, hf] at hsecond
              cases hsecond
              cases hmissing
            · exact isFolder_of_orPresent h

/-- Where a folder cannot be made, it is not there. -/
theorem isFolder_of_makeFolders {p : Path} (hp : p.Proper) {failure : FileFault}
    (h : t.makeFolders here p = .error (failure, t')) : t'.isFolder here p.text = false := by
  refine isFolder_of_makeFoldersFrom ?_ hp h
  rw [List.reverse_reverse]

/-- A folder that was not there is made in the folder above it, or when that has been made. -/
theorem makeFoldersFrom_cases {root name : String} {above : List String} {p : Path}
    (hp : p = ⟨root, (name :: above).reverse⟩) (hno : t.isFolder here p.text = false)
    (h : makeFoldersFrom here root (name :: above) t = .ok t') :
    t.makeFolder here p = .ok t' ∨
      ∃ t₁, makeFoldersFrom here root above t = .ok t₁ ∧ t₁ ≠ t ∧
        (t₁.makeFolder here p = .ok t' ∨ t₁.isFolder here p.text = true ∧ t' = t₁) := by
  subst hp
  rw [makeFoldersFrom] at h
  cases hmake : t.makeFolder here ⟨root, (name :: above).reverse⟩ with
  | ok t₁ =>
    simp only [hmake] at h
    cases h
    exact .inl rfl
  | error fault =>
    simp only [hmake, orPresent_of_not hno] at h
    split at h
    · rename_i hmissing
      cases habove : makeFoldersFrom here root above t with
      | error g =>
        rw [habove] at h
        cases h
      | ok t₁ =>
        simp only [habove, bind, Except.bind] at h
        refine .inr ⟨t₁, rfl, ?_, ?_⟩
        · -- In the same tree the second attempt would fail like the first.
          rintro rfl
          simp only [hmake, hmissing, if_true] at h
          cases h
        · split at h
          · rename_i hsecond
            cases h
            exact .inl hsecond
          · split at h
            · cases h
            · rw [orPresent] at h
              split at h
              · rename_i hfolder
                cases h
                exact .inr ⟨hfolder, rfl⟩
              · cases h
    · cases h

/-- Where a folder of some names below a root has been made, it holds nothing. -/
theorem bare_of_makeFoldersFrom (ht : t.Closed) {root : String} {names : List String} {p : Path}
    (hpath : p = ⟨root, names.reverse⟩) (hp : p.Proper) (hs : p.Straight)
    (hno : t.isFolder here p.text = false) (h : makeFoldersFrom here root names t = .ok t') :
    t'.Bare here p.text := by
  -- From the last name up: a folder above that had to be made holds nothing, so this one is made in
  -- it at a vacant place.
  induction names generalizing p t' with
  | nil =>
    subst hpath
    rw [isFolder_root hp rfl] at hno
    cases hno
  | cons name above ih =>
    rcases makeFoldersFrom_cases hpath hno h with hmake | ⟨t₁, habove, hne, hmake⟩
    · obtain ⟨l, hf⟩ := vacant_of_makeFolder hmake
      obtain ⟨-, -, hr⟩ := findAim_eq_ok_iff.mp hf
      have hnone : t.lookup l = none := hr.lookup_eq.1 l rfl
      exact bare_of_makeFolder hf (fun next rest => ht.lookup_below hnone (next :: rest)) hmake
    · let q : Path := ⟨root, above.reverse⟩
      have hchild : p = q.child name := by
        rw [hpath, List.reverse_cons]
        rfl
      have hmem : name ∈ p.parts := by
        rw [hchild]
        exact List.mem_concat_self
      have hname : ProperName name := hp.parts name hmem
      have hdots : name ≠ "." ∧ name ≠ ".." := hs name hmem
      have hq : q.Proper := by
        rw [hchild] at hp
        exact hp.of_child
      have hqs : q.Straight := by
        rw [hchild] at hs
        exact hs.of_child
      have hqno : t.isFolder here q.text = false := by
        rw [Bool.eq_false_iff]
        intro hfolder
        have hsame : t.makeFolders here q = .ok t := makeFolders_of_isFolder hfolder
        rw [makeFolders, List.reverse_reverse, habove] at hsame
        exact hne (Except.ok.inj hsame)
      have hparts : q.parts ≠ [] := by
        intro he
        rw [isFolder_root hq he] at hqno
        cases hqno
      have hbare : t₁.Bare here q.text := ih rfl hq hqs hqno habove
      rcases hmake with hmake | ⟨hfolder, rfl⟩
      · obtain ⟨l, hf⟩ := vacant_of_makeFolder hmake
        have hf' := hf
        rw [hchild] at hf'
        obtain ⟨m, hm, hnone⟩ := hbare.child hq hparts hname hdots hf'
        cases hm
        exact bare_of_makeFolder hf hnone hmake
      · rw [isFolder] at hfolder
        split at hfolder
        · rename_i l hf
          rw [hchild] at hf
          obtain ⟨m, hm, -⟩ := hbare.child hq hparts hname hdots hf
          cases hm
        · cases hfolder

/-- Where a folder that was not there has been made, it holds nothing. -/
theorem bare_of_makeFolders (ht : t.Closed) {p : Path} (hp : p.Proper) (hs : p.Straight)
    (hno : t.isFolder here p.text = false) (h : t.makeFolders here p = .ok t') :
    t'.Bare here p.text := by
  refine bare_of_makeFoldersFrom ht ?_ hp hs hno h
  rw [List.reverse_reverse]

end CloudSecrets.FileTree
