import CloudSecrets.Proofs.FileTree.Growth
import CloudSecrets.Proofs.Preference.Reading

/-!
# Storing preferences

Preferences are read, changed and written back, and each step may fail. `Ends` says what that makes
of the files: the text of the new preferences stands in the file that the path leads to, or nothing
has been stored. Folders that were missing may have been made on the way in both cases; where what
is missing of the home path can be made, the second one leaves the tree as it was (`ends_write`).
-/

namespace CloudSecrets

open CloudSecrets.Action

/-! ## Paths that can be told about -/

/-- A path that something can be told about is not too long. -/
theorem FileTree.length_le_of_not_untold {t : FileTree} {here : Location} {path : String}
    (h : ¬t.Untold here path) (hn : holdsNull path = false) (hne : path ≠ "") :
    path.utf8ByteSize ≤ FileTree.longestPath := by
  refine Nat.not_lt.mp fun hlong => h ⟨hn, ?_⟩
  rw [find, findAim, if_neg (by simpa using hne), if_pos hlong]

namespace Preferences

variable {v w : World} {ps : Preferences} {t : FileTree}

/-! ## What stands at the path -/

/-- The entry that the preferences path leads to. -/
def present (w : World) : Option Entry :=
  match w.files.find w.here (file w.home).text with
  | .ok (.entry _ e) => some e
  | _ => none

theorem present_congr (hf : v.files = w.files) (hh : v.here = w.here) (hm : v.home = w.home) :
    present v = present w := by
  unfold present
  rw [hf, hh, hm]

theorem present_of_find {l : Location} {e : Entry}
    (h : w.files.find w.here (file w.home).text = .ok (.entry l e)) : present w = some e := by
  unfold present
  rw [h]

theorem find_of_present {e : Entry} (h : present w = some e) :
    ∃ l, w.files.find w.here (file w.home).text = .ok (.entry l e) := by
  unfold present at h
  split at h
  · rename_i l e' hf
    cases h
    exact ⟨l, hf⟩
  · cases h

/-- A file at the path is a place for a file. -/
theorem place_of_present {content : Bytes} (h : present w = some (.file content)) :
    ∃ l, w.files.findAim .place w.here (file w.home).text = .ok (.entry l (.file content)) := by
  obtain ⟨l, hf⟩ := find_of_present h
  exact ⟨l, FileTree.place_of_find hf⟩

theorem proper_file (home : String) : (file home).Proper :=
  (proper_folder home).child ⟨by decide, by decide⟩

theorem parts_file_ne_nil (home : String) : (file home).parts ≠ [] :=
  List.append_ne_nil_of_right_ne_nil _ (List.cons_ne_nil _ _)

/-- Without the settings folder nothing is there. -/
theorem present_of_not_folder (h : w.files.isFolder w.here (folder w.home).text = false) :
    present w = none := by
  cases hp : present w with
  | none => rfl
  | some e =>
    obtain ⟨l, hf⟩ := find_of_present hp
    have hfolder := FileTree.isFolder_of_child (proper_folder _) (parts_folder_ne_nil _)
      ⟨by decide, by decide⟩ hf
    rw [h] at hfolder
    cases hfolder

/-! ## Making the folder -/

/-- Folders are made only where nothing is there. -/
theorem eq_or_absent_of_makeFolders (h : w.files.makeFolders w.here (folder w.home) = .ok t) :
    t = w.files ∨ present w = none := by
  cases hp : present w with
  | none => exact .inr rfl
  | some e =>
    obtain ⟨l, hf⟩ := find_of_present hp
    rw [makeFolders_of_find hf] at h
    exact .inl (Except.ok.inj h).symm

/-- Where the folder cannot be made, nothing is there before and after. -/
theorem present_of_makeFolders_error {fault : FileFault}
    (h : w.files.makeFolders w.here (folder w.home) = .error (fault, t)) :
    present { w with files := t } = present w := by
  have hbefore : present w = none := by
    refine present_of_not_folder (Bool.eq_false_iff.mpr fun hfolder => ?_)
    rw [FileTree.makeFolders_of_isFolder hfolder] at h
    cases h
  rw [hbefore]
  exact present_of_not_folder (FileTree.isFolder_of_makeFolders (proper_folder _) h)

/-- Whether the settings folder can be made: behind the folders of the home path that are there, each
name can be given to a new entry. No environment gives a home path with the null character. -/
def Makeable (w : World) : Prop :=
  holdsNull (file w.home).text = false ∧ w.files.Makeable w.here (Path.ofText w.home)

theorem Makeable.folder (h : Makeable w) :
    w.files.Makeable w.here (Preferences.folder w.home) :=
  (h.2.child (by decide +kernel)).child (by decide +kernel)

/-- Where the settings folder can be made, it is there, or the tree stays as it is, or it is made and
the file is vacant in it. -/
theorem makeFolders_cases (hu : ¬w.files.Untold w.here (file w.home).text)
    (hc : w.files.Closed) (hm : Makeable w) :
    w.files.makeFolders w.here (folder w.home) = .ok w.files ∨
      (∃ fault, w.files.makeFolders w.here (folder w.home) = .error (fault, w.files)) ∨
      ∃ t l, w.files.makeFolders w.here (folder w.home) = .ok t ∧
        t.findAim .place w.here (file w.home).text = .ok (.vacant l) ∧
        FileTree.Grown (· <+: l) w.files t := by
  have hfile : (file w.home).text.utf8ByteSize ≤ FileTree.longestPath :=
    FileTree.length_le_of_not_untold hu hm.1
      (Path.text_ne_empty (proper_file _) (parts_file_ne_nil _))
  cases hfolder : w.files.isFolder w.here (folder w.home).text with
  | true => exact .inl (FileTree.makeFolders_of_isFolder hfolder)
  | false =>
    have hlen : (folder w.home).text.utf8ByteSize ≤ FileTree.longestPath := by
      rw [file, Path.text_child (parts_folder_ne_nil _), String.utf8ByteSize_append] at hfile
      omega
    rcases FileTree.makeFolders_of_makeable hc (proper_folder _) hm.folder hlen hfolder
      with hfail | ⟨t, d, hok, hmade⟩
    · exact .inr (.inl hfail)
    · refine .inr (.inr ⟨t, d ++ ["preferences.json"], hok, ?_, ?_⟩)
      · exact FileTree.findAim_child (proper_folder _) (parts_folder_ne_nil _)
          ⟨by decide, by decide⟩ (show NewName "preferences.json" by decide +kernel) hfile hmade.find (hmade.bare _ _)
      · exact hmade.grown.mono fun l hl => hl.trans (List.prefix_append _ _)

/-- Where the settings folder can be made, failing to make it leaves the tree as it is. -/
theorem eq_of_makeFolders_error (hu : ¬w.files.Untold w.here (file w.home).text)
    (hc : w.files.Closed) (hm : Makeable w) {fault : FileFault}
    (h : w.files.makeFolders w.here (folder w.home) = .error (fault, t)) : t = w.files := by
  rcases makeFolders_cases hu hc hm with hok | ⟨fault, hfail⟩ | ⟨t, l, hok, -⟩
  · rw [h] at hok
    cases hok
  · rw [h] at hfail
    cases hfail
    rfl
  · rw [h] at hok
    cases hok

/-- Where the settings folder can be made, it has been there, or the file is vacant in it. -/
theorem eq_or_vacant_of_makeFolders (hu : ¬w.files.Untold w.here (file w.home).text)
    (hc : w.files.Closed) (hm : Makeable w)
    (h : w.files.makeFolders w.here (folder w.home) = .ok t) :
    t = w.files ∨ ∃ l, t.findAim .place w.here (file w.home).text = .ok (.vacant l) ∧
      FileTree.Grown (· <+: l) w.files t := by
  rcases makeFolders_cases hu hc hm with hok | ⟨fault, hfail⟩ | ⟨u, l, hok, hvacant, hgrown⟩
  · rw [h] at hok
    exact .inl (Except.ok.inj hok)
  · rw [h] at hfail
    cases hfail
  · rw [h] at hok
    cases hok
    exact .inr ⟨l, hvacant, hgrown⟩

/-! ## Writing -/

/-- Nothing has been stored. Folders that were missing may have been made, but not where the
settings folder can be, and they may have brought something to light at the path, but no file. -/
structure Kept (w : World) (t : FileTree) : Prop where
  grown : FileTree.Grown (t.LeadsAbove w.here (folder w.home)) w.files t
  eq_of_makeable : w.files.Closed → Makeable w → t = w.files
  present : present { w with files := t } = present w ∨
    present w = none ∧ ∀ content, present { w with files := t } ≠ some (.file content)

theorem Kept.refl (w : World) : Kept w w.files := ⟨.refl _ _, fun _ _ => rfl, .inl rfl⟩

/-- What stands at the path is still there if nothing has been stored. -/
theorem Kept.present_eq (h : Kept w t) (hp : Preferences.present w ≠ none) :
    Preferences.present { w with files := t } = Preferences.present w :=
  h.present.resolve_right fun hnone => hp hnone.1

/-- A content has been stored at the location that the path leads to. Folders that were missing may
have been made on the way, all above that location where the settings folder can be made. -/
structure Stored (w : World) (content : Bytes) (l : Location) (t : FileTree) : Prop where
  find : t.find w.here (file w.home).text = .ok (.entry l (.file content))
  grown : ∃ u, t = u.put l (.file content) ∧
    FileTree.Grown (t.LeadsAbove w.here (folder w.home)) w.files u ∧
    (w.files.Closed → Makeable w → FileTree.Grown (· <+: l) w.files u)

/-- How storing preferences ends: either nothing is stored, which is a failure unless there is a
device, which swallows them, or their text is. -/
def Ends (w : World) (ps : Preferences) (ending : Except Fault Unit × World) : Prop :=
  ∃ t logs, ending.2 = World.logging { w with files := t } logs ∧
    (Kept w t ∧ (ending.1 = .ok () → present { w with files := t } = some .device) ∨
      ending.1 = .ok () ∧ ∃ l, Stored w (Utf8.encode (text ps)) l t)

theorem grown_of_makeFolders (hm : w.files.makeFolders w.here (folder w.home) = .ok t) :
    FileTree.Grown (t.LeadsAbove w.here (folder w.home)) w.files t := by
  have h := FileTree.grown_makeFolders w.files w.here (folder w.home)
  rwa [hm] at h

/-- Nothing is stored by making the folder. In one that was made the file can be put, so where it
cannot none was made. -/
theorem kept_of_makeFolders (hu : ¬w.files.Untold w.here (file w.home).text)
    (hm : w.files.makeFolders w.here (folder w.home) = .ok t)
    (hno : ∀ l, t.findAim .place w.here (file w.home).text ≠ .ok (.vacant l))
    (hfile : ∀ content, present { w with files := t } ≠ some (.file content)) : Kept w t := by
  refine ⟨grown_of_makeFolders hm, fun hc hh => ?_, ?_⟩
  · refine (eq_or_vacant_of_makeFolders hu hc hh hm).resolve_right ?_
    rintro ⟨l, hvacant, -⟩
    exact hno l hvacant
  · rcases eq_or_absent_of_makeFolders hm with hsame | hnone
    · exact .inl (present_congr hsame rfl rfl)
    · exact .inr ⟨hnone, hfile⟩

/-- A content is stored by putting it into the folder. -/
theorem stored_of_makeFolders (hu : ¬w.files.Untold w.here (file w.home).text)
    (hm : w.files.makeFolders w.here (folder w.home) = .ok t) {l : Location} {f : FileTree.Found}
    (hf : t.findAim .place w.here (file w.home).text = .ok f) (ht : f.Takes l) (content : Bytes) :
    Stored w content l (t.put l (.file content)) := by
  have hfree : t.lookup l = none ∨ ∃ old, t.lookup l = some (.file old) := by
    obtain ⟨-, -, hr⟩ := FileTree.findAim_eq_ok_iff.mp hf
    exact ht.imp (hr.lookup_eq.1 l) fun ⟨old, he⟩ => ⟨old, hr.lookup_eq.2 l _ he nofun⟩
  refine ⟨FileTree.find_put hf ht fun _ h => Entry.noConfusion h, t, rfl, ?_, fun hc hh => ?_⟩
  · exact (grown_of_makeFolders hm).mono fun m habove =>
      habove.mono rfl List.prefix_rfl (FileTree.standing_put hfree)
  · rcases eq_or_vacant_of_makeFolders hu hc hh hm with rfl | ⟨m, hvacant, hgrown⟩
    · exact .refl _ _
    · rw [hvacant] at hf
      cases hf
      rcases ht with ht | ⟨old, ht⟩
      · cases ht
        exact hgrown
      · cases ht

theorem ends_write (hu : ¬w.files.Untold w.here (file w.home).text) (ps : Preferences) :
    Ends w ps ((write ps).run.run w) := by
  rw [run_write, written]
  cases hm : w.files.makeFolders w.here (folder w.home) with
  | error failure =>
    have hgrown := FileTree.grown_makeFolders w.files w.here (folder w.home)
    rw [hm] at hgrown
    have hkept : Kept w failure.2 :=
      ⟨hgrown, fun hc hh => eq_of_makeFolders_error hu hc hh hm,
        .inl (present_of_makeFolders_error hm)⟩
    exact ⟨failure.2, [], (World.logging_nil _).symm, .inl ⟨hkept, fun h => by cases h⟩⟩
  | ok t =>
    dsimp only
    rcases FileTree.write_cases t w.here (file w.home).text (Utf8.encode (text ps)) with
      ⟨fault, hw⟩ | ⟨l, f, hf, ht, hw⟩ | ⟨l, hf, hw⟩
    · have hkept : Kept w t := by
        refine kept_of_makeFolders hu hm (fun l hvacant => ?_) fun c hp => ?_
        · rw [FileTree.write, hvacant] at hw
          cases hw
        · obtain ⟨l, hplace⟩ := place_of_present hp
          rw [FileTree.write, show t.findAim .place w.here (file w.home).text = _ from hplace] at hw
          cases hw
      rw [hw]
      exact ⟨t, [], (World.logging_nil _).symm, .inl ⟨hkept, fun h => by cases h⟩⟩
    · rw [hw]
      exact ⟨_, [], (World.logging_nil _).symm,
        .inr ⟨rfl, l, stored_of_makeFolders hu hm hf ht _⟩⟩
    · have hdevice : present { w with files := t } = some .device :=
        present_of_find (FileTree.find_of_place hf)
      have hkept : Kept w t := by
        refine kept_of_makeFolders hu hm (fun m hvacant => ?_) fun c hp => ?_
        · rw [hf] at hvacant
          cases hvacant
        · rw [hdevice] at hp
          cases hp
      rw [hw]
      exact ⟨t, [], (World.logging_nil _).symm, .inl ⟨hkept, fun _ => hdevice⟩⟩

/-! ## Setting and clearing -/

theorem Ends.log {ending : Except Fault Unit × World} (h : Ends w ps ending) (level : Level)
    (s : String) {a : Action Unit} (ha : a.run.run w = ending) :
    Ends w ps ((a >>= fun _ => log level s).run.run w) := by
  obtain ⟨t, logs, hend, hcase⟩ := h
  rcases ending with ⟨f | u, v⟩
  · rw [run_bind_of_error ha]
    exact ⟨t, logs, hend, hcase⟩
  · rw [run_bind_of_ok ha, run_log, show v = _ from hend, World.logging_logging]
    exact ⟨t, _, rfl, hcase⟩

theorem ends_logging {logs : List (Level × String)} {ending : Except Fault Unit × World}
    (h : Ends (w.logging logs) ps ending) : Ends w ps ending := by
  obtain ⟨t, more, hend, hcase⟩ := h
  have hthen : present { w.logging logs with files := t } = present { w with files := t } :=
    present_congr rfl rfl rfl
  have hnow : present (w.logging logs) = present w := present_congr rfl rfl rfl
  refine ⟨t, logs ++ more, ?_, ?_⟩
  · rw [hend, ← World.logging_logging]
    rfl
  · rcases hcase with ⟨hkept, hdevice⟩ | ⟨hok, l, hl⟩
    · have hpresent := hkept.present
      rw [hthen, hnow] at hpresent
      exact .inl ⟨⟨hkept.grown, hkept.eq_of_makeable, hpresent⟩, fun hok => hthen ▸ hdevice hok⟩
    · exact .inr ⟨hok, l, hl.find, hl.grown⟩

theorem outcome_read_of_untold (hu : w.files.Untold w.here (file w.home).text) :
    read.outcome w = .error (.file ⟨.nameTooLong, (file w.home).text⟩) :=
  outcome_read_eq_error_iff.mpr (.untold hu)

/-- Preferences that are read are stored, or there are none. -/
theorem stored?_of_read (h : read.outcome w = .ok ps) :
    ¬w.files.Untold w.here (file w.home).text ∧ (stored? w = some ps ∨ ps = []) := by
  constructor
  · intro hu
    rw [outcome_read_of_untold hu] at h
    cases h
  · rw [eq_of_outcome_read h]
    cases stored? w with
    | none => exact .inr rfl
    | some ps => exact .inl rfl

/-- What is stored is read, if something can be told about the path. -/
theorem outcome_read (hu : ¬w.files.Untold w.here (file w.home).text) (h : stored? w = some ps) :
    read.outcome w = .ok ps := by
  rw [outcome_read_of_readable, h]
  · rfl
  · intro f hf
    cases hf with
    | untold ht => exact hu ht
    | illegible hf hi =>
      rw [stored?, hf] at h
      cases hi.decoded?_eq_none.symm.trans h

theorem run_put_cases (key value : String) (w : World) :
    (∃ f logs, (put key value).run.run w = (.error f, w.logging logs)) ∨
      ∃ ps, read.outcome w = .ok ps ∧
        Ends w (Entries.put key (.text value) ps) ((put key value).run.run w) := by
  obtain ⟨logs, hread⟩ := looks_read.run w
  cases hps : read.outcome w with
  | error f =>
    rw [hps] at hread
    exact .inl ⟨f, logs, run_bind_of_error hread _⟩
  | ok ps =>
    rw [hps] at hread
    refine .inr ⟨ps, rfl, ?_⟩
    rw [put, run_bind_of_ok hread]
    have hu : ¬(w.logging logs).files.Untold w.here (file w.home).text := (stored?_of_read hps).1
    exact ends_logging ((ends_write hu _).log _ _ rfl)

theorem run_clear_cases (key : String) (w : World) :
    (∃ f logs, (clear key).run.run w = (.error f, w.logging logs)) ∨
      ∃ ps, read.outcome w = .ok ps ∧
        (Entries.get? key ps = none ∧ (∃ logs, (clear key).run.run w = (.ok (), w.logging logs)) ∨
          (∃ value, stored? w = some ps ∧ Entries.get? key ps = some value) ∧
            Ends w (Entries.erase key ps) ((clear key).run.run w)) := by
  obtain ⟨logs, hread⟩ := looks_read.run w
  cases hps : read.outcome w with
  | error f =>
    rw [hps] at hread
    exact .inl ⟨f, logs, run_bind_of_error hread _⟩
  | ok ps =>
    rw [hps] at hread
    obtain ⟨hu, hstored⟩ := stored?_of_read hps
    refine .inr ⟨ps, rfl, ?_⟩
    rw [clear, run_bind_of_ok hread]
    cases hk : Entries.get? key ps with
    | none =>
      have hhas : Entries.has key ps = false := by rw [Entries.has, hk, Option.isSome_none]
      rw [hhas]
      refine .inl ⟨rfl, logs ++ [(.debug, s!"Preference '{key}' not set, nothing to clear")], ?_⟩
      rw [← World.logging_logging]
      rfl
    | some value =>
      have hhas : Entries.has key ps = true := by rw [Entries.has, hk, Option.isSome_some]
      have hne : ps ≠ [] := by
        rintro rfl
        cases hk
      rw [hhas]
      simp only [Bool.not_true, Bool.false_eq_true, if_false]
      have hu' : ¬(w.logging logs).files.Untold w.here (file w.home).text := hu
      exact .inr ⟨⟨value, hstored.resolve_right hne, rfl⟩,
        ends_logging ((ends_write hu' _).log _ _ rfl)⟩

end Preferences

end CloudSecrets
