import CloudSecrets.Preference
import CloudSecrets.Proofs.Action
import CloudSecrets.Proofs.FileTree.Folders
import CloudSecrets.Proofs.Json.Legible

/-!
# The preferences file

`stored? w` is what the preferences file of a world holds, decoded: nothing if there is no file.
Reading gives it, setting and clearing put into it and erase from it, unless the file system refuses
(`run_read`, `run_put`, `run_clear_of_some`). What a write needs is that the value is read back from
its own text and that the path leads to what was written; only a device at the place would keep
nothing, and there is none if the tree is closed and the home path does not lead up
(`not_swallows_of_stored?`).
-/

namespace CloudSecrets.Preferences

open CloudSecrets.Action
open Json (Lossless WithoutDecimals)

variable {w : World} {ps : Preferences}

/-! ## The path -/

theorem proper_folder (home : String) : (folder home).Proper :=
  ((Path.proper_ofText home).child ⟨by decide, by decide⟩).child ⟨by decide, by decide⟩

theorem parts_folder_ne_nil (home : String) : (folder home).parts ≠ [] :=
  List.append_ne_nil_of_right_ne_nil _ (List.cons_ne_nil _ _)

theorem straight_folder {home : String} (h : ".." ∉ (Path.ofText home).parts) :
    (folder home).Straight :=
  ((Path.straight_ofText h).child (by decide)).child (by decide)

/-- Where the file can be found, making its folder changes nothing. -/
theorem makeFolders_of_find {f : FileTree.Found}
    (h : w.files.find w.here (file w.home).text = .ok f) :
    w.files.makeFolders w.here (folder w.home) = .ok w.files :=
  FileTree.makeFolders_of_isFolder (FileTree.isFolder_of_child (proper_folder w.home)
    (parts_folder_ne_nil w.home) ⟨by decide, by decide⟩ h)

/-! ## The text -/

/-- Preferences that are lossless are read back from their text. -/
theorem parse_text (h : Lossless (.object ps)) :
    Text.Plain (text ps) ∧ parse (text ps) = .ok (some ps) := by
  have hblank : (Json.Layout.indented [' ', ' ']).Blank := by
    intro c hc
    simp only [List.mem_cons, List.not_mem_nil, or_false, or_self] at hc
    rw [hc]
    rfl
  have hbreak : ∀ depth, Text.Plain ((Json.Layout.indented [' ', ' ']).lineBreak depth) := by
    intro depth
    refine .cons (by decide) fun c hc => ?_
    obtain ⟨u, hu, hcu⟩ := List.mem_flatten.mp hc
    rw [List.eq_of_mem_replicate hu] at hcu
    exact (show Text.Plain [' ', ' '] by decide) c hcu
  have hplain : Text.Plain (text ps) := Json.plain_chars hbreak h 0
  refine ⟨hplain, ?_⟩
  rw [parse, Text.unifyLineEnds_of_plain hplain, text, Json.parse_chars hblank h]
  rfl

theorem lossless_put (h : Lossless (.object ps)) (key value : String) :
    Lossless (.object (Entries.put key (.text value) ps)) := by
  cases h with
  | object hn hv =>
    refine .object (Entries.nodup_put hn _ _) fun f hf => ?_
    rcases Entries.mem_of_mem_put hf with rfl | hf
    · exact .text value
    · exact hv f hf

theorem lossless_erase (h : Lossless (.object ps)) (key : String) :
    Lossless (.object (Entries.erase key ps)) := by
  cases h with
  | object hn hv =>
    exact .object (Entries.nodup_erase hn _) fun f hf =>
      hv f ((Entries.erase_sublist key ps).subset hf)

/-! ## What is stored -/

/-- The preferences that octets hold, if they are the text of an object. -/
def decoded? (bytes : Bytes) : Option Preferences :=
  (Utf8.decode bytes).toOption.bind fun cs => (parse cs).toOption.join

/-- What is held where a path leads: nothing if it leads nowhere, and `none` if that is no file or
holds no object. -/
def held? : Except FileCause FileTree.Found → Option Preferences
  | .ok (.entry _ (.file bytes)) => decoded? bytes
  | .ok (.entry ..) => none
  | _ => some []

/-- What the preferences file holds. -/
def stored? (w : World) : Option Preferences := held? (w.files.find w.here (file w.home).text)

/-- Whether the preferences would be written to a device, which keeps nothing. -/
def Swallows (w : World) : Prop :=
  ∃ files l, w.files.makeFolders w.here (folder w.home) = .ok files ∧
    files.findAim .place w.here (file w.home).text = .ok (.entry l .device)

/-- What is stored is in a file, or nothing is there. -/
theorem stored?_eq_some (h : stored? w = some ps) :
    (∃ l bytes cs, w.files.find w.here (file w.home).text = .ok (.entry l (.file bytes)) ∧
        Utf8.decode bytes = .ok cs ∧ parse cs = .ok (some ps)) ∨
      w.files.exists? w.here (file w.home).text = false ∧ ps = [] := by
  rw [stored?] at h
  rw [FileTree.exists?]
  cases hf : w.files.find w.here (file w.home).text with
  | error cause =>
    rw [hf] at h
    exact .inr ⟨rfl, (Option.some.inj h).symm⟩
  | ok found =>
    rw [hf] at h
    cases found with
    | vacant l => exact .inr ⟨rfl, (Option.some.inj h).symm⟩
    | entry l e =>
      cases e with
      | file bytes =>
        obtain ⟨cs, hd, hp⟩ := Option.bind_eq_some_iff.mp h
        exact .inl ⟨l, bytes, cs, rfl, eq_ok_of_toOption hd,
          eq_ok_of_toOption (Option.join_eq_some_iff.mp hp)⟩
      | folder => cases h
      | link target => cases h
      | device => cases h

theorem stored?_of_find {l : Location} {bytes : Bytes} {cs : List Char}
    (hf : w.files.find w.here (file w.home).text = .ok (.entry l (.file bytes)))
    (hd : Utf8.decode bytes = .ok cs) (hp : parse cs = .ok (some ps)) : stored? w = some ps := by
  have hdecoded : decoded? bytes = some ps := by
    rw [decoded?, hd, Except.toOption, Option.bind_some, hp]
    rfl
  rw [stored?, hf]
  exact hdecoded

/-- A file is no device. -/
theorem not_swallows_of_find {l : Location} {bytes : Bytes}
    (hf : w.files.find w.here (file w.home).text = .ok (.entry l (.file bytes))) :
    ¬Swallows w := by
  rintro ⟨files, m, hm, hp⟩
  rw [makeFolders_of_find hf] at hm
  cases hm
  have hfound := FileTree.find_of_place hp
  rw [hf] at hfound
  cases hfound

/-- In a closed tree preferences that are stored, or missing, are not written to a device, unless
the home path leads up. -/
theorem not_swallows_of_stored? (h : stored? w = some ps) (hclosed : w.files.Closed)
    (hhome : ".." ∉ (Path.ofText w.home).parts) : ¬Swallows w := by
  rintro ⟨files, l, hm, hp⟩
  by_cases hfolder : w.files.isFolder w.here (folder w.home).text = true
  · rw [FileTree.makeFolders_of_isFolder hfolder] at hm
    cases hm
    have hfind : w.files.find w.here (file w.home).text = .ok (.entry l .device) :=
      FileTree.find_of_place hp
    rw [stored?, hfind] at h
    cases h
  · -- The settings folder has just been made, so nothing is in it.
    have hbare := FileTree.bare_of_makeFolders hclosed (proper_folder w.home)
      (straight_folder hhome) (Bool.eq_false_iff.mpr hfolder) hm
    obtain ⟨m, hvacant, -⟩ := hbare.child (proper_folder w.home) (parts_folder_ne_nil w.home)
      ⟨by decide, by decide⟩ (by decide) hp
    cases hvacant

/-! ## Reading, setting and clearing -/

/-- Whether the file system refuses a run. -/
def Refused {α : Type} (r : Except Fault α × World) : Prop := ∃ f, r.1 = .error (.file f)

theorem refused_bind {α β : Type} {a : Action α} {f : α → Action β}
    (h : Refused (a.run.run w)) : Refused ((a >>= f).run.run w) := by
  obtain ⟨g, hg⟩ := h
  refine ⟨g, ?_⟩
  rcases hr : a.run.run w with ⟨r, v⟩
  rw [hr] at hg
  subst hg
  rw [run_bind_of_error hr]

/-- Reading gives what is stored, and changes nothing. -/
theorem run_read (h : stored? w = some ps) :
    Refused (read.run.run w) ∨ read.run.run w = (.ok ps, w) := by
  let path := (file w.home).text
  rcases stored?_eq_some h with ⟨l, bytes, cs, hf, hd, hp⟩ | ⟨hnone, rfl⟩
  · have hexists : w.files.exists? w.here path = true := by
      rw [FileTree.exists?, hf]
    have hchecked : w.files.checked w.here path (w.files.exists? w.here path) = .ok true := by
      rw [FileTree.checked, hf, hexists, ite_self]
    have hread : w.files.read w.here path = .ok bytes := by
      rw [FileTree.read, hf]
    refine .inr ?_
    rw [read, run_bind_of_ok (run_get w), run_bind_of_ok (run_pathExists hchecked)]
    simp only [Bool.not_true, Bool.false_eq_true, if_false]
    rw [run_bind_of_ok (run_get w), hread]
    simp only [hd, hp]
    rfl
  · rcases FileTree.checked_cases w.files w.here path (w.files.exists? w.here path) with
      hc | ⟨f, hc⟩
    · refine .inr ?_
      have hfalse := hc.trans (congrArg Except.ok hnone)
      rw [read, run_bind_of_ok (run_get w), run_bind_of_ok (run_pathExists hfalse)]
      rfl
    · refine .inl ⟨f, ?_⟩
      rw [read, run_bind_of_ok (run_get w), run_bind_of_error (run_pathExists hc)]

/-- Whether a content can be written as the preferences, and the tree that is left. -/
def written (t : FileTree) (here : Location) (home : String) (content : Bytes) :
    Except FileFault Unit × FileTree :=
  match t.makeFolders here (folder home) with
  | .error (fault, t) => (.error fault, t)
  | .ok t =>
    match t.write here (file home).text content with
    | .error fault => (.error fault, t)
    | .ok t => (.ok (), t)

/-- Writing changes the files only. -/
theorem run_write (ps : Preferences) (w : World) :
    (write ps).run.run w =
      ((written w.files w.here w.home (Utf8.encode (text ps))).1.mapError .file,
        { w with files := (written w.files w.here w.home (Utf8.encode (text ps))).2 }) := by
  rw [write, run_bind_of_ok (run_get w), written]
  cases w.files.makeFolders w.here (folder w.home) with
  | error failure => rfl
  | ok t =>
    dsimp only
    rw [run_bind_of_ok (run_set _ _)]
    cases t.write w.here (file w.home).text (Utf8.encode (text ps)) <;> rfl

/-- Writing replaces what is stored, unless the file system refuses. -/
theorem run_write_of_lossless (hs : ¬Swallows w) (hl : Lossless (.object ps)) :
    Refused ((write ps).run.run w) ∨ ∃ files, (write ps).run.run w = (.ok (), { w with files }) ∧
      stored? { w with files } = some ps ∧ ¬Swallows { w with files } := by
  let path := (file w.home).text
  obtain ⟨hplain, hparse⟩ := parse_text hl
  rw [run_write, written]
  cases hm : w.files.makeFolders w.here (folder w.home) with
  | error failure => exact .inl ⟨failure.1, rfl⟩
  | ok files =>
    dsimp only
    rcases FileTree.write_cases files w.here path (Utf8.encode (text ps)) with
      ⟨f, hw⟩ | ⟨l, f, hf, ht, hw⟩ | ⟨l, hf, -⟩
    · rw [hw]
      exact .inl ⟨f, rfl⟩
    · -- What is put where the path leads is found there again.
      let later : World := { w with files := files.put l (.file (Utf8.encode (text ps))) }
      have hfind : later.files.find later.here (file later.home).text =
          .ok (.entry l (.file (Utf8.encode (text ps)))) :=
        FileTree.find_put hf ht nofun
      rw [hw]
      refine .inr ⟨later.files, rfl, ?_, not_swallows_of_find hfind⟩
      exact stored?_of_find hfind (Utf8.decode_encode_of_plain hplain) hparse
    · exact absurd ⟨files, l, hm, hf⟩ hs

/-- The value of a preference is that of what is stored. -/
theorem run_value? (h : stored? w = some ps) (key : String) :
    Refused ((value? key).run.run w) ∨
      (value? key).run.run w = (.ok (Entries.get? key ps), w) := by
  rcases run_read h with hr | hr
  · exact .inl (refused_bind hr)
  · exact .inr (run_bind_of_ok hr _)

/-- Setting a preference puts it into what is stored. -/
theorem run_put (h : stored? w = some ps) (hs : ¬Swallows w) (hl : Lossless (.object ps))
    (key value : String) :
    Refused ((put key value).run.run w) ∨ ∃ v, (put key value).run.run w = (.ok (), v) ∧
      stored? v = some (Entries.put key (.text value) ps) ∧ ¬Swallows v := by
  rcases run_read h with hr | hr
  · exact .inl (refused_bind hr)
  · rw [put, run_bind_of_ok hr]
    rcases run_write_of_lossless hs (lossless_put hl key value) with hw | ⟨files, hw, hv, hn⟩
    · exact .inl (refused_bind hw)
    · rw [run_bind_of_ok hw]
      exact .inr ⟨_, rfl, hv, hn⟩

/-- Clearing a preference that is not set changes nothing but the log. -/
theorem run_clear_of_none (h : stored? w = some ps) {key : String}
    (hk : Entries.get? key ps = none) :
    Refused ((clear key).run.run w) ∨ ∃ logs, (clear key).run.run w = (.ok (), w.logging logs) := by
  rcases run_read h with hr | hr
  · exact .inl (refused_bind hr)
  · have hhas : Entries.has key ps = false := by rw [Entries.has, hk, Option.isSome_none]
    rw [clear, run_bind_of_ok hr, hhas]
    exact .inr ⟨[(.debug, s!"Preference '{key}' not set, nothing to clear")], rfl⟩

/-- Clearing a preference that is set erases it from what is stored. -/
theorem run_clear_of_some (h : stored? w = some ps) (hs : ¬Swallows w)
    (hl : Lossless (.object ps)) {key : String} {value : Json}
    (hk : Entries.get? key ps = some value) :
    Refused ((clear key).run.run w) ∨ ∃ v, (clear key).run.run w = (.ok (), v) ∧
      stored? v = some (Entries.erase key ps) ∧ ¬Swallows v := by
  rcases run_read h with hr | hr
  · exact .inl (refused_bind hr)
  · have hhas : Entries.has key ps = true := by rw [Entries.has, hk, Option.isSome_some]
    rw [clear, run_bind_of_ok hr, hhas]
    simp only [Bool.not_true, Bool.false_eq_true, if_false]
    rcases run_write_of_lossless hs (lossless_erase hl key) with hw | ⟨files, hw, hv, hn⟩
    · exact .inl (refused_bind hw)
    · rw [run_bind_of_ok hw]
      exact .inr ⟨_, rfl, hv, hn⟩

/-- What is stored is lossless unless it has decimals. -/
theorem lossless_of_stored? (h : stored? w = some ps) (hd : WithoutDecimals (.object ps)) :
    Lossless (.object ps) := by
  rcases stored?_eq_some h with ⟨l, bytes, cs, -, -, hp⟩ | ⟨-, rfl⟩
  · obtain ⟨j, hj, hm⟩ := Json.map_eq_ok hp
    cases j
    case object fs =>
      cases hm
      exact Json.lossless_of_parse hj hd
    all_goals cases hm
  · exact .object List.nodup_nil fun f hf => absurd hf List.not_mem_nil

end CloudSecrets.Preferences
