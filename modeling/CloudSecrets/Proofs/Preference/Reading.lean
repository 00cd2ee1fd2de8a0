import CloudSecrets.Proofs.Config.Place
import CloudSecrets.Proofs.Preference

/-!
# Reading preferences

A preferences file counts as empty if it holds anything but an object, unless reading it stops:
nothing can be told about its path, it is no UTF-8, or it has an integer that is too long
(`outcome_read_eq_error_iff`). What counts as empty is replaced by the first preference that is set
(`run_put_of_undecoded`).
-/

namespace CloudSecrets.Preferences

open CloudSecrets.Action
open Json (Lossless)

variable {w : World} {ps : Preferences} {f : Fault}

/-! ## Contents -/

/-- What octets hold as preferences. Those that are no text of an object hold none. -/
def contents (bytes : Bytes) : Except Fault Preferences :=
  match Utf8.decode bytes with
  | .error f => .error (.encoding f)
  | .ok cs =>
    match parse cs with
    | .ok ps => .ok (ps.getD [])
    | .error (.oversized digits) => .error (.numeral (.tooLong digits))
    | .error _ => .ok []

/-- Why octets stop the reader: they are no UTF-8, or have an integer that is too long. -/
inductive Illegible (bytes : Bytes) : Fault → Prop where
  | encoding {f : Utf8.Fault} (hd : Utf8.decode bytes = .error f) : Illegible bytes (.encoding f)
  | oversized {cs : List Char} {digits : Nat} (hd : Utf8.decode bytes = .ok cs)
    (hp : parse cs = .error (.oversized digits)) : Illegible bytes (.numeral (.tooLong digits))

theorem Illegible.decoded?_eq_none {bytes : Bytes} (h : Illegible bytes f) :
    decoded? bytes = none := by
  cases h with
  | encoding hd =>
    rw [decoded?, hd]
    rfl
  | oversized hd hp =>
    rw [decoded?, hd, Except.toOption, Option.bind_some, hp]
    rfl

theorem contents_eq_error_iff {bytes : Bytes} : contents bytes = .error f ↔ Illegible bytes f := by
  constructor
  · intro h
    rw [contents] at h
    cases hd : Utf8.decode bytes with
    | error e =>
      rw [hd] at h
      cases h
      exact .encoding hd
    | ok cs =>
      rw [hd] at h
      cases hp : parse cs with
      | ok ps => simp [hp] at h
      | error e =>
        cases e with
        | oversized digits =>
          simp only [hp] at h
          cases h
          exact .oversized hd hp
        | malformed _ _ _ _ => simp [hp] at h
  · intro h
    cases h with
    | encoding hd => rw [contents, hd]
    | oversized hd hp => simp only [contents, hd, hp]

/-- What can be read is what is decoded, or nothing. -/
theorem contents_eq_ok {bytes : Bytes} (h : contents bytes = .ok ps) :
    ps = (decoded? bytes).getD [] := by
  rw [contents] at h
  rw [decoded?]
  cases hd : Utf8.decode bytes with
  | error e => simp [hd] at h
  | ok cs =>
    cases hp : parse cs with
    | ok qs => simp_all [Except.toOption]
    | error e => cases e <;> simp_all [Except.toOption]

/-! ## Files -/

/-- What is read where a path leads. -/
def readAt : Except FileCause FileTree.Found → Except Fault Preferences
  | .ok (.entry _ (.file bytes)) => contents bytes
  | _ => .ok []

/-- Reading gives the contents of the file that the path leads to, and nothing if it leads to no
file. -/
theorem outcome_read_eq (w : World) :
    read.outcome w = (pathExists (file w.home).text).outcome w >>= fun _ =>
      readAt (w.files.find w.here (file w.home).text) := by
  have hexists := run_pathExists_eq (file w.home).text w
  cases hp : (pathExists (file w.home).text).outcome w with
  | error e =>
    rw [hp] at hexists
    rw [outcome, read, run_bind_of_ok (run_get w), run_bind_of_error hexists]
    rfl
  | ok found =>
    have hfound := exists?_of_outcome_pathExists hp
    rw [hp] at hexists
    rw [outcome, read, run_bind_of_ok (run_get w), run_bind_of_ok hexists, ← hfound,
      FileTree.exists?]
    cases hf : w.files.find w.here (file w.home).text with
    | error cause => rfl
    | ok target =>
      cases target with
      | vacant l => rfl
      | entry l e =>
        simp only [Bool.not_true, Bool.false_eq_true, if_false]
        rw [run_bind_of_ok (run_get w), FileTree.read, hf]
        cases e with
        | file bytes =>
          simp only [bind, Except.bind, readAt, contents]
          cases Utf8.decode bytes with
          | error e => rfl
          | ok cs =>
            dsimp only
            rcases parse cs with e | object
            · cases e <;> rfl
            · cases object <;> rfl
        | folder => rfl
        | link target => rfl
        | device => rfl

/-- Why the preferences cannot be read: nothing can be told about their path, or the file there stops
the reader. -/
inductive Unreadable (w : World) : Fault → Prop where
  | untold (h : w.files.Untold w.here (file w.home).text) :
    Unreadable w (.file ⟨.nameTooLong, (file w.home).text⟩)
  | illegible {l : Location} {bytes : Bytes} {f : Fault}
    (hf : w.files.find w.here (file w.home).text = .ok (.entry l (.file bytes)))
    (h : Illegible bytes f) : Unreadable w f

theorem readAt_eq_error_iff {r : Except FileCause FileTree.Found} :
    readAt r = .error f ↔ ∃ l bytes, r = .ok (.entry l (.file bytes)) ∧ Illegible bytes f := by
  constructor
  · intro h
    unfold readAt at h
    split at h
    · exact ⟨_, _, rfl, contents_eq_error_iff.mp h⟩
    · cases h
  · rintro ⟨l, bytes, rfl, h⟩
    exact contents_eq_error_iff.mpr h

theorem readAt_eq_ok {r : Except FileCause FileTree.Found} (h : readAt r = .ok ps) :
    ps = (held? r).getD [] := by
  unfold readAt at h
  split at h
  · exact contents_eq_ok h
  · rename_i hno
    cases h
    unfold held?
    split
    · exact absurd rfl (hno _ _)
    · rfl
    · rfl

/-- Reading stops for these reasons only. -/
theorem outcome_read_eq_error_iff : read.outcome w = .error f ↔ Unreadable w f := by
  rw [outcome_read_eq]
  by_cases hu : w.files.Untold w.here (file w.home).text
  · rw [outcome_pathExists_of_untold hu]
    constructor
    · rintro ⟨⟩
      exact .untold hu
    · intro h
      cases h with
      | untold _ => rfl
      | illegible hf _ => exact absurd hu (FileTree.not_untold_of_find hf)
  · rw [outcome_pathExists_of_not_untold hu]
    simp only [bind, Except.bind, readAt_eq_error_iff]
    constructor
    · rintro ⟨l, bytes, hf, h⟩
      exact .illegible hf h
    · intro h
      cases h with
      | untold h => exact absurd h hu
      | illegible hf h => exact ⟨_, _, hf, h⟩

/-- What is read is what is stored; what holds no object counts as empty. -/
theorem eq_of_outcome_read (h : read.outcome w = .ok ps) : ps = (stored? w).getD [] := by
  rw [outcome_read_eq] at h
  obtain ⟨found, -, h⟩ := bind_eq_ok.mp h
  exact readAt_eq_ok h

theorem outcome_read_of_readable (h : ∀ f, ¬Unreadable w f) :
    read.outcome w = .ok ((stored? w).getD []) := by
  cases hr : read.outcome w with
  | error f => exact absurd (outcome_read_eq_error_iff.mp hr) (h f)
  | ok ps => rw [eq_of_outcome_read hr]

/-- Where no file is, nothing is read. -/
theorem outcome_read_of_no_file (hu : ¬w.files.Untold w.here (file w.home).text)
    (h : ∀ l bytes, w.files.find w.here (file w.home).text ≠ .ok (.entry l (.file bytes))) :
    read.outcome w = .ok [] := by
  rw [outcome_read_eq, outcome_pathExists_of_not_untold hu]
  simp only [bind, Except.bind]
  unfold readAt
  split
  · rename_i hf
    exact absurd hf (h _ _)
  · rfl

theorem outcome_read_of_absent (hu : ¬w.files.Untold w.here (file w.home).text)
    (h : w.files.exists? w.here (file w.home).text = false) : read.outcome w = .ok [] := by
  refine outcome_read_of_no_file hu fun l bytes hf => ?_
  rw [FileTree.exists?, hf] at h
  cases h

theorem outcome_value? (key : String) (w : World) :
    (value? key).outcome w = (read.outcome w).map (Entries.get? key) := by
  rw [value?, looks_read.outcome_bind fun _ => Looks.pure _]
  cases read.outcome w <;> rfl

/-! ## Setting -/

/-- Preferences that were read are written back to their file with the new one. -/
theorem run_put_of_find {l : Location} {bytes : Bytes}
    (hf : w.files.find w.here (file w.home).text = .ok (.entry l (.file bytes)))
    (hr : read.outcome w = .ok ps) (key value : String) :
    ∃ logs, (put key value).run.run w = (.ok (), World.logging { w with
      files := w.files.put l (.file (Utf8.encode (text (Entries.put key (.text value) ps)))) }
      logs) := by
  let content := Utf8.encode (text (Entries.put key (.text value) ps))
  obtain ⟨logs, hrun⟩ := looks_read.run w
  rw [hr] at hrun
  have hwritten : written w.files w.here w.home content =
      (.ok (), w.files.put l (.file content)) := by
    rw [written, makeFolders_of_find hf]
    simp only [FileTree.write, FileTree.place_of_find hf]
  have hwrite := run_write (Entries.put key (.text value) ps) (w.logging logs)
  rw [show (w.logging logs).files = w.files from rfl, show (w.logging logs).here = w.here from rfl,
    show (w.logging logs).home = w.home from rfl, hwritten] at hwrite
  refine ⟨logs ++ [(.info, s!"Preference '{key}' set to: {value}")], ?_⟩
  rw [put, run_bind_of_ok hrun, run_bind_of_ok hwrite, run_log, ← World.logging_logging]
  rfl

/-- A preference that is written as the only one is stored as the only one. -/
theorem stored?_of_single {l : Location} {bytes : Bytes}
    (hf : w.files.find w.here (file w.home).text = .ok (.entry l (.file bytes)))
    (key value : String) :
    stored? { w with files := w.files.put l (.file (Utf8.encode (text [(key, .text value)]))) } =
      some [(key, .text value)] := by
  have hnone : Lossless (.object []) := .object List.nodup_nil nofun
  obtain ⟨hplain, hparse⟩ := parse_text (lossless_put hnone key value)
  exact stored?_of_find (FileTree.find_put (FileTree.place_of_find hf) (.inr ⟨bytes, rfl⟩) nofun)
    (Utf8.decode_encode_of_plain hplain) hparse

/-- Reading a preference stops exactly if the file cannot be read. Else what holds no object counts
as empty, and setting a preference leaves that one in the file. -/
theorem value?_of_any_content (key : String) (w : World) :
    (∀ f, (value? key).outcome w = .error f ↔ Unreadable w f) ∧
    ((∀ f, ¬Unreadable w f) →
      (value? key).outcome w = .ok ((stored? w).bind (Entries.get? key)) ∧
      ∀ value l bytes, w.files.find w.here (file w.home).text = .ok (.entry l (.file bytes)) →
        decoded? bytes = none →
        let files := w.files.put l (.file (Utf8.encode (text [(key, .text value)])))
        (∃ logs, (put key value).run.run w = (.ok (), World.logging { w with files } logs)) ∧
          stored? { w with files } = some [(key, .text value)]) := by
  constructor
  · intro f
    rw [outcome_value?, ← outcome_read_eq_error_iff]
    cases read.outcome w <;> simp [Except.map]
  · intro h
    have hread := outcome_read_of_readable h
    refine ⟨?_, fun value l bytes hf hd => ⟨?_, stored?_of_single hf key value⟩⟩
    · rw [outcome_value?, hread]
      cases stored? w <;> rfl
    · have hstored : stored? w = none := by
        rw [stored?, hf]
        exact hd
      rw [hstored] at hread
      exact run_put_of_find hf hread key value

/-- A process with a preferences file. -/
def preferencesWorld (content : Bytes) : World where
  files := {
    entries := [
      (["h"], .folder), (["h", ".config"], .folder), (["h", ".config", "secretctl"], .folder),
      (["h", ".config", "secretctl", "preferences.json"], .file content)] }
  here := []
  home := "/h"
  reader := Config.readDocument

/-- An open bracket counts as empty and is replaced by the first preference; an octet that is no
UTF-8 stops the reader. -/
theorem value?_of_bracket_and_undecodable :
    (value? "k").outcome (preferencesWorld [91]) = .ok none ∧
      (∃ logs, ((put "k" "v").run.run (preferencesWorld [91])).2 =
        World.logging (preferencesWorld (Utf8.encode (text [("k", .text "v")]))) logs) ∧
      (value? "k").outcome (preferencesWorld [255]) =
        .error (.encoding ⟨[255], 0, .invalidStart⟩) := by
  have hf (content : Bytes) : (preferencesWorld content).files.find [] (file "/h").text =
      .ok (.entry ["h", ".config", "secretctl", "preferences.json"] (.file content)) := by
    rfl
  have hreadable : ∀ f, ¬Unreadable (preferencesWorld [91]) f := by
    intro f hf
    have hread : (read.outcome (preferencesWorld [91])).toOption.isSome := by decide +kernel
    rw [outcome_read_eq_error_iff.mpr hf] at hread
    cases hread
  have hstored : stored? (preferencesWorld [91]) = none := by decide +kernel
  obtain ⟨hvalue, hput⟩ := (value?_of_any_content "k" (preferencesWorld [91])).2 hreadable
  obtain ⟨⟨logs, hrun⟩, -⟩ := hput "v" _ _ (hf [91]) (by decide +kernel)
  refine ⟨?_, ⟨logs, ?_⟩, ?_⟩
  · rw [hvalue, hstored]
    rfl
  · rw [hrun]
    rfl
  · exact ((value?_of_any_content "k" (preferencesWorld [255])).1 _).mpr
      (.illegible (hf [255]) (.encoding rfl))

end CloudSecrets.Preferences
