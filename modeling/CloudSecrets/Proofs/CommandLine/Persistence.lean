import CloudSecrets.Proofs.CommandLine.Credentials
import CloudSecrets.Proofs.CommandLine.History

/-!
# The path that was set persists

A path that is remembered, and still leads to a file, is where every later process finds its
configuration, in whichever folder it starts; without one the default path is used
(`set_path_persists`).
-/

namespace CloudSecrets

open CloudSecrets.Action
open Yaml (Value)

/-! ## Where the configuration is found -/

namespace Config

open Preferences (Remembers present naming)

variable {w : World} {k : Option String} {q : String}

/-- The path that is remembered is preferred. -/
theorem outcome_preferred_of_remembers (h : Remembers w (some q))
    (hd : present w ≠ some .device) : preferred.outcome w = .ok (some (Path.ofText q)) := by
  obtain ⟨l, hfind⟩ := Preferences.find_of_present (h.present_eq hd)
  have hread := (h.outcome_read (FileTree.not_untold_of_find hfind)).1 hd
  exact outcome_preferred_of_text hread rfl (h.canonical q rfl).ne_empty

/-- No path is preferred where none is remembered, or a device is. -/
theorem outcome_preferred_of_none (h : Remembers w k) (hn : k = none ∨ present w = some .device)
    (hu : ¬w.files.Untold w.here (Preferences.file w.home).text) :
    preferred.outcome w = .ok none := by
  obtain ⟨hpath, hnone⟩ := h.outcome_read hu
  by_cases hd : present w = some .device
  · exact outcome_preferred_of_unset (hnone hd) rfl
  · obtain rfl := hn.resolve_right hd
    exact outcome_preferred_of_unset (hpath hd) rfl

/-- A path that is remembered and leads to a file is where the configuration is. -/
theorem outcome_place_of_remembers (h : Remembers w (some q)) (hd : present w ≠ some .device)
    (hf : w.files.isFile w.here q = true) : place.outcome w = .ok q := by
  have htold : ¬w.files.Untold w.here q := by
    rw [FileTree.isFile] at hf
    split at hf
    · rename_i hfind
      exact FileTree.not_untold_of_find hfind
    · cases hf
  have hexists : (pathExists q).outcome w = .ok true := by
    rw [outcome_pathExists_of_not_untold htold, FileTree.exists?_of_isFile hf]
  rw [outcome_place, outcome_preferred_of_remembers h hd]
  simp only [bind, Except.bind, (h.canonical q rfl).text_ofText, hexists, if_true]

/-- Without a path that is remembered, or where a device is, the configuration is at the default path,
or nowhere. -/
theorem outcome_place_of_none (h : Remembers w k) (hn : k = none ∨ present w = some .device) :
    (w.files.Untold w.here (Preferences.file w.home).text → place.outcome w =
        .error (.file ⟨.nameTooLong, (Preferences.file w.home).text⟩)) ∧
      (¬w.files.Untold w.here (Preferences.file w.home).text →
        (w.files.Untold w.here (usualPath w.home).text → place.outcome w =
          .error (.file ⟨.nameTooLong, (usualPath w.home).text⟩)) ∧
        (¬w.files.Untold w.here (usualPath w.home).text → place.outcome w =
          if w.files.exists? w.here (usualPath w.home).text then .ok (usualPath w.home).text
          else .error (.config (.notFound (usualPath w.home).text)))) := by
  refine ⟨fun hu => ?_, fun hu => ⟨fun hd => ?_, fun hd => ?_⟩⟩
  · rw [outcome_place, outcome_preferred_of_unread (Preferences.outcome_read_of_untold hu)]
    simp only [bind, Except.bind]
  · rw [outcome_place, outcome_preferred_of_none h hn hu]
    simp only [outcome_usualIfPresent, outcome_pathExists_of_untold hd, bind,
      Except.bind]
  · rw [outcome_place, outcome_preferred_of_none h hn hu]
    simp only [outcome_usualIfPresent, outcome_pathExists_of_not_untold hd, bind,
      Except.bind]

/-- What is loaded is read where the configuration is. -/
theorem outcome_load_of_place (h : place.outcome w = .ok q) :
    load.outcome w = (readFile w.reader q >>= accept q).outcome w := by
  rw [outcome_load_eq_loadWith, loadWith_eq, looks_place.outcome_bind fun path =>
    (looks_readFile w.reader path).bind (looks_accept path), h]
  rfl

end Config

namespace CommandLine

open Preferences (Remembers Makeable present naming)

section Later

variable {w : World} {args : List String} {i : Invocation} {q : String}

/-- The configuration that a run about secrets has loaded is the one that could be loaded when it
started. -/
theorem load_of_config {x : Value} (hw : w.config = none) (hr : read args = .ok i)
    (hs : i.verb.isAboutSecrets = true) (hx : (run w args).world.config = some x) :
    Config.load.outcome w = .ok x := by
  have hnew {u : World} (hu : u.config = some x) (h : Config.Caches w u) :
      Config.load.outcome w = .ok x := by
    rcases h with hsame | ⟨-, y, hy, hsome⟩
    · rw [hsame, hw] at hu
      cases hu
    · rw [hu] at hsome
      cases hsome
      exact hy
  obtain ⟨notes, hn⟩ := world_settle (perform i.context i.verb) w
  rw [run, hr, show (i.run w).world = (settle (perform i.context i.verb) w).2 from rfl, hn] at hx
  cases ho : i.verb.operation? with
  | none =>
    obtain ⟨r, more, hp⟩ := run_perform_of_none hs ho i.context w
    rw [hp] at hx
    exact hnew hx (.inl rfl)
  | some op =>
    have hcaches := Client.caches_new i.context w
    rw [perform_eq ho] at hx
    rcases run_onClient op i.context w with ⟨f, u, hu, hp⟩ | ⟨client, u, hu, hp⟩
    · rw [hu] at hcaches
      rw [hp] at hx
      exact hnew hx hcaches
    · rw [hu] at hcaches
      have hserving := along_operation ho client u
      rcases hp with ⟨f, u', hop, hp⟩ | ⟨text, u', hop, hp⟩
      · rw [hop] at hserving
        rw [hp] at hx
        exact hnew (hserving.config_eq ▸ hx) hcaches
      · rw [hop] at hserving
        rw [hp] at hx
        exact hnew (hserving.config_eq ▸ hx) hcaches

/-- Setting the path that is remembered again leaves the preferences file as it is. -/
theorem present_of_set_again (h : Remembers w (some q)) (hd : present w ≠ some .device)
    (hr : read args = .ok i) (hv : i.verb = .setPath q)
    (hcanonical : w.files.canonical w.here q = q) :
    present (run w args).world = present w := by
  have hpresent := h.present_eq hd
  have hthere : present w ≠ none := by
    rw [hpresent]
    nofun
  have hperform : perform i.context i.verb = setPath q := by
    rw [hv]
    rfl
  rcases settle_setPath_cases q w with
    ⟨notes, t, hs, hkept⟩ | ⟨path, ps, t, logs, hpath, -, hps, hs, hcase⟩
  · rw [run_eq hr (hperform ▸ hs), ← hkept.present_eq hthere]
    exact Preferences.present_congr rfl rfl rfl
  · have hsame : path = q := by
      obtain ⟨p, hp, hq⟩ := resolvePath_eq_ok hpath
      rw [outcome_expandHome (h.canonical q rfl).absolute] at hp
      cases hp
      rw [hq, (h.canonical q rfl).text_ofText, hcanonical]
    obtain rfl : ps = naming (some q) :=
      (h.read_cases hps).resolve_right fun hdevice => hd hdevice.1
    rw [Preferences.put_naming, hsame] at hcase
    rcases hcase with ⟨hkept, hdevice⟩ | ⟨l, hl⟩
    · exact absurd ((hkept.present_eq hthere).symm.trans hdevice) hd
    · rw [run_eq hr (hperform ▸ hs), hpresent]
      exact present_of_stored hl rfl rfl rfl

end Later

theorem placeText_preference (q : String) :
    placeText q "preference" true = "Config path: " ++ q ++ "\nSource: preference\n" := by
  have hline : ("Config path: " ++ q ++ "\n") ++ "Source: preference\n" =
      "Config path: " ++ q ++ "\nSource: preference\n" := by
    rw [String.append_assoc]
    rfl
  exact hline

/-- A run in a folder with one file, whose home folder is missing, that sets the path to it. -/
def settingTurn : Turn := ⟨homelessWorld, ["config", "set-path", "c.yml"]⟩

/-- A process that starts behind it in the root, with what it has left of the files. -/
def laterWorld : World where
  files := {
    entries := [
      (["w"], .folder), (["w", "c.yml"], .file []), (["h"], .folder), (["h", "u"], .folder),
      (["h", "u", ".config"], .folder), (["h", "u", ".config", "secretctl"], .folder),
      (["h", "u", ".config", "secretctl", "preferences.json"],
        .file (Utf8.encode (Preferences.text (naming (some "/w/c.yml")))))] }
  here := []
  home := "/h/u"
  reader := Config.readDocument

/-- A process whose default path leads to a link with too long a name. -/
def overlongWorld : World where
  files := {
    entries := [
      (["h"], .folder), (["h", ".config"], .folder), (["h", ".config", "secretctl"], .folder),
      (["h", ".config", "secretctl", "config.yml"],
        .link (String.ofList (List.replicate 64 '😀')))] }
  here := []
  home := "/h"
  reader := Config.readDocument

end CommandLine

end CloudSecrets
