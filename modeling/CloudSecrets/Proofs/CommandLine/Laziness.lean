import CloudSecrets.Proofs.CommandLine.Frame
import CloudSecrets.Proofs.FileTree.Outline

/-!
# Runs that read no configuration

A run that does not use the service looks at the preferences and at nothing else that a file holds.
Worlds are akin if they differ in the contents of their files at most, and not in what is read as
the preferences; such a run comes to the same in akin worlds and leaves akin worlds behind
(`agrees_perform`), so a configuration that is invalid, or not even text, makes no difference to it
(`contents_are_ignored_without_service`).
-/

namespace CloudSecrets

open CloudSecrets.Action

variable {here : Location} {home : String} {v w : World}

/-- Two worlds in which a process stands in the same folder, with the same home folder, differ in
the contents of their files at most, and the preferences are read alike. -/
structure Akin (here : Location) (home : String) (v w : World) : Prop where
  at_here : v.here = here
  at_home : v.home = home
  rest : ∀ files, { w with files := files } = { v with files := files }
  outline : v.files.SameOutline w.files
  preferences : w.files.read here (Preferences.file home).text =
    v.files.read here (Preferences.file home).text

namespace Akin

theorem here_eq (h : Akin here home v w) : w.here = v.here :=
  (congrArg World.here (h.rest {}) :)

theorem home_eq (h : Akin here home v w) : w.home = v.home :=
  (congrArg World.home (h.rest {}) :)

theorem homes_eq (h : Akin here home v w) : w.homes = v.homes :=
  (congrArg World.homes (h.rest {}) :)

theorem notes_eq (h : Akin here home v w) : w.notes = v.notes :=
  (congrArg World.notes (h.rest {}) :)

theorem output_eq (h : Akin here home v w) : w.output = v.output :=
  (congrArg World.output (h.rest {}) :)

theorem noting (h : Akin here home v w) (notes : List Note) :
    Akin here home { v with notes := v.notes ++ notes } { w with notes := w.notes ++ notes } :=
  ⟨h.at_here, h.at_home, fun files =>
    congrArg (fun u : World => { u with notes := u.notes ++ notes }) (h.rest files),
    h.outline, h.preferences⟩

/-- Worlds stay akin if other trees with one outline take the place of their files. -/
theorem of_files (h : Akin here home v w) {files files' : FileTree}
    (hsame : files.SameOutline files')
    (hread : files'.read here (Preferences.file home).text =
      files.read here (Preferences.file home).text) :
    Akin here home { v with files := files } { w with files := files' } :=
  ⟨h.at_here, h.at_home, h.rest, hsame, hread⟩

end Akin

/-! ## Telling -/

theorem Action.agrees_log (level : Level) (s : String) : Agrees (Akin here home) (log level s) :=
  Agrees.modify fun _ _ h => h.noting [.logged level s]

theorem Action.agrees_warn (s : String) : Agrees (Akin here home) (warn s) :=
  Agrees.modify fun _ _ h => h.noting [.printed s]

theorem Action.agrees_print (s : String) : Agrees (Akin here home) (print s) :=
  Agrees.modify fun _ _ h => ⟨h.at_here, h.at_home, fun files =>
    congrArg (fun u : World => { u with output := u.output ++ s }) (h.rest files),
    h.outline, h.preferences⟩

/-! ## Looking for files -/

theorem Action.agrees_pathExists (path : String) : Agrees (Akin here home) (pathExists path) := by
  refine Agrees.get_bind fun v w h => ⟨?_, Agrees.ofExcept _ _⟩
  rw [h.here_eq, h.outline.exists?_eq, h.outline.checked_eq]

theorem Action.agrees_isFile (path : String) : Agrees (Akin here home) (isFile path) := by
  refine Agrees.get_bind fun v w h => ⟨?_, Agrees.ofExcept _ _⟩
  rw [h.here_eq, h.outline.isFile_eq, h.outline.checked_eq]

/-! ## Preferences -/

namespace Preferences

theorem agrees_ignore (path why : String) : Agrees (Akin here home) (ignore path why) :=
  (agrees_log _ _).bind fun _ => Agrees.pure _

theorem agrees_read : Agrees (Akin here home) read := by
  refine Agrees.get_bind fun v w h => ⟨by rw [h.home_eq], ?_⟩
  rw [h.at_home]
  refine (agrees_pathExists _).bind fun found => ?_
  cases found with
  | false => exact Agrees.pure _
  | true =>
    refine Agrees.get_bind fun v w h => ⟨by rw [h.here_eq, h.at_here, h.preferences], ?_⟩
    split
    · exact agrees_ignore _ _
    · split
      · exact Agrees.stop _
      · split
        · exact Agrees.pure _
        · exact (agrees_log _ _).bind fun _ => Agrees.pure _
        · exact Agrees.stop _
        · exact agrees_ignore _ _

/-- In trees of one outline the preferences are written alike, and read alike afterwards. -/
theorem written_alike {t t' : FileTree} (h : t.SameOutline t') (here : Location) (home : String)
    (content : Bytes) :
    (written t' here home content).1 = (written t here home content).1 ∧
      (written t here home content).2.SameOutline (written t' here home content).2 ∧
      (written t' here home content).2.read here (file home).text =
        (written t here home content).2.read here (file home).text := by
  rcases h.makeFolders here (folder home) with
    ⟨fault, u, u', hold, hnew, hu⟩ | ⟨u, u', hold, hnew, hu⟩
  · -- Without its folder the path leads to no file that could be read differently.
    have hno : u.isFolder here (folder home).text = false :=
      FileTree.isFolder_of_makeFolders (proper_folder home) hold
    simp only [written, hold, hnew, true_and]
    refine ⟨hu, (hu.read_eq_or here _).resolve_right ?_⟩
    rintro ⟨l, c, hf⟩
    rw [FileTree.isFolder_of_child (proper_folder home) (parts_folder_ne_nil home)
      ⟨by decide, by decide⟩ hf] at hno
    cases hno
  · rcases hu.write here (file home).text content with
      ⟨fault, hold', hnew', hread⟩ | ⟨u₁, u₁', hold', hnew', hu₁, hread⟩
    · simp only [written, hold, hnew, hold', hnew', true_and]
      exact ⟨hu, hread⟩
    · simp only [written, hold, hnew, hold', hnew', true_and]
      exact ⟨hu₁, hread⟩

theorem agrees_write (ps : Preferences) : Agrees (Akin here home) (write ps) := by
  intro v w h
  obtain rfl := h.at_here
  obtain rfl := h.at_home
  obtain ⟨hsame, houtline, hread⟩ :=
    written_alike h.outline v.here v.home (Utf8.encode (text ps))
  have hw : written w.files w.here w.home (Utf8.encode (text ps)) =
      written w.files v.here v.home (Utf8.encode (text ps)) := by
    rw [h.here_eq, h.home_eq]
  rw [outcome, outcome, run_write, run_write, hw, hsame]
  exact ⟨rfl, h.of_files houtline hread⟩

theorem agrees_value? (key : String) : Agrees (Akin here home) (value? key) :=
  agrees_read.bind fun _ => Agrees.pure _

theorem agrees_put (key value : String) : Agrees (Akin here home) (put key value) :=
  agrees_read.bind fun _ => (agrees_write _).bind fun _ => agrees_log _ _

theorem agrees_clear (key : String) : Agrees (Akin here home) (clear key) := by
  refine agrees_read.bind fun ps => ?_
  split
  · exact agrees_log _ _
  · exact (agrees_write _).bind fun _ => agrees_log _ _

end Preferences

/-! ## The place of the configuration -/

namespace Config

theorem agrees_pathOf (j : Json) : Agrees (Akin here home) (pathOf j) := by
  cases j
  case text s => exact Agrees.pure _
  all_goals exact Agrees.stop _

theorem agrees_preferred : Agrees (Akin here home) preferred := by
  refine (Preferences.agrees_value? _).bind fun j => ?_
  cases j with
  | none => exact Agrees.pure _
  | some j =>
    dsimp only
    split
    · exact (agrees_pathOf j).map _
    · exact Agrees.pure _

theorem agrees_usual : Agrees (Akin here home) usual :=
  Agrees.get_bind fun v w h => ⟨by rw [h.home_eq], Agrees.pure _⟩

end Config

namespace CommandLine

theorem agrees_expandHome (p : Path) : Agrees (Akin here home) (expandHome p) := by
  refine Agrees.get_bind fun v w h => ⟨by rw [h.home_eq, h.homes_eq], ?_⟩
  split
  · exact Agrees.stop _
  · split
    · exact Agrees.pure _
    · exact Agrees.stop _

theorem agrees_resolvePath (text : String) : Agrees (Akin here home) (resolvePath text) := by
  refine (agrees_expandHome _).bind fun p => ?_
  dsimp only
  split
  · exact Agrees.stop _
  · refine Agrees.get_bind fun v w h => ⟨?_, ?_⟩
    · rw [h.here_eq, h.outline.canonical_eq]
      rcases h.outline.find v.here (v.files.canonical v.here p.text) with
        hsame | ⟨l, c, c', hold, hnew⟩
      · rw [hsame]
      · rw [hold, hnew]
    · split
      · exact Agrees.stop _
      · exact Agrees.pure _

theorem agrees_setPath (text : String) : Agrees (Akin here home) (setPath text) := by
  refine (agrees_resolvePath text).bind fun path => (agrees_isFile path).bind fun found => ?_
  cases found with
  | false => exact (agrees_warn _).bind fun _ => Agrees.pure 1
  | true =>
    exact (Preferences.agrees_put _ _).bind fun _ =>
      (agrees_print _).bind fun _ => Agrees.pure 0

theorem agrees_showPath : Agrees (Akin here home) showPath := by
  have hshow (path source : String) : Agrees (Akin here home) (showAt path source) :=
    (agrees_print _).bind fun _ => (agrees_pathExists path).bind fun _ =>
      (agrees_print _).bind fun _ => Agrees.pure 0
  rw [showPath_eq]
  refine Config.agrees_preferred.bind fun q => ?_
  cases q with
  | none => exact Config.agrees_usual.bind fun p => hshow _ _
  | some p => exact hshow _ _

theorem agrees_clearPath : Agrees (Akin here home) clearPath :=
  (Preferences.agrees_clear _).bind fun _ => Config.agrees_usual.bind fun _ =>
    (agrees_print _).bind fun _ => Agrees.pure 0

/-- What does not use the service comes to the same in akin worlds. -/
theorem agrees_perform {verb : Verb} (hop : verb.operation? = none) (c : Context) :
    Agrees (Akin here home) (perform c verb) := by
  cases verb with
  | help command => exact (agrees_print _).bind fun _ => Agrees.pure 2
  | create name username password description entries =>
    rcases perform_create_of_none hop c with ⟨entry, he⟩ | he
    · rw [he]
      exact (agrees_warn _).bind fun _ => Agrees.pure 2
    · rw [he]
      exact Agrees.stop _
  | inspect id => cases hop
  | list => cases hop
  | delete name recover => cases hop
  | version => exact (agrees_print _).bind fun _ => Agrees.pure 0
  | setPath text => exact agrees_setPath text
  | showPath => exact agrees_showPath
  | clearPath => exact agrees_clearPath

/-! ## Runs -/

/-- Worlds that are akin stay so when an action is settled, and the exit code is the same. -/
theorem settle_alike {a : Action Nat} (ha : Agrees (Akin here home) a) (h : Akin here home v w) :
    (settle a w).1 = (settle a v).1 ∧ Akin here home (settle a v).2 (settle a w).2 := by
  obtain ⟨hsame, hend⟩ := ha v w h
  rw [outcome, outcome] at hsame
  rcases hv : a.run.run v with ⟨r, v'⟩
  rcases hw : a.run.run w with ⟨r', w'⟩
  rw [hv, hw] at hsame hend
  subst hsame
  cases r' with
  | error f =>
    rw [settle_of_error hv, settle_of_error hw]
    exact ⟨rfl, hend.noting f.notes⟩
  | ok code =>
    rw [settle_of_ok hv, settle_of_ok hw]
    exact ⟨rfl, hend⟩

theorem run_alike {args : List String} (h : Akin here home v w)
    (hother : ∀ i, read args = .ok i → i.verb.operation? = none) :
    (run w args).exit = (run v args).exit ∧ (run w args).output = (run v args).output ∧
      (run w args).errors = (run v args).errors ∧
      Akin here home (run v args).world (run w args).world := by
  cases hr : read args with
  | error s =>
    rw [run, run, hr]
    cases s <;> exact ⟨rfl, rfl, rfl, h⟩
  | ok i =>
    obtain ⟨hexit, hend⟩ := settle_alike (agrees_perform (hother i hr) i.context) h
    rcases hv : settle (perform i.context i.verb) v with ⟨code, v'⟩
    rcases hw : settle (perform i.context i.verb) w with ⟨code', w'⟩
    rw [hv, hw] at hexit hend
    rw [run_eq hr hv, run_eq hr hw]
    exact ⟨hexit, hend.output_eq, congrArg (Note.shownAll i.verbosity) hend.notes_eq, hend⟩

/-- Without the service the contents of files are ignored. Take two file trees of the same outline,
in which the preferences are read alike, and a command line that is not accepted as a command on
secrets with well-formed labels. Run with either tree, it ends with the same code, prints the same
and tells the same on the error stream; the trees keep the same outline and the same preferences;
and in neither run a variable is changed or a call is made. -/
theorem contents_are_ignored_without_service {w : World} {files : FileTree} {args : List String}
    (houtline : w.files.SameOutline files)
    (hpreferences : files.read w.here (Preferences.file w.home).text =
      w.files.read w.here (Preferences.file w.home).text)
    (hother : ∀ i, read args = .ok i → i.verb.operation? = none) :
    let first := run w args
    let second := run { w with files := files } args
    second.exit = first.exit ∧ second.output = first.output ∧ second.errors = first.errors ∧
      first.world.files.SameOutline second.world.files ∧
      second.world.files.read w.here (Preferences.file w.home).text =
        first.world.files.read w.here (Preferences.file w.home).text ∧
      ∀ ending ∈ [first, second],
        ending.world.environment = w.environment ∧ ending.world.calls = w.calls := by
  intro first second
  have hakin : Akin w.here w.home w { w with files := files } :=
    ⟨rfl, rfl, fun _ => rfl, houtline, hpreferences⟩
  obtain ⟨hexit, houtput, herrors, hend⟩ := run_alike hakin hother
  refine ⟨hexit, houtput, herrors, hend.outline, hend.preferences, fun ending hmem => ?_⟩
  rcases List.mem_pair.mp hmem with rfl | rfl
  · obtain ⟨_, _, _, hlocal⟩ := local_of_run (w := w) hother
    rw [show first.world = _ from hlocal]
    exact ⟨rfl, rfl⟩
  · obtain ⟨_, _, _, hlocal⟩ := local_of_run (w := { w with files := files }) hother
    rw [show second.world = _ from hlocal]
    exact ⟨rfl, rfl⟩

/-- A configuration that is not even text does not keep its place from being shown. -/
theorem show_beside_undecodable_config :
    let config := ["h", ".config", "secretctl", "config.yml"]
    let broken : World := { staleWorld with files := staleWorld.files.put config (.file [0xFF]) }
    (run broken ["config", "show"]).exit = 0 ∧
      (run broken ["config", "show"]).output =
        "Config path: /gone\nSource: preference (file not found)\n" := by
  intro config broken
  have hfile : staleWorld.files.lookup config = some (.file []) := by decide +kernel
  have hprefs : broken.files.read [] (Preferences.file "/h").text =
      staleWorld.files.read [] (Preferences.file "/h").text := by
    decide +kernel
  have hr : read ["config", "show"] = .ok ⟨0, ⟨none, none⟩, .showPath⟩ :=
    eq_ok_of_toOption (by decide +kernel)
  have hother : ∀ i, read ["config", "show"] = .ok i → i.verb.operation? = none := by
    intro i hi
    rw [hr] at hi
    cases hi
    rfl
  obtain ⟨hexit, houtput, -⟩ := contents_are_ignored_without_service
    (FileTree.SameOutline.put_file hfile [0xFF]) hprefs hother
  exact ⟨hexit.trans (by decide +kernel), houtput.trans (by decide +kernel)⟩

end CommandLine

end CloudSecrets
