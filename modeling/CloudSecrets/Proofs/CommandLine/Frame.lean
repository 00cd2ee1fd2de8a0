import CloudSecrets.Proofs.CommandLine.Show
import CloudSecrets.Proofs.Preference.Storing

/-!
# What runs do to the files

Only the commands that set or clear the path of the configuration change files, and the only file
that they change holds the preferences. `settle_setPath_cases` and `settle_clearPath_cases` say how
they end; all other commands leave the files alone (`along_still_perform`).
-/

namespace CloudSecrets

open CloudSecrets.Action

/-! ## Files that stay -/

/-- Between two worlds the files stay as they are, and so do the current and the home folder. -/
structure Still (w w' : World) : Prop where
  files : w'.files = w.files
  here : w'.here = w.here
  home : w'.home = w.home

instance : Std.Refl Still := ⟨fun _ => ⟨rfl, rfl, rfl⟩⟩

instance : IsTrans World Still :=
  ⟨fun _ _ _ huv hvw =>
    ⟨hvw.files.trans huv.files, hvw.here.trans huv.here, hvw.home.trans huv.home⟩⟩

theorem Action.along_still_print (s : String) : Along Still (print s) := fun _ => ⟨rfl, rfl, rfl⟩

theorem Config.Keeping.still {w w' : World} (h : Keeping w w') : Still w w' := by
  obtain ⟨config, environment, logs, rfl⟩ := h.eq_logging
  exact ⟨rfl, rfl, rfl⟩

theorem Service.Serving.still {w w' : World} (h : Serving w w') : Still w w' := by
  obtain ⟨script, connected, calls, logs, rfl⟩ := h
  exact ⟨rfl, rfl, rfl⟩

theorem Client.along_still_new (c : Context) : Along Still (new c) := by
  intro w
  rcases run_new c w with ⟨f, v, hk, hr⟩ | ⟨p, t, v, u, logs, -, -, hk, hr⟩
  · rw [hr]
    exact hk.still
  · rw [hr]
    exact ⟨hk.still.files, hk.still.here, hk.still.home⟩

namespace CommandLine

open Preferences (Kept Stored present stored?)

/-- Between two worlds only something is told. -/
def Tells (w w' : World) : Prop :=
  ∃ notes output, w' = { w with notes := notes, output := output }

instance : Std.Refl Tells := ⟨fun w => ⟨w.notes, w.output, rfl⟩⟩

instance : IsTrans World Tells where
  trans := by
    rintro u v w ⟨ns, o, rfl⟩ ⟨ns', o', rfl⟩
    exact ⟨ns', o', rfl⟩

theorem Tells.still {w w' : World} (h : Tells w w') : Still w w' := by
  obtain ⟨notes, output, rfl⟩ := h
  exact ⟨rfl, rfl, rfl⟩

theorem tells_of_looks {α : Type} {a : Action α} (h : Looks a) : Along Tells a := by
  intro w
  obtain ⟨logs, hr⟩ := h.run w
  rw [hr]
  exact ⟨_, w.output, rfl⟩

theorem along_tells_print (s : String) : Along Tells (print s) := fun w => ⟨w.notes, _, rfl⟩

/-- The verbs that neither use the service nor set or clear the path only tell something. -/
theorem along_tells_perform {verb : Verb} (hop : verb.operation? = none)
    (hset : ∀ text, verb ≠ .setPath text) (hclear : verb ≠ .clearPath) (c : Context) :
    Along Tells (perform c verb) := by
  cases verb with
  | help command => exact (along_tells_print _).bind fun _ => Along.pure 2
  | create name username password description entries =>
    rcases perform_create_of_none hop c with ⟨entry, he⟩ | he
    · rw [he]
      exact fun w => ⟨_, w.output, rfl⟩
    · rw [he]
      exact Along.stop _
  | inspect id => cases hop
  | list => cases hop
  | delete name recover => cases hop
  | version => exact (along_tells_print _).bind fun _ => Along.pure 0
  | setPath text => exact absurd rfl (hset text)
  | showPath =>
    have hshow (path source : String) : Along Tells (showAt path source) :=
      (along_tells_print _).bind fun _ => (tells_of_looks (looks_pathExists path)).bind fun _ =>
        (along_tells_print _).bind fun _ => Along.pure 0
    rw [perform, showPath_eq]
    refine (tells_of_looks Config.looks_preferred).bind fun q => ?_
    cases q with
    | none => exact (tells_of_looks Config.looks_usual).bind fun p => hshow _ _
    | some p => exact hshow _ _
  | clearPath => exact absurd rfl hclear

/-- The verbs that do not set or clear the path leave the files alone. -/
theorem along_still_perform {verb : Verb} (hset : ∀ text, verb ≠ .setPath text)
    (hclear : verb ≠ .clearPath) (c : Context) : Along Still (perform c verb) := by
  cases hop : verb.operation? with
  | some op =>
    rw [perform_eq hop]
    refine (Client.along_still_new c).bind fun client => ?_
    refine ((along_operation hop client).mono fun _ _ => Service.Serving.still).bind fun text => ?_
    exact (along_still_print text).bind fun _ => Along.pure 0
  | none => exact (along_tells_perform hop hset hclear c).mono fun _ _ => Tells.still

/-! ## Setting and clearing the path -/

theorem along_get : Along Eq (get : Action World) := fun _ => rfl

theorem along_expandHome (p : Path) : Along Eq (expandHome p) := by
  refine along_get.bind fun w => ?_
  split
  · exact Along.stop _
  · split
    · exact Along.pure _
    · exact Along.stop _

/-- Resolving a path changes nothing. -/
theorem run_resolvePath (text : String) (w : World) :
    (resolvePath text).run.run w = ((resolvePath text).outcome w, w) := by
  have hresolve : Along Eq (resolvePath text) := by
    refine (along_expandHome _).bind fun p => ?_
    dsimp only
    split
    · exact Along.stop _
    · refine along_get.bind fun w => ?_
      split
      · exact Along.stop _
      · exact Along.pure _
  exact Prod.ext rfl (hresolve w).symm

theorem run_isFile (path : String) (w : World) :
    (isFile path).run.run w = ((isFile path).outcome w, w) := by
  have hrun : (isFile path).run.run w =
      ((w.files.checked w.here path (w.files.isFile w.here path)).mapError .file, w) := by
    rw [isFile, run_bind_of_ok (run_get w), run_ofExcept]
  rw [outcome, hrun]

/-- Storing preferences fails, and nothing is stored, or what follows is told. -/
theorem settle_of_ends {w : World} {ps : Preferences} {a : Action Unit} {rest : Action Nat}
    {s : String} (h : Preferences.Ends w ps (a.run.run w))
    (hrest : ∀ v : World, v.home = w.home → rest.run.run v = (.ok 0, v.telling s)) :
    (∃ notes t, settle (a >>= fun _ => rest) w = (1, { w with files := t, notes := notes }) ∧
        Kept w t) ∨
      ∃ t logs, settle (a >>= fun _ => rest) w =
          (0, (World.logging { w with files := t } logs).telling s) ∧
        (Kept w t ∧ present { w with files := t } = some .device ∨
          ∃ l, Stored w (Utf8.encode (Preferences.text ps)) l t) := by
  obtain ⟨t, logs, hend, hcase⟩ := h
  rcases ha : a.run.run w with ⟨f | u, v⟩
  · rw [ha] at hend hcase
    rcases hcase with ⟨hkept, -⟩ | ⟨⟨⟩, -⟩
    rw [settle_of_error (run_bind_of_error ha _), show v = _ from hend]
    exact .inl ⟨_, t, rfl, hkept⟩
  · rw [ha] at hend hcase
    have hv : v = World.logging { w with files := t } logs := hend
    subst hv
    have hrun : (a >>= fun _ => rest).run.run w =
        (.ok 0, (World.logging { w with files := t } logs).telling s) :=
      (run_bind_of_ok ha _).trans (hrest (World.logging { w with files := t } logs) rfl)
    refine .inr ⟨t, logs, settle_of_ok hrun, ?_⟩
    rcases hcase with ⟨hkept, hdevice⟩ | ⟨-, hstored⟩
    · exact .inl ⟨hkept, hdevice rfl⟩
    · exact .inr hstored

/-- Setting the path stops, or tells that there is no file, or goes on to store it. -/
theorem run_setPath_cases (text : String) (w : World) :
    (∃ f, (setPath text).run.run w = (.error f, w)) ∨
      (∃ notes, (setPath text).run.run w = (.ok 1, { w with notes := notes })) ∨
      ∃ path, (resolvePath text).outcome w = .ok path ∧ (isFile path).outcome w = .ok true ∧
        (setPath text).run.run w = (Preferences.put Config.preferenceKey path >>= fun _ =>
          print s!"Config path set to: {path}\n" >>= fun _ => pure 0).run.run w := by
  have hresolve := run_resolvePath text w
  cases hpath : (resolvePath text).outcome w with
  | error f =>
    rw [hpath] at hresolve
    exact .inl ⟨f, run_bind_of_error hresolve _⟩
  | ok path =>
    rw [hpath] at hresolve
    have hfile := run_isFile path w
    rw [setPath, run_bind_of_ok hresolve]
    cases hfound : (isFile path).outcome w with
    | error f =>
      rw [hfound] at hfile
      exact .inl ⟨f, run_bind_of_error hfile _⟩
    | ok found =>
      rw [hfound] at hfile
      rw [run_bind_of_ok hfile]
      cases found with
      | false => exact .inr (.inl ⟨_, rfl⟩)
      | true => exact .inr (.inr ⟨path, rfl, hfound, rfl⟩)

/-- Setting the path fails, and nothing is stored, or it ends with 0 and tells the path, which leads
to a file. Then the path is stored with the other preferences, unless a device swallows them. -/
theorem settle_setPath_cases (text : String) (w : World) :
    (∃ notes t, settle (setPath text) w = (1, { w with files := t, notes := notes }) ∧ Kept w t) ∨
      ∃ path ps t logs, (resolvePath text).outcome w = .ok path ∧
        (isFile path).outcome w = .ok true ∧ Preferences.read.outcome w = .ok ps ∧
        settle (setPath text) w = (0, (World.logging { w with files := t } logs).telling
          s!"Config path set to: {path}\n") ∧
        (Kept w t ∧ present { w with files := t } = some .device ∨ ∃ l, Stored w (Utf8.encode
          (Preferences.text (Entries.put Config.preferenceKey (.text path) ps))) l t) := by
  rcases run_setPath_cases text w with ⟨f, hr⟩ | ⟨notes, hr⟩ | ⟨path, hpath, hfound, hr⟩
  · exact .inl ⟨_, w.files, settle_of_error hr, .refl w⟩
  · exact .inl ⟨notes, w.files, settle_of_ok hr, .refl w⟩
  · have hsettle : settle (setPath text) w = settle (Preferences.put Config.preferenceKey path >>=
        fun _ => print s!"Config path set to: {path}\n" >>= fun _ => pure 0) w := by
      rw [settle, settle, hr]
    rcases Preferences.run_put_cases Config.preferenceKey path w with
      ⟨f, logs, hput⟩ | ⟨ps, hps, hends⟩
    · rw [hsettle, settle_of_error (run_bind_of_error hput _)]
      exact .inl ⟨_, w.files, rfl, .refl w⟩
    · rw [hsettle]
      rcases settle_of_ends hends fun v _ => rfl with hfail | ⟨t, logs, hdone, hstored⟩
      · exact .inl hfail
      · exact .inr ⟨path, ps, t, logs, hpath, hfound, hps, hdone, hstored⟩

/-- What is told when the path has been cleared. -/
def clearedText (home : String) : String :=
  s!"Config path preference cleared. Will use default: {(Config.usualPath home).text}\n"

/-- The path is set to something by the preferences that are stored. -/
def HasPreference (w : World) (ps : Preferences) : Prop :=
  stored? w = some ps ∧ ∃ value, Entries.get? Config.preferenceKey ps = some value

/-- Clearing the path fails, and nothing is stored, or it ends with 0. If there is no path, the files
stay as they are; else the other preferences are stored, unless a device swallows them. -/
theorem settle_clearPath_cases (w : World) :
    (∃ notes t, settle clearPath w = (1, { w with files := t, notes := notes }) ∧ Kept w t ∧
        (t = w.files ∨ ∃ ps, HasPreference w ps)) ∨
      ∃ ps t logs, Preferences.read.outcome w = .ok ps ∧
        settle clearPath w =
          (0, (World.logging { w with files := t } logs).telling (clearedText w.home)) ∧
        (t = w.files ∧ Entries.get? Config.preferenceKey ps = none ∨
          HasPreference w ps ∧ (Kept w t ∧ present { w with files := t } = some .device ∨
            ∃ l, Stored w (Utf8.encode
              (Preferences.text (Entries.erase Config.preferenceKey ps))) l t)) := by
  have hrest (v : World) : (Config.usual >>= fun p => print
      s!"Config path preference cleared. Will use default: {p.text}\n" >>= fun _ => pure 0).run.run v =
      (.ok 0, v.telling (clearedText v.home)) := rfl
  rcases Preferences.run_clear_cases Config.preferenceKey w with
    ⟨f, logs, hr⟩ | ⟨ps, hps, ⟨hnone, logs, hr⟩ | ⟨⟨value, hstored, hvalue⟩, hends⟩⟩
  · have hstop : clearPath.run.run w = (.error f, w.logging logs) := run_bind_of_error hr _
    rw [settle_of_error hstop]
    exact .inl ⟨_, w.files, rfl, .refl w, .inl rfl⟩
  · have hdone : clearPath.run.run w =
        (.ok 0, (w.logging logs).telling (clearedText w.home)) :=
      (run_bind_of_ok hr _).trans (hrest _)
    exact .inr ⟨ps, w.files, logs, hps, settle_of_ok hdone, .inl ⟨rfl, hnone⟩⟩
  · rcases settle_of_ends hends fun v hv => (hv ▸ hrest v) with
      ⟨notes, t, hfail, hkept⟩ | ⟨t, logs, hdone, hcase⟩
    · exact .inl ⟨notes, t, hfail, hkept, .inr ⟨ps, hstored, value, hvalue⟩⟩
    · exact .inr ⟨ps, t, logs, hps, hdone, .inr ⟨⟨hstored, value, hvalue⟩, hcase⟩⟩

/-! ## Runs -/

/-- A run that does not set or clear the path leaves the files alone. -/
theorem still_of_other {w : World} {args : List String}
    (h : ∀ i, read args = .ok i → (∀ text, i.verb ≠ .setPath text) ∧ i.verb ≠ .clearPath) :
    Still w (run w args).world := by
  cases hr : read args with
  | error s =>
    rw [run, hr]
    cases s <;> exact ⟨rfl, rfl, rfl⟩
  | ok i =>
    obtain ⟨hset, hclear⟩ := h i hr
    obtain ⟨notes, hn⟩ := world_settle (perform i.context i.verb) w
    rcases hs : settle (perform i.context i.verb) w with ⟨code, v⟩
    have hstill := along_still_perform hset hclear i.context w
    rw [hs] at hn
    rw [run_eq hr hs, show v = _ from hn]
    exact ⟨hstill.files, hstill.here, hstill.home⟩

/-- A run leaves the files alone, or it ends as setting or clearing the path does. -/
theorem run_cases (w : World) (args : List String) :
    ((∀ i, read args = .ok i → (∀ text, i.verb ≠ .setPath text) ∧ i.verb ≠ .clearPath) ∧
        Still w (run w args).world) ∨
      ∃ i exit v, read args = .ok i ∧
        run w args = ⟨exit, v.output, Note.shownAll i.verbosity v.notes, v⟩ ∧
        ((∃ text, i.verb = .setPath text ∧ settle (setPath text) w = (exit, v)) ∨
          i.verb = .clearPath ∧ settle clearPath w = (exit, v)) := by
  by_cases hother : ∀ i, read args = .ok i → (∀ text, i.verb ≠ .setPath text) ∧ i.verb ≠ .clearPath
  · exact .inl ⟨hother, still_of_other hother⟩
  · obtain ⟨i, hi⟩ := not_forall.mp hother
    obtain ⟨hr, hverb⟩ := Classical.not_imp.mp hi
    rcases hs : settle (perform i.context i.verb) w with ⟨exit, v⟩
    refine .inr ⟨i, exit, v, hr, run_eq hr hs, ?_⟩
    by_cases hset : ∃ text, i.verb = .setPath text
    · obtain ⟨text, hv⟩ := hset
      rw [hv] at hs
      exact .inl ⟨text, hv, hs⟩
    · have hv : i.verb = .clearPath :=
        not_not.mp fun hne => hverb ⟨not_exists.mp hset, hne⟩
      rw [hv] at hs
      exact .inr ⟨hv, hs⟩

/-- Between two worlds only the files change, and something is told. -/
def Local (w w' : World) : Prop :=
  ∃ files notes output, w' = { w with files := files, notes := notes, output := output }

/-- A run that does not use the service stays with the files. -/
theorem local_of_run {w : World} {args : List String}
    (h : ∀ i, read args = .ok i → i.verb.operation? = none) : Local w (run w args).world := by
  cases hr : read args with
  | error s =>
    rw [run, hr]
    cases s <;> exact ⟨w.files, w.notes, w.output, rfl⟩
  | ok i =>
    have hop := h i hr
    rcases hs : settle (perform i.context i.verb) w with ⟨code, v⟩
    rw [run_eq hr hs]
    by_cases hset : ∃ text, i.verb = .setPath text
    · obtain ⟨text, hv⟩ := hset
      rw [hv] at hs
      rcases settle_setPath_cases text w with
        ⟨notes, t, hend, -⟩ | ⟨path, ps, t, logs, -, -, -, hend, -⟩
      all_goals
        rw [show settle (perform i.context (.setPath text)) w = _ from hend] at hs
        cases hs
        exact ⟨t, _, _, rfl⟩
    · by_cases hclear : i.verb = .clearPath
      · rw [hclear] at hs
        rcases settle_clearPath_cases w with ⟨notes, t, hend, -⟩ | ⟨ps, t, logs, -, hend, -⟩
        all_goals
          rw [show settle (perform i.context .clearPath) w = _ from hend] at hs
          cases hs
          exact ⟨t, _, _, rfl⟩
      · obtain ⟨notes, output, htells⟩ :=
          along_tells_perform hop (fun text hv => hset ⟨text, hv⟩) hclear i.context w
        obtain ⟨more, hn⟩ := world_settle (perform i.context i.verb) w
        rw [hs, htells] at hn
        exact ⟨w.files, more, output, hn⟩

/-- Nothing is stored by a run, or it exits with 0. -/
def Leaves (w : World) (exit : Nat) (t : FileTree) : Prop :=
  Kept w t ∨ exit = 0 ∧ ∃ content l, Stored w content l t

/-- What a run that stores preferences is asked to do: to set the path, or to clear one that is
there. -/
def Changes (w : World) (verb : Verb) : Prop :=
  (∃ text, verb = .setPath text) ∨ verb = .clearPath ∧ ∃ ps, HasPreference w ps

theorem leaves_run (w : World) (args : List String) :
    Leaves w (run w args).exit (run w args).world.files ∧
      ((run w args).world.files = w.files ∨ ∃ i, read args = .ok i ∧ Changes w i.verb) := by
  rcases run_cases w args with
    ⟨-, hstill⟩ | ⟨i, exit, v, hr, hrun, ⟨text, hv, hend⟩ | ⟨hv, hend⟩⟩
  · rw [hstill.files]
    exact ⟨.inl (.refl w), .inl rfl⟩
  · rw [hrun]
    refine ⟨?_, .inr ⟨i, hr, .inl ⟨text, hv⟩⟩⟩
    rcases settle_setPath_cases text w with
      ⟨notes, t, hs, hkept⟩ | ⟨path, ps, t, logs, -, -, -, hs, hcase⟩
    · rw [hend] at hs
      cases hs
      exact .inl hkept
    · rw [hend] at hs
      cases hs
      rcases hcase with ⟨hkept, -⟩ | ⟨l, hl⟩
      · exact .inl hkept
      · exact .inr ⟨rfl, _, l, hl⟩
  · rw [hrun]
    rcases settle_clearPath_cases w with
      ⟨notes, t, hs, hkept, hcase⟩ | ⟨ps, t, logs, -, hs, hcase⟩
    · rw [hend] at hs
      cases hs
      exact ⟨.inl hkept, hcase.imp id fun hp => ⟨i, hr, .inr ⟨hv, hp⟩⟩⟩
    · rw [hend] at hs
      cases hs
      rcases hcase with ⟨rfl, -⟩ | ⟨hp, hcase⟩
      · exact ⟨.inl (.refl w), .inl rfl⟩
      · refine ⟨?_, .inr ⟨i, hr, .inr ⟨hv, ps, hp⟩⟩⟩
        rcases hcase with ⟨hkept, -⟩ | ⟨l, hl⟩
        · exact .inl hkept
        · exact .inr ⟨rfl, _, l, hl⟩

/-- No run changes the current or the home folder. -/
theorem folders_run (w : World) (args : List String) :
    (run w args).world.here = w.here ∧ (run w args).world.home = w.home := by
  rcases run_cases w args with
    ⟨-, hstill⟩ | ⟨i, exit, v, -, hrun, ⟨text, -, hend⟩ | ⟨-, hend⟩⟩
  · exact ⟨hstill.here, hstill.home⟩
  · rw [hrun]
    rcases settle_setPath_cases text w with
      ⟨notes, t, hs, -⟩ | ⟨path, ps, t, logs, -, -, -, hs, -⟩
    all_goals
      rw [hend] at hs
      cases hs
      exact ⟨rfl, rfl⟩
  · rw [hrun]
    rcases settle_clearPath_cases w with ⟨notes, t, hs, -⟩ | ⟨ps, t, logs, -, hs, -⟩
    all_goals
      rw [hend] at hs
      cases hs
      exact ⟨rfl, rfl⟩

/-- After a run an entry is what it was, or a new folder on the way, or what has been stored. -/
theorem lookup_of_leaves {w : World} {exit : Nat} {t : FileTree} (h : Leaves w exit t)
    (l : Location) :
    t.lookup l = w.files.lookup l ∨
      (w.files.lookup l = none ∧ t.lookup l = some .folder ∧
        t.LeadsAbove w.here (Preferences.folder w.home) l) ∨
      exit = 0 ∧ ∃ content,
        t.find w.here (Preferences.file w.home).text = .ok (.entry l (.file content)) := by
  rcases h with hkept | ⟨hexit, content, m, hfind, u, hput, hgrown, -⟩
  · exact (hkept.grown l).imp id fun ⟨habove, hnone, hnew⟩ => .inl ⟨hnone, hnew, habove⟩
  · by_cases hml : m = l
    · exact .inr (.inr ⟨hexit, content, hml ▸ hfind⟩)
    · have hsame : t.lookup l = u.lookup l := by
        rw [hput, FileTree.lookup_put_of_ne hml]
      rw [hsame]
      exact (hgrown l).imp id fun ⟨habove, hnone, hnew⟩ => .inl ⟨hnone, hnew, habove⟩

/-- Where the settings folder can be made, all new folders hold what is stored. -/
theorem holds_of_leaves {w : World} {exit : Nat} {t : FileTree} (h : Leaves w exit t)
    (hc : w.files.Closed) (hm : Preferences.Makeable w) {l : Location}
    (hnone : w.files.lookup l = none) (hnew : t.lookup l = some .folder) :
    ∃ m content, l <+: m ∧
      t.find w.here (Preferences.file w.home).text = .ok (.entry m (.file content)) := by
  rcases h with hkept | ⟨-, content, m, hfind, u, hput, -, hgrown⟩
  · rw [hkept.eq_of_makeable hc hm, hnone] at hnew
    cases hnew
  · refine ⟨m, content, ?_, hfind⟩
    by_cases hml : m = l
    · exact hml ▸ List.prefix_rfl
    · rw [hput, FileTree.lookup_put_of_ne hml] at hnew
      rcases hgrown hc hm l with hsame | ⟨habove, -⟩
      · rw [hsame, hnone] at hnew
        cases hnew
      · exact habove

/-- A process in a folder with one file, whose home folder is missing. -/
def homelessWorld : World where
  files := { entries := [(["w"], .folder), (["w", "c.yml"], .file [])] }
  here := ["w"]
  home := "/h/u"
  reader := Config.readDocument

/-- A process in a folder with one file, whose home path leads up behind a folder that is missing,
and then to the file. -/
def misledWorld : World where
  files := { entries := [(["w"], .folder), (["w", "c.yml"], .file [])] }
  here := ["w"]
  home := "/new/../w/c.yml"
  reader := Config.readDocument

end CommandLine

end CloudSecrets
