import CloudSecrets.Proofs.Config.Validity
import CloudSecrets.Proofs.Preference.Storing
import CloudSecrets.Proofs.Session.Credentials

/-!
# The configuration of a session

Every step leaves the configuration as it is, or keeps the one that can be loaded at that step
(`caches_step`). So a session that keeps a configuration has loaded it at one of its steps, and keeps
it from then on (`loaded_of_config`, `config_after`). With a configuration that is kept, projects and
timeouts are resolved without a look at the files.
-/

namespace CloudSecrets

open CloudSecrets.Action
open Yaml (Value)

theorem Preferences.Ends.config_eq {w : World} {ps : Preferences}
    {ending : Except Fault Unit × World} (h : Preferences.Ends w ps ending) :
    ending.2.config = w.config := by
  obtain ⟨t, logs, hend, -⟩ := h
  rw [hend]
  rfl

namespace Client

/-- The project of what is asked for, what the environment names and what is configured: the first
that is given. -/
def projectFrom (asked inherited : Option String) (v : Value) : Except Fault String :=
  match (nonEmpty? asked).or (nonEmpty? inherited) with
  | some p => .ok p
  | none => projectOf v

/-- A loaded configuration gives a project that is not empty, or lacks one. -/
theorem projectFrom_cases {v : Value} (h : Config.Loaded v) (asked inherited : Option String) :
    (∃ p, projectFrom asked inherited v = .ok p ∧ p ≠ "") ∨
      projectFrom asked inherited v = .error (.config .unresolvedProject) := by
  rw [projectFrom]
  cases hn : (nonEmpty? asked).or (nonEmpty? inherited) with
  | some p =>
    refine .inl ⟨p, rfl, ?_⟩
    rcases Option.or_eq_some_iff.mp hn with hp | ⟨-, hp⟩
    · exact (nonEmpty?_eq_some_iff.mp hp).2
    · exact (nonEmpty?_eq_some_iff.mp hp).2
  | none =>
    obtain ⟨-, p, hp⟩ := h.checked
    simp only [projectOf]
    cases hg : (Config.project v).isGiven with
    | true =>
      refine .inl ⟨p, ?_, Config.ne_empty_of_shown hg hp⟩
      simp [hp]
    | false => exact .inr (by simp)

end Client

namespace Session

open Config (Caches)

variable {s : Session} {v : Value}

/-! ## Steps -/

theorem caches_of_looks {α : Type} {a : Action α} (h : Looks a) : Along Caches a :=
  (Config.Looks.keeping h).mono fun _ _ => Config.Keeping.caches

/-- Setting and clearing preferences leaves the configuration alone. -/
theorem config_put (key value : String) (w : World) :
    ((Preferences.put key value).run.run w).2.config = w.config := by
  rcases Preferences.run_put_cases key value w with ⟨f, logs, hr⟩ | ⟨ps, -, he⟩
  · rw [hr]
    rfl
  · exact he.config_eq

theorem config_clear (key : String) (w : World) :
    ((Preferences.clear key).run.run w).2.config = w.config := by
  rcases Preferences.run_clear_cases key w with
    ⟨f, logs, hr⟩ | ⟨ps, -, ⟨-, logs, hr⟩ | ⟨-, he⟩⟩
  · rw [hr]
    rfl
  · rw [hr]
    rfl
  · exact he.config_eq

/-- What an action gives makes no difference to the world after it. -/
theorem caches_map {α : Type} {a : Action α} {g : α → Result} {w : World}
    (h : Caches w (a.run.run w).2) : Caches w ((g <$> a).run.run w).2 := by
  rw [run_map]
  exact h

/-- A step leaves the configuration as it is, or keeps the one that can be loaded. Only a step that
resolves a project or a timeout keeps one. -/
theorem caches_step (s : Session) (st : Step) : Caches s.world (s.step st).2.world := by
  have hservice {α : Type} {a : Action α} {g : α → Result}
      (h : Service.Serving s.world (a.run.run s.world).2) :
      Caches s.world ((g <$> a).run.run s.world).2 := caches_map (.inl h.config_eq)
  rw [world_step]
  cases st with
  | setVariable name value => exact .inl rfl
  | put path entry => exact .inl rfl
  | drop path => exact .inl rfl
  | getPreference key => exact caches_map (caches_of_looks (Preferences.looks_value? key) _)
  | setPreference key value => exact caches_map (.inl (config_put key value s.world))
  | clearPreference key => exact caches_map (.inl (config_clear key s.world))
  | configPath => exact caches_map (caches_of_looks Config.looks_place _)
  | loadConfig => exact caches_map (caches_of_looks Config.looks_load _)
  | project asked => exact caches_map (Client.along_resolveProject asked _).caches
  | timeout asked => exact caches_map (Client.along_resolveTimeout asked _).caches
  | newClient context => exact caches_map (Client.caches_new context _)
  | create context secret => exact hservice (Service.along_create _ secret _)
  | inspect context id => exact hservice (Service.along_inspect _ id _)
  | list context => exact hservice (Service.along_list _ _)
  | delete context name recover => exact hservice (Service.along_delete _ name recover _)
  | read path => exact caches_map (caches_of_looks (looks_entryAt path) _)

/-- Resolving a timeout that is not given keeps the configuration that can be loaded. -/
theorem config_step_timeout (h : s.world.config = none)
    (hload : Config.load.outcome s.world = .ok v) (hv : ¬Config.Unexportable v) :
    (s.step (.timeout none)).2.world.config = some v := by
  obtain ⟨logs, hcurrent⟩ := Config.run_current_of_load h hload hv
  obtain ⟨more, hr⟩ := Client.run_resolveTimeout none s.world
  rw [hcurrent] at hr
  rw [world_step]
  show ((Result.timeout <$> Client.resolveTimeout none).run.run s.world).2.config = _
  rw [run_map, hr]
  rfl

/-! ## Runs -/

theorem after_append (s : Session) (steps more : List Step) :
    s.after (steps ++ more) = (s.after steps).after more := List.foldl_append ..

/-- A configuration that a session keeps stays, whatever steps it takes. -/
theorem config_after (h : s.world.config = some v) (steps : List Step) :
    (s.after steps).world.config = some v := by
  induction steps using List.reverseRecOn with
  | nil => exact h
  | append_singleton steps st ih =>
    rw [after_concat]
    exact (caches_step _ st).eq_of_config ih

/-- A configuration that a session keeps was loaded after some of its steps. -/
theorem loaded_of_config (h : s.world.config = none) (steps : List Step)
    (hv : (s.after steps).world.config = some v) :
    ∃ pre, pre <+: steps ∧ Config.load.outcome (s.after pre).world = .ok v := by
  induction steps using List.reverseRecOn with
  | nil =>
    rw [after_nil, h] at hv
    cases hv
  | append_singleton steps st ih =>
    rw [after_concat] at hv
    rcases caches_step (s.after steps) st with hsame | ⟨-, u, hu, hkept⟩
    · obtain ⟨pre, hpre, hload⟩ := ih (hsame ▸ hv)
      exact ⟨pre, hpre.trans (List.prefix_append _ _), hload⟩
    · rw [hv] at hkept
      cases hkept
      exact ⟨steps, List.prefix_append _ _, hu⟩

/-! ## Resolution -/

/-- With a configuration that is kept, a timeout is the one that is given, else the configured one. -/
theorem timeout_of_config (h : s.world.config = some v) (asked : Option Timeout) :
    (s.step (.timeout asked)).1 =
      .ok (.timeout ((asked.filter Timeout.isGiven).or (Config.timeout? v))) := by
  obtain ⟨logs, hr⟩ := Client.run_resolveTimeout asked s.world
  show (((Result.timeout <$> Client.resolveTimeout asked).run.run s.world).1 = _)
  rw [run_map, hr, Config.run_current_of_some h]
  cases asked.filter Timeout.isGiven <;> rfl

/-- With a configuration that is kept, a project is the first that is given. -/
theorem project_of_config (h : s.world.config = some v) (asked : Option String) :
    (s.step (.project asked)).1 = (Client.projectFrom asked
      (Entries.get? Client.projectVariable s.world.environment) v).map .text := by
  obtain ⟨logs, hr⟩ := Client.run_resolveProject asked s.world
  show (((Result.text <$> Client.resolveProject asked).run.run s.world).1 = _)
  rw [run_map, hr, Config.run_current_of_some h, Client.named?, Client.projectFrom]
  cases (Client.nonEmpty? asked).or
    (Client.nonEmpty? (Entries.get? Client.projectVariable s.world.environment)) <;> rfl

/-- A configuration that a session keeps after some steps was loaded, and valid, after some of them.
Whatever steps follow, it stays. From then on a timeout is always resolved, a project is resolved to
a text that is not empty or refused, and both depend on what is asked for, the environment and that
configuration alone. -/
theorem config_is_kept (h : s.world.config = none) (steps more : List Step)
    (hv : (s.after steps).world.config = some v) :
    let t := s.after (steps ++ more)
    let inherited := Entries.get? Client.projectVariable t.world.environment
    (∃ pre, pre <+: steps ∧ Config.load.outcome (s.after pre).world = .ok v ∧
      Config.Valid (s.after pre).world.files (s.after pre).world.here v) ∧
    t.world.config = some v ∧
    (∀ asked, (t.step (.timeout asked)).1 =
      .ok (.timeout ((asked.filter Timeout.isGiven).or (Config.timeout? v)))) ∧
    ∀ asked, (t.step (.project asked)).1 =
        (Client.projectFrom asked inherited v).map .text ∧
      ((∃ p, (t.step (.project asked)).1 = .ok (.text p) ∧ p ≠ "") ∨
        ∃ g, (t.step (.project asked)).1 = .error (.config g)) := by
  intro t inherited
  obtain ⟨pre, hpre, hload⟩ := loaded_of_config h steps hv
  have hkept : t.world.config = some v := by
    rw [show t = (s.after steps).after more from after_append s steps more]
    exact config_after hv more
  refine ⟨⟨pre, hpre, hload, Config.valid_of_load hload⟩, hkept, timeout_of_config hkept,
    fun asked => ?_⟩
  have hproject := project_of_config hkept asked
  refine ⟨hproject, ?_⟩
  rw [hproject]
  rcases Client.projectFrom_cases ⟨_, hload⟩ asked inherited with ⟨p, hp, hne⟩ | hp
  · exact .inl ⟨p, by rw [hp]; rfl, hne⟩
  · exact .inr ⟨.unresolvedProject, by rw [hp]; rfl⟩

/-- A configuration that was loaded for a timeout is used without its file: timeouts and projects are
resolved as before. -/
theorem config_of_account_k_stays :
    let t := (Session.ofWorld (Config.accountWorld "k")).after
      ([.timeout none] ++ [.drop Config.accountPath])
    t.world.config = some (Config.accountValue (.text "k")) ∧
      (t.step (.timeout none)).1 = .ok (.timeout none) ∧
      (t.step (.project (some "q"))).1 = .ok (.text "q") := by
  have hnone : (Session.ofWorld (Config.accountWorld "k")).world.config = none := rfl
  have hload : Config.load.outcome (Session.ofWorld (Config.accountWorld "k")).world =
      .ok (Config.accountValue (.text "k")) := by
    rw [← Config.load_accountWorld_text]
    exact Config.looks_load.outcome_eq ⟨rfl, rfl, rfl, rfl⟩
  have hexportable : ¬Config.Unexportable (Config.accountValue (.text "k")) :=
    Config.exportable_of_text rfl
  -- Nothing else about the session matters.
  obtain ⟨s, hs⟩ : ∃ s, s = Session.ofWorld (Config.accountWorld "k") := ⟨_, rfl⟩
  rw [← hs] at hnone hload ⊢
  have hkept : (s.after [.timeout none]).world.config = _ :=
    config_step_timeout hnone hload hexportable
  obtain ⟨-, hconfig, htimeout, hproject⟩ :=
    config_is_kept hnone [.timeout none] [.drop Config.accountPath] hkept
  exact ⟨hconfig, htimeout none, (hproject (some "q")).1⟩

end Session

end CloudSecrets
