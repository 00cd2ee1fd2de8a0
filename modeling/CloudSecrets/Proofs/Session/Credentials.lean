import CloudSecrets.Proofs.Client
import CloudSecrets.Proofs.Preference
import CloudSecrets.Proofs.Service.Calls
import CloudSecrets.Session
import Mathlib.Data.List.Induction

/-!
# Credentials in a session

Every step of a session leaves the configuration as it is, or loads it and exports its account
(`keeps_step`). So a session that keeps a configuration has gone through the step that exported its
account, if that is a text (`exports_of_config`). The first use of the configuration is atomic but
for one case: an account of octets passes every check and is kept, and only then fails to be
exported.
-/

namespace CloudSecrets

open CloudSecrets.Action
open Yaml (Value)

namespace Config

/-- A use of the configuration gives what is kept, with its account as the credentials, or stops and
leaves both as they were. -/
def Atomic (w : World) : Except CloudSecrets.Fault Value × World → Prop
  | (.ok v, w') => w'.config = some v ∧
      (UsesAccount v → ∃ s, account v = .text s ∧ w'.credentials = some s)
  | (.error _, w') => w'.config = w.config ∧ w'.credentials = w.credentials

/-- The first use of the configuration is atomic unless it loads an account that no variable can
hold. -/
theorem atomic_current_iff {w : World} (h : w.config = none) :
    Atomic w (current.run.run w) ↔ ¬∃ v, load.outcome w = .ok v ∧ Unexportable v := by
  obtain ⟨logs, ⟨f, hl, hr⟩ | ⟨v, hl, ha, ⟨hu, hr⟩ | ⟨hn, hr⟩⟩⟩ := run_current_of_none h
  · rw [hr]
    refine iff_of_true ⟨rfl, rfl⟩ ?_
    rintro ⟨v, hv, -⟩
    rw [hl] at hv
    cases hv
  · rw [hr]
    refine iff_of_false ?_ (not_not_intro ⟨v, hl, hu⟩)
    rintro ⟨hc, -⟩
    rw [h] at hc
    cases hc
  · rw [hr]
    refine iff_of_true ⟨rfl, fun hu => ?_⟩ ?_
    · obtain ⟨s, hs⟩ := exists_text_of_exportable hu hn
      exact ⟨s, hs, World.credentials_keeping hu hs⟩
    · rintro ⟨u, hv, hx⟩
      rw [hl] at hv
      cases hv
      exact hn hx

end Config

namespace Session

open Config (Loading)

/-! ## Steps -/

/-- The session after some steps. -/
def after (s : Session) (steps : List Step) : Session :=
  steps.foldl (fun s st => (s.step st).2) s

@[simp] theorem after_nil (s : Session) : s.after [] = s := rfl

@[simp] theorem after_concat (s : Session) (steps : List Step) (st : Step) :
    s.after (steps ++ [st]) = ((s.after steps).step st).2 := by
  rw [after, List.foldl_append]
  rfl

theorem world_step (s : Session) (st : Step) :
    (s.step st).2.world = ((s.action st).run.run s.world).2 := rfl

/-- The use of the service loads no configuration. -/
theorem loading_of_serving {w w' : World} (h : Service.Serving w w') : Loading w w' := by
  obtain ⟨script, connected, calls, logs, rfl⟩ := h
  exact .inl ⟨rfl, rfl⟩

theorem along_of_looks {α : Type} {a : Action α} (h : Looks a) : Along Loading a :=
  (Config.Looks.keeping h).mono fun _ _ => Config.Keeping.loading

theorem along_write (ps : Preferences) : Along Loading (Preferences.write ps) := by
  intro w
  rw [Preferences.run_write]
  exact .inl ⟨rfl, rfl⟩

theorem along_put (key value : String) : Along Loading (Preferences.put key value) :=
  (along_of_looks Preferences.looks_read).bind fun _ =>
    (along_write _).bind fun _ => along_of_looks (Looks.log _ _)

theorem along_clear (key : String) : Along Loading (Preferences.clear key) := by
  refine (along_of_looks Preferences.looks_read).bind fun ps => ?_
  split
  · exact along_of_looks (Looks.log _ _)
  · exact (along_write _).bind fun _ => along_of_looks (Looks.log _ _)

theorem along_new (c : Context) : Along Loading (Client.new c) := by
  intro w
  rcases Client.run_new c w with ⟨f, v, hk, hr⟩ | ⟨p, t, v, u, logs, -, -, hk, hr⟩
  · rw [hr]
    exact hk.loading
  · rw [hr]
    exact hk.loading

theorem looks_entryAt (path : String) : Looks (entryAt path) := by
  refine Looks.get_bind (fun v w h => by rw [h.files, h.here]) fun w => ?_
  split
  · exact Looks.pure _
  · exact Looks.pure _

/-- Between two worlds the configuration stays as it is, or is loaded and its account exported. -/
def Keeps (w w' : World) : Prop :=
  w'.config = w.config ∨
    w.config = none ∧ ∃ v, Config.Loaded v ∧ w'.config = some v ∧
      w'.environment = Config.exported v w.environment

theorem Keeps.of_loading {w w' : World} (h : Loading w w') : Keeps w w' := h.imp And.left id

/-- A step leaves the configuration as it is, or loads it and exports its account. Only a step that
sets a variable changes the environment otherwise. -/
theorem keeps_step (s : Session) (st : Step) : Keeps s.world (s.step st).2.world := by
  rw [world_step]
  cases st with
  -- A variable may replace the credentials, but this step does not touch the configuration.
  | setVariable name value => exact .inl rfl
  | put path entry => exact .inl rfl
  | drop path => exact .inl rfl
  | getPreference key =>
    exact .of_loading ((along_of_looks (Preferences.looks_value? key)).map _ _)
  | setPreference key value =>
    exact .of_loading (((along_put key value).bind fun _ => Along.pure _) _)
  | clearPreference key => exact .of_loading (((along_clear key).bind fun _ => Along.pure _) _)
  | configPath => exact .of_loading ((along_of_looks Config.looks_place).map _ _)
  | loadConfig => exact .of_loading ((along_of_looks Config.looks_load).map _ _)
  | project asked =>
    exact .of_loading ((Client.along_resolveProject asked).map _ _).loading
  | timeout asked =>
    exact .of_loading ((Client.along_resolveTimeout asked).map _ _).loading
  | newClient context => exact .of_loading ((along_new context).map _ _)
  | create context secret =>
    exact .of_loading (loading_of_serving ((Service.along_create _ secret).map _ _))
  | inspect context id =>
    exact .of_loading (loading_of_serving ((Service.along_inspect _ id).map _ _))
  | list context => exact .of_loading (loading_of_serving ((Service.along_list _).map _ _))
  | delete context name recover =>
    have hd := (Service.along_delete (s.clientFor context) name recover).bind fun _ =>
      Along.pure Result.nothing
    exact .of_loading (loading_of_serving (hd _))
  | read path =>
    exact .of_loading ((along_of_looks (looks_entryAt path)).map _ _)

/-! ## Runs -/

/-- At a step a configuration is loaded, and a path becomes the credentials. -/
def Exports (s : Session) (st : Step) (v : Value) (path : String) : Prop :=
  s.world.config = none ∧ (s.step st).2.world.config = some v ∧
    (s.step st).2.world.credentials = some path

/-- A configuration that a session keeps was loaded, and its account exported at that step. -/
theorem exports_of_config {s : Session} (h : s.world.config = none) (steps : List Step) {v : Value}
    (hv : (s.after steps).world.config = some v) :
    Config.Loaded v ∧ ∀ path, Config.UsesAccount v → Config.account v = .text path →
      ∃ pre st post, steps = pre ++ st :: post ∧ (s.after pre).Exports st v path := by
  -- Either the last step has kept what was kept before, or it is the step that loads and exports.
  induction steps using List.reverseRecOn with
  | nil =>
    rw [after_nil, h] at hv
    cases hv
  | append_singleton steps st ih =>
    rw [after_concat] at hv
    rcases keeps_step (s.after steps) st with hc | ⟨hn, u, ha, hc, he⟩
    · rw [hc] at hv
      obtain ⟨ha, hx⟩ := ih hv
      refine ⟨ha, fun path hu hp => ?_⟩
      obtain ⟨pre, st', post, rfl, he⟩ := hx path hu hp
      exact ⟨pre, st', post ++ [st], by rw [List.append_assoc, List.cons_append], he⟩
    · rw [hc] at hv
      cases hv
      refine ⟨ha, fun path hu hp => ⟨steps, st, [], rfl, hn, hc, ?_⟩⟩
      rw [World.credentials, he, Config.exported_of_text hu hp, Entries.get?_put_self]

/-- Whatever steps a session has taken, the next use of the configuration is atomic if it loads it,
and gives a service account only after exporting it, exactly where no account is loaded that is no
text. Such an account, octets or the number of a descriptor, is kept by a use that fails. -/
theorem current_atomic_and_exported_iff {s : Session} (h : s.world.config = none)
    (steps : List Step) :
    let w := (s.after steps).world
    (w.config = none → (Config.Atomic w (Config.current.run.run w) ↔
      ¬∃ v, Config.load.outcome w = .ok v ∧ Config.Unexportable v)) ∧
    (w.config = none → ∀ v, Config.load.outcome w = .ok v → Config.Unexportable v →
      ∃ w', Config.current.run.run w = (.error (.notVariable (Config.account v).kind), w') ∧
        (Config.account v).kind ∈ ["bytes", "int", "bool"] ∧
        w'.config = some v ∧ w'.environment = w.environment) ∧
    ∀ v w', Config.current.run.run w = (.ok v, w') → Config.UsesAccount v →
      ((∃ path, Config.account v = .text path ∧
          ((∃ pre st post, steps = pre ++ st :: post ∧ (s.after pre).Exports st v path) ∨
            w.config = none ∧ w'.credentials = some path)) ↔
        ¬Config.Unexportable v) := by
  intro w
  refine ⟨fun hw => Config.atomic_current_iff hw, fun hw v hv hx => ?_,
    fun v w' hr hu => ⟨?_, fun hn => ?_⟩⟩
  · obtain ⟨logs, hr⟩ := Config.run_current_of_unexportable hw hv hx
    exact ⟨_, hr, (Config.accepted_of_load hv).kind_of_unexportable hx, rfl,
      Config.exported_of_unexportable hx w.environment⟩
  · rintro ⟨path, hp, -⟩
    exact Config.exportable_of_text hp
  · cases hc : w.config with
    | some u =>
      rw [Config.run_current_of_some hc] at hr
      cases hr
      obtain ⟨-, hx⟩ := exports_of_config h steps hc
      obtain ⟨path, hp⟩ := Config.exists_text_of_exportable hu hn
      exact ⟨path, hp, .inl (hx path hu hp)⟩
    | none =>
      obtain ⟨logs, ⟨f, hl, he⟩ | ⟨u, hl, ha, ⟨hx, he⟩ | ⟨hx, he⟩⟩⟩ :=
        Config.run_current_of_none hc
      · rw [he] at hr
        cases hr
      · rw [he] at hr
        cases hr
      · rw [he] at hr
        cases hr
        obtain ⟨path, hp⟩ := Config.exists_text_of_exportable hu hn
        exact ⟨path, hp, .inr ⟨rfl, World.credentials_keeping hu hp⟩⟩

/-- An account given as the octets of `k` breaks a first use and is kept all the same; given as the
text `k` it is exported. -/
theorem current_of_account_k :
    (¬Config.Atomic (Session.ofWorld (Config.accountWorld "!!binary aw==")).world
        (Config.current.run.run (Session.ofWorld (Config.accountWorld "!!binary aw==")).world)) ∧
      (∃ w', Config.current.run.run (Session.ofWorld (Config.accountWorld "!!binary aw==")).world =
          (.error (.notVariable "bytes"), w') ∧
        w'.config = some (Config.accountValue (.octets [107])) ∧ w'.credentials = none) ∧
      ∃ w', Config.current.run.run (Session.ofWorld (Config.accountWorld "k")).world =
          (.ok (Config.accountValue (.text "k")), w') ∧ w'.credentials = some "k" := by
  have hb : (Session.ofWorld (Config.accountWorld "!!binary aw==")).world.config = none := rfl
  have hs : (Session.ofWorld (Config.accountWorld "k")).world.config = none := rfl
  have ho : Config.load.outcome (Session.ofWorld (Config.accountWorld "!!binary aw==")).world =
      .ok (Config.accountValue (.octets [107])) := by
    rw [← Config.load_accountWorld_octets]
    exact Config.looks_load.outcome_eq ⟨rfl, rfl, rfl, rfl⟩
  have hk : Config.load.outcome (Session.ofWorld (Config.accountWorld "k")).world =
      .ok (Config.accountValue (.text "k")) := by
    rw [← Config.load_accountWorld_text]
    exact Config.looks_load.outcome_eq ⟨rfl, rfl, rfl, rfl⟩
  have hx : Config.Unexportable (Config.accountValue (.octets [107])) := ⟨rfl, nofun⟩
  have hn : ¬Config.Unexportable (Config.accountValue (.text "k")) :=
    Config.exportable_of_text rfl
  have hu : Config.UsesAccount (Config.accountValue (.text "k")) := rfl
  obtain ⟨logs, hr⟩ := Config.run_current_of_load hs hk hn
  obtain ⟨hatomic, hkept, -⟩ := current_atomic_and_exported_iff hb []
  obtain ⟨-, -, hexported⟩ := current_atomic_and_exported_iff hs []
  rw [after_nil] at hatomic hkept hexported
  obtain ⟨path, hp, he⟩ := (hexported _ _ hr hu).mpr hn
  cases Value.text.inj hp
  obtain ⟨w', hfail, -, hconfig, henvironment⟩ := hkept hb _ ho hx
  refine ⟨mt (hatomic hb).mp (not_not_intro ⟨_, ho, hx⟩), ⟨w', hfail, hconfig, ?_⟩, _, hr, ?_⟩
  · rw [World.credentials, henvironment]
    rfl
  · rcases he with ⟨pre, st, post, he, -⟩ | ⟨-, hc⟩
    · exact absurd he (by simp)
    · exact hc

end Session

end CloudSecrets
