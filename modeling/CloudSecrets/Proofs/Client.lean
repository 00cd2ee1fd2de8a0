import CloudSecrets.Client
import CloudSecrets.Proofs.Config.Credentials
import CloudSecrets.Proofs.Yaml.Shown

/-!
# Binding a client

A new client uses the configuration at most twice: for its project unless one is named, and for its
timeout unless one is given. `run_resolveProject` and `run_resolveTimeout` reduce both to the use of
the configuration, and `Binds` is all that a new client changes.
-/

namespace CloudSecrets

open CloudSecrets.Action
open Yaml (Value)

namespace Client

open Config (current)

theorem nonEmpty?_eq_some_iff {o : Option String} {p : String} :
    nonEmpty? o = some p ↔ o = some p ∧ p ≠ "" := by
  cases o with
  | none => simp [nonEmpty?]
  | some s =>
    by_cases h : s = ""
    · subst h
      rw [nonEmpty?, if_pos (by decide)]
      simp only [reduceCtorEq, Option.some.injEq, false_iff]
      exact fun ⟨hp, hn⟩ => hn hp.symm
    · rw [nonEmpty?, if_neg (by simpa using h)]
      constructor
      · rintro ⟨⟩
        exact ⟨rfl, h⟩
      · exact fun hp => hp.1

/-! ## Projects -/

/-- The project that is asked for or that the environment names. -/
def named? (asked : Option String) (w : World) : Option String :=
  (nonEmpty? asked).or (nonEmpty? (Entries.get? projectVariable w.environment))

/-- A named project is not empty. -/
theorem ne_empty_of_named? {asked : Option String} {w : World} {p : String}
    (h : named? asked w = some p) : p ≠ "" := by
  rw [named?, Option.or_eq_some_iff] at h
  rcases h with h | ⟨-, h⟩
  · exact (nonEmpty?_eq_some_iff.mp h).2
  · exact (nonEmpty?_eq_some_iff.mp h).2

/-- The project that a configuration gives. -/
def projectOf (v : Value) : Except Fault String :=
  if (Config.project v).isGiven then Config.shown (Config.project v)
  else .error (.config .unresolvedProject)

/-- The configured project is that of the configuration in use. -/
theorem run_configuredProject (w : World) :
    ∃ logs, configuredProject.run.run w =
      ((current.run.run w).1 >>= projectOf, (current.run.run w).2.logging logs) := by
  obtain ⟨logs, h⟩ := run_bind_looks current (fun v => by
    show Looks (if !(Config.project v).isGiven then stop (.config .unresolvedProject)
      else ofExcept id (Config.shown (Config.project v)) >>= fun shown =>
        log .debug s!"Using project_id from config: {shown}" >>= fun _ => pure shown)
    split
    · exact Looks.stop _
    · exact (Looks.ofExcept _ _).bind fun _ => (Looks.log _ _).bind fun _ => Looks.pure _) w
  refine ⟨logs, h.trans (congrArg (Prod.mk · _) (bind_congr fun v => ?_))⟩
  rw [projectOf]
  cases (Config.project v).isGiven with
  | false => rfl
  | true => cases Config.shown (Config.project v) <;> rfl

/-- A client's project is the one that is named, else that of the configuration in use. -/
theorem run_resolveProject (asked : Option String) (w : World) :
    ∃ logs, (resolveProject asked).run.run w =
      match named? asked w with
      | some p => (.ok p, w.logging logs)
      | none => ((current.run.run w).1 >>= projectOf, (current.run.run w).2.logging logs) := by
  cases ha : nonEmpty? asked with
  | some p =>
    refine ⟨[], ?_⟩
    rw [resolveProject, named?, ha, Option.some_or, World.logging_nil]
    rfl
  | none =>
    have hv : (getVariable projectVariable).run.run w =
        (.ok (Entries.get? projectVariable w.environment), w) := rfl
    rw [named?, ha, Option.none_or]
    cases he : nonEmpty? (Entries.get? projectVariable w.environment) with
    | some p =>
      refine ⟨[(.debug, s!"Using GCP_PROJECT from environment: {p}")], ?_⟩
      rw [resolveProject, ha]
      dsimp only
      rw [run_bind_of_ok hv, he]
      rfl
    | none =>
      obtain ⟨logs, h⟩ := run_configuredProject w
      refine ⟨logs, ?_⟩
      rw [resolveProject, ha]
      dsimp only
      rw [run_bind_of_ok hv, he]
      exact h

/-! ## Timeouts -/

/-- The timeout that the use of the configuration gives: none if there is no file. -/
def timeoutOf : Except Fault Value → Except Fault (Option Timeout)
  | .ok v => .ok (Config.timeout? v)
  | .error (.config (.notFound _)) => .ok none
  | .error f => .error f

theorem timeoutOf_of_ne {f : Fault} (h : ∀ usual, f ≠ .config (.notFound usual)) :
    timeoutOf (.error f) = .error f := by
  unfold timeoutOf
  split
  · rename_i hf
    cases hf
  · rename_i hf
    exact absurd (Except.error.inj hf) (h _)
  · rename_i hf
    rw [Except.error.inj hf]

/-- The configured timeout is that of the configuration in use. -/
theorem run_configuredTimeout (w : World) :
    ∃ logs, configuredTimeout.run.run w =
      (timeoutOf (current.run.run w).1, (current.run.run w).2.logging logs) := by
  rcases hr : current.run.run w with ⟨r, v⟩
  cases r with
  | ok u =>
    refine ⟨[], ?_⟩
    rw [configuredTimeout, run_tryCatch_of_ok (by rw [run_bind_of_ok hr]; rfl),
      World.logging_nil]
    rfl
  | error f =>
    rw [configuredTimeout, run_tryCatch_of_error (run_bind_of_error hr _)]
    by_cases hf : ∃ usual, f = .config (.notFound usual)
    · obtain ⟨usual, rfl⟩ := hf
      exact ⟨[(.debug, "No config file, calls run without a timeout")], rfl⟩
    · have hne : ∀ usual, f ≠ .config (.notFound usual) := fun usual h => hf ⟨usual, h⟩
      refine ⟨[], ?_⟩
      rw [timeoutOf_of_ne hne, World.logging_nil]
      split
      · exact absurd rfl (hne _)
      · rfl

/-- A client's timeout is the one that is given, else that of the configuration in use. -/
theorem run_resolveTimeout (asked : Option Timeout) (w : World) :
    ∃ logs, (resolveTimeout asked).run.run w =
      match asked.filter Timeout.isGiven with
      | some t => (.ok (some t), w.logging logs)
      | none => (timeoutOf (current.run.run w).1, (current.run.run w).2.logging logs) := by
  cases asked with
  | none => exact run_configuredTimeout w
  | some t =>
    rw [resolveTimeout]
    cases ht : t.isGiven with
    | true =>
      refine ⟨[], ?_⟩
      rw [Option.filter_some_pos ht, World.logging_nil]
      rfl
    | false =>
      rw [Option.filter_some_neg (by simpa using ht)]
      exact run_configuredTimeout w

/-! ## New clients -/

theorem along_resolveProject (asked : Option String) :
    Along Config.Keeping (resolveProject asked) := by
  intro w
  obtain ⟨logs, h⟩ := run_resolveProject asked w
  rw [h]
  cases named? asked w with
  | some p => exact Config.Keeping.of_logging w logs
  | none => exact (Config.along_current w).trans (Config.Keeping.of_logging _ logs)

theorem along_resolveTimeout (asked : Option Timeout) :
    Along Config.Keeping (resolveTimeout asked) := by
  intro w
  obtain ⟨logs, h⟩ := run_resolveTimeout asked w
  rw [h]
  cases asked.filter Timeout.isGiven with
  | some t => exact Config.Keeping.of_logging w logs
  | none => exact (Config.along_current w).trans (Config.Keeping.of_logging _ logs)

/-- A new client is stopped by the resolution of its project or of its timeout, or has both and a
connection of its own. -/
theorem run_new (c : Context) (w : World) :
    (∃ f v, Config.Keeping w v ∧ (new c).run.run w = (.error f, v)) ∨
      ∃ p t v u logs, (resolveProject c.project).run.run w = (.ok p, v) ∧
        (resolveTimeout c.timeout).run.run v = (.ok t, u) ∧ Config.Keeping w u ∧
        (new c).run.run w = (.ok ⟨u.nextConnection, ⟨some p, t⟩⟩,
          World.logging { u with nextConnection := u.nextConnection + 1 } logs) := by
  have hp := along_resolveProject c.project w
  rcases hv : (resolveProject c.project).run.run w with ⟨p | p, v⟩
  · rw [hv] at hp
    exact .inl ⟨p, v, hp, run_bind_of_error hv _⟩
  · rw [hv] at hp
    have ht := along_resolveTimeout c.timeout v
    rcases hu : (resolveTimeout c.timeout).run.run v with ⟨t | t, u⟩
    · rw [hu] at ht
      refine .inl ⟨t, u, hp.trans ht, ?_⟩
      rw [new, run_bind_of_ok hv, run_bind_of_error hu]
    · let bound := s!"Client bound to project {p} (timeout={Timeout.optionalText t})"
      rw [hu] at ht
      refine .inr ⟨p, t, v, u, [(.debug, bound)], rfl, hu, hp.trans ht, ?_⟩
      rw [new, run_bind_of_ok hv, run_bind_of_ok hu]
      rfl

/-- A new client keeps no configuration but the one that can be loaded. -/
theorem caches_new (c : Context) : Along Config.Caches (new c) := by
  intro w
  rcases run_new c w with ⟨f, v, hk, hr⟩ | ⟨p, t, v, u, logs, -, -, hk, hr⟩
  · rw [hr]
    exact hk.caches
  · rw [hr]
    exact hk.caches

/-- A resolved project is not empty. -/
theorem ne_empty_of_resolveProject {asked : Option String} {p : String} {v w : World}
    (h : (resolveProject asked).run.run w = (.ok p, v)) : p ≠ "" := by
  obtain ⟨logs, hr⟩ := run_resolveProject asked w
  rw [hr] at h
  cases hn : named? asked w with
  | some q =>
    rw [hn] at h
    cases h
    exact ne_empty_of_named? hn
  | none =>
    rw [hn] at h
    obtain ⟨u, -, hu⟩ := bind_eq_ok.mp (congrArg Prod.fst h)
    rw [projectOf] at hu
    split at hu
    · rename_i hg
      exact Config.ne_empty_of_shown hg hu
    · cases hu

/-- Between two worlds a client is bound: the configuration may be kept and exported, a connection
is numbered, messages are logged, and nothing else changes. -/
def Binds (w w' : World) : Prop :=
  ∃ config environment next logs, w' = World.logging { w with
    config := config
    environment := environment
    nextConnection := next } logs

/-- A new client has a project. -/
theorem binds_of_new {c : Context} {client : Client} {w w' : World}
    (h : (new c).run.run w = (.ok client, w')) :
    Binds w w' ∧ ∃ p, client.context.project = some p ∧ p ≠ "" := by
  rcases run_new c w with ⟨f, v, -, hr⟩ | ⟨p, t, v, u, logs, hp, -, hk, hr⟩
  · rw [hr] at h
    cases h
  · rw [hr] at h
    cases h
    obtain ⟨config, environment, more, rfl⟩ := hk.eq_logging
    refine ⟨⟨config, environment, w.nextConnection + 1, more ++ logs, ?_⟩, p, rfl,
      ne_empty_of_resolveProject hp⟩
    rw [← World.logging_logging]
    rfl

/-- A new client leaves the environment alone if its project is named and its timeout is given;
otherwise it exports the account of the configuration that can be loaded. -/
theorem environment_new {c : Context} {client : Client} {w w' : World} {x : Value}
    (hw : w.config = none) (hl : Config.load.outcome w = .ok x) (hx : ¬Config.Unexportable x)
    (h : (new c).run.run w = (.ok client, w')) :
    w'.environment =
      if (named? c.project w).isSome ∧ (c.timeout.filter Timeout.isGiven).isSome then w.environment
      else Config.exported x w.environment := by
  rcases run_new c w with ⟨f, v, -, hr⟩ | ⟨p, t, v, u, logs, hp, ht, -, hr⟩
  · rw [hr] at h
    cases h
  · rw [hr] at h
    cases h
    -- Either resolution may be the first use of the configuration; the other one then adds nothing.
    show u.environment = _
    obtain ⟨ls, hrp⟩ := run_resolveProject c.project w
    obtain ⟨ms, hrt⟩ := run_resolveTimeout c.timeout v
    rw [hp] at hrp
    rw [ht] at hrt
    cases hn : named? c.project w with
    | some q =>
      rw [hn] at hrp
      cases hrp
      cases hg : c.timeout.filter Timeout.isGiven with
      | some d =>
        rw [hg] at hrt
        cases hrt
        rfl
      | none =>
        have hlv : Config.load.outcome (w.logging ls) = .ok x := by
          rw [Config.looks_load.outcome_logging, hl]
        have hwv : (w.logging ls).config = none := hw
        obtain ⟨ks, hc⟩ := Config.run_current_of_load hwv hlv hx
        rw [hg, hc] at hrt
        cases hrt
        rfl
    | none =>
      obtain ⟨ks, hc⟩ := Config.run_current_of_load hw hl hx
      rw [hn, hc] at hrp
      have hv : v = ((w.keeping x).logging ks).logging ls := congrArg Prod.snd hrp
      have hk := along_resolveTimeout c.timeout v
      rw [ht] at hk
      obtain ⟨ms, hu⟩ := hk.eq_of_config (x := x) (by rw [hv]; rfl)
      rw [if_neg (by simp), show u = v.logging ms from hu, hv]
      rfl

/-- Where no configuration is found a named project is enough, and calls have no timeout. -/
theorem run_new_of_notFound {c : Context} {p usual : String} {w : World} (hw : w.config = none)
    (hl : Config.load.outcome w = .error (.config (.notFound usual)))
    (hn : named? c.project w = some p) (ht : c.timeout = none) :
    ∃ logs, (new c).run.run w = (.ok ⟨w.nextConnection, ⟨some p, none⟩⟩,
      World.logging { w with nextConnection := w.nextConnection + 1 } logs) := by
  obtain ⟨ls, hproject⟩ := run_resolveProject c.project w
  have hv : (w.logging ls).config = none := hw
  have hlv : Config.load.outcome (w.logging ls) = .error (.config (.notFound usual)) := by
    rw [Config.looks_load.outcome_logging, hl]
  obtain ⟨ks, hcurrent⟩ := Config.run_current_of_fault hv hlv
  obtain ⟨ms, htimeout⟩ := run_resolveTimeout c.timeout (w.logging ls)
  rw [hn] at hproject
  rw [ht, hcurrent] at htimeout
  let bound := s!"Client bound to project {p} (timeout={Timeout.optionalText none})"
  refine ⟨ls ++ ks ++ ms ++ [(.debug, bound)], ?_⟩
  rw [new, run_bind_of_ok hproject, ht, run_bind_of_ok htimeout, ← World.logging_logging,
    ← World.logging_logging, ← World.logging_logging]
  rfl

/-- In particular where there are neither preferences nor a configuration at the default place. -/
theorem run_new_of_absent {c : Context} {p : String} {w : World} (hw : w.config = none)
    (ha : Config.Absent w) (hn : named? c.project w = some p) (ht : c.timeout = none) :
    ∃ logs, (new c).run.run w = (.ok ⟨w.nextConnection, ⟨some p, none⟩⟩,
      World.logging { w with nextConnection := w.nextConnection + 1 } logs) :=
  run_new_of_notFound hw (Config.outcome_load_of_absent ha) hn ht

end Client

end CloudSecrets
