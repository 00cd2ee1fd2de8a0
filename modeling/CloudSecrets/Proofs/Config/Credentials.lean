import CloudSecrets.Proofs.Config.Load

/-!
# Loading once

The first use of the configuration loads it, keeps it, and makes its service account the credentials
of the process; every later use gives what was kept. `run_current_of_none` says all that a first use
can do. One way of failing keeps the configuration all the same: an account may be accepted that is
no text, but no environment variable can hold it. `Keeping` is all that using the configuration changes.
-/

namespace CloudSecrets

open CloudSecrets.Action
open Yaml (Value)

/-- The credentials that a process uses. -/
def World.credentials (w : World) : Option String :=
  Entries.get? Config.credentialsVariable w.environment

namespace Config

instance (v : Value) : Decidable (UsesAccount v) := inferInstanceAs (Decidable (_ = _))

/-- Whether a configuration names a service account that no environment variable can hold. -/
def Unexportable (v : Value) : Prop := UsesAccount v ∧ ∀ s, account v ≠ .text s

theorem exportable_of_text {v : Value} {s : String} (h : account v = .text s) :
    ¬Unexportable v := fun hx => hx.2 s h

/-- A service account that can be exported is a text. -/
theorem exists_text_of_exportable {v : Value} (hu : UsesAccount v) (hn : ¬Unexportable v) :
    ∃ s, account v = .text s :=
  Classical.byContradiction fun hs => hn ⟨hu, not_exists.mp hs⟩

/-- An accepted service account that cannot be exported is given as octets, or as the number of a
descriptor. -/
theorem Accepted.kind_of_unexportable {v : Value} (h : Accepted v) (hx : Unexportable v) :
    (account v).kind ∈ ["bytes", "int", "bool"] := by
  have hkind := h.kind_account hx.1
  cases ha : account v with
  | text s => exact absurd ha (hx.2 s)
  | enclosing isMap => cases isMap <;> simp_all [pathKinds, Value.kind]
  | _ => simp_all [pathKinds, Value.kind]

/-! ## Making an account the credentials -/

/-- An environment with the service account of a configuration, if it is a text, as credentials. -/
def exported (v : Value) (environment : Entries String String) : Entries String String :=
  if UsesAccount v then
    match account v with
    | .text s => Entries.put credentialsVariable s environment
    | _ => environment
  else environment

theorem exported_of_text {v : Value} {s : String} (hu : UsesAccount v) (ha : account v = .text s)
    (environment : Entries String String) :
    exported v environment = Entries.put credentialsVariable s environment := by
  rw [exported, if_pos hu, ha]

theorem exported_of_unexportable {v : Value} (h : Unexportable v)
    (environment : Entries String String) : exported v environment = environment := by
  rw [exported, if_pos h.1]
  split
  · exact absurd ‹_› (h.2 _)
  · rfl

theorem exported_of_not {v : Value} (h : ¬UsesAccount v) (environment : Entries String String) :
    exported v environment = environment := by
  rw [exported, if_neg h]

/-- An account that is no text stops the export, and every other configuration is exported. -/
theorem run_exportAccount (v : Value) (w : World) :
    ∃ logs, (Unexportable v ∧ (exportAccount v).run.run w = (.error (.notVariable (account v).kind),
        World.logging { w with environment := exported v w.environment } logs)) ∨
      (¬Unexportable v ∧ (exportAccount v).run.run w = (.ok (),
        World.logging { w with environment := exported v w.environment } logs)) := by
  by_cases hx : Unexportable v
  · refine ⟨[], .inl ⟨hx, ?_⟩⟩
    rw [exported_of_unexportable hx, World.logging_nil, exportAccount,
      if_pos (beq_iff_eq.mpr hx.1)]
    split
    · exact absurd ‹_› (hx.2 _)
    · rfl
  · by_cases hu : UsesAccount v
    · obtain ⟨s, hs⟩ := exists_text_of_exportable hu hx
      refine ⟨[(.info, s!"Set {credentialsVariable} from config: {s}")], .inr ⟨hx, ?_⟩⟩
      rw [exported_of_text hu hs, exportAccount, if_pos (beq_iff_eq.mpr hu), hs]
      rfl
    · refine ⟨[], .inr ⟨hx, ?_⟩⟩
      rw [exported_of_not hu, World.logging_nil, exportAccount, if_neg (mt beq_iff_eq.mp hu)]
      rfl

/-! ## Using the configuration -/

end Config

/-- The world after a configuration has been kept and its account exported. -/
def World.keeping (w : World) (v : Value) : World :=
  { w with config := some v, environment := Config.exported v w.environment }

theorem World.credentials_keeping {w : World} {v : Value} {s : String}
    (hu : Config.UsesAccount v) (ha : Config.account v = .text s) :
    (w.keeping v).credentials = some s := by
  rw [credentials, keeping, Config.exported_of_text hu ha, Entries.get?_put_self]

namespace Config

/-- A configuration that is kept is used. -/
theorem run_current_of_some {w : World} {v : Value} (h : w.config = some v) :
    current.run.run w = (.ok v, w) := by
  rw [current, run_bind_of_ok (run_get w), h]
  rfl

/-- The first use of the configuration fails to load it, or loads and keeps it, even if its account
cannot be exported. -/
theorem run_current_of_none {w : World} (h : w.config = none) :
    ∃ logs, (∃ f, load.outcome w = .error f ∧ current.run.run w = (.error f, w.logging logs)) ∨
      ∃ v, load.outcome w = .ok v ∧ Accepted v ∧
        ((Unexportable v ∧
            current.run.run w =
              (.error (.notVariable (account v).kind), (w.keeping v).logging logs)) ∨
          (¬Unexportable v ∧ current.run.run w = (.ok v, (w.keeping v).logging logs))) := by
  obtain ⟨logs, hl⟩ := looks_load.run w
  have hr : current.run.run w = (load >>= fun v =>
      modify (fun w => { w with config := some v }) >>= fun _ =>
      exportAccount v >>= fun _ => pure v).run.run w := by
    rw [current, run_bind_of_ok (run_get w), h]
  cases ho : load.outcome w with
  | error f =>
    rw [ho] at hl
    rw [run_bind_of_error hl] at hr
    exact ⟨logs, .inl ⟨f, rfl, hr⟩⟩
  | ok v =>
    rw [ho] at hl
    have ha := accepted_of_load ho
    -- The configuration is kept before its account is exported, and a failed export leaves it kept.
    rw [run_bind_of_ok hl, run_bind_of_ok (run_modify _ _)] at hr
    obtain ⟨more, ⟨hu, he⟩ | ⟨hn, he⟩⟩ :=
      run_exportAccount v { w.logging logs with config := some v }
    · rw [run_bind_of_error he] at hr
      refine ⟨logs ++ more, .inr ⟨v, rfl, ha, .inl ⟨hu, hr.trans ?_⟩⟩⟩
      exact congrArg (Prod.mk _) (World.logging_logging (w.keeping v) logs more)
    · rw [run_bind_of_ok he] at hr
      refine ⟨logs ++ more, .inr ⟨v, rfl, ha, .inr ⟨hn, hr.trans ?_⟩⟩⟩
      exact congrArg (Prod.mk _) (World.logging_logging (w.keeping v) logs more)

theorem run_current_of_fault {w : World} (h : w.config = none) {f : CloudSecrets.Fault}
    (hl : load.outcome w = .error f) : ∃ logs, current.run.run w = (.error f, w.logging logs) := by
  obtain ⟨logs, ⟨g, hg, hr⟩ | ⟨v, hv, -⟩⟩ := run_current_of_none h
  · rw [hl] at hg
    cases hg
    exact ⟨logs, hr⟩
  · rw [hl] at hv
    cases hv

theorem run_current_of_unexportable {w : World} (h : w.config = none) {v : Value}
    (hl : load.outcome w = .ok v) (hx : Unexportable v) :
    ∃ logs, current.run.run w =
      (.error (.notVariable (account v).kind), (w.keeping v).logging logs) := by
  obtain ⟨logs, ⟨f, hf, -⟩ | ⟨u, hu, -, hr⟩⟩ := run_current_of_none h
  · rw [hl] at hf
    cases hf
  · rw [hl] at hu
    cases hu
    rcases hr with ⟨-, hr⟩ | ⟨hn, -⟩
    · exact ⟨logs, hr⟩
    · exact absurd hx hn

theorem run_current_of_load {w : World} (h : w.config = none) {v : Value}
    (hl : load.outcome w = .ok v) (hn : ¬Unexportable v) :
    ∃ logs, current.run.run w = (.ok v, (w.keeping v).logging logs) := by
  obtain ⟨logs, ⟨f, hf, -⟩ | ⟨u, hu, -, hr⟩⟩ := run_current_of_none h
  · rw [hl] at hf
    cases hf
  · rw [hl] at hu
    cases hu
    rcases hr with ⟨hx, -⟩ | ⟨-, hr⟩
    · exact absurd hx hn
    · exact ⟨logs, hr⟩

/-! ## What every run preserves -/

/-- Between two worlds messages are logged, and the configuration may be loaded and kept. -/
def Keeping (w w' : World) : Prop :=
  ∃ logs, w' = w.logging logs ∨
    w.config = none ∧ ∃ v, load.outcome w = .ok v ∧ w' = (w.keeping v).logging logs

theorem Keeping.of_logging (w : World) (logs : List (Level × String)) :
    Keeping w (w.logging logs) := ⟨logs, .inl rfl⟩

instance : Std.Refl Keeping := ⟨fun w => ⟨[], .inl w.logging_nil.symm⟩⟩

theorem Keeping.trans {u v w : World} (huv : Keeping u v) (hvw : Keeping v w) : Keeping u w := by
  obtain ⟨logs, rfl | ⟨hn, x, hx, rfl⟩⟩ := huv
  · -- What is loaded later could have been loaded at once, as messages make no difference to it.
    obtain ⟨more, rfl | ⟨hn, y, hy, rfl⟩⟩ := hvw
    · exact ⟨logs ++ more, .inl (u.logging_logging logs more)⟩
    · rw [looks_load.outcome_logging] at hy
      exact ⟨logs ++ more, .inr ⟨hn, y, hy, (u.keeping y).logging_logging logs more⟩⟩
  · obtain ⟨more, rfl | ⟨hn', -⟩⟩ := hvw
    · exact ⟨logs ++ more, .inr ⟨hn, x, hx, (u.keeping x).logging_logging logs more⟩⟩
    · cases hn'

/-- Only the configuration, the environment and the log change. -/
theorem Keeping.eq_logging {w w' : World} (h : Keeping w w') :
    ∃ config environment logs,
      w' = World.logging { w with config := config, environment := environment } logs := by
  obtain ⟨logs, rfl | ⟨-, x, -, rfl⟩⟩ := h
  · exact ⟨w.config, w.environment, logs, rfl⟩
  · exact ⟨some x, exported x w.environment, logs, rfl⟩

/-- Once a configuration is kept only the log changes. -/
theorem Keeping.eq_of_config {w w' : World} {x : Value} (h : Keeping w w')
    (hc : w.config = some x) : ∃ logs, w' = w.logging logs := by
  obtain ⟨logs, rfl | ⟨hn, -⟩⟩ := h
  · exact ⟨logs, rfl⟩
  · rw [hc] at hn
    cases hn

theorem Looks.keeping {α : Type} {a : Action α} (ha : Looks a) : Along Keeping a := by
  intro w
  obtain ⟨logs, h⟩ := ha.run w
  rw [h]
  exact Keeping.of_logging w logs

theorem along_current : Along Keeping current := by
  intro w
  cases h : w.config with
  | some v =>
    rw [run_current_of_some h]
    exact refl w
  | none =>
    obtain ⟨logs, ⟨f, -, hr⟩ | ⟨v, hv, -, ⟨-, hr⟩ | ⟨-, hr⟩⟩⟩ := run_current_of_none h
    · rw [hr]
      exact Keeping.of_logging w logs
    · rw [hr]
      exact ⟨logs, .inr ⟨h, v, hv, rfl⟩⟩
    · rw [hr]
      exact ⟨logs, .inr ⟨h, v, hv, rfl⟩⟩

/-- Between two worlds the configuration stays as it is, or becomes the one that can be loaded. -/
def Caches (w w' : World) : Prop :=
  w'.config = w.config ∨
    w.config = none ∧ ∃ v, load.outcome w = .ok v ∧ w'.config = some v

theorem Keeping.caches {w w' : World} (h : Keeping w w') : Caches w w' := by
  obtain ⟨logs, rfl | ⟨hn, v, hv, rfl⟩⟩ := h
  · exact .inl rfl
  · exact .inr ⟨hn, v, hv, rfl⟩

/-- A configuration that is kept stays. -/
theorem Caches.eq_of_config {w w' : World} {v : Value} (h : Caches w w')
    (hc : w.config = some v) : w'.config = some v := by
  rcases h with h | ⟨hn, -⟩
  · exact h.trans hc
  · rw [hc] at hn
    cases hn

/-- Between two worlds nothing happens to the configuration and the environment, or a loaded
configuration is kept and its account exported. -/
def Loading (w w' : World) : Prop :=
  (w'.config = w.config ∧ w'.environment = w.environment) ∨
    w.config = none ∧ ∃ v, Loaded v ∧ w'.config = some v ∧
      w'.environment = exported v w.environment

instance : Std.Refl Loading := ⟨fun _ => .inl ⟨rfl, rfl⟩⟩

instance : IsTrans World Loading where
  trans := by
    rintro a b c (⟨hc, he⟩ | ⟨hn, v, ha, hc, he⟩) hbc
    · rcases hbc with ⟨hc', he'⟩ | ⟨hn', v, ha, hc', he'⟩
      · exact .inl ⟨hc'.trans hc, he'.trans he⟩
      · exact .inr ⟨hc ▸ hn', v, ha, hc', he ▸ he'⟩
    · rcases hbc with ⟨hc', he'⟩ | ⟨hn', -⟩
      · exact .inr ⟨hn, v, ha, hc'.trans hc, he'.trans he⟩
      · rw [hc] at hn'
        cases hn'

theorem Keeping.loading {w w' : World} (h : Keeping w w') : Loading w w' := by
  obtain ⟨logs, rfl | ⟨hn, v, hv, rfl⟩⟩ := h
  · exact .inl ⟨rfl, rfl⟩
  · exact .inr ⟨hn, v, ⟨w, hv⟩, rfl, rfl⟩

end Config

end CloudSecrets
