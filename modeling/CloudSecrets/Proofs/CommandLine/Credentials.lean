import CloudSecrets.Proofs.CommandLine.Perform

/-!
# Credentials of a run

A run that calls the service has made a client first, and only that can have exported the service
account of the configuration. It has, unless the project is named and the timeout is given, since
then nothing asks for the configuration.
-/

namespace CloudSecrets.CommandLine

open CloudSecrets.Action
open Yaml (Value)

/-- Whether a verb is about secrets. -/
def Verb.isAboutSecrets : Verb → Bool
  | .create .. | .inspect _ | .list | .delete .. => true
  | _ => false

/-- A verb about secrets that is not to use the service changes the log at most. -/
theorem run_perform_of_none {verb : Verb} (h : verb.isAboutSecrets = true)
    (hn : verb.operation? = none) (c : Context) (w : World) :
    ∃ r notes, (perform c verb).run.run w = (r, { w with notes := notes }) := by
  cases verb with
  | create name username password description entries =>
    rcases perform_create_of_none hn c with ⟨entry, he⟩ | he
    · rw [he]
      exact ⟨_, _, rfl⟩
    · rw [he]
      exact ⟨_, w.notes, rfl⟩
  | inspect id => cases hn
  | list => cases hn
  | delete name recover => cases hn
  | _ => cases h

/-- A run that calls the service exports the service account of the configuration, unless its
project is named and its timeout is given. -/
theorem credentials_of_calls {w : World} {args : List String} {i : Invocation} {v : Value}
    {path : String} (hw : w.Fresh) (hr : read args = .ok i) (hs : i.verb.isAboutSecrets = true)
    (hl : Config.load.outcome w = .ok v) (hu' : Config.UsesAccount v)
    (ha : Config.account v = .text path)
    (hc : (run w args).world.calls ≠ []) :
    (run w args).world.credentials =
      if (Client.named? i.context.project w).isSome ∧
          (i.context.timeout.filter Timeout.isGiven).isSome then w.credentials
      else some path := by
  have hx : ¬Config.Unexportable v := Config.exportable_of_text ha
  rw [run, hr] at hc ⊢
  obtain ⟨notes, hn⟩ := world_settle (perform i.context i.verb) w
  rw [show (i.run w).world = (settle (perform i.context i.verb) w).2 from rfl, hn] at hc ⊢
  cases ho : i.verb.operation? with
  | none =>
    obtain ⟨r, more, hp⟩ := run_perform_of_none hs ho i.context w
    rw [hp] at hc
    exact absurd hw.calls hc
  | some op =>
    rw [perform_eq ho] at hc ⊢
    rcases run_onClient op i.context w with
      ⟨f, u, hu, hp⟩ | ⟨client, u, hu, hp⟩
    · -- A client that cannot be made has called nothing.
      rcases Client.run_new i.context w with ⟨g, v', hk, hv⟩ | ⟨p, t, v', u', logs, -, -, -, hv⟩
      · rw [hv] at hu
        cases hu
        obtain ⟨config, environment, logs, rfl⟩ := hk.eq_logging
        rw [hp] at hc
        exact absurd hw.calls hc
      · rw [hv] at hu
        cases hu
    · -- Only the new client may export; the operation leaves the environment alone.
      have he := Client.environment_new hw.config hl hx hu
      have hs := along_operation ho client u
      have hv : ((onClient i.context op).run.run w).2.environment = u.environment := by
        rcases hp with ⟨f, u', hop, hp⟩ | ⟨text, u', hop, hp⟩
        · rw [hop] at hs
          rw [hp]
          exact hs.environment_eq
        · rw [hop] at hs
          rw [hp]
          exact hs.environment_eq
      rw [World.credentials]
      simp only [hv, he]
      split
      · rfl
      · rw [Config.exported_of_text hu' ha, Entries.get?_put_self]

/-- With both options a list of secrets is asked for, and the account `k` of a configuration that
would be loaded is not exported. -/
theorem credentials_of_list :
    Config.load.outcome (Config.accountWorld "k") = .ok (Config.accountValue (.text "k")) ∧
      (run (Config.accountWorld "k") ["--project-id=p", "--timeout=5", "list"]).world.calls ≠ [] ∧
      (run (Config.accountWorld "k")
        ["--project-id=p", "--timeout=5", "list"]).world.credentials = none := by
  have hw : (Config.accountWorld "k").Fresh := ⟨rfl, rfl, rfl, rfl, rfl⟩
  have hr : read ["--project-id=p", "--timeout=5", "list"] =
      .ok ⟨0, ⟨some "p", some (.fractional (.finite false 5629499534213120 (-50)))⟩, .list⟩ :=
    eq_ok_of_toOption (by decide +kernel)
  have hl := Config.load_accountWorld_text
  have hc : (run (Config.accountWorld "k") ["--project-id=p", "--timeout=5", "list"]).world.calls ≠
      [] := by decide +kernel
  refine ⟨hl, hc, ?_⟩
  rw [credentials_of_calls hw hr rfl hl rfl rfl hc]
  rfl

end CloudSecrets.CommandLine
