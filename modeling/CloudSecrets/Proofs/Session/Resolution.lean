import CloudSecrets.Proofs.Config.Validity
import CloudSecrets.Proofs.Session.Credentials

/-!
# Resolving project and timeout

What a new client is bound to, told from the context, the environment and the configuration that can
be had, which is the one that is kept, else the one that loading gives now. `resolved` is that
telling, and `run_new_of_available` says that a new client follows it: the two resolutions may each
use the configuration, but the second use finds what the first has left.
-/

namespace CloudSecrets

open CloudSecrets.Action
open Yaml (Value)

namespace Config

/-! ## The configuration that can be had -/

/-- The configuration that is kept, else what loading gives now. -/
def available (w : World) : Except CloudSecrets.Fault Value :=
  match w.config with
  | some v => .ok v
  | none => load.outcome w

theorem available_eq {v w : World} (hc : v.config = w.config) (h : v.SameView w) :
    available v = available w := by
  rw [available, available, hc, looks_load.outcome_eq h]

theorem available_logging (w : World) (logs : List (Level × String)) :
    available (w.logging logs) = available w := available_eq rfl (w.sameView_logging logs)

/-- Between two worlds the configuration that can be had stays the same. It is kept if it is needed,
and otherwise nothing is kept that was not. -/
structure Settles (needed : Prop) (w w' : World) : Prop where
  available : available w' = available w
  kept : needed → w'.config = (Config.available w).toOption
  left : ¬needed → w'.config = w.config

theorem Settles.of_logging {needed : Prop} (hn : ¬needed) (w : World)
    (logs : List (Level × String)) : Settles needed w (w.logging logs) :=
  ⟨available_logging w logs, fun h => absurd h hn, fun _ => rfl⟩

/-- What else changes makes no difference. -/
theorem Settles.of_eq {needed : Prop} {u v w : World} (h : Settles needed u v)
    (hc : w.config = v.config) (hv : w.SameView v) : Settles needed u w :=
  ⟨(available_eq hc hv).trans h.available, fun hn => hc.trans (h.kept hn),
    fun hn => hc.trans (h.left hn)⟩

theorem Settles.logging {needed : Prop} {w w' : World} (h : Settles needed w w')
    (logs : List (Level × String)) : Settles needed w (w'.logging logs) :=
  h.of_eq rfl (w'.sameView_logging logs)

theorem Settles.trans {m n : Prop} {u v w : World} (huv : Settles m u v) (hvw : Settles n v w) :
    Settles (m ∨ n) u w := by
  refine ⟨hvw.available.trans huv.available, fun h => ?_, fun h => ?_⟩
  · by_cases hn : n
    · rw [hvw.kept hn, huv.available]
    · rw [hvw.left hn, huv.kept (h.resolve_right hn)]
  · rw [hvw.left fun hn => h (.inr hn), huv.left fun hm => h (.inl hm)]

/-- Using the configuration gives the one that can be had and keeps it, unless its account is
octets. -/
theorem run_current_of_available {w : World}
    (hx : ∀ v, available w = .ok v → ¬Unexportable v) :
    ∃ w', current.run.run w = (available w, w') ∧ Settles True w w' := by
  cases h : w.config with
  | some v =>
    have ha : available w = .ok v := by rw [available, h]
    refine ⟨w, ?_, rfl, fun _ => ?_, fun hn => absurd trivial hn⟩
    · rw [run_current_of_some h, ha]
    · rw [h, ha]
      rfl
  | none =>
    have ha : available w = load.outcome w := by rw [available, h]
    obtain ⟨logs, ⟨f, hl, hr⟩ | ⟨v, hl, -, ⟨hu, -⟩ | ⟨-, hr⟩⟩⟩ := run_current_of_none h
    · refine ⟨w.logging logs, ?_, available_logging w logs, fun _ => ?_,
        fun hn => absurd trivial hn⟩
      · rw [hr, ha, hl]
      · rw [ha, hl]
        exact h
    · exact absurd hu (hx v (ha.trans hl))
    · refine ⟨(w.keeping v).logging logs, ?_, ?_, fun _ => ?_, fun hn => absurd trivial hn⟩
      · rw [hr, ha, hl]
      · rw [ha, hl]
        rfl
      · rw [ha, hl]
        rfl

/-! ## Configured timeouts -/

/-- A timeout as it is configured: null stands for none. -/
def timeoutValue : Option Timeout → Value
  | some (.whole n) => .integer n
  | some (.fractional x) => .decimal x
  | none => .null

/-- What is configured as the timeout; null if nothing is. -/
def configuredTimeout (v : Value) : Value :=
  ((v.get? "gcp").bind (·.get? "timeout")).getD .null

/-- The timeout of an accepted configuration is what is configured: a number or null. -/
theorem Accepted.timeoutValue_timeout? {v : Value} (h : Accepted v) :
    timeoutValue (timeout? v) = configuredTimeout v := by
  have hvalid := h.timeoutValid
  rw [timeout?, configuredTimeout]
  generalize (v.get? "gcp").bind (·.get? "timeout") = configured at *
  cases hvalid with
  | absent => rfl
  | null => rfl
  | whole hn h => rfl
  | fractional hf hp => rfl

end Config

namespace Client

/-! ## What a client is bound to -/

section Resolved

variable {w : World}

/-- A project comes from its name, else from the configuration that can be had. -/
def resolvedProject (asked : Option String) (w : World) : Except Fault String :=
  match named? asked w with
  | some p => .ok p
  | none => Config.available w >>= projectOf

/-- A timeout is the one that is given, else that of the configuration that can be had. -/
def resolvedTimeout (asked : Option Timeout) (w : World) : Except Fault (Option Timeout) :=
  match asked.filter Timeout.isGiven with
  | some t => .ok (some t)
  | none => timeoutOf (Config.available w)

theorem run_resolveProject_of_available (asked : Option String)
    (hx : ∀ v, Config.available w = .ok v → ¬Config.Unexportable v) :
    ∃ w', (resolveProject asked).run.run w = (resolvedProject asked w, w') ∧
      Config.Settles (named? asked w = none) w w' := by
  obtain ⟨logs, h⟩ := run_resolveProject asked w
  rw [h, resolvedProject]
  cases hn : named? asked w with
  | some p => exact ⟨w.logging logs, rfl, .of_logging nofun w logs⟩
  | none =>
    obtain ⟨w', hc, hs⟩ := Config.run_current_of_available hx
    rw [hc]
    refine ⟨w'.logging logs, rfl, ?_⟩
    rw [eq_self]
    exact hs.logging logs

theorem run_resolveTimeout_of_available (asked : Option Timeout)
    (hx : ∀ v, Config.available w = .ok v → ¬Config.Unexportable v) :
    ∃ w', (resolveTimeout asked).run.run w = (resolvedTimeout asked w, w') ∧
      Config.Settles (asked.filter Timeout.isGiven = none) w w' := by
  obtain ⟨logs, h⟩ := run_resolveTimeout asked w
  rw [h, resolvedTimeout]
  cases ht : asked.filter Timeout.isGiven with
  | some t => exact ⟨w.logging logs, rfl, .of_logging nofun w logs⟩
  | none =>
    obtain ⟨w', hc, hs⟩ := Config.run_current_of_available hx
    rw [hc]
    refine ⟨w'.logging logs, rfl, ?_⟩
    rw [eq_self]
    exact hs.logging logs

/-- What a context comes to, with the configuration that can be had. -/
def resolved (c : Context) (w : World) : Except Fault Context := do
  let p ← resolvedProject c.project w
  let t ← resolvedTimeout c.timeout w
  return ⟨some p, t⟩

/-- Whether a context leaves something to the configuration. -/
def NeedsConfig (c : Context) (w : World) : Prop :=
  named? c.project w = none ∨ c.timeout.filter Timeout.isGiven = none

/-- A new client is bound to what its context comes to, and the configuration that can be had is
kept if that needs it. -/
theorem run_new_of_available (c : Context)
    (hx : ∀ v, Config.available w = .ok v → ¬Config.Unexportable v) :
    ∃ r w', (new c).run.run w = (r, w') ∧ r.map Client.context = resolved c w ∧
      Config.Settles (NeedsConfig c w) w w' := by
  obtain ⟨v, hp, hv⟩ := run_resolveProject_of_available c.project hx
  cases hr : resolvedProject c.project w with
  | error f =>
    -- Only the configuration can stop the resolution of the project, so it was needed.
    have hn : named? c.project w = none := by
      cases hn : named? c.project w with
      | none => rfl
      | some p =>
        rw [resolvedProject, hn] at hr
        cases hr
    rw [hr] at hp
    refine ⟨.error f, v, run_bind_of_error hp _, ?_, hv.available, fun _ => hv.kept hn,
      fun h => absurd (.inl hn) h⟩
    rw [resolved, hr]
    rfl
  | ok p =>
    rw [hr] at hp
    rw [← hv.available] at hx
    obtain ⟨u, ht, hu⟩ := run_resolveTimeout_of_available c.timeout hx
    have hsame : resolvedTimeout c.timeout v = resolvedTimeout c.timeout w := by
      rw [resolvedTimeout, resolvedTimeout, hv.available]
    rw [hsame] at ht
    have hs := hv.trans hu
    cases htr : resolvedTimeout c.timeout w with
    | error f =>
      rw [htr] at ht
      refine ⟨.error f, u, ?_, ?_, hs⟩
      · rw [new, run_bind_of_ok hp, run_bind_of_error ht]
      · rw [resolved, hr, htr]
        rfl
    | ok t =>
      rw [htr] at ht
      let bound := s!"Client bound to project {p} (timeout={Timeout.optionalText t})"
      refine ⟨.ok ⟨u.nextConnection, ⟨some p, t⟩⟩,
        World.logging { u with nextConnection := u.nextConnection + 1 } [(.debug, bound)], ?_, ?_,
        ?_⟩
      · rw [new, run_bind_of_ok hp, run_bind_of_ok ht]
        rfl
      · rw [resolved, hr, htr]
        rfl
      · exact hs.of_eq rfl ⟨rfl, rfl, rfl, rfl⟩

/-! ## What stops it, and what it gives -/

/-- A project cannot be resolved if no name is given and there is no configuration, or one whose
project is not given. -/
theorem resolvedProject_eq_error_iff (asked : Option String)
    (hl : ∀ v, Config.available w = .ok v → Config.Loaded v) :
    (∃ f, resolvedProject asked w = .error f) ↔
      named? asked w = none ∧ ((∃ f, Config.available w = .error f) ∨
        ∃ v, Config.available w = .ok v ∧ (Config.project v).isGiven = false) := by
  rw [resolvedProject]
  cases named? asked w with
  | some p => simp
  | none =>
    cases ha : Config.available w with
    | error f => simp [bind, Except.bind]
    | ok v =>
      obtain ⟨-, p, hp⟩ := (hl v ha).checked
      cases hg : (Config.project v).isGiven with
      | false => simp [bind, Except.bind, projectOf, hg]
      | true => simp [bind, Except.bind, projectOf, hg, hp]

/-- A timeout cannot be resolved if none is given and there is a configuration file that cannot be
used. -/
theorem resolvedTimeout_eq_error_iff (asked : Option Timeout) :
    (∃ f, resolvedTimeout asked w = .error f) ↔
      asked.filter Timeout.isGiven = none ∧ ∃ f, Config.available w = .error f ∧
        ∀ usual, f ≠ .config (.notFound usual) := by
  rw [resolvedTimeout]
  cases asked.filter Timeout.isGiven with
  | some t => simp
  | none =>
    cases ha : Config.available w with
    | ok v => simp [timeoutOf]
    | error f =>
      by_cases hf : ∃ usual, f = .config (.notFound usual)
      · obtain ⟨usual, rfl⟩ := hf
        simp [timeoutOf]
      · have hne : ∀ usual, f ≠ .config (.notFound usual) := fun usual h => hf ⟨usual, h⟩
        simp [timeoutOf_of_ne hne, hne]

/-- What a value is shown as, if it can be. -/
def shownProject? (w : World) : Option String := do
  let v ← (Config.available w).toOption
  (Config.shown (Config.project v)).toOption

/-- A resolved project is the first that is not empty, of the one that is asked for, the one of the
environment and the one that is configured. -/
theorem resolvedProject_eq_ok {asked : Option String} {p : String}
    (h : resolvedProject asked w = .ok p) :
    [asked, Entries.get? projectVariable w.environment, shownProject? w].findSome? nonEmpty? =
      some p := by
  rw [resolvedProject] at h
  have hn : named? asked w = (nonEmpty? asked).or
      (nonEmpty? (Entries.get? projectVariable w.environment)) := rfl
  cases ha : nonEmpty? asked with
  | some q =>
    rw [hn, ha] at h
    cases h
    rw [List.findSome?_cons, ha]
  | none =>
    cases he : nonEmpty? (Entries.get? projectVariable w.environment) with
    | some q =>
      rw [hn, ha, he] at h
      cases h
      rw [List.findSome?_cons, ha, List.findSome?_cons, he]
    | none =>
      rw [hn, ha, he] at h
      obtain ⟨v, hv, hp⟩ := bind_eq_ok.mp h
      rw [projectOf] at hp
      split at hp
      · rename_i hg
        have hshown : shownProject? w = some p := by
          rw [shownProject?, hv]
          simp [Except.toOption, hp]
        have hne := Config.ne_empty_of_shown hg hp
        rw [List.findSome?_cons, ha, List.findSome?_cons, he, List.findSome?_cons, hshown,
          nonEmpty?_eq_some_iff.mpr ⟨rfl, hne⟩]
      · cases hp

theorem resolved_eq_error_iff (c : Context) :
    (∃ f, resolved c w = .error f) ↔ (∃ f, resolvedProject c.project w = .error f) ∨
      ∃ f, resolvedTimeout c.timeout w = .error f := by
  rw [resolved]
  cases resolvedProject c.project w with
  | error f => simp [bind, Except.bind]
  | ok p =>
    cases resolvedTimeout c.timeout w with
    | error f => simp [bind, Except.bind]
    | ok t => simp [bind, Except.bind, pure, Except.pure]

theorem nonEmpty?_eq_none_iff {o : Option String} : nonEmpty? o = none ↔ o.getD "" = "" := by
  cases o with
  | none => simp [nonEmpty?]
  | some s =>
    rw [nonEmpty?, Option.getD_some]
    split
    · rename_i hs
      simpa using hs
    · rename_i hs
      simpa using hs

theorem named?_eq_none_iff (asked : Option String) :
    named? asked w = none ↔ asked.getD "" = "" ∧
      (Entries.get? projectVariable w.environment).getD "" = "" := by
  rw [named?, Option.or_eq_none_iff, nonEmpty?_eq_none_iff, nonEmpty?_eq_none_iff]

end Resolved

end Client

namespace Session

/-- Whatever steps a session has taken, what a new client is bound to is decided by its context, the
environment and the configuration that can be had, if a service account in that is a text. The
configuration is kept exactly if the context leaves something to it. -/
theorem new_resolves {s : Session} (h : s.world.config = none) (steps : List Step) (c : Context)
    (hx : ∀ v, Config.available (s.after steps).world = .ok v → Config.UsesAccount v →
      ∃ path, Config.account v = .text path) :
    let w := (s.after steps).world
    let inherited := Entries.get? Client.projectVariable w.environment
    let unnamed := c.project.getD "" = "" ∧ inherited.getD "" = ""
    let untimed := ∀ t, c.timeout = some t → t.isGiven = false
    let r := (Client.new c).run.run w
    ((∃ f, r.1 = .error f) ↔
      unnamed ∧ ((∃ f, Config.available w = .error f) ∨
        ∃ v, Config.available w = .ok v ∧ (Config.project v).isGiven = false) ∨
      untimed ∧ ∃ f, Config.available w = .error f ∧ ∀ usual, f ≠ .config (.notFound usual)) ∧
    (∀ client, r.1 = .ok client →
      (∃ p, client.context.project = some p ∧
        [c.project, inherited, Client.shownProject? w].findSome? Client.nonEmpty? = some p) ∧
      (∀ t, c.timeout = some t → t.isGiven = true → client.context.timeout = some t) ∧
      (untimed →
        (∀ v, Config.available w = .ok v →
          Config.timeoutValue client.context.timeout = Config.configuredTimeout v) ∧
        ∀ f, Config.available w = .error f → client.context.timeout = none)) ∧
    ((unnamed ∨ untimed) → ∀ v, Config.available w = .ok v → r.2.config = some v) ∧
    (¬(unnamed ∨ untimed) ∨ (∃ f, Config.available w = .error f) → r.2.config = w.config) := by
  intro w inherited unnamed untimed r
  -- What can be had was loaded, now or at an earlier step.
  have hl : ∀ v, Config.available w = .ok v → Config.Loaded v := by
    intro v hv
    cases hc : w.config with
    | some u =>
      rw [Config.available, hc] at hv
      cases hv
      exact (exports_of_config h steps hc).1
    | none =>
      rw [Config.available, hc] at hv
      exact ⟨w, hv⟩
  have hn : ∀ v, Config.available w = .ok v → ¬Config.Unexportable v := by
    intro v hv hu
    obtain ⟨path, hp⟩ := hx v hv hu.1
    exact Config.exportable_of_text hp hu
  have hunnamed : Client.named? c.project w = none ↔ unnamed := Client.named?_eq_none_iff _
  have huntimed : c.timeout.filter Timeout.isGiven = none ↔ untimed := by
    rw [Option.filter_eq_none_iff]
    exact forall₂_congr fun t _ => iff_of_eq (Bool.not_eq_true _)
  obtain ⟨outcome, w', hrun, hbound, hs⟩ := Client.run_new_of_available c hn
  have hr : r = (outcome, w') := hrun
  have hneeds : Client.NeedsConfig c w ↔ unnamed ∨ untimed := or_congr hunnamed huntimed
  rw [hr]
  refine ⟨?_, fun client hclient => ?_, fun hneed v hv => ?_, fun hneed => ?_⟩
  · have herror : (∃ f, outcome = .error f) ↔ ∃ f, Client.resolved c w = .error f := by
      rw [← hbound]
      cases outcome <;> simp [Except.map]
    rw [herror, Client.resolved_eq_error_iff, Client.resolvedProject_eq_error_iff _ hl,
      Client.resolvedTimeout_eq_error_iff, hunnamed, huntimed]
  · cases hclient
    obtain ⟨p, hp, hrest⟩ := bind_eq_ok.mp hbound.symm
    obtain ⟨t, ht, hrest⟩ := bind_eq_ok.mp hrest
    have hcontext : client.context = ⟨some p, t⟩ := (Except.ok.inj hrest).symm
    rw [hcontext]
    refine ⟨⟨p, rfl, Client.resolvedProject_eq_ok hp⟩, fun d hd hg => ?_, fun hu => ?_⟩
    · rw [Client.resolvedTimeout, hd, Option.filter_some_pos hg] at ht
      exact (Except.ok.inj ht).symm
    · rw [Client.resolvedTimeout, huntimed.mpr hu] at ht
      refine ⟨fun v hv => ?_, fun f hf => ?_⟩
      · rw [hv] at ht
        cases ht
        exact (hl v hv).checked.1.timeoutValue_timeout?
      · rw [hf] at ht
        by_cases hne : ∃ usual, f = .config (.notFound usual)
        · obtain ⟨usual, rfl⟩ := hne
          exact (Except.ok.inj ht).symm
        · rw [Client.timeoutOf_of_ne fun usual he => hne ⟨usual, he⟩] at ht
          cases ht
  · rw [hs.kept (hneeds.mpr hneed), hv]
    rfl
  · by_cases hneeded : unnamed ∨ untimed
    · obtain ⟨f, hf⟩ := hneed.resolve_left (not_not_intro hneeded)
      rw [hs.kept (hneeds.mpr hneeded), hf]
      -- There is a fault only if nothing is kept.
      cases hc : w.config with
      | none => rfl
      | some v =>
        rw [Config.available, hc] at hf
        cases hf
    · exact hs.left (mt hneeds.mp hneeded)

/-- With nothing asked for and nothing in the environment, a client is bound to the project `p` of
the configuration, without a timeout, and the configuration is kept. -/
theorem new_of_account_k :
    let r := (Client.new {}).run.run (Session.ofWorld (Config.accountWorld "k")).world
    (∃ client, r.1 = .ok client ∧ client.context = ⟨some "p", none⟩) ∧
      r.2.config = some (Config.accountValue (.text "k")) := by
  have hload : Config.load.outcome (Session.ofWorld (Config.accountWorld "k")).world =
      .ok (Config.accountValue (.text "k")) := by
    rw [← Config.load_accountWorld_text]
    exact Config.looks_load.outcome_eq ⟨rfl, rfl, rfl, rfl⟩
  have hn : (Session.ofWorld (Config.accountWorld "k")).world.config = none := rfl
  have he : (Session.ofWorld (Config.accountWorld "k")).world.environment = [] := rfl
  -- Nothing else about the session matters.
  generalize Session.ofWorld (Config.accountWorld "k") = s at *
  intro r
  have ha : Config.available s.world = .ok (Config.accountValue (.text "k")) := by
    rw [Config.available, hn]
    exact hload
  have hx : ∀ v, Config.available (s.after []).world = .ok v → Config.UsesAccount v →
      ∃ path, Config.account v = .text path := by
    intro v hv _
    rw [after_nil, ha] at hv
    cases hv
    exact ⟨"k", rfl⟩
  obtain ⟨hraises, hbound, hkept, -⟩ := new_resolves hn [] {} hx
  rw [after_nil] at hraises hbound hkept
  have hunnamed : (none : Option String).getD "" = "" ∧
      (Entries.get? Client.projectVariable s.world.environment).getD "" = "" := by
    rw [he]
    exact ⟨rfl, rfl⟩
  refine ⟨?_, hkept (.inl hunnamed) _ ha⟩
  rcases hr : r.1 with f | client
  · -- The project is configured, and nothing is wrong with the configuration.
    rcases hraises.mp ⟨f, hr⟩ with ⟨-, ⟨g, hg⟩ | ⟨v, hv, hp⟩⟩ | ⟨-, g, hg, -⟩
    · rw [ha] at hg
      cases hg
    · rw [ha] at hv
      cases hv
      cases hp
    · rw [ha] at hg
      cases hg
  · obtain ⟨⟨p, hp, hfirst⟩, -, htimeout⟩ := hbound client hr
    have hshown : Client.shownProject? s.world = some "p" := by
      rw [Client.shownProject?, ha]
      rfl
    rw [hshown, he] at hfirst
    have hpp : p = "p" := (Option.some.inj hfirst).symm
    obtain ⟨hvalue, -⟩ := htimeout nofun
    have hnull : Config.timeoutValue client.context.timeout = .null := hvalue _ ha
    have hnone : client.context.timeout = none := by
      rcases ht : client.context.timeout with _ | (n | x)
      · rfl
      · rw [ht] at hnull
        cases hnull
      · rw [ht] at hnull
        cases hnull
    refine ⟨client, rfl, ?_⟩
    rw [← hpp, ← hp, ← hnone]

end Session

end CloudSecrets
