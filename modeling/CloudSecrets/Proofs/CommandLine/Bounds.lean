import CloudSecrets.Proofs.CommandLine.Frame
import CloudSecrets.Proofs.CommandLine.Settings
import CloudSecrets.Proofs.Config.Validity
import CloudSecrets.Proofs.Service.Addressing

/-!
# Bounded and addressed calls

All requests of a run carry one timeout: the last one given on the command line, else the configured
one, else none. Both sources are validated on their own, so the timeout is positive and finite
wherever it comes from. All requests go into a project, and no run is stopped because a call has
none (`calls_bounded_and_addressed`).
-/

namespace CloudSecrets

open CloudSecrets.Action
open Yaml (Value)

/-! ## Positive timeouts -/

/-- A timeout is a positive finite number. -/
def Timeout.Positive : Timeout → Prop
  | .whole n => 0 < n
  | .fractional x => x.isFinite = true ∧ x.isPositive = true

/-- A positive timeout counts as given. -/
theorem Timeout.Positive.isGiven {t : Timeout} (h : t.Positive) : t.isGiven = true := by
  cases t with
  | whole n =>
    have hn : 0 < n := h
    exact bne_iff_ne.mpr (by omega)
  | fractional x =>
    cases x with
    | finite negative m e =>
      have hm : (!negative && m != 0) = true := h.2
      rw [Timeout.isGiven, Binary64.isZero]
      exact (Bool.and_eq_true_iff.mp hm).2
    | infinite negative => rfl
    | nan => rfl

theorem Timeout.filter_isGiven {o : Option Timeout} (h : ∀ t, o = some t → t.Positive) :
    o.filter Timeout.isGiven = o := by
  cases o with
  | none => rfl
  | some t => exact Option.filter_some_pos (h t rfl).isGiven

/-- A timeout that the configuration gives is positive. -/
theorem Config.Accepted.positive {v : Value} (h : Accepted v) {t : Timeout}
    (ht : timeout? v = some t) : t.Positive := by
  have hvalid := h.timeoutValid
  rw [timeout?] at ht
  generalize (v.get? "gcp").bind (·.get? "timeout") = configured at *
  cases hvalid with
  | absent => cases ht
  | null => cases ht
  | whole hn _ =>
    cases ht
    exact hn
  | fractional hf hp =>
    cases ht
    exact ⟨hf, hp⟩

namespace CommandLine

/-- A timeout that a text on the command line gives is positive. -/
theorem positive_of_readTimeout {text : String} {t : Timeout} (h : readTimeout text = .ok t) :
    t.Positive := by
  rw [readTimeout] at h
  split at h
  · cases h
  · split at h
    · rename_i hx
      cases h
      exact Bool.and_eq_true_iff.mp hx
    · cases h

theorem positive_of_timeoutGiven? {args : List String} {t : Timeout}
    (h : timeoutGiven? args = some t) : t.Positive := by
  obtain ⟨supplied, -, ht⟩ := Option.bind_eq_some_iff.mp h
  cases supplied with
  | text text =>
    rw [Settings.timeoutOf] at ht
    cases hr : readTimeout text with
    | error m =>
      rw [hr] at ht
      cases ht
    | ok t' =>
      rw [hr] at ht
      cases ht
      exact positive_of_readTimeout hr
  | nothing => cases ht

/-! ## The timeout of a run -/

/-- The timeout that a run is bound to: the one that its command line gives, else the one of the
configuration that can be loaded. -/
def boundTimeout (w : World) (args : List String) : Option Timeout :=
  (timeoutGiven? args).or ((Config.load.outcome w).toOption.bind Config.timeout?)

theorem positive_of_boundTimeout {w : World} {args : List String} {t : Timeout}
    (h : boundTimeout w args = some t) : t.Positive := by
  rcases Option.or_eq_some_iff.mp h with hgiven | ⟨-, hconfigured⟩
  · exact positive_of_timeoutGiven? hgiven
  · obtain ⟨v, hv, ht⟩ := Option.bind_eq_some_iff.mp hconfigured
    exact (Config.accepted_of_load (eq_ok_of_toOption hv)).positive ht

end CommandLine

/-- A new client is bound to the timeout that is given, else to that of the configuration that can
be loaded. -/
theorem Client.timeout_new {c : Context} {client : Client} {w w' : World} (hw : w.config = none)
    (h : (new c).run.run w = (.ok client, w')) :
    client.context.timeout = (c.timeout.filter Timeout.isGiven).or
      ((Config.load.outcome w).toOption.bind Config.timeout?) := by
  rcases run_new c w with ⟨f, v, -, hr⟩ | ⟨p, t, v, u, logs, hp, ht, -, hr⟩
  · rw [hr] at h
    cases h
  · rw [hr] at h
    cases h
    show t = _
    obtain ⟨ls, hrt⟩ := run_resolveTimeout c.timeout v
    rw [ht] at hrt
    cases hg : c.timeout.filter Timeout.isGiven with
    | some d =>
      rw [hg] at hrt
      cases hrt
      rfl
    | none =>
      rw [hg] at hrt
      have htimeout : timeoutOf (Config.current.run.run v).1 = .ok t := (congrArg Prod.fst hrt).symm
      have hk := along_resolveProject c.project w
      rw [hp] at hk
      obtain ⟨ks, rfl | ⟨-, x, hx, rfl⟩⟩ := hk
      · have hv : (w.logging ks).config = none := hw
        rw [← Config.looks_load.outcome_logging w ks]
        obtain ⟨ms, ⟨f, hf, hcurrent⟩ | ⟨x, hx, -, ⟨-, hcurrent⟩ | ⟨-, hcurrent⟩⟩⟩ :=
          Config.run_current_of_none hv
        · rw [hcurrent] at htimeout
          rw [hf]
          -- Only where no configuration is found there is a client without one.
          by_cases hne : ∃ usual, f = .config (.notFound usual)
          · obtain ⟨usual, rfl⟩ := hne
            cases htimeout
            rfl
          · rw [timeoutOf_of_ne fun usual he => hne ⟨usual, he⟩] at htimeout
            cases htimeout
        · rw [hcurrent] at htimeout
          cases htimeout
        · rw [hcurrent] at htimeout
          rw [hx]
          exact (Except.ok.inj htimeout).symm
      · rw [Config.run_current_of_some rfl] at htimeout
        rw [hx]
        exact (Except.ok.inj htimeout).symm

namespace CommandLine

/-! ## Runs -/

/-- An operation sends requests into a project, all with the timeout of its client. -/
theorem within_operation {verb : Verb} {op : Client → Action String}
    (h : verb.operation? = some op) (client : Client) :
    Along (Service.Calling (Service.Call.Within (Service.timeoutOf client.context)))
      (op client) := by
  refine Verb.operation_cases (motive := fun op =>
    Along (Service.Calling (Service.Call.Within (Service.timeoutOf client.context))) (op client)) h
    (fun s => ?_) (fun id => ?_) ?_ fun name recover => ?_
  · exact (Service.within_create client s).bind fun _ => Along.pure _
  · exact (Service.within_inspect client id).bind fun _ => Along.pure _
  · exact (Service.within_list client).bind fun _ => Along.ofExcept _ _
  · exact (Service.within_delete client name recover).bind fun _ => Along.pure _

/-- An operation on a client with a project is not stopped for want of one. -/
theorem stops_operation {verb : Verb} {op : Client → Action String}
    (h : verb.operation? = some op) {client : Client} {p : String}
    (hc : client.context.project = some p) (hp : p ≠ "") : Stops Fault.Bound (op client) := by
  refine Verb.operation_cases (motive := fun op => Stops Fault.Bound (op client)) h
    (fun s => ?_) (fun id => ?_) ?_ fun name recover => ?_
  · exact (Service.stops_create hc hp s).bind fun _ => Stops.pure _
  · exact (Service.stops_inspect hc hp id).bind fun _ => Stops.pure _
  · exact (Service.stops_list hc hp).bind fun _ => Stops.ofExcept fun _ _ => nofun
  · exact (Service.stops_delete hc hp name recover).bind fun _ => Stops.pure _

/-- A new client and its operation send requests into a project, with the timeout of the run. -/
theorem within_onClient {w : World} (hw : w.config = none) {args : List String} {i : Invocation}
    (hr : read args = .ok i) {op : Client → Action String} (hop : i.verb.operation? = some op) :
    Service.Calling (Service.Call.Within (boundTimeout w args)) w
      ((onClient i.context op).run.run w).2 := by
  have hnew := Client.calling_new (P := Service.Call.Within (boundTimeout w args)) i.context w
  rcases run_onClient op i.context w with ⟨f, v, hn, hrun⟩ | ⟨client, v, hn, hrun⟩
  · rw [hn] at hnew
    rw [hrun]
    exact hnew
  · rw [hn] at hnew
    have hgiven : i.context.timeout.filter Timeout.isGiven = timeoutGiven? args := by
      rw [timeout_of_read hr]
      exact Timeout.filter_isGiven fun t => positive_of_timeoutGiven?
    have htimeout : Service.timeoutOf client.context = boundTimeout w args := by
      rw [Service.timeoutOf, Client.timeout_new hw hn, hgiven]
      exact Timeout.filter_isGiven fun t => positive_of_boundTimeout
    have hop := within_operation hop client v
    rw [htimeout] at hop
    have hboth := IsTrans.trans _ _ _ hnew hop
    rcases hrun with ⟨f, u, ho, hrun⟩ | ⟨text, u, ho, hrun⟩
    · rw [ho] at hboth
      rw [hrun]
      exact hboth
    · rw [ho] at hboth
      rw [hrun]
      exact hboth

/-- All requests of a run go into a project, with the timeout of the run. -/
theorem within_run {w : World} (hw : w.config = none) (args : List String) :
    Service.Calling (Service.Call.Within (boundTimeout w args)) w (run w args).world := by
  by_cases hop : ∃ i op, read args = .ok i ∧ i.verb.operation? = some op
  · obtain ⟨i, op, hr, hop⟩ := hop
    obtain ⟨calls, hcalls, hwithin⟩ := within_onClient hw hr hop
    obtain ⟨notes, hn⟩ := world_settle (perform i.context i.verb) w
    rcases hs : settle (perform i.context i.verb) w with ⟨code, v⟩
    rw [hs, perform_eq hop] at hn
    rw [run_eq hr hs, show v = _ from hn]
    exact ⟨calls, hcalls, hwithin⟩
  · have hlocal : ∀ i, read args = .ok i → i.verb.operation? = none := by
      intro i hr
      cases ho : i.verb.operation? with
      | none => rfl
      | some op => exact absurd ⟨i, op, hr, ho⟩ hop
    obtain ⟨files, notes, output, hw'⟩ := local_of_run (w := w) hlocal
    exact .of_eq (by rw [hw'])

theorem stops_setPath (text : String) : Stops Fault.Bound (setPath text) := by
  have hexpand (p : Path) : Stops Fault.Bound (expandHome p) := by
    refine Stops.get.bind fun w => ?_
    split
    · exact Stops.stop nofun
    · split
      · exact Stops.pure _
      · exact Stops.stop nofun
  have hresolve : Stops Fault.Bound (resolvePath text) := by
    refine (hexpand _).bind fun p => ?_
    dsimp only
    split
    · exact Stops.stop nofun
    · refine Stops.get.bind fun w => ?_
      split
      · exact Stops.stop nofun
      · exact Stops.pure _
  have hfile (path : String) : Stops Fault.Bound (isFile path) :=
    Stops.get.bind fun _ => Stops.ofExcept fun _ _ => nofun
  refine hresolve.bind fun path => (hfile path).bind fun found => ?_
  split
  · exact Stops.bind (fun _ => Fails.ok ()) fun _ => Stops.pure 1
  · exact (Preferences.stops_put _ _).bind fun _ => (Stops.print _).bind fun _ => Stops.pure 0

/-- No verb is stopped for want of a project. -/
theorem stops_perform (c : Context) (verb : Verb) : Stops Fault.Bound (perform c verb) := by
  cases hop : verb.operation? with
  | some op =>
    rw [perform_eq hop]
    intro w
    have hnew := Client.stops_new c w
    rcases run_onClient op c w with ⟨f, v, hn, hrun⟩ | ⟨client, v, hn, hrun⟩
    · rw [hn] at hnew
      rw [hrun]
      exact Fails.error (hnew f rfl)
    · obtain ⟨-, p, hp, hne⟩ := Client.binds_of_new hn
      have hstops := stops_operation hop hp hne v
      rcases hrun with ⟨f, u, ho, hrun⟩ | ⟨text, u, ho, hrun⟩
      · rw [ho] at hstops
        rw [hrun]
        exact Fails.error (hstops f rfl)
      · rw [hrun]
        exact Fails.ok 0
  | none =>
    cases verb with
    | help command => exact (Stops.print _).bind fun _ => Stops.pure 2
    | create name username password description entries =>
      rcases perform_create_of_none hop c with ⟨entry, he⟩ | he
      · rw [he]
        exact Stops.bind (fun _ => Fails.ok ()) fun _ => Stops.pure 2
      · rw [he]
        exact Stops.stop fun h => Fault.noConfusion h
    | inspect id => cases hop
    | list => cases hop
    | delete name recover => cases hop
    | version => exact (Stops.print _).bind fun _ => Stops.pure 0
    | setPath text => exact stops_setPath text
    | showPath =>
      have hshow (path source : String) : Stops Fault.Bound (showAt path source) :=
        (Stops.print _).bind fun _ => (stops_pathExists path).bind fun _ =>
          (Stops.print _).bind fun _ => Stops.pure 0
      rw [perform, showPath_eq]
      refine Config.stops_preferred.bind fun q => ?_
      cases q with
      | none => exact (Stops.get.bind fun _ => Stops.pure _).bind fun p => hshow _ _
      | some p => exact hshow _ _
    | clearPath =>
      exact (Preferences.stops_clear _).bind fun _ =>
        (Stops.get.bind fun _ => Stops.pure _).bind fun _ =>
          (Stops.print _).bind fun _ => Stops.pure 0

/-- The requests of every run are bounded and addressed. All of them carry the same timeout: the one
that the command line gives last, if it gives one, else the one of the configuration that can be
loaded; and it is positive and finite, if there is one. All of them go into a project, and nothing
is stopped because a call has none. -/
theorem calls_bounded_and_addressed {w : World} (hw : w.Fresh) (args : List String) :
    (∀ request timeout, .sent request timeout ∈ (run w args).world.calls →
        timeout = boundTimeout w args ∧ request.Addressed) ∧
      (∀ t, boundTimeout w args = some t → t.Positive) ∧
      ∀ i, read args = .ok i →
        (perform i.context i.verb).outcome w ≠ .error (.config .unboundProject) := by
  refine ⟨fun request timeout hc => ?_, fun t => positive_of_boundTimeout, fun i _ hstop => ?_⟩
  · exact (within_run hw.config args).mem hw.calls hc
  · exact stops_perform i.context i.verb w _ hstop rfl

/-- A process without files whose service has no answers. -/
def silentWorld : World where
  files := { entries := [] }
  here := []
  home := "/h"
  reader := Config.readDocument

/-- Of two timeouts the last one counts, and the list goes to the project. -/
theorem bound_of_repeated_timeout :
    let args := ["--timeout=2", "--timeout=5", "--project-id=p", "list"]
    let five := Timeout.fractional (.finite false 5629499534213120 (-50))
    boundTimeout silentWorld args = some five ∧ five.Positive ∧
      (∃ p, p ≠ "" ∧ "projects/p" = "projects/" ++ p) ∧
      (perform ⟨some "p", some five⟩ .list).outcome silentWorld ≠
        .error (.config .unboundProject) := by
  intro args five
  have hw : silentWorld.Fresh := ⟨rfl, rfl, rfl, rfl, rfl⟩
  have hr : read args = .ok ⟨0, ⟨some "p", some five⟩, .list⟩ :=
    eq_ok_of_toOption (by decide +kernel)
  have hcalls : (run silentWorld args).world.calls =
      [.connected, .sent (.listSecrets "projects/p") (some five)] := by decide +kernel
  have hlisted : .sent (.listSecrets "projects/p") (some five) ∈
      (run silentWorld args).world.calls := by
    rw [hcalls]
    exact List.mem_cons_of_mem _ List.mem_cons_self
  obtain ⟨hbound, hpositive, hstops⟩ := calls_bounded_and_addressed hw args
  obtain ⟨htimeout, haddressed⟩ := hbound _ _ hlisted
  exact ⟨htimeout.symm, hpositive five htimeout.symm, haddressed, hstops _ hr⟩

end CommandLine

end CloudSecrets
