import CloudSecrets.Proofs.CommandLine.Perform
import CloudSecrets.Proofs.Service.Encounter
import CloudSecrets.Proofs.Table

/-!
# Exit codes and failures

A run on a client ends with 0 exactly if nothing that it meets raises. Otherwise what raises comes
last, the output is empty, and the error stream ends with the wording of the failure.
-/

namespace CloudSecrets

open CloudSecrets.Action

/-- A text of whole lines. -/
def WholeLines (s : String) : Prop := ∃ lines : List String, s = String.join (lines.map (· ++ "\n"))

namespace WholeLines

theorem empty : WholeLines "" := ⟨[], by rw [List.map_nil, String.join_nil]⟩

theorem line (s : String) : WholeLines (s ++ "\n") :=
  ⟨[s], by rw [List.map_singleton, String.join_cons, String.join_nil, String.append_empty]⟩

theorem append {s t : String} (hs : WholeLines s) (ht : WholeLines t) : WholeLines (s ++ t) := by
  obtain ⟨ls, rfl⟩ := hs
  obtain ⟨ms, rfl⟩ := ht
  exact ⟨ls ++ ms, by rw [List.map_append, String.join_append]⟩

end WholeLines

namespace Note

theorem shownAll_append (verbosity : Nat) (ns ms : List Note) :
    shownAll verbosity (ns ++ ms) = shownAll verbosity ns ++ shownAll verbosity ms := by
  rw [shownAll, List.map_append, String.join_append]
  rfl

/-- Log messages are lines of their own. -/
theorem wholeLines_logged (verbosity : Nat) (l : Level) (s : String) :
    WholeLines (shown verbosity (.logged l s)) := by
  rw [shown]
  split
  · exact WholeLines.line s
  · exact WholeLines.empty

theorem wholeLines_logs (verbosity : Nat) (logs : List (Level × String)) :
    WholeLines (shownAll verbosity (logs.map fun l => .logged l.1 l.2)) := by
  induction logs with
  | nil => exact WholeLines.empty
  | cons l logs ih =>
    rw [List.map_cons, shownAll, List.map_cons, String.join_cons]
    exact (wholeLines_logged verbosity l.1 l.2).append ih

end Note

/-- The wording of a fault at the end of the error stream. -/
def Fault.report (f : Fault) : String :=
  if f = .interrupted then "\nInterrupted\n" else "Error: " ++ f.message ++ "\n"

/-- A fault is told behind whole lines. -/
theorem Fault.shownAll_notes (f : Fault) (verbosity : Nat) :
    ∃ before, WholeLines before ∧ Note.shownAll verbosity f.notes = before ++ f.report := by
  by_cases hf : f = .interrupted
  · subst hf
    exact ⟨"", WholeLines.empty, rfl⟩
  · refine ⟨_, Note.wholeLines_logged verbosity .debug "Command failed", ?_⟩
    rw [notes.eq_2 f hf, report, if_neg hf, Note.shownAll, List.map_cons, String.join_cons,
      List.map_singleton, String.join_cons, String.join_nil, String.append_empty]
    rfl

namespace CommandLine

/-- An operation of a verb meets what it raises last, if its client has a project. -/
theorem meets_operation {verb : Verb} {op : Client → Action String}
    (h : verb.operation? = some op) {client : Client} {p : String}
    (hc : client.context.project = some p) (hp : p ≠ "") :
    Service.Meets [] (op client) fun _ left => ∀ i ∈ left, i.fault? = none := by
  have hnil : ∀ i ∈ ([] : List Service.Item), i.fault? = none :=
    fun i hi => absurd hi List.not_mem_nil
  refine Verb.operation_cases (motive := fun op =>
    Service.Meets [] (op client) fun _ left => ∀ i ∈ left, i.fault? = none) h
    (fun s => ?_) (fun id => ?_) ?_ fun name recover => ?_
  · refine (Service.meets_create hc hp s).bind fun _ left hl => ?_
    subst hl
    exact Service.meets_pure hnil
  · refine (Service.meets_inspect hc hp id).bind fun _ left hl => ?_
    subst hl
    exact Service.meets_pure hnil
  · refine (Service.meets_list hc hp).bind fun secrets left hl => ?_
    obtain ⟨text, ht⟩ := Secret.table_eq_ok secrets
    exact (Service.meets_ofExcept ht).mono fun _ _ hx => hx.2 ▸ hl
  · refine (Service.meets_delete hc hp name recover).bind fun _ left hl => ?_
    subst hl
    exact Service.meets_pure hnil

/-- A run that resolves its client exits with 0 exactly if nothing that it meets raises. What raises
is met last, and is told last. -/
theorem exit_eq_zero_iff {w : World} {args : List String} {i : Invocation} {client : Client}
    {bound : World} (hw : w.Fresh) (hs : w.script.Named) (hr : read args = .ok i)
    (ho : i.verb.operation?.isSome = true)
    (hn : (Client.new i.context).run.run w = (.ok client, bound)) :
    let ending := run w args
    let met := Service.encounters w.script [] ending.world.calls
    met.filterMap Service.Encounter.call? = ending.world.calls ∧
      (ending.exit = 0 ↔ ∀ e ∈ met, e.fault? = none) ∧
      ∀ e ∈ met, ∀ f, e.fault? = some f →
        (∃ init, met = init ++ [e] ∧ ∀ e ∈ init, e.fault? = none) ∧
          ending.exit = 1 ∧ ending.output = "" ∧
          ∃ before, WholeLines before ∧ ending.errors = before ++ f.report := by
  obtain ⟨op, ho⟩ := Option.isSome_iff_exists.mp ho
  obtain ⟨⟨config, environment, next, ls, hb⟩, p, hp, hne⟩ := Client.binds_of_new hn
  have hbs : bound.script = w.script := by rw [hb]; rfl
  have hbc : bound.calls = [] := by rw [hb]; exact hw.calls
  obtain ⟨r, u, hop, hcalls, hcase⟩ :=
    (meets_operation ho hp hne).run (fun _ _ h => h) (hbs ▸ hs) hbc
  rw [hbs] at hcalls hcase
  have hu := along_operation ho client bound
  rw [hop] at hu
  obtain ⟨script, connected, calls, ms, hu⟩ := hu
  have hout : u.output = "" := by
    rw [show u = _ from hu, hb]
    exact hw.output
  -- Neither the binding nor the operation prints, so there are only log messages so far.
  have hnotes : u.notes = (ls ++ ms).map fun l => .logged l.1 l.2 := by
    rw [show u = _ from hu, hb, List.map_append]
    simp only [World.logging, hw.notes, List.nil_append]
  rcases hcase with ⟨text, rfl, hnone⟩ | ⟨f, init, e, rfl, hmet, hnone, hf⟩
  · rw [run_of_operation_ok hr ho hn hop]
    refine ⟨hcalls, iff_of_true rfl hnone, fun e he f hf => ?_⟩
    rw [hnone e he] at hf
    cases hf
  · rw [run_of_operation_error hr ho hn hop]
    have hmem : e ∈ init ++ [e] := List.mem_append_right init (List.mem_singleton_self e)
    refine ⟨hcalls, iff_of_false Nat.one_ne_zero fun hall => ?_, fun e' he' g hg => ?_⟩
    · rw [hall e (hmet ▸ hmem)] at hf
      cases hf
    · -- Only the last encounter raises, so it is the one that is asked about.
      have hee : e' = e := by
        rcases List.mem_append.mp (hmet ▸ he') with h | h
        · rw [hnone e' h] at hg
          cases hg
        · exact List.mem_singleton.mp h
      subst hee
      rw [hf] at hg
      cases hg
      refine ⟨⟨init, hmet, hnone⟩, rfl, hout, ?_⟩
      obtain ⟨before, hb, hshown⟩ := f.shownAll_notes i.verbosity
      refine ⟨_, (Note.wholeLines_logs i.verbosity (ls ++ ms)).append hb, ?_⟩
      rw [String.append_assoc, ← hshown, ← Note.shownAll_append, ← hnotes]

/-- A process without files whose service lists one secret and then refuses. -/
def refusedWorld : World where
  files := { entries := [] }
  here := []
  home := "/h"
  reader := Config.readDocument
  script := [(.listSecrets, [.items [
    .resource { name := some "projects/p/secrets/a" },
    .failure (.status .permissionDenied "no more")]])]

/-- The list is refused at its second item. -/
theorem exit_of_refused_list :
    (run refusedWorld ["--project-id=p", "--timeout=5", "list"]).exit = 1 ∧
      (run refusedWorld ["--project-id=p", "--timeout=5", "list"]).output = "" ∧
      ∃ before, WholeLines before ∧
        (run refusedWorld ["--project-id=p", "--timeout=5", "list"]).errors =
          before ++ "Error: 403 no more\n" := by
  have hw : refusedWorld.Fresh := ⟨rfl, rfl, rfl, rfl, rfl⟩
  have hs : refusedWorld.script.Named := by
    intro m queue hq a ha
    simp only [refusedWorld, Entries.get?_cons, Entries.get?_nil] at hq
    split at hq
    · cases hq
      rw [List.mem_singleton.mp ha]
      intro i hi
      rcases List.mem_cons.mp hi with rfl | hi
      · exact nofun
      · rw [List.mem_singleton.mp hi]
        trivial
    · cases hq
  have hr : read ["--project-id=p", "--timeout=5", "list"] =
      .ok ⟨0, ⟨some "p", some (.fractional (.finite false 5629499534213120 (-50)))⟩, .list⟩ :=
    eq_ok_of_toOption (by decide +kernel)
  have hc : (run refusedWorld ["--project-id=p", "--timeout=5", "list"]).world.calls =
      [.connected, .sent (.listSecrets "projects/p")
        (some (.fractional (.finite false 5629499534213120 (-50))))] := by
    decide +kernel
  obtain ⟨-, -, hlast⟩ := exit_eq_zero_iff hw hs hr rfl rfl
  rw [hc] at hlast
  exact (hlast (.reached (.failure (.status .permissionDenied "no more"))) (by
    simp [Service.encounters, Service.Script.next, Service.reachable, refusedWorld,
      Service.Call.method, Service.Request.method, Service.Call.leaves, Service.Call.reaches,
      Entries.get?, Service.itemsOf, Service.Item.fault?, Service.Answer.fault?, Entries.put])
    _ rfl).2

end CommandLine

end CloudSecrets
