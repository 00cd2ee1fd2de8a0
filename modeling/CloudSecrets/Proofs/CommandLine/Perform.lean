import CloudSecrets.CommandLine.Run
import CloudSecrets.Proofs.Service.Requests

/-!
# Runs that use the service

The verbs on secrets run alike: a client is made, an operation runs on it and gives a text, and the
text is printed (`perform_eq`). What stops a run is told last, on the error stream
(`settle_of_error`).
-/

namespace CloudSecrets

open CloudSecrets.Action

/-- A process that has just started. -/
structure World.Fresh (w : World) : Prop where
  config : w.config = none
  connected : w.connected = []
  calls : w.calls = []
  notes : w.notes = []
  output : w.output = ""

/-- What is told about a fault that stops a run. -/
def Fault.notes : Fault → List Note
  | .interrupted => [.printed "\nInterrupted\n"]
  | f => [.logged .debug "Command failed", .printed s!"Error: {f.message}\n"]

namespace CommandLine

/-! ## Endings -/

theorem settle_of_ok {a : Action Nat} {w v : World} {code : Nat} (h : a.run.run w = (.ok code, v)) :
    settle a w = (code, v) := by
  rw [settle, h]

theorem settle_of_error {a : Action Nat} {w v : World} {f : Fault}
    (h : a.run.run w = (.error f, v)) :
    settle a w = (1, { v with notes := v.notes ++ f.notes }) := by
  rw [settle, h]
  have hr : (report f).run.run v = (.ok 1, { v with notes := v.notes ++ f.notes }) := by
    by_cases hf : f = .interrupted
    · subst hf
      rfl
    · rw [report.eq_2 f hf, Fault.notes.eq_2 f hf]
      rw [run_bind_of_ok (run_log _ _ _), run_bind_of_ok (run_warn _ _)]
      rw [World.logging, List.append_assoc]
      rfl
  simp only [hr]

/-- The end of a run adds to the notes of its action at most. -/
theorem world_settle (a : Action Nat) (w : World) :
    ∃ notes, (settle a w).2 = { (a.run.run w).2 with notes := notes } := by
  rcases h : a.run.run w with ⟨f | code, v⟩
  · rw [settle_of_error h]
    exact ⟨_, rfl⟩
  · rw [settle_of_ok h]
    exact ⟨v.notes, rfl⟩

/-- A run ends as its action is settled. -/
theorem run_eq {w v : World} {args : List String} {i : Invocation} {code : Nat}
    (hr : read args = .ok i) (h : settle (perform i.context i.verb) w = (code, v)) :
    run w args = ⟨code, v.output, Note.shownAll i.verbosity v.notes, v⟩ := by
  rw [run, hr]
  simp only [Invocation.run, h]

/-! ## Operations -/

/-- What a verb does on a client and the text that it prints, if it is to use the service. -/
def Verb.operation? : Verb → Option (Client → Action String)
  | .create name username password description entries =>
    match Labels.parse entries with
    | .ok labels => some fun client => do
      let created ← Service.create client { name, labels, description, username, password }
      return Service.shownName created ++ "\n"
    | .error _ => none
  | .inspect id => some fun client => do return (← Service.inspect client id).publicText ++ "\n"
  | .list => some fun client => do ofExcept .table (Secret.table (← Service.list client))
  | .delete name recover => some fun client => do
    Service.delete client name recover
    return ""
  | _ => none

/-- Makes a client, runs an operation on it and prints the text. -/
def onClient (c : Context) (op : Client → Action String) : Action Nat := do
  let client ← Client.new c
  let text ← op client
  print text
  return 0

/-- A verb that uses the service runs its operation on a new client. -/
theorem perform_eq {verb : Verb} {op : Client → Action String} (h : verb.operation? = some op)
    (c : Context) : perform c verb = onClient c op := by
  cases verb with
  | create name username password description entries =>
    simp only [Verb.operation?] at h
    rw [perform, create]
    cases hl : Labels.parse entries with
    | error f =>
      rw [hl] at h
      cases h
    | ok labels =>
      rw [hl] at h
      cases h
      simp only [onClient, bind_assoc, pure_bind]
  | inspect id =>
    cases h
    simp only [perform, inspect, onClient, bind_assoc, pure_bind]
  | list =>
    cases h
    simp only [perform, list, onClient, bind_assoc]
  | delete name recover =>
    cases h
    -- A deletion prints nothing, which is the same as printing an empty text.
    have hp : (print "" >>= fun _ => pure 0 : Action Nat) = pure 0 := by
      funext v
      refine (run_bind_of_ok (run_print "" v) _).trans ?_
      rw [String.append_empty]
      rfl
    simp only [perform, delete, onClient, bind_assoc, pure_bind, hp]
  | _ => cases h

/-- A secret that is not to be created has a malformed label, or one that is no text. -/
theorem perform_create_of_none {name : String} {username password description : Supplied}
    {entries : List Supplied}
    (h : (Verb.create name username password description entries).operation? = none) (c : Context) :
    (∃ entry, perform c (.create name username password description entries) =
        warn (Labels.malformedMessage entry) >>= fun _ => pure 2) ∨
      perform c (.create name username password description entries) = stop .labelNotText := by
  rw [Verb.operation?] at h
  rw [perform, create]
  cases hl : Labels.parse entries with
  | ok labels =>
    rw [hl] at h
    cases h
  | error fault =>
    cases fault with
    | malformed entry => exact .inl ⟨entry, rfl⟩
    | notText => exact .inr rfl

/-- A run makes only the calls of what it performs. -/
theorem calling_run {P : Service.Call → Prop} {args : List String}
    (h : ∀ i, read args = .ok i → Along (Service.Calling P) (perform i.context i.verb))
    (w : World) :
    Service.Calling P w (run w args).world := by
  cases hr : read args with
  | error s =>
    rw [run, hr]
    cases s <;> exact .of_eq rfl
  | ok i =>
    obtain ⟨notes, hn⟩ := world_settle (perform i.context i.verb) w
    obtain ⟨calls, hcalls, hall⟩ := h i hr w
    rcases hs : settle (perform i.context i.verb) w with ⟨code, v⟩
    rw [hs] at hn
    rw [run_eq hr hs, show v = _ from hn]
    exact ⟨calls, hcalls, hall⟩

/-- What holds of the four operations on a client holds of the operation of every verb. -/
theorem Verb.operation_cases {motive : (Client → Action String) → Prop} {verb : Verb}
    {op : Client → Action String} (h : verb.operation? = some op)
    (create : ∀ s : Secret, motive fun client => do
      let created ← Service.create client s
      return Service.shownName created ++ "\n")
    (inspect : ∀ id, motive fun client => do
      return (← Service.inspect client id).publicText ++ "\n")
    (list : motive fun client => do ofExcept .table (Secret.table (← Service.list client)))
    (delete : ∀ name recover, motive fun client => do
      Service.delete client name recover
      return "") : motive op := by
  cases verb with
  | create name username password description entries =>
    simp only [Verb.operation?] at h
    cases hl : Labels.parse entries with
    | error f =>
      rw [hl] at h
      cases h
    | ok labels =>
      rw [hl] at h
      cases h
      exact create _
  | inspect id =>
    cases h
    exact inspect id
  | list =>
    cases h
    exact list
  | delete name recover =>
    cases h
    exact delete name recover
  | _ => cases h

/-- An operation of a verb only uses the service. -/
theorem along_operation {verb : Verb} {op : Client → Action String}
    (h : verb.operation? = some op) (client : Client) : Along Service.Serving (op client) := by
  refine Verb.operation_cases (motive := fun op => Along Service.Serving (op client)) h
    (fun s => ?_) (fun id => ?_) ?_ fun name recover => ?_
  · exact (Service.along_create client s).bind fun _ => Along.pure _
  · exact (Service.along_inspect client id).bind fun _ => Along.pure _
  · exact (Service.along_list client).bind fun _ => Along.ofExcept _ _
  · exact (Service.along_delete client name recover).bind fun _ => Along.pure _

/-- The run of an operation on a new client is stopped before it, is stopped in it, or prints. -/
theorem run_onClient (op : Client → Action String) (c : Context) (w : World) :
    (∃ f v, (Client.new c).run.run w = (.error f, v) ∧
        (onClient c op).run.run w = (.error f, v)) ∨
      ∃ client v, (Client.new c).run.run w = (.ok client, v) ∧
        ((∃ f u, (op client).run.run v = (.error f, u) ∧
            (onClient c op).run.run w = (.error f, u)) ∨
          ∃ text u, (op client).run.run v = (.ok text, u) ∧
            (onClient c op).run.run w = (.ok 0, { u with output := u.output ++ text })) := by
  rcases hn : (Client.new c).run.run w with ⟨f | client, v⟩
  · exact .inl ⟨f, v, rfl, run_bind_of_error hn _⟩
  · refine .inr ⟨client, v, rfl, ?_⟩
    rcases ho : (op client).run.run v with ⟨f | text, u⟩
    · refine .inl ⟨f, u, rfl, ?_⟩
      rw [onClient, run_bind_of_ok hn, run_bind_of_error ho]
    · refine .inr ⟨text, u, rfl, ?_⟩
      rw [onClient, run_bind_of_ok hn, run_bind_of_ok ho, run_bind_of_ok (run_print _ _)]
      rfl

section Ends

variable {w bound u : World} {args : List String} {i : Invocation} {op : Client → Action String}
  {client : Client}

/-- A run whose operation gives a text ends with 0 and prints the text. -/
theorem run_of_operation_ok (hr : read args = .ok i) (ho : i.verb.operation? = some op)
    (hn : (Client.new i.context).run.run w = (.ok client, bound)) {text : String}
    (hop : (op client).run.run bound = (.ok text, u)) :
    run w args = ⟨0, u.output ++ text, Note.shownAll i.verbosity u.notes,
      { u with output := u.output ++ text }⟩ := by
  have hsettle : settle (perform i.context i.verb) w =
      (0, { u with output := u.output ++ text }) := by
    rw [perform_eq ho]
    apply settle_of_ok
    rw [onClient, run_bind_of_ok hn, run_bind_of_ok hop, run_bind_of_ok (run_print _ _)]
    rfl
  exact run_eq hr hsettle

/-- A run whose operation is stopped ends with 1 and tells why. -/
theorem run_of_operation_error (hr : read args = .ok i) (ho : i.verb.operation? = some op)
    (hn : (Client.new i.context).run.run w = (.ok client, bound)) {f : Fault}
    (hop : (op client).run.run bound = (.error f, u)) :
    run w args = ⟨1, u.output, Note.shownAll i.verbosity (u.notes ++ f.notes),
      { u with notes := u.notes ++ f.notes }⟩ := by
  have hsettle : settle (perform i.context i.verb) w =
      (1, { u with notes := u.notes ++ f.notes }) := by
    rw [perform_eq ho]
    apply settle_of_error
    rw [onClient, run_bind_of_ok hn, run_bind_of_error hop]
  exact run_eq hr hsettle

end Ends

end CommandLine

end CloudSecrets
