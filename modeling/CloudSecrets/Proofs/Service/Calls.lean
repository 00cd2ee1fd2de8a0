import CloudSecrets.Proofs.Client
import CloudSecrets.Service.Operations

/-!
# Calls to the service

How the two ways of calling the service run, told through the script's next answer, and what any
operation leaves alone: `Serving` says that only the script, the connections, the calls and the log
change, and that calls are only added.
-/

namespace CloudSecrets

open CloudSecrets.Action

namespace Service

/-! ## Answers -/

/-- The next answer of a method, and the script after it. -/
def Script.next (s : Script) (m : Method) : Option Answer × Script :=
  match Entries.get? m s with
  | some (a :: queue) => (some a, Entries.put m queue s)
  | _ => (none, s)

/-- The answers of a method that are still to come. -/
def Script.queue (s : Script) (m : Method) : List Answer := (Entries.get? m s).getD []

theorem Script.fst_next (s : Script) (m : Method) : (s.next m).1 = (s.queue m).head? := by
  rw [next, queue]
  rcases Entries.get? m s with _ | (_ | ⟨a, queue⟩) <;> rfl

/-- Taking an answer takes it from the queue of its method. -/
theorem Script.queue_next_self (s : Script) (m : Method) :
    (s.next m).2.queue m = (s.queue m).tail := by
  rw [next]
  split
  · rename_i a queue h
    rw [Script.queue, Script.queue, Entries.get?_put_self, h]
    rfl
  · rename_i h
    rw [Script.queue]
    rcases hq : Entries.get? m s with _ | (_ | ⟨a, queue⟩)
    · rfl
    · rfl
    · exact absurd hq (h a queue)

/-- Taking an answer leaves the queues of the other methods alone. -/
theorem Script.queue_next_of_ne {m n : Method} (h : m ≠ n) (s : Script) :
    (s.next m).2.queue n = s.queue n := by
  rw [next]
  split
  · rw [Script.queue, Entries.get?_put_of_ne h]
    rfl
  · rfl

/-- The fault that an answer raises. -/
def Answer.fault? : Answer → Option Fault
  | .failure f => some (.service f)
  | .interrupt => some .interrupted
  | _ => none

/-- The fault that the answer at a position raises. -/
def faultAt (answers : List Answer) (k : Nat) : Option Fault := answers[k]?.bind Answer.fault?

theorem faultAt_zero (answers : List Answer) :
    faultAt answers 0 = answers.head?.bind Answer.fault? := by
  rw [faultAt, List.head?_eq_getElem?]

theorem faultAt_succ (answers : List Answer) (k : Nat) :
    faultAt answers (k + 1) = faultAt answers.tail k := by
  rw [faultAt, faultAt, List.getElem?_tail]

/-- The fault that an item raises when it is reached. -/
def Item.fault? : Item → Option Fault
  | .failure f => some (.service f)
  | .interrupt => some .interrupted
  | .resource _ => none

/-- What a computation with a possible fault gives. -/
def raised {α : Type} (f : Option Fault) (x : α) : Except Fault α :=
  match f with
  | some f => .error f
  | none => .ok x

theorem run_takeAnswer (m : Method) (w : World) :
    (takeAnswer m).run.run w =
      (.ok (w.script.next m).1, { w with script := (w.script.next m).2 }) := by
  rw [takeAnswer, run_bind_of_ok (run_get w), Script.next]
  rcases Entries.get? m w.script with _ | (_ | ⟨a, queue⟩) <;> rfl

theorem run_settle (a : Option Answer) (w : World) :
    (settle a).run.run w = (raised (a.bind Answer.fault?) a, w) := by
  rcases a with _ | (_ | _ | _ | _ | _) <;> rfl

theorem run_reach (r : Resource) (w : World) : (reach (.resource r)).run.run w = (.ok r, w) := rfl

theorem run_reach_of_fault {i : Item} {f : Fault} (h : i.fault? = some f) (w : World) :
    (reach i).run.run w = (.error f, w) := by
  cases i with
  | resource r => cases h
  | failure g =>
    cases h
    rfl
  | interrupt =>
    cases h
    rfl

/-! ## Calls -/

/-- The method of a recorded call. -/
def Call.method : Call → Method
  | .connected => .connect
  | .sent r _ => r.method

end Service

/-- The world after a call has been recorded and its answer taken. -/
def World.calling (w : World) (c : Service.Call) : World :=
  { w with calls := w.calls ++ [c], script := (w.script.next c.method).2 }

namespace Service

theorem run_send (c : Context) (r : Request) (w : World) :
    (send c r).run.run w =
      (raised ((w.script.next r.method).1.bind Answer.fault?) (w.script.next r.method).1,
        w.calling (.sent r (timeoutOf c))) := by
  rw [send, run_bind_of_ok (run_modify _ _), run_bind_of_ok (run_takeAnswer _ _), run_settle]
  rfl

theorem run_connect_of_connected {w : World} {k : Nat} (h : k ∈ w.connected) :
    (connect k).run.run w = (.ok (), w) := by
  rw [connect, run_bind_of_ok (run_get w), if_pos (List.contains_iff_mem.mpr h)]
  rfl

theorem run_connect_of_not {w : World} {k : Nat} (h : k ∉ w.connected) :
    (connect k).run.run w =
      match (w.script.next .connect).1.bind Answer.fault? with
      | some f => (.error f, w.calling .connected)
      | none => (.ok (), { w.calling .connected with connected := k :: w.connected }) := by
  rw [connect, run_bind_of_ok (run_get w), if_neg (mt List.contains_iff_mem.mp h),
    run_bind_of_ok (run_modify _ _), run_bind_of_ok (run_takeAnswer _ _), run_bind, run_settle]
  cases hf : (w.script.next .connect).1.bind Answer.fault? with
  | some f => rfl
  | none => rfl

/-! ## Paths -/

/-- A context with a project has paths. -/
theorem projectPath_of_project {c : Context} {p : String} (hc : c.project = some p)
    (hp : p ≠ "") : projectPath c = .ok ("projects/" ++ p) := by
  rw [projectPath, hc, Client.nonEmpty?_eq_some_iff.mpr ⟨rfl, hp⟩]

theorem secretPath_of_project {c : Context} {p : String} (hc : c.project = some p)
    (hp : p ≠ "") (name : String) : ∃ s, secretPath c name = .ok s := by
  rw [secretPath, projectPath_of_project hc hp]
  split
  · exact ⟨_, rfl⟩
  · exact ⟨_, rfl⟩

/-! ## What operations leave alone -/

/-- Between two worlds the service is used: calls and log messages are added, answers are taken and
connections are opened, and nothing else changes. -/
def Serving (w w' : World) : Prop :=
  ∃ script connected calls logs,
    w' = World.logging { w with
      script := script
      connected := connected
      calls := w.calls ++ calls } logs

instance : Std.Refl Serving where
  refl w := ⟨w.script, w.connected, [], [], by rw [List.append_nil, World.logging_nil]⟩

instance : IsTrans World Serving where
  trans := by
    rintro u v w ⟨s, k, cs, ls, rfl⟩ ⟨s', k', cs', ls', rfl⟩
    refine ⟨s', k', cs ++ cs', ls ++ ls', ?_⟩
    rw [← List.append_assoc, ← World.logging_logging]
    rfl

theorem Serving.environment_eq {w w' : World} (h : Serving w w') :
    w'.environment = w.environment := by
  obtain ⟨script, connected, calls, logs, rfl⟩ := h
  rfl

theorem Serving.config_eq {w w' : World} (h : Serving w w') : w'.config = w.config := by
  obtain ⟨script, connected, calls, logs, rfl⟩ := h
  rfl

theorem along_log (l : Level) (s : String) : Along Serving (log l s) := by
  intro w
  refine ⟨w.script, w.connected, [], [(l, s)], ?_⟩
  rw [List.append_nil]
  rfl

theorem along_send (c : Context) (r : Request) : Along Serving (send c r) := by
  intro w
  rw [run_send]
  exact ⟨_, w.connected, [.sent r (timeoutOf c)], [], (World.logging_nil _).symm⟩

theorem along_connect (k : Nat) : Along Serving (connect k) := by
  intro w
  by_cases h : k ∈ w.connected
  · rw [run_connect_of_connected h]
    exact refl w
  · rw [run_connect_of_not h]
    split
    · exact ⟨_, w.connected, [.connected], [], (World.logging_nil _).symm⟩
    · exact ⟨_, k :: w.connected, [.connected], [], (World.logging_nil _).symm⟩

theorem along_reach (i : Item) : Along Serving (reach i) := by
  cases i with
  | resource r => exact Along.pure _
  | failure f => exact Along.stop _
  | interrupt => exact Along.stop _

theorem along_create (client : Client) (s : Secret) : Along Serving (create client s) :=
  (along_connect _).bind fun _ => (Along.ofExcept _ _).bind fun _ =>
    (along_send _ _).bind fun _ => (along_log _ _).bind fun _ =>
      (along_send _ _).bind fun _ => (along_log _ _).bind fun _ => Along.pure _

theorem along_inspect (client : Client) (id : String) : Along Serving (inspect client id) :=
  (along_connect _).bind fun _ => (Along.ofExcept _ _).bind fun _ =>
    (along_send _ _).bind fun _ => Along.ofExcept _ _

theorem along_collect (items : List Item) : Along Serving (collect items) := by
  induction items with
  | nil => exact Along.pure _
  | cons i is ih =>
    exact (along_reach i).bind fun _ => (Along.ofExcept _ _).bind fun _ =>
      ih.bind fun _ => Along.pure _

theorem along_list (client : Client) : Along Serving (list client) :=
  (along_connect _).bind fun _ => (Along.ofExcept _ _).bind fun _ =>
    (along_send _ _).bind fun _ => along_collect _

theorem along_disableAll (client : Client) (items : List Item) :
    Along Serving (disableAll client items) := by
  induction items with
  | nil => exact Along.pure _
  | cons i is ih =>
    exact (along_reach i).bind fun _ => (along_connect _).bind fun _ =>
      (along_send _ _).bind fun _ => (along_log _ _).bind fun _ => ih

theorem along_delete (client : Client) (name : String) (recover : Bool) :
    Along Serving (delete client name recover) := by
  refine (Along.ofExcept _ _).bind fun _ => (along_connect _).bind fun _ => ?_
  cases recover with
  | true => exact (along_send _ _).bind fun _ => along_disableAll _ _
  | false => exact (along_send _ _).bind fun _ => along_log _ _

/-! ## Services that do as they are asked -/

/-- Whether a script has no answers left. -/
def Script.Silent (s : Script) : Prop := ∀ m queue, Entries.get? m s = some queue → queue = []

theorem Script.Silent.next {s : Script} (h : s.Silent) (m : Method) : s.next m = (none, s) := by
  rw [Script.next]
  split
  · rename_i hq
    exact absurd (h m _ hq) (List.cons_ne_nil _ _)
  · rfl

theorem run_connect_of_silent {w : World} (hs : w.script.Silent) {k : Nat}
    (hk : k ∉ w.connected) : (connect k).run.run w =
      (.ok (), { w with calls := w.calls ++ [.connected], connected := k :: w.connected }) := by
  rw [run_connect_of_not hk, World.calling, hs.next, hs.next]
  rfl

theorem run_send_of_silent {w : World} (hs : w.script.Silent) (c : Context) (r : Request) :
    (send c r).run.run w =
      (.ok none, { w with calls := w.calls ++ [.sent r (timeoutOf c)] }) := by
  rw [run_send, World.calling, hs.next, hs.next]
  rfl

/-- A new secret gets the name that it was asked for, and its credentials are stored below that. -/
theorem run_create_of_silent {w : World} (hs : w.script.Silent) {client : Client}
    (hk : client.connection ∉ w.connected) {p : String} (hc : client.context.project = some p)
    (hp : p ≠ "") (s : Secret) :
    let parent := "projects/" ++ p
    let name := parent ++ "/secrets/" ++ s.name
    ∃ logs, (create client s).run.run w = (.ok (some name), World.logging { w with
      connected := client.connection :: w.connected
      calls := w.calls ++ [.connected,
        .sent (.createSecret parent s.name s.labels s.description) (timeoutOf client.context),
        .sent (.addVersion (some name) s.payload) (timeoutOf client.context)] } logs) := by
  intro parent name
  let shown := shownName (some name)
  refine ⟨[(.info, s!"Created secret {shown}"),
    (.debug, s!"Stored credentials version for {shown}")], ?_⟩
  rw [create, run_bind_of_ok (run_connect_of_silent hs hk), path, projectPath_of_project hc hp,
    run_bind_of_ok (run_ofExcept_ok _ _ _), run_bind_of_ok (run_send_of_silent (by exact hs) _ _)]
  simp only [resourceOr]
  rw [run_bind_of_ok (run_log _ _ _), run_bind_of_ok (run_send_of_silent (by exact hs) _ _),
    run_bind_of_ok (run_log _ _ _), run_pure]
  simp only [World.logging, List.append_assoc, List.cons_append, List.nil_append, List.map_cons,
    List.map_nil, shown, name, parent]

end Service

end CloudSecrets
