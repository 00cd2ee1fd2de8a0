import CloudSecrets.Proofs.Service.Requests
import CloudSecrets.Proofs.Session.Credentials

/-!
# The shared connection

Operations open the connection of a session when they first need it. `Lazily k a` says how an action
uses a connection: while it is open only requests are sent; while it is closed an attempt to open it
comes first, and if that fails nothing else happens. Every operation is of that kind, except that a
deletion may be refused for want of a project before it needs the connection. So over a whole session
the attempts come first, all but the last fail, and requests are sent only behind one that succeeds
(`connection_opens_lazily_and_once`).
-/

namespace CloudSecrets

open CloudSecrets.Action

namespace Service

variable {α β : Type} {k : Nat}

/-! ## Open connections -/

/-- Between two worlds a connection that is open stays open, and requests are sent at most. -/
def Sending (k : Nat) (w v : World) : Prop :=
  k ∈ w.connected → k ∈ v.connected ∧ Calling (· ≠ .connected) w v

instance : Std.Refl (Sending k) := ⟨fun w h => ⟨h, refl w⟩⟩

instance : IsTrans World (Sending k) where
  trans := by
    intro u v w huv hvw h
    obtain ⟨hv, hcalls⟩ := huv h
    obtain ⟨hw, hmore⟩ := hvw hv
    exact ⟨hw, Trans.trans hcalls hmore⟩

theorem sending_log (l : Level) (s : String) : Along (Sending k) (log l s) :=
  fun _ h => ⟨h, .of_eq rfl⟩

theorem sending_send (c : Context) (r : Request) : Along (Sending k) (send c r) := by
  intro w h
  have hne : Call.sent r (timeoutOf c) ≠ .connected := nofun
  rw [run_send]
  exact ⟨h, .of_append hne rfl⟩

/-- An open connection is not opened again. -/
theorem sending_connect (k : Nat) : Along (Sending k) (connect k) := by
  intro w h
  rw [run_connect_of_connected h]
  exact refl (r := Sending k) w h

theorem sending_reach (i : Item) : Along (Sending k) (reach i) := by
  cases i with
  | resource r => exact Along.pure _
  | failure f => exact Along.stop _
  | interrupt => exact Along.stop _

theorem sending_collect (items : List Item) : Along (Sending k) (collect items) := by
  induction items with
  | nil => exact Along.pure _
  | cons i items ih =>
    exact (sending_reach i).bind fun _ => (Along.ofExcept _ _).bind fun _ =>
      ih.bind fun _ => Along.pure _

theorem sending_disableAll (client : Client) (items : List Item) :
    Along (Sending client.connection) (disableAll client items) := by
  induction items with
  | nil => exact Along.pure _
  | cons i items ih =>
    exact (sending_reach i).bind fun _ => (sending_connect _).bind fun _ =>
      (sending_send _ _).bind fun _ => (sending_log _ _).bind fun _ => ih

/-! ## Lazy connections -/

/-- An action uses a connection lazily: it sends only requests while the connection is open, and
begins with an attempt to open it while it is closed. -/
structure Lazily (k : Nat) (a : Action α) : Prop where
  sending : Along (Sending k) a
  /-- An attempt that fails is all that happens. -/
  failing : ∀ {w : World} {f : Fault}, k ∉ w.connected →
    (w.script.next .connect).1.bind Answer.fault? = some f →
      a.run.run w = (.error f, w.calling .connected)
  /-- An attempt that succeeds comes before all requests. -/
  opening : ∀ {w : World}, k ∉ w.connected →
    (w.script.next .connect).1.bind Answer.fault? = none →
      k ∈ (a.run.run w).2.connected ∧ ∃ sent, .connected ∉ sent ∧
        (a.run.run w).2.calls = w.calls ++ .connected :: sent

theorem lazily_connect (k : Nat) : Lazily k (connect k) where
  sending := sending_connect k
  failing := by
    intro w f hk hf
    rw [run_connect_of_not hk, hf]
  opening := by
    intro w hk hf
    rw [run_connect_of_not hk, hf]
    exact ⟨List.mem_cons_self, [], List.not_mem_nil, rfl⟩

/-- What follows on a lazy use sends requests at most. -/
theorem Lazily.bind {a : Action α} {f : α → Action β} (ha : Lazily k a)
    (hf : ∀ x, Along (Sending k) (f x)) : Lazily k (a >>= f) where
  sending := ha.sending.bind hf
  failing := by
    intro w g hk hg
    exact run_bind_of_error (ha.failing hk hg) f
  opening := by
    intro w hk hg
    obtain ⟨hopen, sent, hsent, hcalls⟩ := ha.opening hk hg
    rcases hr : a.run.run w with ⟨g | x, v⟩
    · rw [run_bind_of_error hr]
      rw [hr] at hopen hcalls
      exact ⟨hopen, sent, hsent, hcalls⟩
    · rw [hr] at hopen hcalls
      obtain ⟨hlater, more, hmore, hall⟩ := hf x v hopen
      rw [run_bind_of_ok hr]
      refine ⟨hlater, sent ++ more, ?_, ?_⟩
      · rw [List.mem_append, not_or]
        exact ⟨hsent, fun hmem => hall _ hmem rfl⟩
      · rw [hmore, hcalls, List.append_assoc]
        rfl

theorem Lazily.map {a : Action α} (ha : Lazily k a) (g : α → β) : Lazily k (g <$> a) :=
  ha.bind fun x => Along.pure (g x)

theorem lazily_create (client : Client) (s : Secret) :
    Lazily client.connection (create client s) :=
  (lazily_connect _).bind fun _ => (Along.ofExcept _ _).bind fun _ =>
    (sending_send _ _).bind fun _ => (sending_log _ _).bind fun _ =>
      (sending_send _ _).bind fun _ => (sending_log _ _).bind fun _ => Along.pure _

theorem lazily_inspect (client : Client) (id : String) :
    Lazily client.connection (inspect client id) :=
  (lazily_connect _).bind fun _ => (Along.ofExcept _ _).bind fun _ =>
    (sending_send _ _).bind fun _ => Along.ofExcept _ _

theorem lazily_list (client : Client) : Lazily client.connection (list client) :=
  (lazily_connect _).bind fun _ => (Along.ofExcept _ _).bind fun _ =>
    (sending_send _ _).bind fun _ => sending_collect _

/-- A deletion needs the connection once it has a target. -/
theorem lazily_delete {client : Client} {name target : String}
    (h : secretPath client.context name = .ok target) (recover : Bool) :
    Lazily client.connection (delete client name recover) := by
  rw [delete, h]
  simp only [path, Action.ofExcept, pure_bind]
  refine (lazily_connect _).bind fun _ => ?_
  cases recover with
  | true => exact (sending_send _ _).bind fun _ => sending_disableAll _ _
  | false => exact (sending_send _ _).bind fun _ => sending_log _ _

/-! ## Attempts -/

/-- Since a world a connection has been tried some times in vain: it is still closed, and nothing
else was called. -/
structure Tried (k : Nat) (w v : World) (n : Nat) : Prop where
  closed : k ∉ v.connected
  calls : v.calls = w.calls ++ List.replicate n .connected
  failed : ∀ j < n, ∃ f, faultAt (w.script.queue .connect) j = some f
  answers : v.script.queue .connect = (w.script.queue .connect).drop n

/-- Since a world a connection has been tried some times in vain and then opened: it is still open,
and requests at most were sent since. -/
structure Opened (k : Nat) (w v : World) (n : Nat) : Prop where
  opened : k ∈ v.connected
  calls : ∃ sent, .connected ∉ sent ∧
    v.calls = w.calls ++ (List.replicate (n + 1) .connected ++ sent)
  failed : ∀ j < n, ∃ f, faultAt (w.script.queue .connect) j = some f
  succeeded : faultAt (w.script.queue .connect) n = none

section Attempts

variable {w v u : World} {n : Nat}

theorem tried_refl (h : k ∉ w.connected) : Tried k w w 0 :=
  ⟨h, (List.append_nil _).symm, fun j hj => absurd hj (Nat.not_lt_zero j), rfl⟩

/-- The next attempt takes the next answer. -/
theorem Tried.next (h : Tried k w v n) :
    (v.script.next .connect).1.bind Answer.fault? = faultAt (w.script.queue .connect) n := by
  rw [Script.fst_next, h.answers, List.head?_drop, faultAt]

theorem Tried.fail (h : Tried k w v n) {f : Fault}
    (hf : (v.script.next .connect).1.bind Answer.fault? = some f) :
    Tried k w (v.calling .connected) (n + 1) where
  closed := h.closed
  calls := by
    rw [World.calling, h.calls, List.replicate_succ', List.append_assoc]
  failed := by
    intro j hj
    by_cases hlast : j = n
    · exact ⟨f, by rw [hlast, ← h.next, hf]⟩
    · exact h.failed j (by omega)
  answers := by
    rw [← List.tail_drop, ← h.answers]
    exact Script.queue_next_self v.script .connect

theorem Tried.open (h : Tried k w v n) (hf : (v.script.next .connect).1.bind Answer.fault? = none)
    (hu : k ∈ u.connected) {sent : List Call} (hsent : .connected ∉ sent)
    (hcalls : u.calls = v.calls ++ .connected :: sent) : Opened k w u n where
  opened := hu
  calls := ⟨sent, hsent, by
    rw [hcalls, h.calls, List.replicate_succ', List.append_assoc, List.append_assoc]
    rfl⟩
  failed := h.failed
  succeeded := by rw [← h.next, hf]

theorem Opened.sending (h : Opened k w v n) (hs : Sending k v u) : Opened k w u n := by
  obtain ⟨hu, more, hmore, hall⟩ := hs h.opened
  obtain ⟨sent, hsent, hcalls⟩ := h.calls
  refine ⟨hu, ⟨sent ++ more, ?_, ?_⟩, h.failed, h.succeeded⟩
  · rw [List.mem_append, not_or]
    exact ⟨hsent, fun hmem => hall _ hmem rfl⟩
  · rw [hmore, hcalls, List.append_assoc, List.append_assoc]

end Attempts

end Service

/-! ## Sessions -/

/-- Whether a step is an operation on the shared connection, in a context of its own. -/
inductive Step.Shared : Step → Prop where
  | create (c : Context) (secret : Secret) : Shared (.create (some c) secret)
  | inspect (c : Context) (id : String) : Shared (.inspect (some c) id)
  | list (c : Context) : Shared (.list (some c))
  | delete (c : Context) (name : String) (recover : Bool) : Shared (.delete (some c) name recover)

/-- The fault that stops a step before it needs the connection: a deletion may have no target. -/
def Step.refusal? : Step → Option Fault
  | .delete (some c) name _ =>
    match Service.secretPath c name with
    | .error f => some f
    | .ok _ => none
  | _ => none

namespace Session

open Service (Lazily Sending Tried Opened faultAt Answer.fault?)

variable {s : Session} {st : Step}

/-- A step on the shared connection that is not refused uses it lazily. -/
theorem lazily_action (s : Session) (h : st.Shared) (hr : st.refusal? = none) :
    Lazily s.shared (s.action st) := by
  cases h with
  | create c secret => exact (Service.lazily_create ⟨s.shared, c⟩ secret).map _
  | inspect c id => exact (Service.lazily_inspect ⟨s.shared, c⟩ id).map _
  | list c => exact (Service.lazily_list ⟨s.shared, c⟩).map _
  | delete c name recover =>
    cases ht : Service.secretPath c name with
    | error f => simp [Step.refusal?, ht] at hr
    | ok target =>
      have hdelete := @Service.lazily_delete ⟨s.shared, c⟩ name target ht recover
      exact hdelete.bind fun _ => Along.pure _

/-- A step that is refused changes nothing. -/
theorem step_of_refusal {f : Fault} (h : st.refusal? = some f) : s.step st = (.error f, s) := by
  cases st with
  | delete context name recover =>
    cases context with
    | none => cases h
    | some c =>
      cases ht : Service.secretPath c name with
      | ok target => simp [Step.refusal?, ht] at h
      | error g =>
        simp only [Step.refusal?, ht, Option.some.injEq] at h
        subst h
        have hdelete : Service.delete (s.clientFor (some c)) name recover = stop g := by
          rw [Service.delete, show (s.clientFor (some c)).context = c from rfl, ht]
          rfl
        have hrun : (s.action (.delete (some c) name recover)).run.run s.world =
            (.error g, s.world) := by
          rw [action, hdelete]
          rfl
        rw [step, hrun]
  | _ => cases h

/-- While the connection is closed, a step that is not refused tries to open it, and fails with that
attempt or opens it; while it is open, a step sends requests at most. -/
theorem step_of_shared (s : Session) (h : st.Shared) (hr : st.refusal? = none) :
    (s.shared ∉ s.world.connected →
      (∀ f, (s.world.script.next .connect).1.bind Answer.fault? = some f →
        (s.step st).1 = .error f ∧ (s.step st).2.world = s.world.calling .connected) ∧
      ((s.world.script.next .connect).1.bind Answer.fault? = none →
        s.shared ∈ (s.step st).2.world.connected ∧ ∃ sent, .connected ∉ sent ∧
          (s.step st).2.world.calls = s.world.calls ++ .connected :: sent)) ∧
    Sending s.shared s.world (s.step st).2.world := by
  have hlazy := lazily_action s h hr
  refine ⟨fun hclosed => ⟨fun f hf => ?_, fun hf => hlazy.opening hclosed hf⟩,
    hlazy.sending s.world⟩
  have hrun := hlazy.failing hclosed hf
  exact ⟨congrArg Prod.fst hrun, congrArg Prod.snd hrun⟩

/-- A step goes on from attempts that failed with another one, or opens the connection. -/
theorem tried_step {w : World} {n : Nat} (ht : Tried s.shared w s.world n) (h : st.Shared) :
    ∃ m, Tried s.shared w (s.step st).2.world m ∨ Opened s.shared w (s.step st).2.world m := by
  cases hr : st.refusal? with
  | some f =>
    rw [step_of_refusal hr]
    exact ⟨n, .inl ht⟩
  | none =>
    obtain ⟨hattempt, -⟩ := step_of_shared s h hr
    obtain ⟨hfailing, hopening⟩ := hattempt ht.closed
    cases hf : (s.world.script.next .connect).1.bind Answer.fault? with
    | some f =>
      rw [(hfailing f hf).2]
      exact ⟨n + 1, .inl (ht.fail hf)⟩
    | none =>
      obtain ⟨hopen, sent, hsent, hcalls⟩ := hopening hf
      exact ⟨n, .inr (ht.open hf hopen hsent hcalls)⟩

/-- A step keeps the connection open. -/
theorem opened_step {w : World} {n : Nat} (ho : Opened s.shared w s.world n) (h : st.Shared) :
    Opened s.shared w (s.step st).2.world n := by
  cases hr : st.refusal? with
  | some f =>
    rw [step_of_refusal hr]
    exact ho
  | none => exact ho.sending (step_of_shared s h hr).2

@[simp] theorem shared_after (s : Session) (steps : List Step) :
    (s.after steps).shared = s.shared := by
  induction steps using List.reverseRecOn with
  | nil => rfl
  | append_singleton steps st ih =>
    rw [after_concat]
    exact ih

/-- Over operations on the shared connection the attempts to open it come first, all but the last
fail, and requests are sent only behind one that succeeds. -/
theorem tried_or_opened_after (h : s.shared ∉ s.world.connected) {steps : List Step}
    (hsteps : ∀ st ∈ steps, st.Shared) :
    ∃ n, Tried s.shared s.world (s.after steps).world n ∨
      Opened s.shared s.world (s.after steps).world n := by
  induction steps using List.reverseRecOn with
  | nil => exact ⟨0, .inl (Service.tried_refl h)⟩
  | append_singleton steps st ih =>
    have hst := hsteps st (List.mem_append_right _ List.mem_cons_self)
    obtain ⟨n, hn⟩ := ih fun st hmem => hsteps st (List.mem_append_left _ hmem)
    rw [after_concat]
    rw [← shared_after s steps] at hn ⊢
    rcases hn with ht | ho
    · exact tried_step ht hst
    · exact ⟨n, .inr (opened_step ho hst)⟩

/-- The shared connection is opened lazily and once. After any operations on it either all attempts to
open it have failed and nothing else was called, or one has succeeded after others that failed, and
only requests were sent behind it. Each operation that needs the connection while it is closed tries
to open it, first of all; if that fails, it raises that fault and calls nothing else. A deletion
without a target does not need it. While the connection is open no operation tries to open it. -/
theorem connection_opens_lazily_and_once (h : s.shared ∉ s.world.connected) {steps : List Step}
    (hsteps : ∀ st ∈ steps, st.Shared) :
    (∃ n, Tried s.shared s.world (s.after steps).world n ∨
      Opened s.shared s.world (s.after steps).world n) ∧
    ∀ before st later, steps = before ++ st :: later →
      let u := s.after before
      let v := (u.step st).2.world
      (∀ f, st.refusal? = some f → u.step st = (.error f, u)) ∧
      (st.refusal? = none → s.shared ∉ u.world.connected →
        (∀ f, (u.world.script.next .connect).1.bind Answer.fault? = some f →
          (u.step st).1 = .error f ∧ v = u.world.calling .connected) ∧
        ((u.world.script.next .connect).1.bind Answer.fault? = none →
          s.shared ∈ v.connected ∧ ∃ sent, .connected ∉ sent ∧
            v.calls = u.world.calls ++ .connected :: sent)) ∧
      (s.shared ∈ u.world.connected → s.shared ∈ v.connected ∧ ∃ sent, .connected ∉ sent ∧
        v.calls = u.world.calls ++ sent) := by
  refine ⟨tried_or_opened_after h hsteps, ?_⟩
  rintro before st later rfl u v
  have hst : st.Shared := hsteps st (by simp)
  have hshared : u.shared = s.shared := shared_after s before
  refine ⟨fun f hf => step_of_refusal hf, fun hr hclosed => ?_, fun hopen => ?_⟩
  · rw [← hshared] at hclosed ⊢
    exact (step_of_shared u hst hr).1 hclosed
  · cases hr : st.refusal? with
    | some f =>
      have hv : v = u.world := by
        rw [show v = (u.step st).2.world from rfl, step_of_refusal hr]
      rw [hv]
      exact ⟨hopen, [], List.not_mem_nil, (List.append_nil _).symm⟩
    | none =>
      rw [← hshared] at hopen ⊢
      obtain ⟨hlater, sent, hcalls, hall⟩ := (step_of_shared u hst hr).2 hopen
      exact ⟨hlater, sent, fun hmem => hall _ hmem rfl, hcalls⟩

/-- A session that is refused the first two attempts to open its connection. -/
def refusedSession : Session :=
  .ofWorld {
    files := { entries := [] }
    here := []
    home := "/h"
    reader := Config.readDocument
    script := [(.connect, [.failure (.status .unavailable "a"), .interrupt])] }

/-- Operations with a project and without one. -/
def mixedSteps : List Step :=
  [.create (some { project := some "p" }) { name := "s" }, .delete (some {}) "s" false,
    .list (some { project := some "p" }), .inspect (some { project := some "p" }) "s",
    .list (some {}), .list (some { project := some "q" })]

/-- The third operation that needs the connection opens it, and those behind it use it. -/
theorem calls_of_refusedSession :
    (refusedSession.after mixedSteps).world.calls =
        [.connected, .connected, .connected, .sent (.getSecret "projects/p/secrets/s") none,
          .sent (.listSecrets "projects/q") none] ∧
      ∃ n, Opened 0 refusedSession.world (refusedSession.after mixedSteps).world n := by
  have hclosed : refusedSession.shared ∉ refusedSession.world.connected := List.not_mem_nil
  have hshared : ∀ st ∈ mixedSteps, st.Shared := by
    intro st hst
    simp only [mixedSteps, List.mem_cons, List.not_mem_nil, or_false] at hst
    rcases hst with rfl | rfl | rfl | rfl | rfl | rfl
    · exact .create _ _
    · exact .delete _ _ _
    · exact .list _
    · exact .inspect _ _
    · exact .list _
    · exact .list _
  have hopen : 0 ∈ (refusedSession.after mixedSteps).world.connected := by decide +kernel
  obtain ⟨⟨n, htried | hopened⟩, -⟩ := connection_opens_lazily_and_once hclosed hshared
  · exact absurd hopen htried.closed
  · exact ⟨by decide +kernel, n, hopened⟩

end Session

end CloudSecrets
