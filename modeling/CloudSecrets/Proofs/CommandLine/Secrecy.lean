import CloudSecrets.Proofs.CommandLine.Create

/-!
# What a run tells about credentials

Credentials are for the payload of a new secret's first version, and for nothing else. With the
payloads taken out of the recorded calls, two runs that create the same secret with different
credentials cannot be told apart: not by their exit code, their output, their error stream or what
they leave behind, and whatever goes wrong on the way.
-/

namespace CloudSecrets

open CloudSecrets.Action

variable {α β : Type}

/-! ## Worlds without payloads -/

/-- A request without the payload that it stores. -/
def Service.Request.redacted : Service.Request → Service.Request
  | .addVersion parent _ => .addVersion parent ""
  | r => r

/-- A call without the payload that it stores. -/
def Service.Call.redacted : Service.Call → Service.Call
  | .connected => .connected
  | .sent r t => .sent r.redacted t

/-- A world without the payloads in its calls. -/
def World.redacted (w : World) : World := { w with calls := w.calls.map Service.Call.redacted }

theorem Service.Request.method_redacted (r : Service.Request) : r.redacted.method = r.method := by
  cases r <;> rfl

/-- Worlds that are the same without payloads differ in their calls at most. -/
theorem World.eq_of_redacted {v w : World} (h : v.redacted = w.redacted) :
    ∃ calls, w = { v with calls := calls } ∧
      v.calls.map Service.Call.redacted = calls.map Service.Call.redacted :=
  ⟨w.calls, (congrArg (fun u : World => { u with calls := w.calls }) h).symm,
    congrArg World.calls h⟩

namespace Action

/-- What can be seen of a run: what it comes to, and its world without payloads. -/
def seen (a : Action α) (w : World) : Except Fault α × World :=
  (a.outcome w, (a.run.run w).2.redacted)

theorem seen_bind_of_ok {a : Action α} {x : α} {v w : World} (h : a.run.run w = (.ok x, v))
    (f : α → Action β) : (a >>= f).seen w = (f x).seen v := by
  rw [seen, outcome, run_bind_of_ok h]
  rfl

theorem seen_bind_of_error {a : Action α} {e : Fault} {v w : World}
    (h : a.run.run w = (.error e, v)) (f : α → Action β) :
    (a >>= f).seen w = (.error e, v.redacted) := by
  rw [seen, outcome, run_bind_of_error h]

/-- Actions that start alike in one world are seen to be the same if they go on so. -/
theorem seen_bind_congr (a : Action α) {f g : α → Action β} {w : World}
    (h : ∀ x v, (f x).seen v = (g x).seen v) : (a >>= f).seen w = (a >>= g).seen w := by
  rcases hr : a.run.run w with ⟨e | x, v⟩
  · rw [seen_bind_of_error hr, seen_bind_of_error hr]
  · rw [seen_bind_of_ok hr, seen_bind_of_ok hr, h]

/-- Two actions cannot be told apart, even from worlds that differ in payloads. -/
def Alike (a b : Action α) : Prop := ∀ v w, v.redacted = w.redacted → a.seen v = b.seen w

theorem Alike.pure (x : α) : Alike (pure x : Action α) (pure x) :=
  fun _ _ h => congrArg (Prod.mk _) h

theorem Alike.ofExcept {ε : Type} (toFault : ε → Fault) (r : Except ε α) :
    Alike (ofExcept toFault r) (ofExcept toFault r) := by
  cases r with
  | ok x => exact Alike.pure x
  | error e => exact fun _ _ h => congrArg (Prod.mk _) h

theorem Alike.bind {a b : Action α} {f g : α → Action β} (hab : Alike a b)
    (hfg : ∀ x, Alike (f x) (g x)) : Alike (a >>= f) (b >>= g) := by
  intro v w h
  have hs := hab v w h
  rcases ha : a.run.run v with ⟨r, v'⟩
  rcases hb : b.run.run w with ⟨r', w'⟩
  rw [seen, seen, outcome, outcome, ha, hb] at hs
  obtain ⟨rfl, hr⟩ := Prod.mk.inj hs
  cases r with
  | error e => rw [seen_bind_of_error ha, seen_bind_of_error hb, hr]
  | ok x => rw [seen_bind_of_ok ha, seen_bind_of_ok hb, hfg x v' w' hr]

theorem Alike.log (l : Level) (s : String) : Alike (log l s) (log l s) := by
  intro v w h
  obtain ⟨calls, rfl, hc⟩ := World.eq_of_redacted h
  simp only [seen, outcome, run_log, World.redacted, World.logging, hc]

theorem Alike.print (s : String) : Alike (print s) (print s) := by
  intro v w h
  obtain ⟨calls, rfl, hc⟩ := World.eq_of_redacted h
  simp only [seen, outcome, run_print, World.redacted, hc]

end Action

/-! ## The service -/

namespace Service

/-- Requests that differ in their payload are answered alike. -/
theorem alike_send (c : Context) {r s : Request} (hr : r.redacted = s.redacted) :
    Alike (send c r) (send c s) := by
  intro v w h
  obtain ⟨calls, rfl, hc⟩ := World.eq_of_redacted h
  have hm : r.method = s.method := by
    rw [← r.method_redacted, hr, s.method_redacted]
  simp only [seen, outcome, run_send, World.redacted, World.calling, List.map_append, hc,
    List.map_cons, List.map_nil, Call.redacted, Call.method, hr, hm]

theorem alike_connect (k : Nat) : Alike (connect k) (connect k) := by
  intro v w h
  obtain ⟨calls, rfl, hc⟩ := World.eq_of_redacted h
  rw [seen, seen, outcome, outcome]
  by_cases hk : k ∈ v.connected
  · rw [run_connect_of_connected hk, run_connect_of_connected (by exact hk)]
    exact congrArg (Prod.mk _) h
  · rw [run_connect_of_not hk, run_connect_of_not (by exact hk)]
    cases hf : (v.script.next .connect).1.bind Answer.fault? with
    | some f => simp only [World.redacted, World.calling, List.map_append, hc]
    | none => simp only [World.redacted, World.calling, List.map_append, hc]

/-- Only the payload tells the credentials of a new secret. -/
theorem alike_create (client : Client) {s t : Secret} (hn : s.name = t.name)
    (hl : s.labels = t.labels) (hd : s.description = t.description) :
    Alike (create client s) (create client t) := by
  have hpayload (parent : Option String) :
      (Request.addVersion parent s.payload).redacted =
        (Request.addVersion parent t.payload).redacted := rfl
  rw [create, create, hn, hl, hd]
  exact (alike_connect _).bind fun _ => (Alike.ofExcept _ _).bind fun _ =>
    (alike_send _ (Eq.refl (Request.redacted _))).bind fun _ => (Alike.log _ _).bind fun _ =>
      (alike_send _ (hpayload _)).bind fun _ => (Alike.log _ _).bind fun _ => Alike.pure _

end Service

/-! ## Runs -/

namespace CommandLine

/-- Creating a secret is seen to be the same whatever its credentials are. -/
theorem seen_create (context : Context) (name : String)
    (username password username' password' description : Supplied) (entries : List Supplied)
    (w : World) :
    (create context name username password description entries).seen w =
      (create context name username' password' description entries).seen w := by
  rw [create, create]
  cases Labels.parse entries with
  | error f => cases f <;> rfl
  | ok labels =>
    let secret : Secret := { name, labels, description, username, password }
    let other : Secret := { secret with username := username', password := password' }
    refine seen_bind_congr _ fun client v => ?_
    have hcreate : Alike (Service.create client secret) (Service.create client other) :=
      Service.alike_create client rfl rfl rfl
    exact hcreate.bind (fun _ => (Alike.print _).bind fun _ => Alike.pure _) v v rfl

/-- What is seen of an action decides its exit code and what is seen of its end. -/
theorem settle_of_seen {a b : Action Nat} {w : World} (h : a.seen w = b.seen w) :
    (settle a w).1 = (settle b w).1 ∧ (settle a w).2.redacted = (settle b w).2.redacted := by
  rcases ha : a.run.run w with ⟨r, v⟩
  rcases hb : b.run.run w with ⟨r', v'⟩
  rw [seen, seen, outcome, outcome, ha, hb] at h
  obtain ⟨rfl, hv⟩ := Prod.mk.inj h
  cases r with
  | ok code =>
    rw [settle_of_ok ha, settle_of_ok hb]
    exact ⟨rfl, hv⟩
  | error f =>
    rw [settle_of_error ha, settle_of_error hb]
    obtain ⟨calls, rfl, hc⟩ := World.eq_of_redacted hv
    simp only [World.redacted, hc, and_self]

/-- Two runs that create a secret in the same way but for its credentials end alike: with the same
exit code, output and error stream, in the same world, after the same calls with other payloads at
most. -/
theorem run_create_alike {w : World} {args args' : List String} {verbosity : Nat}
    {context : Context} {name : String} {username password username' password' : Supplied}
    {description : Supplied} {entries : List Supplied}
    (h : read args =
      .ok ⟨verbosity, context, .create name username password description entries⟩)
    (h' : read args' =
      .ok ⟨verbosity, context, .create name username' password' description entries⟩) :
    (run w args).exit = (run w args').exit ∧
      (run w args).output = (run w args').output ∧
      (run w args).errors = (run w args').errors ∧
      (run w args).world.credentials = (run w args').world.credentials ∧
      (run w args).world.files = (run w args').world.files ∧
      (run w args).world.calls.map Service.Call.redacted =
        (run w args').world.calls.map Service.Call.redacted ∧
      (run w args).world = { (run w args').world with calls := (run w args).world.calls } := by
  have hs := settle_of_seen
    (seen_create context name username password username' password' description entries w)
  rcases hrun : settle (create context name username password description entries) w with
    ⟨code, v⟩
  rcases hrun' : settle (create context name username' password' description entries) w with
    ⟨code', v'⟩
  rw [hrun, hrun'] at hs
  obtain ⟨rfl, hv⟩ := hs
  obtain ⟨calls, rfl, hc⟩ := World.eq_of_redacted hv
  rw [run_eq h hrun, run_eq h' hrun']
  exact ⟨rfl, rfl, rfl, rfl, rfl, hc, rfl⟩

/-- With all log messages shown, the error streams are the same, although the calls are not. -/
theorem run_create_alike_verbose :
    (run quietWorld ["-vv", "--project-id=p", "create", "n", "-u", "a", "-p", "b"]).errors =
        (run quietWorld ["-vv", "--project-id=p", "create", "n", "-pc"]).errors ∧
      (run quietWorld ["-vv", "--project-id=p", "create", "n", "-u", "a", "-p", "b"]).world.calls ≠
        (run quietWorld ["-vv", "--project-id=p", "create", "n", "-pc"]).world.calls := by
  have h : read ["-vv", "--project-id=p", "create", "n", "-u", "a", "-p", "b"] =
      .ok ⟨2, ⟨some "p", none⟩, .create "n" (.text "a") (.text "b") (.text "") []⟩ :=
    eq_ok_of_toOption (by decide +kernel)
  have h' : read ["-vv", "--project-id=p", "create", "n", "-pc"] =
      .ok ⟨2, ⟨some "p", none⟩, .create "n" (.text "") (.text "c") (.text "") []⟩ :=
    eq_ok_of_toOption (by decide +kernel)
  obtain ⟨-, -, herrors, -⟩ := run_create_alike (w := quietWorld) h h'
  exact ⟨herrors, by decide +kernel⟩

end CommandLine

end CloudSecrets
