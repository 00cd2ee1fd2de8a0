import CloudSecrets.Proofs.Service.Calls

/-!
# Which requests operations send

`Calling P` says that only calls of a kind are added between two worlds. Each operation is shown to
add only calls of a kind from what its own requests are, so a property of all requests of a run
takes one look at every request that an operation can send, however many it sends.
-/

namespace CloudSecrets

open CloudSecrets.Action

namespace Service

/-- Between two worlds only calls of a kind are added. -/
def Calling (P : Call → Prop) (w w' : World) : Prop :=
  ∃ calls, w'.calls = w.calls ++ calls ∧ ∀ c ∈ calls, P c

section Calling

variable {P : Call → Prop} {client : Client}

theorem Calling.of_eq {w w' : World} (h : w'.calls = w.calls) : Calling P w w' :=
  ⟨[], by rw [h, List.append_nil], nofun⟩

theorem Calling.of_append {w w' : World} {c : Call} (hc : P c) (h : w'.calls = w.calls ++ [c]) :
    Calling P w w' :=
  ⟨[c], h, fun _ hd => List.mem_singleton.mp hd ▸ hc⟩

instance : Std.Refl (Calling P) := ⟨fun _ => .of_eq rfl⟩

instance : IsTrans World (Calling P) where
  trans := by
    rintro u v w ⟨cs, hv, hcs⟩ ⟨ds, hw, hds⟩
    refine ⟨cs ++ ds, by rw [hw, hv, List.append_assoc], fun c hc => ?_⟩
    exact (List.mem_append.mp hc).elim (hcs c) (hds c)

/-- From a world without calls only calls of the kind are made. -/
theorem Calling.mem {w w' : World} (h : Calling P w w') (hw : w.calls = []) {c : Call}
    (hc : c ∈ w'.calls) : P c := by
  obtain ⟨calls, hcalls, hall⟩ := h
  rw [hcalls, hw, List.nil_append] at hc
  exact hall c hc

theorem calling_log (l : Level) (s : String) : Along (Calling P) (log l s) := fun _ => .of_eq rfl

theorem calling_send {c : Context} {r : Request} (h : P (.sent r (timeoutOf c))) :
    Along (Calling P) (send c r) := by
  intro w
  rw [run_send]
  exact .of_append h rfl

theorem calling_connect (h : P .connected) (k : Nat) : Along (Calling P) (connect k) := by
  intro w
  by_cases hk : k ∈ w.connected
  · rw [run_connect_of_connected hk]
    exact refl w
  · rw [run_connect_of_not hk]
    split <;> exact .of_append h rfl

theorem calling_reach (i : Item) : Along (Calling P) (reach i) := by
  cases i with
  | resource r => exact Along.pure _
  | failure f => exact Along.stop _
  | interrupt => exact Along.stop _

theorem calling_collect (items : List Item) : Along (Calling P) (collect items) := by
  induction items with
  | nil => exact Along.pure _
  | cons i is ih =>
    exact (calling_reach i).bind fun _ => (Along.ofExcept _ _).bind fun _ =>
      ih.bind fun _ => Along.pure _

/-! ## Operations -/

theorem calling_create (hconnect : P .connected) {s : Secret}
    (hcreate : ∀ parent, projectPath client.context = .ok parent →
      P (.sent (.createSecret parent s.name s.labels s.description) (timeoutOf client.context)))
    (hadd : ∀ name, P (.sent (.addVersion name s.payload) (timeoutOf client.context))) :
    Along (Calling P) (create client s) :=
  (calling_connect hconnect _).bind fun _ => Along.ofExcept_bind fun parent hparent =>
    (calling_send (hcreate parent hparent)).bind fun _ => (calling_log _ _).bind fun _ =>
      (calling_send (hadd _)).bind fun _ => (calling_log _ _).bind fun _ => Along.pure _

theorem calling_inspect (hconnect : P .connected) {id : String}
    (hget : ∀ name, secretPath client.context id = .ok name →
      P (.sent (.getSecret name) (timeoutOf client.context))) :
    Along (Calling P) (inspect client id) :=
  (calling_connect hconnect _).bind fun _ => Along.ofExcept_bind fun name hname =>
    (calling_send (hget name hname)).bind fun _ => Along.ofExcept _ _

theorem calling_list (hconnect : P .connected)
    (hlist : ∀ parent, projectPath client.context = .ok parent →
      P (.sent (.listSecrets parent) (timeoutOf client.context))) :
    Along (Calling P) (list client) :=
  (calling_connect hconnect _).bind fun _ => Along.ofExcept_bind fun parent hparent =>
    (calling_send (hlist parent hparent)).bind fun _ => calling_collect _

theorem calling_disableAll (hconnect : P .connected)
    (hdisable : ∀ version, P (.sent (.disableVersion version) (timeoutOf client.context)))
    (items : List Item) : Along (Calling P) (disableAll client items) := by
  induction items with
  | nil => exact Along.pure _
  | cons i is ih =>
    exact (calling_reach i).bind fun version => (calling_connect hconnect _).bind fun _ =>
      (calling_send (hdisable version.name)).bind fun _ => (calling_log _ _).bind fun _ => ih

/-- A deletion deletes, a recoverable one lists versions and disables them. -/
theorem calling_delete (hconnect : P .connected) {name : String} {recover : Bool}
    (hdelete : recover = false → ∀ target, secretPath client.context name = .ok target →
      P (.sent (.deleteSecret target) (timeoutOf client.context)))
    (hlist : recover = true → ∀ target, secretPath client.context name = .ok target →
      P (.sent (.listVersions target enabledFilter) (timeoutOf client.context)))
    (hdisable : recover = true → ∀ version,
      P (.sent (.disableVersion version) (timeoutOf client.context))) :
    Along (Calling P) (delete client name recover) := by
  refine Along.ofExcept_bind fun target htarget => (calling_connect hconnect _).bind fun _ => ?_
  cases recover with
  | true =>
    exact (calling_send (hlist rfl target htarget)).bind fun _ =>
      calling_disableAll hconnect (hdisable rfl) _
  | false => exact (calling_send (hdelete rfl target htarget)).bind fun _ => calling_log _ _

end Calling

end Service

/-- A new client calls nobody. -/
theorem Client.calling_new {P : Service.Call → Prop} (c : Context) :
    Along (Service.Calling P) (new c) := by
  intro w
  rcases run_new c w with ⟨f, v, hk, hr⟩ | ⟨p, t, v, u, logs, -, -, hk, hr⟩
  · rw [hr]
    obtain ⟨config, environment, logs, rfl⟩ := hk.eq_logging
    exact .of_eq rfl
  · rw [hr]
    obtain ⟨config, environment, more, rfl⟩ := hk.eq_logging
    exact .of_eq rfl

end CloudSecrets
