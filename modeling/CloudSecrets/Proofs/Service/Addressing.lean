import CloudSecrets.Proofs.Config.Faults
import CloudSecrets.Proofs.Service.Requests

/-!
# Where requests go

Every request that an operation sends carries the timeout of its client, and what it is addressed to
lies inside a project (`within_create` and so on). An operation of a client that has a project is
stopped only by the service or by what the service answers, never for want of a project
(`stops_create` and so on).
-/

namespace CloudSecrets

open CloudSecrets.Action

namespace Service

/-- A request goes into a project, as far as the program and not the service says where it goes. -/
def Request.Addressed : Request → Prop
  | .createSecret parent .. | .listSecrets parent => ∃ p, p ≠ "" ∧ parent = "projects/" ++ p
  | .getSecret name | .deleteSecret name | .listVersions name _ =>
    "projects/".toList <+: name.toList
  | .addVersion .. | .disableVersion _ => True

/-- Requests are addressed and carry a timeout, the same for all of them. -/
def Call.Within (timeout : Option Timeout) : Call → Prop
  | .connected => True
  | .sent r t => t = timeout ∧ r.Addressed

variable {client : Client}

/-! ## Paths -/

theorem projectPath_eq_ok {c : Context} {parent : String} (h : projectPath c = .ok parent) :
    ∃ p, p ≠ "" ∧ parent = "projects/" ++ p := by
  rw [projectPath] at h
  split at h
  · rename_i p hp
    cases h
    exact ⟨p, (Client.nonEmpty?_eq_some_iff.mp hp).2, rfl⟩
  · cases h

theorem secretPath_eq_ok {c : Context} {name path : String} (h : secretPath c name = .ok path) :
    "projects/".toList <+: path.toList := by
  rw [secretPath] at h
  split at h
  · rename_i hname
    cases h
    exact List.isPrefixOf_iff_prefix.mp hname
  · cases hp : projectPath c with
    | error f =>
      rw [hp] at h
      cases h
    | ok parent =>
      rw [hp] at h
      cases h
      obtain ⟨p, -, rfl⟩ := projectPath_eq_ok hp
      simp only [String.toList_append, List.append_assoc]
      exact List.prefix_append _ _

/-! ## Requests -/

theorem within_create (client : Client) (s : Secret) :
    Along (Calling (Call.Within (timeoutOf client.context))) (create client s) :=
  calling_create trivial (fun _ hparent => ⟨rfl, projectPath_eq_ok hparent⟩)
    fun _ => ⟨rfl, trivial⟩

theorem within_inspect (client : Client) (id : String) :
    Along (Calling (Call.Within (timeoutOf client.context))) (inspect client id) :=
  calling_inspect trivial fun _ hname => ⟨rfl, secretPath_eq_ok hname⟩

theorem within_list (client : Client) :
    Along (Calling (Call.Within (timeoutOf client.context))) (list client) :=
  calling_list trivial fun _ hparent => ⟨rfl, projectPath_eq_ok hparent⟩

theorem within_delete (client : Client) (name : String) (recover : Bool) :
    Along (Calling (Call.Within (timeoutOf client.context))) (delete client name recover) :=
  calling_delete trivial (fun _ _ htarget => ⟨rfl, secretPath_eq_ok htarget⟩)
    (fun _ _ htarget => ⟨rfl, secretPath_eq_ok htarget⟩) fun _ _ => ⟨rfl, trivial⟩

/-! ## Faults -/

theorem fails_raised {α : Type} (a : Option Answer) (x : α) :
    Fails Fault.Bound (raised (a.bind Answer.fault?) x) := by
  rcases a with _ | (_ | _ | _ | _ | _)
  · exact Fails.ok x
  · exact Fails.ok x
  · exact Fails.ok x
  · exact Fails.ok x
  · exact Fails.error nofun
  · exact Fails.error nofun

theorem stops_send (c : Context) (r : Request) : Stops Fault.Bound (send c r) := by
  intro w
  rw [run_send]
  exact fails_raised _ _

theorem stops_connect (k : Nat) : Stops Fault.Bound (connect k) := by
  intro w
  by_cases hk : k ∈ w.connected
  · rw [run_connect_of_connected hk]
    exact Fails.ok ()
  · rw [run_connect_of_not hk]
    have hraised := fails_raised (w.script.next .connect).1 ()
    split
    · rename_i f hf
      rw [hf] at hraised
      exact hraised
    · exact Fails.ok ()

theorem stops_reach (i : Item) : Stops Fault.Bound (reach i) := by
  cases i with
  | resource r => exact Stops.pure r
  | failure f => exact Stops.stop nofun
  | interrupt => exact Stops.stop nofun

theorem fails_secretOf (r : Resource) : Fails Fault.Bound (secretOf r) := by
  rw [secretOf]
  split
  · exact Fails.error nofun
  · exact Fails.ok _

section Project

variable {p : String} (hc : client.context.project = some p) (hp : p ≠ "")

include hc hp

theorem stops_projectPath : Stops Fault.Bound (path (projectPath client.context)) := by
  rw [projectPath_of_project hc hp]
  exact Stops.pure _

theorem stops_secretPath (name : String) :
    Stops Fault.Bound (path (secretPath client.context name)) := by
  obtain ⟨target, htarget⟩ := secretPath_of_project hc hp name
  rw [htarget]
  exact Stops.pure _

theorem stops_create (s : Secret) : Stops Fault.Bound (create client s) :=
  (stops_connect _).bind fun _ => (stops_projectPath hc hp).bind fun _ =>
    (stops_send _ _).bind fun _ => (Stops.log _ _).bind fun _ =>
      (stops_send _ _).bind fun _ => (Stops.log _ _).bind fun _ => Stops.pure _

theorem stops_inspect (id : String) : Stops Fault.Bound (inspect client id) :=
  (stops_connect _).bind fun _ => (stops_secretPath hc hp id).bind fun _ =>
    (stops_send _ _).bind fun _ => Stops.ofExcept (fails_secretOf _)

theorem stops_list : Stops Fault.Bound (list client) := by
  have hcollect (items : List Item) : Stops Fault.Bound (collect items) := by
    induction items with
    | nil => exact Stops.pure _
    | cons i is ih =>
      exact (stops_reach i).bind fun _ => (Stops.ofExcept (fails_secretOf _)).bind fun _ =>
        ih.bind fun _ => Stops.pure _
  exact (stops_connect _).bind fun _ => (stops_projectPath hc hp).bind fun _ =>
    (stops_send _ _).bind fun _ => hcollect _

theorem stops_delete (name : String) (recover : Bool) :
    Stops Fault.Bound (delete client name recover) := by
  have hdisable (items : List Item) : Stops Fault.Bound (disableAll client items) := by
    induction items with
    | nil => exact Stops.pure _
    | cons i is ih =>
      exact (stops_reach i).bind fun _ => (stops_connect _).bind fun _ =>
        (stops_send _ _).bind fun _ => (Stops.log _ _).bind fun _ => ih
  refine (stops_secretPath hc hp name).bind fun _ => (stops_connect _).bind fun _ => ?_
  cases recover with
  | true => exact (stops_send _ _).bind fun _ => hdisable _
  | false => exact (stops_send _ _).bind fun _ => Stops.log _ _

end Project

end Service

end CloudSecrets
