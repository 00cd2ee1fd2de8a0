import CloudSecrets.Proofs.Service.Calls

/-!
# Disabling versions

A recoverable deletion lists the enabled versions and disables them one by one. Two streams can stop
it: the list, whose items are reached one after the other, and the answers to the calls that disable.
`Disabling` tells how far it comes from both of them, with one rule for each way a step can go. Each
version is disabled once and in order, up to the first fault of either stream
(`recoverable_delete_disables_in_order`).
-/

namespace CloudSecrets.Service

open CloudSecrets.Action

/-! ## How far it comes -/

/-- From the items of a list and the answers that are still to come: the versions for which a call is
made, and how the loop ends. -/
inductive Disabling : List Item → List Answer → List Resource → Except Fault Unit → Prop where
  | done {answers : List Answer} : Disabling [] answers [] (.ok ())
  /-- An item cannot be reached. -/
  | unreached {i : Item} {items : List Item} {answers : List Answer} {f : Fault}
    (h : i.fault? = some f) : Disabling (i :: items) answers [] (.error f)
  /-- The call for a version is refused. -/
  | refused {v : Resource} {items : List Item} {answers : List Answer} {f : Fault}
    (h : answers.head?.bind Answer.fault? = some f) :
    Disabling (.resource v :: items) answers [v] (.error f)
  | disabled {v : Resource} {items : List Item} {answers : List Answer} {vs : List Resource}
    {r : Except Fault Unit} (h : answers.head?.bind Answer.fault? = none)
    (rest : Disabling items answers.tail vs r) :
    Disabling (.resource v :: items) answers (v :: vs) r

/-- No answer up to a position raises if neither the first nor those behind it do. -/
theorem faultAt_eq_none_succ {answers : List Answer} {n : Nat}
    (hfirst : answers.head?.bind Answer.fault? = none)
    (hrest : ∀ k < n, faultAt answers.tail k = none) : ∀ k < n + 1, faultAt answers k = none := by
  intro k hk
  cases k with
  | zero => rw [faultAt_zero, hfirst]
  | succ k =>
    rw [faultAt_succ]
    exact hrest k (by omega)

namespace Disabling

variable {items : List Item} {answers : List Answer} {vs : List Resource} {r : Except Fault Unit}

/-- Calls are made for the items in order, and for each at most once. -/
theorem isPrefix (h : Disabling items answers vs r) : vs.map .resource <+: items := by
  induction h with
  | done => exact List.prefix_rfl
  | unreached _ => exact List.nil_prefix
  | refused _ =>
    rw [List.map_singleton, List.cons_prefix_cons]
    exact ⟨rfl, List.nil_prefix⟩
  | disabled _ _ ih =>
    rw [List.map_cons, List.cons_prefix_cons]
    exact ⟨rfl, ih⟩

/-- The loop ends well if every item is a version and every call succeeds. -/
theorem eq_ok_iff (h : Disabling items answers vs r) :
    r = .ok () ↔ vs.map .resource = items ∧ ∀ k < vs.length, faultAt answers k = none := by
  induction h with
  | done => simp
  | unreached _ =>
    refine iff_of_false nofun ?_
    rintro ⟨hall, -⟩
    cases hall
  | refused hf =>
    refine iff_of_false nofun ?_
    rintro ⟨-, hnone⟩
    have hfirst := hnone 0 (by simp)
    rw [faultAt_zero, hf] at hfirst
    cases hfirst
  | disabled hfirst _ ih =>
    rw [ih, List.map_cons, List.cons_inj_right, List.length_cons]
    refine and_congr_right fun _ => ⟨faultAt_eq_none_succ hfirst, fun hnone k hk => ?_⟩
    rw [← faultAt_succ]
    exact hnone (k + 1) (by omega)

/-- Otherwise it ends with the first fault: that of the item behind the versions, if all calls
succeeded, or that of the last call, if all calls before it did. -/
theorem first_fault (h : Disabling items answers vs r) {f : Fault} (hr : r = .error f) :
    (items[vs.length]?.bind Item.fault? = some f ∧ ∀ k < vs.length, faultAt answers k = none) ∨
      ∃ n, vs.length = n + 1 ∧ faultAt answers n = some f ∧ ∀ k < n, faultAt answers k = none := by
  induction h with
  | done => cases hr
  | unreached hf =>
    cases hr
    exact .inl ⟨hf, fun k hk => absurd hk (Nat.not_lt_zero k)⟩
  | refused hf =>
    cases hr
    exact .inr ⟨0, rfl, (faultAt_zero _).trans hf, fun k hk => absurd hk (Nat.not_lt_zero k)⟩
  | disabled hfirst _ ih =>
    rcases ih hr with ⟨hitem, hnone⟩ | ⟨n, hn, hf, hnone⟩
    · exact .inl ⟨hitem, faultAt_eq_none_succ hfirst hnone⟩
    · refine .inr ⟨n + 1, by rw [List.length_cons, hn], ?_, faultAt_eq_none_succ hfirst hnone⟩
      rw [faultAt_succ, hf]

end Disabling

/-! ## The loop -/

variable {client : Client}

/-- The call that disables a version. -/
def disabling (client : Client) (v : Resource) : Call :=
  .sent (.disableVersion v.name) (timeoutOf client.context)

/-- With an open connection versions are disabled as the items and the answers have it, and no other
call is made. -/
theorem run_disableAll (items : List Item) {w : World} (hk : client.connection ∈ w.connected) :
    ∃ vs r w', (disableAll client items).run.run w = (r, w') ∧
      Disabling items (w.script.queue .disableVersion) vs r ∧
      w'.calls = w.calls ++ vs.map (disabling client) := by
  induction items generalizing w with
  | nil => exact ⟨[], .ok (), w, rfl, .done, (List.append_nil _).symm⟩
  | cons i items ih =>
    rw [disableAll]
    cases hi : i.fault? with
    | some f =>
      refine ⟨[], .error f, w, run_bind_of_error (run_reach_of_fault hi w) _, .unreached hi, ?_⟩
      exact (List.append_nil _).symm
    | none =>
      obtain ⟨v, rfl⟩ : ∃ v, i = .resource v := by
        cases i with
        | resource v => exact ⟨v, rfl⟩
        | failure f => cases hi
        | interrupt => cases hi
      rw [run_bind_of_ok (run_reach v w), run_bind_of_ok (run_connect_of_connected hk)]
      have hsend := run_send client.context (.disableVersion v.name) w
      rw [Script.fst_next] at hsend
      cases hf : (w.script.queue .disableVersion).head?.bind Answer.fault? with
      | some f =>
        rw [show Request.method (.disableVersion v.name) = .disableVersion from rfl, hf] at hsend
        exact ⟨[v], .error f, _, run_bind_of_error hsend _, .refused hf, rfl⟩
      | none =>
        rw [show Request.method (.disableVersion v.name) = .disableVersion from rfl, hf] at hsend
        rw [run_bind_of_ok hsend]
        simp only [run_bind_of_ok (run_log _ _ _)]
        -- The rest of the loop starts where the answer has been taken from its queue.
        obtain ⟨vs, r, w', hrun, hrest, hcalls⟩ := ih (w := World.logging
          (w.calling (disabling client v))
          [(.info, s!"Disabled secret version {shownName v.name}")]) hk
        refine ⟨v :: vs, r, w', hrun, .disabled hf ?_, ?_⟩
        · rw [← Script.queue_next_self]
          exact hrest
        · rw [hcalls, List.map_cons]
          exact List.append_assoc _ _ _

/-! ## Deletions -/

/-- The calls that it takes to open a connection: none if it is open. -/
def opening (k : Nat) (w : World) : List Call := if k ∈ w.connected then [] else [.connected]

theorem method_of_mem_opening {k : Nat} {w : World} {c : Call} (h : c ∈ opening k w) :
    c.method = .connect := by
  rw [opening] at h
  split at h
  · cases h
  · rw [List.mem_singleton.mp h]
    rfl

/-- Whether a connection is open, or the next attempt to open it succeeds. -/
def Reachable (k : Nat) (w : World) : Prop :=
  k ∈ w.connected ∨ (w.script.next .connect).1.bind Answer.fault? = none

/-- Opening a connection that can be opened leaves the answers to all requests to come. -/
theorem run_connect_of_reachable {k : Nat} {w : World} (h : Reachable k w) :
    ∃ v, (connect k).run.run w = (.ok (), v) ∧ v.calls = w.calls ++ opening k w ∧
      k ∈ v.connected ∧ ∀ m, m ≠ .connect → v.script.queue m = w.script.queue m := by
  by_cases hk : k ∈ w.connected
  · refine ⟨w, run_connect_of_connected hk, ?_, hk, fun m _ => rfl⟩
    rw [opening, if_pos hk, List.append_nil]
  · have hrun := run_connect_of_not hk
    rw [h.resolve_left hk] at hrun
    refine ⟨_, hrun, ?_, List.mem_cons_self, fun m hm => ?_⟩
    · rw [opening, if_neg hk]
      rfl
    · exact Script.queue_next_of_ne hm.symm w.script

/-- Where a connection cannot be opened, only the attempt is made. -/
theorem run_connect_of_not_reachable {k : Nat} {w : World} (h : ¬Reachable k w) :
    ∃ f, (connect k).run.run w = (.error f, w.calling .connected) := by
  obtain ⟨hk, hnext⟩ := not_or.mp h
  obtain ⟨f, hf⟩ := Option.ne_none_iff_exists'.mp hnext
  refine ⟨f, ?_⟩
  rw [run_connect_of_not hk, hf]

/-- The request that lists the enabled versions of a secret. -/
def listing (client : Client) (target : String) : Call :=
  .sent (.listVersions target enabledFilter) (timeoutOf client.context)

/-- A recoverable deletion that can open its connection lists the enabled versions. It ends with the
fault of the answer, or disables the versions on it. -/
theorem run_delete_of_reachable {name target : String} {w : World}
    (ht : secretPath client.context name = .ok target) (h : Reachable client.connection w) :
    ∃ vs r w', (delete client name true).run.run w = (r, w') ∧
      w'.calls = w.calls ++ (opening client.connection w ++
        listing client target :: vs.map (disabling client)) ∧
      ((∃ f, (w.script.next .listVersions).1.bind Answer.fault? = some f ∧ vs = [] ∧
          r = .error f) ∨
        (w.script.next .listVersions).1.bind Answer.fault? = none ∧
          Disabling (itemsOf (w.script.next .listVersions).1) (w.script.queue .disableVersion)
            vs r) := by
  obtain ⟨v, hconnect, hcalls, hk, hqueue⟩ := run_connect_of_reachable h
  -- The listing is answered as if the connection had not just been opened.
  have hsame : (v.script.next .listVersions).1 = (w.script.next .listVersions).1 := by
    rw [Script.fst_next, hqueue .listVersions (by decide), ← Script.fst_next]
  have hsend : (send client.context (.listVersions target enabledFilter)).run.run v = _ :=
    run_send client.context _ v
  rw [show Request.method (.listVersions target enabledFilter) = .listVersions from rfl,
    hsame] at hsend
  have hlater : (v.calling (listing client target)).calls =
      w.calls ++ (opening client.connection w ++ [listing client target]) := by
    rw [← List.append_assoc, ← hcalls]
    rfl
  rw [delete, ht]
  simp only [path, run_bind_of_ok (run_ofExcept_ok _ _ _), run_bind_of_ok hconnect, Bool.not_true,
    Bool.false_eq_true, if_false]
  cases hf : (w.script.next .listVersions).1.bind Answer.fault? with
  | some f =>
    rw [hf] at hsend
    rw [run_bind_of_error hsend]
    exact ⟨[], .error f, _, rfl, hlater, .inl ⟨f, rfl, rfl, rfl⟩⟩
  | none =>
    rw [hf] at hsend
    rw [run_bind_of_ok hsend]
    obtain ⟨vs, r, w', hrun, hloop, hmore⟩ := run_disableAll
      (itemsOf (w.script.next .listVersions).1) (w := v.calling (listing client target)) hk
    refine ⟨vs, r, w', hrun, ?_, .inr ⟨rfl, ?_⟩⟩
    · rw [hmore, hlater, List.append_assoc, List.append_assoc]
      rfl
    · have hne : Method.listVersions ≠ .disableVersion := by decide
      have hanswers : (v.calling (listing client target)).script.queue .disableVersion =
          w.script.queue .disableVersion :=
        (Script.queue_next_of_ne hne v.script).trans (hqueue .disableVersion (by decide))
      rw [← hanswers]
      exact hloop

/-- A recoverable deletion lists the enabled versions once and disables them in order, each once, up
to the first fault, which it raises. It returns exactly if the whole list was reached and every
version on it disabled. The secret itself is not deleted. -/
theorem recoverable_delete_disables_in_order {p : String} (hc : client.context.project = some p)
    (hp : p ≠ "") {w : World} (hopen : Reachable client.connection w) (name : String) :
    let listed := (w.script.next .listVersions).1
    let refusal := faultAt (w.script.queue .disableVersion)
    let timeout := timeoutOf client.context
    ∃ (target : String) (versions : List Resource) (r : Except Fault Unit) (w' : World),
      secretPath client.context name = .ok target ∧
      (delete client name true).run.run w = (r, w') ∧
      w'.calls = w.calls ++ (opening client.connection w ++
        .sent (.listVersions target "state:ENABLED") timeout ::
          versions.map fun v => .sent (.disableVersion v.name) timeout) ∧
      versions.map .resource <+: itemsOf listed ∧
      (r = .ok () ↔ listed.bind Answer.fault? = none ∧ versions.map .resource = itemsOf listed ∧
        ∀ k < versions.length, refusal k = none) ∧
      (∀ f, r = .error f →
        (listed.bind Answer.fault? = some f ∧ versions = []) ∨
        ((itemsOf listed)[versions.length]?.bind Item.fault? = some f ∧
          ∀ k < versions.length, refusal k = none) ∨
        ∃ n, versions.length = n + 1 ∧ refusal n = some f ∧ ∀ k < n, refusal k = none) ∧
      ∀ c ∈ w'.calls, c ∈ w.calls ∨ c.method ≠ .deleteSecret := by
  intro listed refusal timeout
  obtain ⟨target, htarget⟩ := secretPath_of_project hc hp name
  obtain ⟨vs, r, w', hrun, hcalls, hend⟩ := run_delete_of_reachable htarget hopen
  have hnever : ∀ c ∈ w'.calls, c ∈ w.calls ∨ c.method ≠ .deleteSecret := by
    intro c hmem
    rw [hcalls, List.mem_append, List.mem_append, List.mem_cons, List.mem_map] at hmem
    rcases hmem with hmem | hmem | rfl | ⟨v, -, rfl⟩
    · exact .inl hmem
    · exact .inr (method_of_mem_opening hmem ▸ nofun)
    · exact .inr nofun
    · exact .inr nofun
  refine ⟨target, vs, r, w', htarget, hrun, hcalls, ?_, ?_, ?_, hnever⟩
  · rcases hend with ⟨f, -, rfl, -⟩ | ⟨-, hloop⟩
    · exact List.nil_prefix
    · exact hloop.isPrefix
  · rcases hend with ⟨f, hf, -, rfl⟩ | ⟨hf, hloop⟩
    · refine iff_of_false nofun ?_
      rintro ⟨hnone, -⟩
      rw [hf] at hnone
      cases hnone
    · rw [hloop.eq_ok_iff]
      exact (and_iff_right hf).symm
  · intro f hr
    rcases hend with ⟨g, hg, hnone, rfl⟩ | ⟨-, hloop⟩
    · cases hr
      exact .inl ⟨hg, hnone⟩
    · exact .inr (hloop.first_fault hr)

/-- A process without a connection, whose service lists three versions and refuses to disable the
second. -/
def refusingWorld : World where
  files := { entries := [] }
  here := []
  home := "/h"
  reader := Config.readDocument
  script := [
    (.listVersions, [.items [.resource { name := some "v/1" }, .resource { name := some "v/2" },
      .resource { name := some "v/3" }]]),
    (.disableVersion, [.done, .failure (.status .notFound "v/2")])]

/-- The first two versions are tried, and the refusal of the second is raised. -/
theorem delete_of_refusingWorld :
    ∃ w', (delete ⟨0, { project := some "p" }⟩ "s" true).run.run refusingWorld =
        (.error (.service (.status .notFound "v/2")), w') ∧
      w'.calls = [.connected, .sent (.listVersions "projects/p/secrets/s" "state:ENABLED") none,
        .sent (.disableVersion (some "v/1")) none, .sent (.disableVersion (some "v/2")) none] ∧
      ∀ c ∈ w'.calls, c.method ≠ .deleteSecret := by
  let client : Client := ⟨0, { project := some "p" }⟩
  have hr : ((delete client "s" true).run.run refusingWorld).1 =
      .error (.service (.status .notFound "v/2")) := rfl
  have hcalls : ((delete client "s" true).run.run refusingWorld).2.calls = [.connected,
      .sent (.listVersions "projects/p/secrets/s" "state:ENABLED") none,
      .sent (.disableVersion (some "v/1")) none,
      .sent (.disableVersion (some "v/2")) none] := by decide +kernel
  have hopen : Reachable client.connection refusingWorld := .inr rfl
  obtain ⟨target, versions, r, w', -, hrun, -, -, -, -, hnever⟩ :=
    recoverable_delete_disables_in_order rfl (by decide) hopen "s"
  rw [hrun] at hr hcalls
  exact ⟨w', hr ▸ hrun, hcalls, fun c hc => (hnever c hc).resolve_left List.not_mem_nil⟩

end CloudSecrets.Service
