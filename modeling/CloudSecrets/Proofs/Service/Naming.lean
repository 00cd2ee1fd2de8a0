import CloudSecrets.Proofs.Service.Addressing
import CloudSecrets.Proofs.Service.Disabling

/-!
# Names that are fed back

A secret is called by its resource name or, in its own project, by its short name. A resource name
is told from a short one by how it begins, and the short name is what stands behind its last slash.
The two agree: the path of a secret is the path of itself in every context
(`secretPath_eq_self`), and its short name leads back to it in its project
(`secretPath_of_slashFree`, `shortName_append`). So what a list shows can be given to an inspection
or a deletion (`listed_names_address_their_secrets`).
-/

namespace CloudSecrets.Service

open CloudSecrets.Action

variable {c : Context} {client : Client} {p name target : String} {w : World}

/-! ## Names -/

/-- A resource name stands for itself in every context. -/
theorem secretPath_eq_self (h : "projects/".toList <+: name.toList) (c : Context) :
    secretPath c name = .ok name := by
  rw [secretPath, if_pos (List.isPrefixOf_iff_prefix.mpr h)]

/-- A name without a slash is a name in the project of the context. -/
theorem secretPath_of_slashFree (hc : c.project = some p) (hp : p ≠ "")
    (hn : '/' ∉ name.toList) :
    secretPath c name = .ok ("projects/" ++ p ++ "/secrets/" ++ name) := by
  have hslash : '/' ∈ "projects/".toList := by decide
  have hprefix : ¬"projects/".toList <+: name.toList := fun h => hn (h.subset hslash)
  rw [secretPath, if_neg (mt List.isPrefixOf_iff_prefix.mp hprefix), projectPath_of_project hc hp]
  rfl

/-- The short name is cut at the last slash, whatever stands before it. -/
theorem shortName_append {before : String} (h : before.toList.getLast? = some '/')
    (hn : '/' ∉ name.toList) : shortName (before ++ name) = name := by
  obtain ⟨init, hinit⟩ := List.getLast?_eq_some_iff.mp h
  have hall : ∀ d ∈ name.toList.reverse, (d != '/') = true := by
    intro d hd
    apply bne_iff_ne.mpr
    rintro rfl
    exact hn (List.mem_reverse.mp hd)
  unfold shortName
  rw [String.toList_append, List.reverse_append, List.takeWhile_append_of_pos hall, hinit,
    List.reverse_concat, List.takeWhile_cons_of_neg (by simp), List.append_nil,
    List.reverse_reverse, String.ofList_toList]

theorem shortName_path (hn : '/' ∉ name.toList) :
    shortName ("projects/" ++ p ++ "/secrets/" ++ name) = name := by
  apply shortName_append _ hn
  rw [String.toList_append, List.getLast?_append]
  rfl

/-- In a context with a project each name has a path. It is its own path in every context, and its
short name is the name again if that has no slash. -/
theorem secretPath_settled (hc : c.project = some p) (hp : p ≠ "") (name : String) :
    ∃ target, secretPath c name = .ok target ∧
      (∀ other, secretPath other target = .ok target) ∧
      ('/' ∉ name.toList → shortName target = name) := by
  obtain ⟨target, htarget⟩ := secretPath_of_project hc hp name
  refine ⟨target, htarget, secretPath_eq_self (secretPath_eq_ok htarget), fun hn => ?_⟩
  rw [secretPath_of_slashFree hc hp hn] at htarget
  cases htarget
  exact shortName_path hn

/-! ## Requests about a secret -/

/-- An operation that makes one request, and no call behind it, makes this one as soon as its
connection is open. -/
theorem calls_request {α : Type} (c : Context) (r : Request) {f : Option Answer → Action α}
    (hf : ∀ a v, ((f a).run.run v).2.calls = v.calls) {k : Nat} (h : Reachable k w) :
    ((connect k >>= fun _ => send c r >>= f).run.run w).2.calls =
      w.calls ++ (opening k w ++ [.sent r (timeoutOf c)]) := by
  obtain ⟨v, hconnect, hcalls, -, -⟩ := run_connect_of_reachable h
  have hsent : (v.calling (.sent r (timeoutOf c))).calls =
      w.calls ++ (opening k w ++ [.sent r (timeoutOf c)]) := by
    rw [← List.append_assoc, ← hcalls]
    rfl
  rw [run_bind_of_ok hconnect, run_bind, run_send, ← hsent]
  cases (v.script.next r.method).1.bind Answer.fault? with
  | some g => rfl
  | none => exact hf _ _

/-- Whether a client that is given a name asks the service about a certain resource. Once its
connection is open, an inspection and a deletion send the one request for this resource; a
recoverable deletion lists the versions of this resource and disables some. Where the connection
cannot be opened nothing is sent. -/
structure Addresses (client : Client) (name target : String) : Prop where
  inspected : ∀ w, Reachable client.connection w →
    ((inspect client name).run.run w).2.calls = w.calls ++ (opening client.connection w ++
      [.sent (.getSecret target) (timeoutOf client.context)])
  deleted : ∀ w, Reachable client.connection w →
    ((delete client name false).run.run w).2.calls = w.calls ++ (opening client.connection w ++
      [.sent (.deleteSecret target) (timeoutOf client.context)])
  recovered : ∀ w, Reachable client.connection w → ∃ versions : List Resource,
    ((delete client name true).run.run w).2.calls = w.calls ++ (opening client.connection w ++
      .sent (.listVersions target enabledFilter) (timeoutOf client.context) ::
        versions.map fun v => .sent (.disableVersion v.name) (timeoutOf client.context))
  refused : ∀ w, ¬Reachable client.connection w →
    ((inspect client name).run.run w).2.calls = w.calls ++ [.connected] ∧
      ∀ recover, ((delete client name recover).run.run w).2.calls = w.calls ++ [.connected]

/-- A client asks about the path of the name that it is given. -/
theorem addresses_of_secretPath (h : secretPath client.context name = .ok target) :
    Addresses client name target where
  inspected w hw := by
    rw [inspect, h]
    exact calls_request client.context (.getSecret target) (fun _ _ => by rw [run_ofExcept]) hw
  deleted w hw := by
    rw [delete, h]
    exact calls_request client.context (.deleteSecret target) (fun _ _ => rfl) hw
  recovered w hw := by
    obtain ⟨versions, r, w', hrun, hcalls, -⟩ := run_delete_of_reachable h hw
    rw [hrun]
    exact ⟨versions, hcalls⟩
  refused w hw := by
    obtain ⟨f, hconnect⟩ := run_connect_of_not_reachable hw
    constructor
    · rw [inspect, run_bind_of_error hconnect]
      rfl
    · intro recover
      rw [delete, h, path, run_bind_of_ok (run_ofExcept_ok _ _ _), run_bind_of_error hconnect]
      rfl

/-! ## Lists -/

theorem name_of_secretOf {r : Resource} {s : Secret} (h : secretOf r = .ok s) :
    s.name = shortName s.id := by
  rw [secretOf] at h
  split at h
  · cases h
  · cases h
    rfl

/-- Each item that a list gives has the short name of its resource. -/
theorem gives_collect (items : List Item) :
    Gives (fun secrets : List Secret => ∀ s ∈ secrets, s.name = shortName s.id)
      (collect items) := by
  induction items with
  | nil => exact Gives.pure nofun
  | cons item items ih =>
    refine Gives.bind fun r => ?_
    refine Gives.bind_of (Gives.ofExcept fun s => name_of_secretOf) fun s hs => ?_
    refine Gives.bind_of ih fun secrets hsecrets => Gives.pure fun t ht => ?_
    rcases List.mem_cons.mp ht with rfl | ht
    · exact hs
    · exact hsecrets t ht

theorem gives_list (client : Client) :
    Gives (fun secrets : List Secret => ∀ s ∈ secrets, s.name = shortName s.id) (list client) :=
  Gives.bind fun _ => Gives.bind fun _ => Gives.bind fun _ => gives_collect _

/-- A secret that is listed can be given back by its resource name, under any context, if that is how
a resource name begins. If it is that of a secret in a project, the name listed is its last part, and
that can be given back in this project. -/
theorem addresses_of_listed {w' : World} {secrets : List Secret}
    (hl : (list client).run.run w = (.ok secrets, w')) {s : Secret} (hs : s ∈ secrets) :
    ("projects/".toList <+: s.id.toList → ∀ other : Client, Addresses other s.id s.id) ∧
      ∀ project short, s.id = "projects/" ++ project ++ "/secrets/" ++ short →
        '/' ∉ short.toList → s.name = short ∧ ∀ other : Client,
          other.context.project = some project → project ≠ "" → Addresses other s.name s.id := by
  refine ⟨fun h other => addresses_of_secretPath (secretPath_eq_self h other.context), ?_⟩
  intro project short hid hshort
  have hname : s.name = short := by
    rw [gives_list client w secrets w' hl s hs, hid, shortName_path hshort]
  refine ⟨hname, fun other hproject hne => ?_⟩
  rw [hname, hid]
  exact addresses_of_secretPath (secretPath_of_slashFree hproject hne hshort)

/-- What is shown of a secret can be given back. In a context with a project each name has a path,
which is its own path in every context, and of which the short name is the name again if it has no
slash. So the resource name of a secret that is listed stands for this resource in every context;
and if it is that of a secret in a project, the name listed is its last part, which stands for the
same resource in that project. -/
theorem listed_names_address_their_secrets :
    (∀ (c : Context) (p name : String), c.project = some p → p ≠ "" →
      ∃ target, secretPath c name = .ok target ∧
        (∀ other, secretPath other target = .ok target) ∧
        ('/' ∉ name.toList → shortName target = name)) ∧
    ∀ (client : Client) (w w' : World) (secrets : List Secret),
      (list client).run.run w = (.ok secrets, w') → ∀ s ∈ secrets,
        ("projects/".toList <+: s.id.toList → ∀ other : Client, Addresses other s.id s.id) ∧
        ∀ project short, s.id = "projects/" ++ project ++ "/secrets/" ++ short →
          '/' ∉ short.toList → s.name = short ∧ ∀ other : Client,
            other.context.project = some project → project ≠ "" → Addresses other s.name s.id := by
  constructor
  · intro c p name hc hp
    exact secretPath_settled hc hp name
  · intro client w w' secrets hl s hs
    exact addresses_of_listed hl hs

/-- A process without a connection, whose service lists two secrets, one of another project. -/
def listingWorld : World where
  files := { entries := [] }
  here := []
  home := "/h"
  reader := Config.readDocument
  script := [(.listSecrets, [.items [.resource { name := some "projects/p/secrets/db" },
    .resource { name := some "projects/q/secrets/projects" }]])]

/-- The second secret can be called by its resource name without any project, and in its own
project by the name that is listed. -/
theorem addressed_of_listingWorld :
    let own : Context := { project := some "p" }
    let foreign := "projects/q/secrets/projects"
    ∃ secrets w', (list ⟨0, own⟩).run.run listingWorld = (.ok secrets, w') ∧
      secrets.map (·.id) = ["projects/p/secrets/db", foreign] ∧
      secretPath own "db" = .ok "projects/p/secrets/db" ∧
      secretPath {} "projects/p/secrets/db" = .ok "projects/p/secrets/db" ∧
      Addresses ⟨1, {}⟩ foreign foreign ∧
      Addresses ⟨2, { project := some "q" }⟩ "projects" foreign := by
  intro own foreign
  let secrets : List Secret := [{ id := "projects/p/secrets/db", name := "db" },
    { id := foreign, name := "projects" }]
  have hlist : ((list ⟨0, own⟩).run.run listingWorld).1 = .ok secrets := rfl
  have hdb : secretPath own "db" = .ok "projects/p/secrets/db" := rfl
  obtain ⟨hpaths, hsecrets⟩ := listed_names_address_their_secrets
  obtain ⟨target, htarget, hsame, -⟩ := hpaths own "p" "db" rfl (by decide)
  rw [hdb] at htarget
  cases htarget
  obtain ⟨hid, hshort⟩ := hsecrets ⟨0, own⟩ listingWorld _ secrets (Prod.ext hlist rfl)
    { id := foreign, name := "projects" } (List.mem_cons_of_mem _ List.mem_cons_self)
  obtain ⟨-, hname⟩ := hshort "q" "projects" rfl (by decide)
  exact ⟨secrets, _, Prod.ext hlist rfl, rfl, hdb, hsame {}, hid (by decide) _,
    hname _ rfl (by decide)⟩

end CloudSecrets.Service
