import CloudSecrets.Proofs.CommandLine.Perform
import CloudSecrets.Proofs.CommandLine.Reading
import CloudSecrets.Proofs.Label
import CloudSecrets.Proofs.Secret

/-!
# Creating a secret

From the words of the command line to the stored credentials: what is given as `--flag=value` is
sent as it was given, and the credentials are read back from the payload.
-/

namespace CloudSecrets

open CloudSecrets.Action

namespace CommandLine

/-- The words that create a secret in a project, with every setting attached to its flag. -/
def createWords (project name username password description : String) (labels : Labels) :
    List String :=
  ("--project-id=" ++ project) :: "create" :: ("--username=" ++ username) ::
    ("--password=" ++ password) :: ("--description=" ++ description) ::
      (labels.map (fun l => "--label=" ++ l.1 ++ "=" ++ l.2) ++ ["--", name])

/-- The settings behind the command in them. -/
def createSettings (username password description : String) (labels : Labels) :
    List (Flag × String) :=
  [(.username, username), (.password, password), (.description, description)] ++
    labels.map fun l => (.label, Labels.entry l)

theorem createWords_eq (project name username password description : String) (labels : Labels) :
    createWords project name username password description labels =
      givenAll [(.project, project)] ++ "create" ::
        (givenAll (createSettings username password description labels) ++ ["--", name]) := by
  have hlabel (l : String × String) :
      "--label=" ++ l.1 ++ "=" ++ l.2 = Flag.label.given (Labels.entry l) := by
    rw [Flag.given, Labels.entry, ← String.append_assoc, ← String.append_assoc]
    rfl
  simp only [createWords, createSettings, givenAll, List.map_append, List.map_map, hlabel]
  rfl

theorem ofAttached_of_ne {s : String} (h : s ≠ "--") : Supplied.ofAttached s = .text s := by
  rw [Supplied.ofAttached, beq_eq_false_iff_ne.mpr h]
  rfl

theorem entry_ne_separator (l : String × String) : Labels.entry l ≠ "--" :=
  ne_separator_of_mem
    (by rw [Labels.toList_entry]; exact List.mem_append_right _ List.mem_cons_self)

/-- Labels add up. -/
theorem assignAll_labels (s : Settings) (labels : Labels) :
    s.assignAll (labels.map fun l => (.label, Labels.entry l)) =
      .ok { s with labels := s.labels ++ labels.map fun l => .text (Labels.entry l) } := by
  induction labels generalizing s with
  | nil =>
    rw [List.map_nil, List.map_nil, List.append_nil]
    rfl
  | cons l ls ih =>
    rw [List.map_cons, Settings.assignAll, List.foldlM_cons, Settings.assign,
      ofAttached_of_ne (entry_ne_separator l)]
    refine (ih _).trans ?_
    rw [List.map_cons, List.append_assoc, List.singleton_append]

/-- The words that create a secret are read as they are meant. -/
theorem read_createWords {project username password description : String}
    (hproject : project ≠ "--") (husername : username ≠ "--") (hpassword : password ≠ "--")
    (hdescription : description ≠ "--") (name : String) (labels : Labels) :
    read (createWords project name username password description labels) =
      .ok ⟨0, ⟨some project, none⟩, .create name (.text username) (.text password)
        (.text description) (labels.map fun l => .text (Labels.entry l))⟩ := by
  have hprogram : ({} : Settings).assignAll [(.project, project)] =
      .ok { project := some project } := by
    rw [Settings.assignAll, List.foldlM_cons, Settings.assign, ofAttached_of_ne hproject]
    rfl
  have hcreate : ({ project := some project } : Settings).assignAll
      (createSettings username password description labels) = .ok
        { project := some project
          username := .text username
          password := .text password
          description := .text description
          labels := labels.map fun l => .text (Labels.entry l) } := by
    simp only [createSettings, List.cons_append, List.nil_append, Settings.assignAll,
      List.foldlM_cons, Settings.assign, ofAttached_of_ne husername, ofAttached_of_ne hpassword,
      ofAttached_of_ne hdescription]
    exact assignAll_labels _ labels
  have hflags : ∀ f ∈ createSettings username password description labels,
      f.1 ∈ Command.create.flags ∧ f.1.takesValue = true := by
    intro f hf
    rcases List.mem_append.mp hf with hf | hf
    · simp only [List.mem_cons, List.not_mem_nil, or_false] at hf
      rcases hf with rfl | rfl | rfl
      · exact ⟨show Flag.username ∈ Command.create.flags by decide, rfl⟩
      · exact ⟨show Flag.password ∈ Command.create.flags by decide, rfl⟩
      · exact ⟨show Flag.description ∈ Command.create.flags by decide, rfl⟩
    · obtain ⟨l, -, rfl⟩ := List.mem_map.mp hf
      exact ⟨show Flag.label ∈ Command.create.flags by decide, rfl⟩
  rw [createWords_eq]
  refine read_given (fun g hg => ?_) hprogram (by decide) rfl rfl hflags hcreate name
  rw [List.mem_singleton.mp hg]
  exact ⟨show Flag.project ∈ Command.program.flags by decide, rfl⟩

/-- Where no configuration is found and the service does as it is asked, a new secret is sent to its
project, and its payload is stored below the name that it gets. -/
theorem run_create_of_silent {w : World} {args : List String} {verbosity : Nat} {context : Context}
    {name project usual : String} {username password description : Supplied}
    {entries : List Supplied} {labels : Labels} (hw : w.Fresh) (hs : w.script.Silent)
    (hl : Config.load.outcome w = .error (.config (.notFound usual)))
    (hread : read args =
      .ok ⟨verbosity, context, .create name username password description entries⟩)
    (hp : Client.named? context.project w = some project) (ht : context.timeout = none)
    (he : Labels.parse entries = .ok labels) :
    let ending := run w args
    let parent := "projects/" ++ project
    let resource := parent ++ "/secrets/" ++ name
    ending.exit = 0 ∧ ending.output = resource ++ "\n" ∧
      ending.world.calls = [.connected, .sent (.createSecret parent name labels description) none,
        .sent (.addVersion (some resource)
          (Secret.payload { name, labels, description, username, password })) none] := by
  intro ending parent resource
  let client : Client := ⟨w.nextConnection, ⟨some project, none⟩⟩
  let secret : Secret := { name, labels, description, username, password }
  obtain ⟨ls, hnew⟩ := Client.run_new_of_notFound hw.config hl hp ht
  have hk : client.connection ∉
      (World.logging { w with nextConnection := w.nextConnection + 1 } ls).connected := by
    show client.connection ∉ w.connected
    rw [hw.connected]
    exact List.not_mem_nil
  obtain ⟨ms, hcreate⟩ := Service.run_create_of_silent (by exact hs) hk rfl
    (Client.ne_empty_of_named? hp) secret
  have hop : Verb.operation? (.create name username password description entries) =
      some fun client => do
        let created ← Service.create client secret
        return Service.shownName created ++ "\n" := by
    rw [Verb.operation?, he]
  have hending : ending = _ := run_of_operation_ok hread hop hnew (run_bind_of_ok hcreate _)
  refine ⟨congrArg Ending.exit hending, (congrArg Ending.output hending).trans ?_,
    (congrArg (fun e => e.world.calls) hending).trans ?_⟩
  · show w.output ++ (resource ++ "\n") = resource ++ "\n"
    rw [hw.output, String.empty_append]
  · show w.calls ++ _ = _
    rw [hw.calls]
    rfl

/-- Without a configuration and with a service that does as it is asked, what the words of a command
line give is sent as it was given: first the secret, then its credentials. -/
theorem run_createWords {w : World} {project username password description : String}
    {labels : Labels} (hw : w.Fresh) (hs : w.script.Silent) (ha : Config.Absent w)
    (hne : project ≠ "") (hproject : project ≠ "--") (husername : username ≠ "--")
    (hpassword : password ≠ "--") (hdescription : description ≠ "--")
    (hl : ∀ l ∈ labels, Labels.Writable l.1) (hn : (labels.map Prod.fst).Nodup) (name : String) :
    let ending := run w (createWords project name username password description labels)
    let parent := "projects/" ++ project
    let resource := parent ++ "/secrets/" ++ name
    ending.exit = 0 ∧ ending.output = resource ++ "\n" ∧
      ∃ asked stored payload,
        ending.world.calls = [.connected, .sent asked none, .sent stored none] ∧
        asked.method = .createSecret ∧
        asked.body = .object [
          ("parent", .text parent),
          ("secret_id", .text name),
          ("secret", .object [
            ("replication", .object [("automatic", .object [])]),
            ("labels", .object (labels.map fun l => (l.1, .text l.2))),
            ("annotations", .object [("description", .text description)])])] ∧
        stored.method = .addVersion ∧
        stored.body = .object [
          ("parent", .text resource), ("payload", .object [("data", .text payload)])] ∧
        Json.parse payload.toList =
          .ok (.object [("username", .text username), ("password", .text password)]) := by
  intro ending parent resource
  let client : Client := ⟨w.nextConnection, ⟨some project, none⟩⟩
  let secret : Secret :=
    { name, labels
      description := .text description
      username := .text username
      password := .text password }
  have hread := read_createWords hproject husername hpassword hdescription name labels
  have hnamed : Client.named? (some project) w = some project := by
    rw [Client.named?, Client.nonEmpty?_eq_some_iff.mpr ⟨rfl, hne⟩, Option.some_or]
  obtain ⟨ls, hnew⟩ := Client.run_new_of_absent (c := ⟨some project, none⟩) hw.config ha hnamed rfl
  have hk : client.connection ∉
      (World.logging { w with nextConnection := w.nextConnection + 1 } ls).connected := by
    show client.connection ∉ w.connected
    rw [hw.connected]
    exact List.not_mem_nil
  obtain ⟨ms, hcreate⟩ := Service.run_create_of_silent (by exact hs) hk rfl hne secret
  have hop : Verb.operation? (.create name (.text username) (.text password) (.text description)
      (labels.map fun l => .text (Labels.entry l))) = some fun client => do
        let created ← Service.create client secret
        return Service.shownName created ++ "\n" := by
    rw [Verb.operation?, Labels.parse_entries hl hn]
  have hending := run_of_operation_ok hread hop hnew (run_bind_of_ok hcreate _)
  have hcalls : ending.world.calls = _ := congrArg (fun e => e.world.calls) hending
  have hout : ending.output = _ := congrArg Ending.output hending
  refine ⟨congrArg Ending.exit hending, hout.trans ?_, .createSecret parent name labels
    (.text description), .addVersion (some resource) secret.payload, secret.payload,
    hcalls.trans ?_, rfl, rfl, rfl, rfl, Secret.parse_payload rfl rfl⟩
  · show w.output ++ (resource ++ "\n") = resource ++ "\n"
    rw [hw.output, String.empty_append]
  · show w.calls ++ _ = _
    rw [hw.calls]
    rfl

/-- A process without files, whose service does as it is asked. -/
def quietWorld : World where
  files := { entries := [] }
  here := []
  home := "/h"
  reader := Config.readDocument

/-- Texts that look like flags or hold equals signs are values like any other. -/
theorem run_createWords_dashed :
    (run quietWorld ["--project-id=-p", "create", "--username=--help", "--password==",
        "--description=", "--label=k=a=b", "--", "--recover"]).exit = 0 ∧
      (run quietWorld ["--project-id=-p", "create", "--username=--help", "--password==",
        "--description=", "--label=k=a=b", "--", "--recover"]).output =
          "projects/-p/secrets/--recover\n" := by
  have hw : quietWorld.Fresh := ⟨rfl, rfl, rfl, rfl, rfl⟩
  have hs : quietWorld.script.Silent := by
    intro m queue hq
    rw [quietWorld, Entries.get?_nil] at hq
    cases hq
  have ha : Config.Absent quietWorld := ⟨by decide +kernel, by decide +kernel⟩
  have hl : ∀ l ∈ [("k", "a=b")], Labels.Writable l.1 := by
    intro l hl
    rw [List.mem_singleton.mp hl]
    exact ⟨by decide, by decide, by decide +kernel⟩
  have hwords : createWords "-p" "--recover" "--help" "=" "" [("k", "a=b")] =
      ["--project-id=-p", "create", "--username=--help", "--password==", "--description=",
        "--label=k=a=b", "--", "--recover"] := rfl
  obtain ⟨hexit, hout, -⟩ := run_createWords hw hs ha (show "-p" ≠ "" by decide)
    (by decide) (show "--help" ≠ "--" by decide) (show "=" ≠ "--" by decide)
    (show "" ≠ "--" by decide) hl (by decide) "--recover"
  rw [hwords] at hexit hout
  exact ⟨hexit, hout⟩

end CommandLine

end CloudSecrets
