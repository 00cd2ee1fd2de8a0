import CloudSecrets.Proofs.CommandLine.Create

/-!
# Giving a password

A password is a word behind its flag, or is attached to it. As a word of its own it is stored as it
was given, or the command line is refused, as a word that looks like a flag is no value. Attached it
is never refused, and stored as it was given unless it is the separator: that supplies nothing, and
an empty array is stored in place of the text.
-/

namespace CloudSecrets.CommandLine

open CloudSecrets.Action

/-! ## Reading -/

/-- The program chooses to create a secret and hands on the words behind that. -/
theorem takeAll_create {args : List String} {ws : List Word}
    (h : Command.program.words args = .ok ws) :
    Command.program.takeAll {} ("create" :: args) =
      .ok { settings := {}, chosen := some (.create, args) } := by
  show Command.program.takeAll {} (givenAll [] ++ "create" :: args) = _
  exact Command.takeAll_group rfl (fun g hg => absurd hg List.not_mem_nil) rfl (by decide)
    (by decide) h

section Detached

variable {spelling : String} {short : Bool} {name : String}

/-- A flag for the password behind the name of a secret, and the word behind that. -/
theorem words_detached (hf : Command.create.wordOf spelling =
      .ok (.flag spelling .password short none))
    (hs : spelling ≠ "--") (hname : name.toList.head? ≠ some '-') (password : String) :
    Command.create.words [name, spelling, password] = (Command.create.words [password]).map
      fun ws => .operand name :: .flag spelling .password short none :: ws := by
  have hspelling := Command.words_append (.cons ⟨hs, hf⟩ .nil) [password]
  rw [Command.words_operand _ hname]
  refine (congrArg _ hspelling).trans ?_
  cases Command.create.words [password] <;> rfl

/-- Creating a secret takes an operand behind the flag as the password, and nothing else. -/
theorem takeAll_detached (hf : Command.create.wordOf spelling =
      .ok (.flag spelling .password short none))
    (hs : spelling ≠ "--") (hname : name.toList.head? ≠ some '-') (password : String) :
    (Command.create.words [password] = .ok [.operand password] ∧
      Command.create.takeAll {} [name, spelling, password] =
        .ok { settings := { password := .text password }, operand := some name }) ∨
    (Command.create.words [password] ≠ .ok [.operand password] ∧
      ∃ m, Command.create.takeAll {} [name, spelling, password] = .error (.misuse .create m)) := by
  have hwords := words_detached hf hs hname password
  have hname (ws : List Word) : Command.create.take { settings := {} }
      (.operand name :: .flag spelling .password short none :: ws) =
        Command.create.take { settings := {}, operand := some name }
          (.flag spelling .password short none :: ws) := rfl
  cases hp : Command.create.words [password] with
  | error m =>
    refine .inr ⟨nofun, m, ?_⟩
    rw [Command.takeAll, hwords, hp]
    rfl
  | ok ws =>
    rw [hp] at hwords
    by_cases hw : ∃ value us, ws = .operand value :: us
    · -- Looking at a word keeps its text, so the operand is the password itself.
      obtain ⟨value, us, rfl⟩ := hw
      have htext := Command.map_text_words hp
      rw [List.map_cons] at htext
      obtain ⟨rfl, hus⟩ := List.cons.inj htext
      rw [List.map_eq_nil_iff] at hus
      subst hus
      refine .inl ⟨rfl, ?_⟩
      rw [Command.takeAll, hwords]
      simp only [Except.map, hname, Command.take_detached (show Flag.password.takesValue = true
        from rfl)]
      rfl
    · have hne : ∀ value us, ws ≠ .operand value :: us := fun value us h => hw ⟨value, us, h⟩
      refine .inr ⟨fun h => hne password [] (Except.ok.inj h), .valueMissing .password, ?_⟩
      rw [Command.takeAll, hwords]
      simp only [Except.map, hname, Command.take_detached_of_ne (show Flag.password.takesValue =
        true from rfl) _ _ _ hne]
      rfl

/-- A password behind its flag is read as it was given, or the command line is misused; that can
only be if it starts with a dash. -/
theorem read_detached (hf : Command.create.wordOf spelling =
      .ok (.flag spelling .password short none))
    (hp : Command.program.wordOf spelling = .ok (.unknown spelling))
    (hs : spelling ≠ "--") (hname : name.toList.head? ≠ some '-') (password : String) :
    (read ["create", name, spelling, password] =
      .ok ⟨0, ⟨none, none⟩, .create name (.text "") (.text password) (.text "") []⟩) ∨
    (password.toList.head? = some '-' ∧
      ∃ c m, read ["create", name, spelling, password] = .error (.misuse c m)) := by
  have hrest : Command.program.words [name, spelling, password] =
      (Command.program.words [password]).map
        fun ws => .operand name :: .unknown spelling :: ws := by
    have hspelling := Command.words_append (.cons ⟨hs, hp⟩ .nil) [password]
    rw [Command.words_operand _ hname]
    refine (congrArg _ hspelling).trans ?_
    cases Command.program.words [password] <;> rfl
  have hoperand (c : Command) (h : password.toList.head? ≠ some '-') :
      c.words [password] = .ok [.operand password] := by
    rw [Command.words_operand _ h]
    rfl
  cases hw : Command.program.words [password] with
  | error m =>
    refine .inr ⟨?_, .program, m, read_of_words ?_⟩
    · by_contra h
      rw [hoperand _ h] at hw
      cases hw
    · rw [Command.words_operand _ (by decide), hrest, hw]
      rfl
  | ok ws =>
    rw [hw] at hrest
    rcases takeAll_detached hf hs hname password with ⟨-, h⟩ | ⟨hne, m, h⟩
    · exact .inl (read_of_taken (takeAll_create hrest) h)
    · refine .inr ⟨?_, .create, m, read_of_stop (takeAll_create hrest) h⟩
      by_contra hd
      exact hne (hoperand _ hd)

end Detached

/-- A password that is attached to its flag is read, but the separator supplies nothing. -/
theorem read_attached {name : String} (hhead : name.toList.head? ≠ some '-') (password : String) :
    read ["create", name, Flag.password.given password] =
      .ok ⟨0, ⟨none, none⟩,
        .create name (.text "") (Supplied.ofAttached password) (.text "") []⟩ := by
  have hflags : ∀ f ∈ [(Flag.password, password)],
      f.1 ∈ Command.create.flags ∧ f.1.takesValue = true := by
    intro f hf
    rw [List.mem_singleton.mp hf]
    exact ⟨show Flag.password ∈ Command.create.flags by decide, rfl⟩
  have hend : Command.program.words [] = .ok [] := rfl
  obtain ⟨us, hus⟩ := Command.program.exists_words_given [(.password, password)] hend
  have hprogram : Command.program.words [name, Flag.password.given password] =
      .ok (.operand name :: us) := by
    rw [Command.words_operand _ hhead]
    exact congrArg _ hus
  have hgiven : Command.create.words (givenAll [(.password, password)] ++ []) =
      .ok (givenWords [(.password, password)] ++ []) :=
    Command.words_given (fun f hf => (hflags f hf).1) []
  have hwords : Command.create.words [name, Flag.password.given password] =
      .ok (.operand name :: (givenWords [(.password, password)] ++ [])) := by
    rw [Command.words_operand _ hhead]
    exact congrArg _ hgiven
  have htake : Command.create.take { settings := {}, operand := some name }
      (givenWords [(.password, password)] ++ []) =
        Command.create.take
          { settings := { password := Supplied.ofAttached password }, operand := some name } [] :=
    Command.take_givenWords (fun f hf => (hflags f hf).2) rfl []
  have hname : Command.create.take { settings := {} }
      (.operand name :: (givenWords [(.password, password)] ++ [])) =
        Command.create.take { settings := {}, operand := some name }
          (givenWords [(.password, password)] ++ []) := rfl
  have hleaf : Command.create.takeAll {} [name, Flag.password.given password] =
      .ok { settings := { password := Supplied.ofAttached password }, operand := some name } := by
    rw [Command.takeAll, hwords]
    simp only [hname, htake]
    rfl
  exact read_of_taken (takeAll_create hprogram) hleaf

/-! ## Runs -/

/-- The ways to give a password behind the name of a new secret. -/
def passwordWords (name password : String) : List (List String) :=
  [["create", name, "-p", password], ["create", name, "--password", password],
    ["create", name, "--password=" ++ password]]

/-- A password that is given is read as it was given, except for the separator where it is attached
to the flag; or the command line is misused, but not if the password is attached or does not start
with a dash. -/
theorem read_passwordWords {name : String} (hname : name.toList.head? ≠ some '-')
    (password : String) {args : List String} (h : args ∈ passwordWords name password) :
    (∃ value, read args =
        .ok ⟨0, ⟨none, none⟩, .create name (.text "") value (.text "") []⟩ ∧
      value = if args = ["create", name, "--password=--"] then .nothing else .text password) ∨
    (password.toList.head? = some '-' ∧ args ≠ ["create", name, "--password=" ++ password] ∧
      ∃ c m, read args = .error (.misuse c m)) := by
  -- A detached password makes four words, so it is not what the exceptions are about.
  have hdetached (spelling attached : String) :
      ["create", name, spelling, password] ≠ ["create", name, attached] := by
    simp
  have happend : "--password=" ++ password = "--password=" ++ "--" ↔ password = "--" :=
    String.append_right_inj _
  have hattached : ["create", name, "--password=" ++ password] =
      ["create", name, "--password=--"] ↔ password = "--" := by
    rw [← happend, List.cons.injEq, List.cons.injEq, List.cons.injEq]
    simp only [true_and, and_true]
    exact Iff.rfl
  have hshort : Command.create.wordOf "-p" = .ok (.flag "-p" .password true none) := rfl
  have hlong : Command.create.wordOf "--password" =
      .ok (.flag "--password" .password false none) := rfl
  simp only [passwordWords, List.mem_cons, List.not_mem_nil, or_false] at h
  rcases h with rfl | rfl | rfl
  · rcases read_detached hshort rfl (by decide) hname password with hr | ⟨hd, hr⟩
    · exact .inl ⟨_, hr, by rw [if_neg (hdetached _ _)]⟩
    · exact .inr ⟨hd, hdetached _ _, hr⟩
  · rcases read_detached hlong rfl (by decide) hname password with hr | ⟨hd, hr⟩
    · exact .inl ⟨_, hr, by rw [if_neg (hdetached _ _)]⟩
    · exact .inr ⟨hd, hdetached _ _, hr⟩
  · refine .inl ⟨_, read_attached hname password, ?_⟩
    rw [Supplied.ofAttached]
    by_cases hp : password = "--"
    · rw [if_pos (hattached.mpr hp), if_pos (beq_iff_eq.mpr hp)]
    · rw [if_neg (mt hattached.mp hp), if_neg (mt beq_iff_eq.mp hp)]

/-- Where no configuration is found and the service does as it is asked, a password is stored as it
was given, or the command line is misused and nothing is sent. The exception is the separator where
it is attached to the flag: an empty array is stored for it. -/
theorem run_passwordWords {w : World} {project usual : String} (hw : w.Fresh)
    (hs : w.script.Silent)
    (hp : Entries.get? Client.projectVariable w.environment = some project) (hne : project ≠ "")
    (hl : Config.load.outcome w = .error (.config (.notFound usual))) {name : String}
    (hname : name.toList.head? ≠ some '-') (password : String) :
    ∀ args ∈ passwordWords name password,
      let ending := run w args
      let resource := "projects/" ++ project ++ "/secrets/" ++ name
      (ending.exit = 2 ∧ ending.world.calls = [] ∧ password.toList.head? = some '-' ∧
          args ≠ ["create", name, "--password=" ++ password]) ∨
        (ending.exit = 0 ∧ ∃ asked stored payload value,
          ending.world.calls = [.connected, .sent asked none, .sent stored none] ∧
          asked.method = .createSecret ∧
          stored.method = .addVersion ∧
          stored.body = .object [
            ("parent", .text resource), ("payload", .object [("data", .text payload)])] ∧
          Json.parse payload.toList =
            .ok (.object [("username", .text ""), ("password", value)]) ∧
          value = if args = ["create", name, "--password=--"] then .array []
            else .text password) := by
  intro args hargs ending resource
  rcases read_passwordWords hname password hargs with ⟨value, hr, hv⟩ | ⟨hd, ha, c, m, hr⟩
  · have hnamed : Client.named? none w = some project := by
      rw [Client.named?, hp, Client.nonEmpty?_eq_some_iff.mpr ⟨rfl, hne⟩]
      rfl
    obtain ⟨hexit, -, hcalls⟩ := run_create_of_silent hw hs hl hr hnamed rfl rfl
    refine .inr ⟨hexit, _, _, _, value.toJson, hcalls, rfl, rfl, rfl, Secret.parse_payload_eq _, ?_⟩
    rw [hv]
    split <;> rfl
  · have hending : ending = Stop.ending w (.misuse c m) := by
      rw [show ending = run w args from rfl, run, hr]
    refine .inl ⟨congrArg Ending.exit hending, ?_, hd, ha⟩
    rw [hending]
    exact hw.calls

/-- A process without files whose environment names a project. -/
def projectWorld : World := { quietWorld with environment := [(Client.projectVariable, "p")] }

/-- Whether a run stores a password below the name of a secret. -/
def Stores (e : Ending) (resource : String) (password : Json) : Prop :=
  ∃ stored payload, .sent stored none ∈ e.world.calls ∧
    stored.body = .object [
      ("parent", .text resource), ("payload", .object [("data", .text payload)])] ∧
    Json.parse payload.toList = .ok (.object [("username", .text ""), ("password", password)])

/-- A negative number behind the flag is stored as it is, and an empty array for the separator that
is attached to it. -/
theorem run_passwordWords_dashed :
    Stores (run projectWorld ["create", "n", "-p", "-1"]) "projects/p/secrets/n" (.text "-1") ∧
      Stores (run projectWorld ["create", "n", "--password=--"]) "projects/p/secrets/n"
        (.array []) := by
  have hw : projectWorld.Fresh := ⟨rfl, rfl, rfl, rfl, rfl⟩
  have hs : projectWorld.script.Silent := by
    intro m queue hq
    rw [projectWorld, quietWorld, Entries.get?_nil] at hq
    cases hq
  have ha : Config.Absent projectWorld := ⟨by decide +kernel, by decide +kernel⟩
  have hl := Config.outcome_load_of_absent ha
  have hp : Entries.get? Client.projectVariable projectWorld.environment = some "p" := rfl
  have hname : "n".toList.head? ≠ some '-' := by decide
  have hexit : (run projectWorld ["create", "n", "-p", "-1"]).exit = 0 := by decide +kernel
  constructor
  · rcases run_passwordWords hw hs hp (by decide) hl hname "-1" _ (List.mem_cons_self) with
      ⟨h, -⟩ | ⟨-, asked, stored, payload, value, hcalls, -, -, hbody, hparse, hvalue⟩
    · rw [hexit] at h
      cases h
    · rw [if_neg (by decide)] at hvalue
      subst hvalue
      refine ⟨stored, payload, ?_, hbody, hparse⟩
      rw [hcalls]
      simp
  · rcases run_passwordWords hw hs hp (by decide) hl hname "--"
        ["create", "n", "--password=--"] (by decide) with
      ⟨-, -, -, h⟩ | ⟨-, asked, stored, payload, value, hcalls, -, -, hbody, hparse, hvalue⟩
    · exact absurd rfl h
    · rw [if_pos rfl] at hvalue
      subst hvalue
      refine ⟨stored, payload, ?_, hbody, hparse⟩
      rw [hcalls]
      simp

end CloudSecrets.CommandLine
