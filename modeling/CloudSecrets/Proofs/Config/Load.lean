import CloudSecrets.Config.Load
import CloudSecrets.Proofs.Action

/-!
# Reading the configuration

Finding, reading and checking the configuration only looks around, so `load` has an outcome that the
view of the world decides. `check_eq_ok_iff` says which values are accepted, section by section;
`Accepted.kind_account` is what later proofs need of them: the account of an accepted service
account is a path or the number of a descriptor.
-/

namespace CloudSecrets

open CloudSecrets.Action
open Yaml (Value)

/-! ## Only looking around -/

theorem Action.looks_pathExists (path : String) : Looks (pathExists path) :=
  Looks.get_bind (fun v w h => by rw [h.files, h.here]) fun _ => Looks.ofExcept _ _

namespace Preferences

theorem looks_ignore (path why : String) : Looks (ignore path why) :=
  (Looks.log _ _).bind fun _ => Looks.pure _

theorem looks_read : Looks read := by
  refine Looks.get_bind (fun v w h => by rw [h.home]) fun w => ?_
  refine (looks_pathExists _).bind fun found => ?_
  cases found with
  | false => exact Looks.pure _
  | true =>
    refine Looks.get_bind (fun v w h => by rw [h.files, h.here]) fun w => ?_
    split
    · exact looks_ignore _ _
    · split
      · exact Looks.stop _
      · split
        · exact Looks.pure _
        · exact (Looks.log _ _).bind fun _ => Looks.pure _
        · exact Looks.stop _
        · exact looks_ignore _ _

theorem looks_value? (key : String) : Looks (value? key) :=
  looks_read.bind fun _ => Looks.pure _

end Preferences

namespace Config

theorem looks_pathOf (j : Json) : Looks (pathOf j) := by
  cases j
  case text s => exact Looks.pure _
  all_goals exact Looks.stop _

theorem looks_preferred : Looks preferred := by
  refine (Preferences.looks_value? _).bind fun j => ?_
  cases j with
  | none => exact Looks.pure _
  | some j =>
    dsimp only
    split
    · exact (looks_pathOf j).map _
    · exact Looks.pure _

theorem looks_usual : Looks usual :=
  Looks.get_bind (fun v w h => by rw [h.home]) fun _ => Looks.pure _

theorem looks_usualIfPresent : Looks usualIfPresent := by
  refine looks_usual.bind fun p => (looks_pathExists _).bind fun found => ?_
  cases found with
  | false => exact Looks.stop _
  | true => exact (Looks.log _ _).bind fun _ => Looks.pure _

theorem looks_place : Looks place := by
  refine looks_preferred.bind fun p => ?_
  cases p with
  | none => exact looks_usualIfPresent
  | some p =>
    refine (looks_pathExists _).bind fun found => ?_
    cases found with
    | false => exact (Looks.log _ _).bind fun _ => looks_usualIfPresent
    | true => exact (Looks.log _ _).bind fun _ => Looks.pure _

theorem looks_readFile (reader : Reader) (path : String) : Looks (readFile reader path) := by
  refine Looks.get_bind (fun v w h => by rw [h.files, h.here]) fun w => ?_
  split
  · exact Looks.stop _
  · exact Looks.ofExcept _ _

/-- What loading does with a value that was read from a path. -/
def accept (path : String) (v : Value) : Action Value := do
  let w ← get
  ofExcept id (check w.files w.here path v)
  log .info s!"Configuration loaded successfully from {path}"
  let t ← ofExcept id (shown (authenticationType v))
  log .debug s!"Using authentication type: {t}"
  let p ← ofExcept id (shown (project v))
  log .debug s!"Using project ID: {p}"
  return v

theorem loadWith_eq (reader : Reader) :
    loadWith reader = place >>= fun path => readFile reader path >>= accept path := rfl

theorem looks_accept (path : String) (v : Value) : Looks (accept path v) := by
  refine Looks.get_bind (fun v w h => by rw [h.files, h.here]) fun w => ?_
  refine (Looks.ofExcept _ _).bind fun _ => (Looks.log _ _).bind fun _ => ?_
  refine (Looks.ofExcept _ _).bind fun _ => (Looks.log _ _).bind fun _ => ?_
  exact (Looks.ofExcept _ _).bind fun _ => (Looks.log _ _).bind fun _ => Looks.pure _

theorem looks_loadWith (reader : Reader) : Looks (loadWith reader) :=
  looks_place.bind fun path => (looks_readFile reader path).bind (looks_accept path)

theorem looks_load : Looks load :=
  Looks.get_bind (fun v w h => by rw [h.reader]) fun _ => looks_loadWith _

/-! ## Accepted values -/

/-- A value is the number of a descriptor that is open on a file. -/
inductive NumbersFile (files : FileTree) : Value → Prop where
  | integer {n : Int} (hl : descriptorRange.1 ≤ n) (hu : n ≤ descriptorRange.2)
    (h : Entries.get? n files.descriptors = some true) : NumbersFile files (.integer n)
  | bool {b : Bool} (h : Entries.get? (if b then 1 else 0) files.descriptors = some true) :
    NumbersFile files (.bool b)

theorem numbersFile_integer_iff {files : FileTree} {n : Int} :
    NumbersFile files (.integer n) ↔ descriptorRange.1 ≤ n ∧ n ≤ descriptorRange.2 ∧
      Entries.get? n files.descriptors = some true := by
  constructor
  · rintro ⟨hl, hu, h⟩
    exact ⟨hl, hu, h⟩
  · rintro ⟨hl, hu, h⟩
    exact .integer hl hu h

theorem numbersFile_bool_iff {files : FileTree} {b : Bool} :
    NumbersFile files (.bool b) ↔
      Entries.get? (if b then 1 else 0) files.descriptors = some true := by
  constructor
  · intro h
    cases h with
    | bool h => exact h
  · exact .bool

/-- What leads to a file is a text, octets, or the number of a descriptor. -/
theorem entryAt_eq_file_iff {files : FileTree} {here : Location} {v : Value} :
    entryAt files here v = .ok (some true) ↔
      (∃ s, v = .text s ∧ files.isFile here s = true) ∨
        (∃ bs cs, v = .octets bs ∧ Utf8.decode bs = .ok cs ∧
          files.isFile here (String.ofList cs) = true) ∨
        NumbersFile files v := by
  have path (s : String) : (if files.exists? here s then some (files.isFile here s) else none)
      = some true ↔ files.isFile here s = true := by
    constructor
    · intro h
      split at h
      · exact Option.some.inj h
      · cases h
    · intro h
      rw [if_pos (FileTree.exists?_of_isFile h), h]
  have none_of {v : Value} (hi : ∀ n, v ≠ .integer n) (hb : ∀ b, v ≠ .bool b) :
      ¬NumbersFile files v := by
    intro h
    cases h with
    | integer => exact hi _ rfl
    | bool => exact hb _ rfl
  cases v with
  | text s => simp [entryAt, path, none_of]
  | octets bs =>
    cases h : Utf8.decode bs with
    | error f => simp [entryAt, h, none_of]
    | ok cs => simp [entryAt, h, path, none_of]
  | integer n =>
    simp only [entryAt, numbersFile_integer_iff, reduceCtorEq, false_and, exists_false, false_or]
    split
    · exact iff_of_false nofun fun h => by omega
    · split
      · exact iff_of_false nofun fun h => by omega
      · rw [Except.ok.injEq]
        exact ⟨fun h => ⟨by omega, by omega, h⟩, fun h => h.2.2⟩
  | bool b =>
    rw [numbersFile_bool_iff]
    cases b <;> simp [entryAt, descriptorRange]
  | _ => simp [entryAt, none_of]

/-- A service account is accepted if it is given and leads to a file. -/
theorem checkAccount_eq_ok_iff {files : FileTree} {here : Location} {path : String}
    {auth : Value} :
    checkAccount files here path auth = .ok () ↔
      ((auth.get? "service_account_path").getD .null).isGiven = true ∧
        entryAt files here ((auth.get? "service_account_path").getD .null) = .ok (some true) := by
  simp only [checkAccount]
  generalize (auth.get? "service_account_path").getD .null = account
  cases hg : account.isGiven with
  | false => simp
  | true =>
    cases he : entryAt files here account with
    | error f => simp [bind, Except.bind]
    | ok found =>
      rcases found with _ | _ | _
      · cases shown account <;> simp [bind, Except.bind]
      · cases shown account <;> simp [bind, Except.bind]
      · simp [bind, Except.bind]

/-- An authentication section is accepted if its type is supported, and for a service account if the
account is. -/
theorem checkAuthentication_eq_ok_iff {files : FileTree} {here : Location} {path : String}
    {auth : Value} :
    checkAuthentication files here path auth = .ok () ↔
      ∃ t, auth.get? "type" = some (.text t) ∧ t ∈ supportedTypes ∧
        (t = "service_account" → checkAccount files here path auth = .ok ()) := by
  unfold checkAuthentication
  split
  · rename_i h
    simp [h]
  · rename_i t h
    by_cases hs : t ∈ supportedTypes
    · by_cases ht : t = "service_account"
      · subst ht
        simp [h, hs]
      · simp [h, hs, ht]
    · simp [h, hs]
  · rename_i t other h
    have hne : ∀ t', auth.get? "type" ≠ some (.text t') := by
      rw [h]
      exact fun t' e => other t' (Option.some.inj e)
    cases shown t <;> simp [hne, bind, Except.bind]

/-- A cloud section is accepted if it is a mapping with a project and an accepted timeout. -/
theorem checkCloud_eq_ok_iff {path : String} {v : Value} :
    checkCloud path v = .ok () ↔
      ∃ cloud, v.get? "gcp" = some (.map cloud) ∧
        (∃ p, Value.entry? "project_id" cloud = some p) ∧ checkTimeout (.map cloud) = .ok () := by
  unfold checkCloud
  split
  · rename_i cloud hc
    cases hp : Value.entry? "project_id" cloud <;> simp [hc, hp]
  · rename_i other
    simp only [reduceCtorEq, false_iff]
    rintro ⟨cloud, hc, -⟩
    exact other cloud hc

/-- A value is accepted if it is a mapping that is not empty, and its sections `authentication` and
`gcp` are accepted. -/
theorem check_eq_ok_iff {files : FileTree} {here : Location} {path : String} {v : Value} :
    check files here path v = .ok () ↔
      v.isGiven = true ∧ v.isMap = true ∧
        (∃ auth, v.get? "authentication" = some auth ∧
          checkAuthentication files here path auth = .ok ()) ∧
        checkCloud path v = .ok () := by
  unfold check
  cases v.isGiven with
  | false => simp
  | true =>
    cases v.isMap with
    | false => simp
    | true =>
      simp only [Bool.not_true, Bool.false_eq_true, if_false, true_and]
      cases ha : v.get? "authentication" with
      | none => simp [bind, Except.bind]
      | some auth =>
        cases hc : checkAuthentication files here path auth with
        | error f => simp [hc, bind, Except.bind]
        | ok u =>
          simp only [Option.some.injEq, exists_eq_left', hc, true_and]
          exact Iff.rfl

/-- A value that is accepted at some place. -/
def Accepted (v : Value) : Prop :=
  ∃ files here path, check files here path v = .ok ()

/-- Whether a configuration names a service account. -/
def UsesAccount (v : Value) : Prop := authenticationType v = .text "service_account"

/-- The kinds of values that can be taken for a path or a descriptor. -/
def pathKinds : List String := ["str", "bytes", "int", "bool"]

/-- The account of an accepted service account is a path or a descriptor. -/
theorem Accepted.kind_account {v : Value} (h : Accepted v) (hu : UsesAccount v) :
    (account v).kind ∈ pathKinds := by
  obtain ⟨files, here, path, hc⟩ := h
  obtain ⟨-, -, ⟨auth, ha, hc⟩, -⟩ := check_eq_ok_iff.mp hc
  obtain ⟨t, hat, -, hacc⟩ := checkAuthentication_eq_ok_iff.mp hc
  have ht : t = "service_account" := by simpa [UsesAccount, authenticationType, ha, hat] using hu
  obtain ⟨-, he⟩ := checkAccount_eq_ok_iff.mp (hacc ht)
  have hv : Config.account v = (auth.get? "service_account_path").getD .null := by
    simp [Config.account, ha]
  rw [← hv] at he
  generalize Config.account v = account at he
  rcases entryAt_eq_file_iff.mp he with ⟨s, rfl, -⟩ | ⟨bs, cs, rfl, -⟩ | hn
  · simp [pathKinds, Value.kind]
  · simp [pathKinds, Value.kind]
  · cases hn <;> simp [pathKinds, Value.kind]

/-! ## What loading gives -/

theorem outcome_accept (path : String) (v : Value) (w : World) :
    (accept path v).outcome w = (do
      check w.files w.here path v
      let _ ← shown (authenticationType v)
      let _ ← shown (project v)
      return v) := by
  rw [outcome, accept, run_bind_of_ok (run_get w)]
  cases check w.files w.here path v with
  | error f => rfl
  | ok u =>
    cases shown (authenticationType v) with
    | error f => rfl
    | ok t => cases shown (project v) <;> rfl

/-- Reading gets the octets of the file, then the value that the reader gives them. -/
theorem outcome_readFile (reader : Reader) (path : String) (w : World) :
    (readFile reader path).outcome w =
      (w.files.read w.here path).mapError (fun f => .config (.unreadable path f)) >>= fun bytes =>
        (reader bytes).mapError (ReadFault.inFile path) := by
  rw [outcome, readFile, run_bind_of_ok (run_get w)]
  cases w.files.read w.here path with
  | error f => rfl
  | ok bytes =>
    change (ofExcept (ReadFault.inFile path) (reader bytes)).outcome w =
      (reader bytes).mapError (ReadFault.inFile path)
    rw [outcome, run_ofExcept]

theorem outcome_readFile_eq_ok_iff {reader : Reader} {path : String} {v : Value} {w : World} :
    (readFile reader path).outcome w = .ok v ↔
      ∃ bytes, w.files.read w.here path = .ok bytes ∧ reader bytes = .ok v := by
  simp only [outcome_readFile, bind_eq_ok, mapError_eq_ok]

/-- Loading finds a place, reads the value there, and checks and shows it. -/
theorem outcome_loadWith (reader : Reader) (w : World) :
    (loadWith reader).outcome w = (do
      let path ← place.outcome w
      let v ← (readFile reader path).outcome w
      check w.files w.here path v
      let _ ← shown (authenticationType v)
      let _ ← shown (project v)
      return v) := by
  rw [loadWith_eq,
    looks_place.outcome_bind fun path => (looks_readFile reader path).bind (looks_accept path)]
  refine bind_congr fun path => ?_
  rw [(looks_readFile reader path).outcome_bind (looks_accept path)]
  exact bind_congr fun v => outcome_accept path v w

theorem outcome_load_eq_loadWith (w : World) :
    load.outcome w = (loadWith w.reader).outcome w := by
  rw [outcome, load, run_bind_of_ok (run_get w), outcome]

/-- A value that loading gives in some world. -/
def Loaded (v : Value) : Prop := ∃ w, load.outcome w = .ok v

/-- A loaded value was accepted, and its project was shown. -/
theorem Loaded.checked {v : Value} (h : Loaded v) :
    Accepted v ∧ ∃ p, shown (project v) = .ok p := by
  obtain ⟨w, h⟩ := h
  rw [outcome_load_eq_loadWith, outcome_loadWith] at h
  simp only [bind_eq_ok] at h
  obtain ⟨path, -, u, -, ⟨⟩, hc, t, -, p, hp, hv⟩ := h
  cases hv
  exact ⟨⟨_, _, _, hc⟩, p, hp⟩

theorem accepted_of_load {w : World} {v : Value} (h : load.outcome w = .ok v) : Accepted v :=
  (Loaded.checked ⟨w, h⟩).1

/-- What a text that is scanned without a fault stands for. -/
theorem read_of_scan {cs : List Char} {tokens : List Yaml.Token} {v : Value}
    (hc : cs.all Yaml.isDocumentChar = true) (hs : Yaml.Token.scan cs = (tokens, none))
    (hd : ((Yaml.Node.document (4 * tokens.length + 16)).run
      { tokens := tokens, fault := none }).toOption.bind
        (fun n => n.1.bind fun n => ((Yaml.evaluate n.depth 0 n).map Yaml.unrolled).toOption)
      = some v) :
    Yaml.read cs = .ok v := by
  obtain ⟨⟨root, rest⟩, hr, hn⟩ := Option.bind_eq_some_iff.mp hd
  obtain ⟨n, rfl, hn⟩ := Option.bind_eq_some_iff.mp hn
  rw [Yaml.read, if_neg (by rw [hc]; decide), Yaml.Node.read, hs]
  dsimp only
  rw [eq_ok_of_toOption hr, show Except.map Prod.fst (.ok (some n, rest)) = .ok (some n) from rfl]
  dsimp only
  rw [eq_ok_of_toOption hn]
  rfl

/-- The value of a content that is the text of a document. -/
theorem readDocument_eq_ok {bytes : Bytes} {cs : List Char} {v : Value}
    (hd : Utf8.decodeFile bytes = .ok cs) (hy : Yaml.read (Text.unifyLineEnds cs) = .ok v) :
    readDocument bytes = .ok v := by
  rw [readDocument, hd]
  exact mapError_eq_ok.mpr hy

/-- A file that can be found, read, checked and shown is loaded. -/
theorem outcome_load_of_read {w : World} {path : String} {bytes : Bytes} {v : Value}
    {t p : String} (hp : place.outcome w = .ok path) (hr : w.files.read w.here path = .ok bytes)
    (hv : w.reader bytes = .ok v) (hc : check w.files w.here path v = .ok ())
    (ht : shown (authenticationType v) = .ok t) (hs : shown (project v) = .ok p) :
    load.outcome w = .ok v := by
  have hf : (readFile w.reader path).outcome w = .ok v :=
    outcome_readFile_eq_ok_iff.mpr ⟨bytes, hr, hv⟩
  rw [outcome_load_eq_loadWith, outcome_loadWith, hp]
  simp only [bind, Except.bind, hf, hc, ht, hs]
  rfl

/-! ## No configuration -/

/-- Whether there are neither preferences nor a configuration at the default place. -/
structure Absent (w : World) : Prop where
  preferences : w.files.checked w.here (Preferences.file w.home).text
    (w.files.exists? w.here (Preferences.file w.home).text) = .ok false
  usual : w.files.checked w.here (usualPath w.home).text
    (w.files.exists? w.here (usualPath w.home).text) = .ok false

/-- Without preferences and a configuration nothing is found. -/
theorem outcome_load_of_absent {w : World} (h : Absent w) :
    load.outcome w = .error (.config (.notFound (usualPath w.home).text)) := by
  have hread : Preferences.read.run.run w = (.ok [], w) := by
    rw [Preferences.read, run_bind_of_ok (run_get w), run_bind_of_ok (run_pathExists h.preferences)]
    rfl
  have hpreferred : preferred.run.run w = (.ok none, w) := by
    rw [preferred, Preferences.value?, bind_assoc, run_bind_of_ok hread]
    rfl
  have husual : usual.run.run w = (.ok (usualPath w.home), w) := rfl
  have hplace : place.run.run w = (.error (.config (.notFound (usualPath w.home).text)), w) := by
    rw [place, run_bind_of_ok hpreferred]
    dsimp only
    rw [usualIfPresent, run_bind_of_ok husual, run_bind_of_ok (run_pathExists h.usual)]
    rfl
  rw [outcome_load_eq_loadWith, outcome_loadWith, outcome, hplace]
  rfl

/-! ## A service account -/

/-- A configuration that names a service account. -/
def accountText (account : String) : String :=
  "\x7bauthentication: \x7btype: service_account, service_account_path: " ++ account
    ++ "\x7d, gcp: \x7bproject_id: p\x7d\x7d"

/-- What it stands for. -/
def accountValue (account : Value) : Value :=
  .map [
    (.text "authentication", .map [
      (.text "type", .text "service_account"),
      (.text "service_account_path", account)]),
    (.text "gcp", .map [(.text "project_id", .text "p")])]

/-- Its tokens. -/
def accountTokens (account : List Yaml.Token) : List Yaml.Token :=
  let word (s : String) : Yaml.Token := .scalar s.toList true
  [.flowMappingStart, .key, word "authentication", .value, .flowMappingStart, .key, word "type",
    .value, word "service_account", .flowEntry, .key, word "service_account_path", .value]
    ++ account
    ++ [.flowMappingEnd, .flowEntry, .key, word "gcp", .value, .flowMappingStart, .key,
      word "project_id", .value, word "p", .flowMappingEnd, .flowMappingEnd, .streamEnd]

/-- The default place in the home folder `/h`. -/
def accountPath : String := "/h/.config/secretctl/config.yml"

/-- A process with that configuration at the default place, and a file `k`. -/
def accountWorld (account : String) : World where
  files := {
    entries := [
      (["h"], .folder), (["h", ".config"], .folder), (["h", ".config", "secretctl"], .folder),
      (["h", ".config", "secretctl", "config.yml"],
        .file (Utf8.encode (accountText account).toList)),
      (["k"], .file [])] }
  here := []
  home := "/h"
  reader := readDocument

/-- A text leads to the file `k`. -/
theorem load_accountWorld_text :
    load.outcome (accountWorld "k") = .ok (accountValue (.text "k")) := by
  have hf : ((accountWorld "k").files.read [] accountPath).toOption.bind
      (fun bs => (Utf8.decodeFile bs).toOption) = some (accountText "k").toList := by
    decide +kernel
  obtain ⟨bytes, hr, hd⟩ := Option.bind_eq_some_iff.mp hf
  have hs : Yaml.Token.scan (Text.unifyLineEnds (accountText "k").toList) =
      (accountTokens [.scalar ['k'] true], none) := by decide +kernel
  exact outcome_load_of_read (eq_ok_of_toOption (by decide +kernel)) (eq_ok_of_toOption hr)
    (readDocument_eq_ok (eq_ok_of_toOption hd)
      (read_of_scan (by decide +kernel) hs (by decide +kernel)))
    (eq_ok_of_toOption (by decide +kernel)) rfl rfl

/-- The octets of `k` do as well. -/
theorem load_accountWorld_octets :
    load.outcome (accountWorld "!!binary aw==") = .ok (accountValue (.octets [107])) := by
  have hf : ((accountWorld "!!binary aw==").files.read [] accountPath).toOption.bind
      (fun bs => (Utf8.decodeFile bs).toOption) = some (accountText "!!binary aw==").toList := by
    decide +kernel
  obtain ⟨bytes, hr, hd⟩ := Option.bind_eq_some_iff.mp hf
  have hs : Yaml.Token.scan (Text.unifyLineEnds (accountText "!!binary aw==").toList) =
      (accountTokens [.tag (some "!!") "binary", .scalar "aw==".toList true], none) := by
    decide +kernel
  exact outcome_load_of_read (eq_ok_of_toOption (by decide +kernel)) (eq_ok_of_toOption hr)
    (readDocument_eq_ok (eq_ok_of_toOption hd)
      (read_of_scan (by decide +kernel) hs (by decide +kernel)))
    (eq_ok_of_toOption (by decide +kernel)) rfl rfl

end Config

end CloudSecrets
