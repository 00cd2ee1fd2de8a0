import CloudSecrets.Proofs.Config.Load
import CloudSecrets.Proofs.Yaml.Overlong

/-!
# Valid configurations

`Valid` says what a configuration is, section by section and without an order of checks, and the
checks let pass exactly that (`check_eq_ok_iff_valid`). Loading gives a valid configuration as it
was read, whatever the reader of its text. It only has to be able to show the project, and an
integer that is too long to be written stops it there (`loadWith_eq_ok_iff_valid`).
-/

namespace CloudSecrets.Config

open CloudSecrets.Action
open Yaml (Value)

variable {files : FileTree} {here : Location} {path : String}

/-! ## Sections -/

/-- A value names an existing file: a text or octets that are not empty, or the number of a
descriptor that is not 0. -/
inductive NamesFile (files : FileTree) (here : Location) : Value → Prop where
  | text {s : String} (hs : s ≠ "") (h : files.isFile here s = true) :
    NamesFile files here (.text s)
  | octets {bs : Bytes} {cs : List Char} (hb : bs ≠ []) (hd : Utf8.decode bs = .ok cs)
    (h : files.isFile here (String.ofList cs) = true) : NamesFile files here (.octets bs)
  | descriptor {v : Value} (hg : v.isGiven = true) (h : NumbersFile files v) :
    NamesFile files here v

/-- An authentication section that can be used: of a supported type, and for a service account with
its file. -/
inductive Authenticated (files : FileTree) (here : Location) (auth : Value) : Prop where
  | usual (ht : auth.get? "type" = some (.text "application_default"))
  | account {account : Value} (ht : auth.get? "type" = some (.text "service_account"))
    (ha : auth.get? "service_account_path" = some account) (h : NamesFile files here account)

/-- A timeout that can be used: none at all, or a positive number that is finite, which an integer
has to be as a floating-point number. -/
inductive TimeoutValid : Option Value → Prop where
  | absent : TimeoutValid none
  | null : TimeoutValid (some .null)
  | whole {n : Int} (hn : 0 < n) (h : (Binary64.ofInt? n).isSome) :
    TimeoutValid (some (.integer n))
  | fractional {x : Binary64} (hf : x.isFinite = true) (hp : x.isPositive = true) :
    TimeoutValid (some (.decimal x))

/-- What a configuration is. -/
structure Valid (files : FileTree) (here : Location) (v : Value) : Prop where
  mapping : ∃ entries, v = .map entries ∧ entries ≠ []
  authentication : ∃ entries, v.get? "authentication" = some (.map entries) ∧
    Authenticated files here (.map entries)
  cloud : ∃ entries, v.get? "gcp" = some (.map entries) ∧
    (∃ p, Value.entry? "project_id" entries = some p) ∧
    TimeoutValid (Value.entry? "timeout" entries)

theorem namesFile_iff {account : Value} :
    NamesFile files here account ↔
      account.isGiven = true ∧ entryAt files here account = .ok (some true) := by
  constructor
  · intro h
    refine ⟨?_, entryAt_eq_file_iff.mpr ?_⟩
    · cases h with
      | text hs h => simpa [Value.isGiven] using hs
      | octets hb hd h => simpa [Value.isGiven] using hb
      | descriptor hg h => exact hg
    · cases h with
      | text hs h => exact .inl ⟨_, rfl, h⟩
      | octets hb hd h => exact .inr (.inl ⟨_, _, rfl, hd, h⟩)
      | descriptor hg h => exact .inr (.inr h)
  · rintro ⟨hg, he⟩
    obtain ⟨s, rfl, h⟩ | ⟨bs, cs, rfl, hd, h⟩ | h := entryAt_eq_file_iff.mp he
    · exact .text (by simpa [Value.isGiven] using hg) h
    · exact .octets (by simpa [Value.isGiven] using hg) hd h
    · exact .descriptor hg h

theorem checkAuthentication_eq_ok_iff_authenticated {auth : Value} :
    checkAuthentication files here path auth = .ok () ↔ Authenticated files here auth := by
  simp only [checkAuthentication_eq_ok_iff, checkAccount_eq_ok_iff, ← namesFile_iff]
  constructor
  · rintro ⟨t, ht, hs, hacc⟩
    by_cases he : t = "service_account"
    · subst he
      have hnames := hacc rfl
      -- Only a value that is there names a file.
      cases ha : auth.get? "service_account_path" with
      | none => simp [ha, namesFile_iff, Value.isGiven] at hnames
      | some account => exact .account ht ha (by simpa [ha] using hnames)
    · have hu : t = "application_default" := by simpa [supportedTypes, he] using hs
      exact .usual (hu ▸ ht)
  · intro h
    cases h with
    | usual ht => exact ⟨_, ht, by simp [supportedTypes], by simp⟩
    | account ht ha h => exact ⟨_, ht, by simp [supportedTypes], fun _ => by simpa [ha] using h⟩

/-- Only a mapping is an authentication section that can be used. -/
theorem Authenticated.eq_map {auth : Value} (h : Authenticated files here auth) :
    ∃ entries, auth = .map entries := by
  have hget : ∃ t, auth.get? "type" = some t := by
    cases h with
    | usual ht => exact ⟨_, ht⟩
    | account ht _ _ => exact ⟨_, ht⟩
  cases auth with
  | map entries => exact ⟨entries, rfl⟩
  | _ => simp [Value.get?] at hget

/-- A timeout that is given is compared, and shown if it is refused. -/
theorem checkTimeout_eq {cloud t : Value} (ht : cloud.get? "timeout" = some t) (hn : t ≠ .null) :
    checkTimeout cloud = timeoutOf t >>= fun
      | some _ => .ok ()
      | none => t.listing.mapError .numeral >>= fun s => .error (.config (.badTimeout s)) := by
  rw [checkTimeout, ht]
  cases t with
  | null => exact absurd rfl hn
  | _ => rfl

theorem checkTimeout_of_some {cloud t : Value} (ht : cloud.get? "timeout" = some t)
    (hn : t ≠ .null) : checkTimeout cloud = .ok () ↔ ∃ x, timeoutOf t = .ok (some x) := by
  rw [checkTimeout_eq ht hn, bind_eq_ok]
  constructor
  · rintro ⟨_ | x, hx, h⟩
    · obtain ⟨s, -, hs⟩ := bind_eq_ok.mp h
      cases hs
    · exact ⟨x, hx⟩
  · rintro ⟨x, hx⟩
    exact ⟨some x, hx, rfl⟩

theorem timeoutValid_integer_iff {n : Int} :
    TimeoutValid (some (.integer n)) ↔ 0 < n ∧ (Binary64.ofInt? n).isSome :=
  ⟨fun | .whole hn h => ⟨hn, h⟩, fun h => .whole h.1 h.2⟩

theorem timeoutValid_decimal_iff {x : Binary64} :
    TimeoutValid (some (.decimal x)) ↔ x.isFinite = true ∧ x.isPositive = true :=
  ⟨fun | .fractional hf hp => ⟨hf, hp⟩, fun h => .fractional h.1 h.2⟩

theorem checkTimeout_eq_ok_iff {cloud : Value} :
    checkTimeout cloud = .ok () ↔ TimeoutValid (cloud.get? "timeout") := by
  cases ht : cloud.get? "timeout" with
  | none => exact iff_of_true (by rw [checkTimeout, ht]) .absent
  | some t =>
    cases t with
    | null => exact iff_of_true (by rw [checkTimeout, ht]) .null
    | integer n =>
      rw [checkTimeout_of_some ht (by simp), timeoutValid_integer_iff]
      cases hb : Binary64.ofInt? n with
      | none => simp [timeoutOf, hb]
      | some b => by_cases hn : 0 < n <;> simp [timeoutOf, hb, hn]
    | decimal x =>
      rw [checkTimeout_of_some ht (by simp), timeoutValid_decimal_iff]
      by_cases hx : x.isFinite = true ∧ x.isPositive = true <;> simp [timeoutOf, hx]
    | _ =>
      rw [checkTimeout_of_some ht (by simp)]
      exact iff_of_false (by simp [timeoutOf]) nofun

/-! ## Configurations -/

/-- The checks let pass what is valid and nothing else. -/
theorem check_eq_ok_iff_valid {v : Value} :
    check files here path v = .ok () ↔ Valid files here v := by
  simp only [check_eq_ok_iff, checkAuthentication_eq_ok_iff_authenticated, checkCloud_eq_ok_iff,
    checkTimeout_eq_ok_iff, Value.get?]
  constructor
  · rintro ⟨hg, -, ⟨auth, ha, hauth⟩, cloud, hc, hp, ht⟩
    obtain ⟨entries, rfl⟩ := hauth.eq_map
    cases v with
    | map es => exact ⟨⟨es, rfl, by simpa [Value.isGiven] using hg⟩, ⟨entries, ha, hauth⟩,
        cloud, hc, hp, ht⟩
    | _ => cases hc
  · rintro ⟨⟨es, rfl, hes⟩, ⟨entries, ha, hauth⟩, cloud, hc, hp, ht⟩
    exact ⟨by simpa [Value.isGiven] using hes, rfl, ⟨_, ha, hauth⟩, cloud, hc, hp, ht⟩

theorem shown_eq_error_iff {v : Value} {f : CloudSecrets.Fault} :
    shown v = .error f ↔ f = .numeral .tooLongToWrite ∧ v.Overlong := by
  simp only [shown, mapError_eq_error_iff, Value.shown_eq_error_iff]
  constructor
  · rintro ⟨g, ⟨rfl, hv⟩, rfl⟩
    exact ⟨rfl, hv⟩
  · rintro ⟨rfl, hv⟩
    exact ⟨_, ⟨rfl, hv⟩, rfl⟩

/-- The type of authentication is a text in a valid configuration, and a text can be shown. -/
theorem Valid.shown_authenticationType {v : Value} (h : Valid files here v) :
    ∃ t, authenticationType v = .text t ∧ shown (authenticationType v) = .ok t := by
  obtain ⟨entries, ha, hauth⟩ := h.authentication
  have ht : ∃ t, authenticationType v = .text t := by
    rw [authenticationType, ha, Option.bind_some]
    cases hauth with
    | usual ht => exact ⟨_, by rw [ht]; rfl⟩
    | account ht _ _ => exact ⟨_, by rw [ht]; rfl⟩
  obtain ⟨t, ht⟩ := ht
  exact ⟨t, ht, by rw [ht]; rfl⟩

/-- The timeout of an accepted configuration can be used. -/
theorem Accepted.timeoutValid {v : Value} (h : Accepted v) :
    TimeoutValid ((v.get? "gcp").bind (·.get? "timeout")) := by
  obtain ⟨files, here, path, hc⟩ := h
  obtain ⟨cloud, hcloud, -, ht⟩ := (check_eq_ok_iff_valid.mp hc).cloud
  rw [hcloud]
  exact ht

/-- What is loaded is valid. -/
theorem valid_of_load {w : World} {v : Value} (h : load.outcome w = .ok v) :
    Valid w.files w.here v := by
  rw [outcome_load_eq_loadWith, outcome_loadWith] at h
  simp only [bind_eq_ok] at h
  obtain ⟨path, -, u, -, ⟨⟩, hc, t, -, p, -, hv⟩ := h
  cases hv
  exact check_eq_ok_iff_valid.mp hc

/-- Where a value is read, loading gives it, unchanged, exactly if it is valid and its project can be
shown. A valid one whose project cannot be shown stops it. -/
theorem loadWith_eq_ok_iff_valid (reader : Reader) {w : World} {bytes : Bytes} {v : Value}
    (hp : place.outcome w = .ok path) (hr : w.files.read w.here path = .ok bytes)
    (hv : reader bytes = .ok v) :
    (∀ u, (loadWith reader).outcome w = .ok u ↔
      u = v ∧ Valid w.files w.here v ∧ ¬(project v).Overlong) ∧
    (Valid w.files w.here v → (project v).Overlong →
      (loadWith reader).outcome w = .error (.numeral .tooLongToWrite)) := by
  have hread : (readFile reader path).outcome w = .ok v :=
    outcome_readFile_eq_ok_iff.mpr ⟨bytes, hr, hv⟩
  rw [outcome_loadWith, hp]
  simp only [bind, Except.bind, hread]
  cases hc : check w.files w.here path v with
  | error f =>
    have hn : ¬Valid w.files w.here v := by
      rw [← check_eq_ok_iff_valid, hc]
      nofun
    exact ⟨fun u => iff_of_false nofun fun h => hn h.2.1, fun h => absurd h hn⟩
  | ok _ =>
    have hvalid := check_eq_ok_iff_valid.mp hc
    obtain ⟨t, -, ht⟩ := hvalid.shown_authenticationType
    simp only [ht]
    cases hs : shown (project v) with
    | error f =>
      obtain ⟨rfl, hlong⟩ := shown_eq_error_iff.mp hs
      exact ⟨fun u => iff_of_false nofun fun h => h.2.2 hlong, fun _ _ => rfl⟩
    | ok p =>
      have hshort : ¬(project v).Overlong := by
        intro h
        rw [shown_eq_error_iff.mpr ⟨rfl, h⟩] at hs
        cases hs
      refine ⟨fun u => ?_, fun _ h => absurd h hshort⟩
      simp [pure, Except.pure, hvalid, hshort, eq_comm]

/-- A configuration without a service account. -/
def usualValue (project : Value) : Value :=
  .map [
    (.text "authentication", .map [(.text "type", .text "application_default")]),
    (.text "gcp", .map [(.text "project_id", project)])]

theorem valid_usualValue (p : Value) : Valid files here (usualValue p) where
  mapping := ⟨_, rfl, by simp⟩
  authentication := ⟨_, rfl, .usual rfl⟩
  cloud := ⟨_, rfl, ⟨p, rfl⟩, .absent⟩

/-- The project `p` is loaded, and one of 4301 digits is not. -/
theorem loadWith_of_long_project :
    let long : Value := .integer (tenTo Numeral.mostDigits)
    (loadWith fun _ => .ok (usualValue (.text "p"))).outcome (accountWorld "k") =
        .ok (usualValue (.text "p")) ∧
      (loadWith fun _ => .ok (usualValue long)).outcome (accountWorld "k") =
        .error (.numeral .tooLongToWrite) := by
  intro long
  have hp : place.outcome (accountWorld "k") = .ok accountPath :=
    eq_ok_of_toOption (by decide +kernel)
  have hr : (accountWorld "k").files.read [] accountPath =
      .ok (Utf8.encode (accountText "k").toList) := rfl
  have hload (v : Value) := loadWith_eq_ok_iff_valid (fun _ => .ok v) hp hr rfl
  have hlong : long.Overlong := .integer (Nat.le_of_eq (Int.natAbs_natCast _).symm)
  exact ⟨((hload _).1 _).mpr ⟨rfl, valid_usualValue _, nofun⟩,
    (hload _).2 (valid_usualValue _) hlong⟩

end CloudSecrets.Config
