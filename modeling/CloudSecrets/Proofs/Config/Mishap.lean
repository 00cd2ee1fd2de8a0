import CloudSecrets.Proofs.Config.Validity
import CloudSecrets.Proofs.Preference.Reading

/-!
# Mishaps

Why loading stops for another reason than that the configuration cannot be used. A value that was
read has four mishaps: its type of authentication cannot be shown, its account is no path, its
timeout cannot be compared, its project cannot be shown. Before that the file may be no UTF-8, a
scalar in it may have no value, or nothing can be told about its path. There are no other reasons
(`astray_load_iff`).

A fault in two steps is a fault in the first, or one in the second after the first has gone well
(`Astray.bind_iff`); every lemma here is that, once for each check.
-/

namespace CloudSecrets

open CloudSecrets.Action

variable {α β : Type}

/-- A computation comes to a fault that is not about the configuration. -/
def Astray (r : Except Fault α) (f : Fault) : Prop := r = .error f ∧ ∀ g, f ≠ .config g

namespace Astray

variable {f : Fault}

@[simp] theorem not_ok (x : α) : ¬Astray (.ok x) f := nofun

@[simp] theorem error_iff {e : Fault} :
    Astray (.error e : Except Fault α) f ↔ f = e ∧ ∀ g, e ≠ .config g := by
  constructor
  · rintro ⟨⟨⟩, hf⟩
    exact ⟨rfl, hf⟩
  · rintro ⟨rfl, hf⟩
    exact ⟨rfl, hf⟩

theorem bind_iff {r : Except Fault α} {g : α → Except Fault β} :
    Astray (r >>= g) f ↔ Astray r f ∨ ∃ x, r = .ok x ∧ Astray (g x) f := by
  cases r <;> simp [Astray, bind, Except.bind]

/-- What only fails on the configuration afterwards goes astray in the first step. -/
theorem bind_iff_of_not {r : Except Fault α} {g : α → Except Fault β}
    (hg : ∀ x, r = .ok x → ¬Astray (g x) f) : Astray (r >>= g) f ↔ Astray r f := by
  rw [bind_iff]
  refine or_iff_left ?_
  rintro ⟨x, hx, hast⟩
  exact hg x hx hast

theorem mapError_iff {δ : Type} {r : Except δ α} {g : δ → Fault} :
    Astray (r.mapError g) f ↔ ∃ e, r = .error e ∧ f = g e ∧ ∀ c, g e ≠ .config c := by
  rw [Astray, mapError_eq_error_iff]
  constructor
  · rintro ⟨⟨e, he, rfl⟩, hf⟩
    exact ⟨e, he, rfl, hf⟩
  · rintro ⟨e, he, rfl, hf⟩
    exact ⟨⟨e, he, rfl⟩, hf⟩

end Astray

namespace Config

open Yaml (Value)

variable {files : FileTree} {here : Location} {path : String} {f : CloudSecrets.Fault}

/-! ## Long integers -/

/-- An integer that is at least a power above the format is too large for it. -/
theorem ofInt?_eq_none {n : Int} {k : Nat} (hk : Binary64.greatestExponent + 53 < k)
    (h : tenTo k ≤ n.natAbs) : Binary64.ofInt? n = none := by
  have hpow : 2 ^ k ≤ n.natAbs := Nat.le_trans (Nat.pow_le_pow_left (by decide) k) h
  have hne : n.natAbs ≠ 0 := Nat.ne_of_gt (Nat.lt_of_lt_of_le (tenTo_pos k) h)
  have hlog : k ≤ n.natAbs.log2 := (Nat.le_log2 hne).mpr hpow
  have hplace : Binary64.greatestExponent < Binary64.lastPlace n.natAbs 1 := by
    rw [Binary64.lastPlace, show Nat.log2 1 = 0 by decide]
    dsimp only
    split <;> omega
  have hinfinite : Binary64.ofRatio (n < 0) n.natAbs 1 = .infinite (n < 0) := by
    rw [Binary64.ofRatio, if_neg (by simpa using hne)]
    dsimp only
    -- Rounding can only move the last place up.
    split
    · exact if_pos (by omega)
    · rfl
  rw [Binary64.ofInt?, hinfinite]

/-- An integer that is too long to be written is too large to be compared. -/
theorem ofInt?_of_overlong {n : Int} (h : (Value.integer n).Overlong) :
    Binary64.ofInt? n = none :=
  ofInt?_eq_none (by decide) (Value.overlong_integer_iff.mp h)

/-- An integer in the range of the descriptors is not too long to be written. -/
theorem not_overlong_of_descriptor {n : Int} (hb : descriptorRange.1 ≤ n)
    (ha : n ≤ descriptorRange.2) : ¬(Value.integer n).Overlong := by
  have hdigits : n.natAbs < tenTo 10 := by
    have hten : tenTo 10 = 10000000000 := by decide
    simp only [descriptorRange] at hb ha
    omega
  rw [Value.overlong_integer_iff, Nat.not_le]
  exact Nat.lt_of_lt_of_le hdigits (tenTo_le (by decide))

/-! ## Accounts -/

/-- Why a value cannot be followed: it is an integer out of range, or of another kind. -/
inductive NoPath : Value → CloudSecrets.Fault → Prop where
  | above {n : Int} (h : descriptorRange.2 < n) : NoPath (.integer n) (.descriptor true)
  | below {n : Int} (h : n < descriptorRange.1) : NoPath (.integer n) (.descriptor false)
  | kind {v : Value} (h : v.kind ∉ pathKinds) : NoPath v (.notAccountPath v.kind)

theorem noPath_integer_iff {n : Int} :
    NoPath (.integer n) f ↔
      descriptorRange.2 < n ∧ f = .descriptor true ∨
        n < descriptorRange.1 ∧ f = .descriptor false := by
  constructor
  · intro h
    cases h with
    | above h => exact .inl ⟨h, rfl⟩
    | below h => exact .inr ⟨h, rfl⟩
    | kind h => exact absurd (by simp [pathKinds, Value.kind]) h
  · rintro (⟨h, rfl⟩ | ⟨h, rfl⟩)
    · exact .above h
    · exact .below h

theorem noPath_iff_of_kind {v : Value} (hv : v.kind ∉ pathKinds) :
    NoPath v f ↔ f = .notAccountPath v.kind := by
  constructor
  · intro h
    cases h with
    | kind _ => rfl
    | _ => exact absurd (by simp [pathKinds, Value.kind]) hv
  · rintro rfl
    exact .kind hv

theorem not_noPath {v : Value} (hv : v.kind ∈ pathKinds) (hn : ∀ n, v ≠ .integer n) :
    ¬NoPath v f := by
  intro h
  cases h with
  | kind h => exact h hv
  | _ => exact hn _ rfl

/-- A value of another kind is no path, and no integer out of range is one; all else is followed. -/
theorem astray_entryAt_iff {account : Value} :
    Astray (entryAt files here account) f ↔ NoPath account f := by
  cases account with
  | text s =>
    have hpath : ¬NoPath (.text s) f := not_noPath (by simp [pathKinds, Value.kind]) (by simp)
    simp [entryAt, hpath]
  | octets bs =>
    have hpath : ¬NoPath (.octets bs) f := not_noPath (by simp [pathKinds, Value.kind]) (by simp)
    rw [entryAt]
    split <;> simp [hpath]
  | bool b =>
    have hpath : ¬NoPath (.bool b) f := not_noPath (by simp [pathKinds, Value.kind]) (by simp)
    cases b <;> simp [entryAt, descriptorRange, hpath]
  | integer n =>
    have hrange : descriptorRange.1 ≤ descriptorRange.2 := by decide
    rw [noPath_integer_iff]
    simp only [entryAt]
    by_cases ha : descriptorRange.2 < n
    · have hb : ¬n < descriptorRange.1 := by omega
      simp [ha, hb]
    · by_cases hb : n < descriptorRange.1
      · simp [ha, hb]
      · simp [ha, hb]
  | enclosing isMap =>
    cases isMap <;> simp [entryAt, noPath_iff_of_kind, pathKinds, Value.kind]
  | _ => simp [entryAt, noPath_iff_of_kind, pathKinds, Value.kind]

/-! ## Sections -/

theorem astray_numeral_iff {P : Prop} {r : Except Numeral.Fault String}
    (h : Value.UnwrittenIff P r) :
    Astray (r.mapError .numeral) f ↔ f = .numeral .tooLongToWrite ∧ P := by
  rw [Astray.mapError_iff]
  constructor
  · rintro ⟨e, he, rfl, -⟩
    obtain ⟨rfl, hp⟩ := (h e).mp he
    exact ⟨rfl, hp⟩
  · rintro ⟨rfl, hp⟩
    exact ⟨.tooLongToWrite, (h _).mpr ⟨rfl, hp⟩, rfl, by simp⟩

/-- A message that shows a value only fails if the value cannot be written. -/
theorem astray_message_iff {P : Prop} {r : Except Numeral.Fault String} {fault : String → Fault}
    (h : Value.UnwrittenIff P r) :
    Astray (r.mapError .numeral >>= fun s =>
      (.error (.config (fault s)) : Except CloudSecrets.Fault α)) f ↔
      f = .numeral .tooLongToWrite ∧ P := by
  rw [Astray.bind_iff_of_not fun s _ => by simp, astray_numeral_iff h]

theorem astray_shown_bind_iff {v : Value} {fault : String → Fault} :
    Astray (shown v >>= fun s => (.error (.config (fault s)) : Except CloudSecrets.Fault α)) f ↔
      f = .numeral .tooLongToWrite ∧ v.Overlong :=
  astray_message_iff fun _ => Value.shown_eq_error_iff

/-- What can be followed can be shown. -/
theorem not_overlong_of_entryAt {v : Value} {r : Option Bool}
    (h : entryAt files here v = .ok r) : ¬v.Overlong := by
  cases v with
  | integer n =>
    have hpath (g : CloudSecrets.Fault) : ¬NoPath (.integer n) g := by
      intro hg
      have hast : Astray (entryAt files here (.integer n)) g := astray_entryAt_iff.mpr hg
      rw [h] at hast
      exact Astray.not_ok r hast
    exact not_overlong_of_descriptor (Int.not_lt.mp fun hb => hpath _ (.below hb))
      (Int.not_lt.mp fun ha => hpath _ (.above ha))
  | text s => exact Value.not_overlong_text s
  | octets bs => exact Value.not_overlong_octets bs
  | bool b => exact Value.not_overlong_bool b
  | _ => cases h

/-- An account that is given has to be followed; what is found there can be told. -/
theorem astray_checkAccount_iff {auth : Value} :
    Astray (checkAccount files here path auth) f ↔
      ∃ account, auth.get? "service_account_path" = some account ∧ account.isGiven = true ∧
        NoPath account f := by
  simp only [checkAccount]
  cases auth.get? "service_account_path" with
  | none => simp [Value.isGiven]
  | some account =>
    simp only [Option.getD_some, Option.some.injEq, exists_eq_left']
    cases account.isGiven with
    | false => simp
    | true =>
      simp only [Bool.not_true, Bool.false_eq_true, if_false, true_and]
      rw [Astray.bind_iff_of_not, astray_entryAt_iff]
      intro found hfound
      have hshort := not_overlong_of_entryAt hfound
      rcases found with _ | _ | _
      · simp [astray_shown_bind_iff, hshort]
      · simp [astray_shown_bind_iff, hshort]
      · simp

/-- The type of an authentication section has to be shown if it is no text, and the account of a
service account has to be followed. -/
theorem astray_checkAuthentication_iff {auth : Value} :
    Astray (checkAuthentication files here path auth) f ↔
      (∃ t, auth.get? "type" = some t ∧ f = .numeral .tooLongToWrite ∧ t.Overlong) ∨
        auth.get? "type" = some (.text "service_account") ∧
          ∃ account, auth.get? "service_account_path" = some account ∧ account.isGiven = true ∧
            NoPath account f := by
  have haccount : Astray (checkAccount files here path auth) f ↔ _ := astray_checkAccount_iff
  rw [← haccount, checkAuthentication]
  split
  · rename_i h
    simp [h]
  · rename_i t h
    by_cases hs : t ∈ supportedTypes
    · by_cases ht : t = "service_account"
      · simp [h, ht, supportedTypes]
      · simp [h, hs, ht]
    · have ht : t ≠ "service_account" := by
        rintro rfl
        exact hs (by simp [supportedTypes])
      simp [h, hs, ht]
  · rename_i t other h
    have ht : t ≠ .text "service_account" := other _
    simp [h, ht, astray_shown_bind_iff]

/-- Why a value cannot be taken for a timeout: it is an integer that is too large to be compared, or
it is no number and cannot be shown. -/
inductive NoNumber : Value → CloudSecrets.Fault → Prop where
  | tooLarge {n : Int} (h : Binary64.ofInt? n = none) : NoNumber (.integer n) .tooLarge
  | unwritten {v : Value} (hv : ∀ n, v ≠ .integer n) (h : v.Overlong) :
    NoNumber v (.numeral .tooLongToWrite)

theorem noNumber_integer_iff {n : Int} :
    NoNumber (.integer n) f ↔ Binary64.ofInt? n = none ∧ f = .tooLarge := by
  constructor
  · intro h
    cases h with
    | tooLarge h => exact ⟨h, rfl⟩
    | unwritten h _ => exact absurd rfl (h n)
  · rintro ⟨h, rfl⟩
    exact .tooLarge h

theorem noNumber_iff {v : Value} (hv : ∀ n, v ≠ .integer n) :
    NoNumber v f ↔ f = .numeral .tooLongToWrite ∧ v.Overlong := by
  constructor
  · intro h
    cases h with
    | tooLarge h => exact absurd rfl (hv _)
    | unwritten _ h => exact ⟨rfl, h⟩
  · rintro ⟨rfl, h⟩
    exact .unwritten hv h

/-- A timeout has to be compared if it is an integer, and to be shown if it is no number. -/
theorem astray_checkTimeout_iff {cloud : Value} :
    Astray (checkTimeout cloud) f ↔ ∃ t, cloud.get? "timeout" = some t ∧ NoNumber t f := by
  cases ht : cloud.get? "timeout" with
  | none => simp [checkTimeout, ht]
  | some t =>
    simp only [Option.some.injEq, exists_eq_left']
    have hrefused (hn : t ≠ .null) (h : timeoutOf t = .ok none) :
        Astray (checkTimeout cloud) f ↔ f = .numeral .tooLongToWrite ∧ t.Overlong := by
      rw [checkTimeout_eq ht hn, h]
      exact astray_message_iff (Value.unwrittenIff_listing t)
    cases t with
    | null => simp [checkTimeout, ht, noNumber_iff]
    | integer n =>
      rw [noNumber_integer_iff]
      cases hb : Binary64.ofInt? n with
      | none => simp [checkTimeout_eq ht, timeoutOf, hb, bind, Except.bind]
      | some b =>
        have hshort : ¬(Value.integer n).Overlong := by
          intro h
          rw [ofInt?_of_overlong h] at hb
          cases hb
        by_cases hn : 0 < n
        · simp [checkTimeout_eq ht, timeoutOf, hb, hn, bind, Except.bind]
        · rw [hrefused (by simp) (by simp [timeoutOf, hb, hn])]
          simp [-Value.overlong_integer_iff, hshort]
    | decimal x =>
      rw [noNumber_iff (by simp)]
      by_cases hx : x.isFinite = true ∧ x.isPositive = true
      · simp [checkTimeout_eq ht, timeoutOf, hx, bind, Except.bind]
      · exact hrefused (by simp) (by simp [timeoutOf, hx])
    | _ =>
      rw [noNumber_iff (by simp)]
      exact hrefused (by simp) rfl

/-- A cloud section with a project has its timeout compared. -/
theorem astray_checkCloud_iff {v : Value} :
    Astray (checkCloud path v) f ↔
      ∃ cloud p t, v.get? "gcp" = some (.map cloud) ∧
        Value.entry? "project_id" cloud = some p ∧ Value.entry? "timeout" cloud = some t ∧
          NoNumber t f := by
  unfold checkCloud
  split
  · rename_i cloud hc
    cases hp : Value.entry? "project_id" cloud with
    | none => simp [hc, hp]
    | some p =>
      have hget : (Value.map cloud).get? "timeout" = Value.entry? "timeout" cloud := rfl
      simp [hc, hp, astray_checkTimeout_iff, hget]
  · rename_i other
    refine iff_of_false (by simp) ?_
    rintro ⟨cloud, -, -, hc, -⟩
    exact other cloud hc

/-! ## Values -/

/-- What can go astray with a value that was read: the type of its authentication cannot be shown,
its account cannot be followed, its timeout is no number that can be compared, or its project cannot
be shown. -/
inductive Mishap (files : FileTree) (here : Location) (v : Value) : CloudSecrets.Fault → Prop where
  | type {auth t : Value} (ha : v.get? "authentication" = some auth)
    (ht : auth.get? "type" = some t) (h : t.Overlong) :
    Mishap files here v (.numeral .tooLongToWrite)
  | account {auth account : Value} {f : CloudSecrets.Fault}
    (ha : v.get? "authentication" = some auth)
    (ht : auth.get? "type" = some (.text "service_account"))
    (hs : auth.get? "service_account_path" = some account) (hg : account.isGiven = true)
    (h : NoPath account f) : Mishap files here v f
  | timeout {auth p t : Value} {cloud : List (Value × Value)} {f : CloudSecrets.Fault}
    (ha : v.get? "authentication" = some auth) (hok : Authenticated files here auth)
    (hc : v.get? "gcp" = some (.map cloud)) (hp : Value.entry? "project_id" cloud = some p)
    (ht : Value.entry? "timeout" cloud = some t) (h : NoNumber t f) : Mishap files here v f
  | project (hv : Valid files here v) (h : (project v).Overlong) :
    Mishap files here v (.numeral .tooLongToWrite)

theorem astray_check_iff {v : Value} :
    Astray (check files here path v) f ↔
      ∃ auth, v.get? "authentication" = some auth ∧
        (Astray (checkAuthentication files here path auth) f ∨
          Authenticated files here auth ∧ Astray (checkCloud path v) f) := by
  cases ha : v.get? "authentication" with
  | none =>
    unfold check
    cases v.isGiven <;> cases v.isMap <;> simp [ha, bind, Except.bind]
  | some auth =>
    have hmap : v.isGiven = true ∧ v.isMap = true := by
      cases v with
      | map es =>
        refine ⟨?_, rfl⟩
        cases es with
        | nil => simp [Value.get?, Value.entry?] at ha
        | cons e es => rfl
      | _ => simp [Value.get?] at ha
    have hok : checkAuthentication files here path auth = .ok () ↔ _ :=
      checkAuthentication_eq_ok_iff_authenticated
    rw [check, hmap.1, hmap.2]
    simp only [Bool.not_true, Bool.false_eq_true, if_false, ha, Option.some.injEq,
      exists_eq_left', ← hok]
    rw [Astray.bind_iff]
    refine or_congr_right ⟨?_, ?_⟩
    · rintro ⟨u, hfirst, h⟩
      exact ⟨hfirst, h⟩
    · rintro ⟨hfirst, h⟩
      exact ⟨(), hfirst, h⟩

/-- Accepting a value goes astray with a mishap and with nothing else. -/
theorem astray_accept_iff {v : Value} {w : World} :
    Astray ((accept path v).outcome w) f ↔ Mishap w.files w.here v f := by
  have hshown : Valid w.files w.here v →
      (Astray (shown (authenticationType v) >>= fun _ => shown (project v) >>= fun _ =>
        (.ok v : Except CloudSecrets.Fault Value)) f ↔
          f = .numeral .tooLongToWrite ∧ (project v).Overlong) := by
    intro hv
    obtain ⟨t, -, ht⟩ := hv.shown_authenticationType
    have hproject : Astray (shown (project v)) f ↔ f = .numeral .tooLongToWrite ∧ _ :=
      astray_numeral_iff fun _ => Value.shown_eq_error_iff
    rw [ht, ← hproject]
    exact Astray.bind_iff_of_not fun _ _ => Astray.not_ok v
  rw [outcome_accept, Astray.bind_iff, astray_check_iff]
  constructor
  · rintro (⟨auth, ha, hauth | ⟨hok, hcloud⟩⟩ | ⟨⟨⟩, hc, h⟩)
    · rcases astray_checkAuthentication_iff.mp hauth with
        ⟨t, ht, rfl, h⟩ | ⟨ht, account, hs, hg, h⟩
      · exact .type ha ht h
      · exact .account ha ht hs hg h
    · obtain ⟨cloud, p, t, hc, hp, ht, h⟩ := astray_checkCloud_iff.mp hcloud
      exact .timeout ha hok hc hp ht h
    · have hv := check_eq_ok_iff_valid.mp hc
      obtain ⟨rfl, hlong⟩ := (hshown hv).mp h
      exact .project hv hlong
  · intro h
    cases h with
    | type ha ht h =>
      exact .inl ⟨_, ha, .inl (astray_checkAuthentication_iff.mpr (.inl ⟨_, ht, rfl, h⟩))⟩
    | account ha ht hs hg h =>
      exact .inl ⟨_, ha, .inl (astray_checkAuthentication_iff.mpr (.inr ⟨ht, _, hs, hg, h⟩))⟩
    | timeout ha hok hc hp ht h =>
      exact .inl ⟨_, ha, .inr ⟨hok, astray_checkCloud_iff.mpr ⟨_, _, _, hc, hp, ht, h⟩⟩⟩
    | project hv h =>
      exact .inr ⟨(), check_eq_ok_iff_valid.mpr hv, (hshown hv).mpr ⟨rfl, h⟩⟩

/-! ## Loading -/

/-- What can go astray with the file at a path: nothing can be told about it, its reader stops
otherwise than that the content is no document, or its value has a mishap. -/
inductive Misread (w : World) (path : String) : CloudSecrets.Fault → Prop where
  | untold (h : w.files.Untold w.here path) : Misread w path (.file ⟨.nameTooLong, path⟩)
  | reader {bytes : Bytes} {e : ReadFault} (hr : w.files.read w.here path = .ok bytes)
    (hv : w.reader bytes = .error e) (he : ∀ why, e ≠ .malformed why) :
    Misread w path (e.inFile path)
  | value {bytes : Bytes} {v : Value} {f : CloudSecrets.Fault}
    (hr : w.files.read w.here path = .ok bytes) (hv : w.reader bytes = .ok v)
    (h : Mishap w.files w.here v f) : Misread w path f

theorem ReadFault.inFile_ne_config_iff {e : ReadFault} :
    (∀ g, e.inFile path ≠ .config g) ↔ ∀ why, e ≠ .malformed why := by
  cases e <;> simp [ReadFault.inFile]

/-- Reading goes astray if the reader stops, unless the content is no document. -/
theorem astray_readFile_iff {reader : Reader} {w : World} :
    Astray ((readFile reader path).outcome w) f ↔
      ∃ bytes, w.files.read w.here path = .ok bytes ∧
        ∃ e, reader bytes = .error e ∧ (∀ why, e ≠ .malformed why) ∧ f = e.inFile path := by
  have hreader (e : ReadFault) : (f = e.inFile path ∧ ∀ g, e.inFile path ≠ .config g) ↔
      (∀ why, e ≠ .malformed why) ∧ f = e.inFile path := by
    rw [ReadFault.inFile_ne_config_iff, and_comm]
  simp only [outcome_readFile, Astray.bind_iff, Astray.mapError_iff, mapError_eq_ok, hreader]
  simp

theorem outcome_load (w : World) :
    load.outcome w = place.outcome w >>= fun path =>
      (readFile w.reader path).outcome w >>= fun v => (accept path v).outcome w := by
  rw [outcome_load_eq_loadWith, outcome_loadWith]
  refine bind_congr fun path => bind_congr fun v => ?_
  exact (outcome_accept path v w).symm

/-- What can be read is there, and something can be told about it. -/
theorem exists_of_read {w : World} {bytes : Bytes} (h : w.files.read w.here path = .ok bytes) :
    w.files.exists? w.here path = true ∧ ¬w.files.Untold w.here path := by
  rw [FileTree.read] at h
  cases hf : w.files.find w.here path with
  | error cause => simp [hf] at h
  | ok found =>
    refine ⟨?_, FileTree.not_untold_of_find hf⟩
    cases found with
    | vacant l => simp [hf] at h
    | entry l e => rw [FileTree.exists?, hf]

/-- Reading and accepting goes astray with what can go astray with the file. -/
theorem astray_readFile_bind_iff {w : World} (hu : ¬w.files.Untold w.here path) :
    Astray ((readFile w.reader path).outcome w >>= fun v => (accept path v).outcome w) f ↔
      Misread w path f := by
  rw [Astray.bind_iff, astray_readFile_iff]
  constructor
  · rintro (⟨bytes, hr, e, hv, he, rfl⟩ | ⟨v, hv, h⟩)
    · exact .reader hr hv he
    · obtain ⟨bytes, hr, hv⟩ := outcome_readFile_eq_ok_iff.mp hv
      exact .value hr hv (astray_accept_iff.mp h)
  · intro h
    cases h with
    | untold h => exact absurd h hu
    | reader hr hv he => exact .inl ⟨_, hr, _, hv, he, rfl⟩
    | value hr hv h =>
      exact .inr ⟨_, outcome_readFile_eq_ok_iff.mpr ⟨_, hr, hv⟩, astray_accept_iff.mpr h⟩

/-- Where nothing is there, or nothing can be told about it, nothing else can go astray. -/
theorem Misread.eq_of_absent {w : World} (h : Misread w path f)
    (ha : w.files.exists? w.here path = false ∨ w.files.Untold w.here path) :
    w.files.Untold w.here path ∧ f = .file ⟨.nameTooLong, path⟩ := by
  have hno {bytes : Bytes} (hr : w.files.read w.here path = .ok bytes) : False := by
    obtain ⟨hthere, htold⟩ := exists_of_read hr
    rcases ha with ha | ha
    · rw [hthere] at ha
      cases ha
    · exact htold ha
  cases h with
  | untold hu => exact ⟨hu, rfl⟩
  | reader hr _ _ => exact (hno hr).elim
  | value hr _ _ => exact (hno hr).elim

/-- What can go astray without preferences: nothing can be told about their path, or something goes
astray with the file at the default place. -/
inductive Unloadable (w : World) : CloudSecrets.Fault → Prop where
  | preferences (h : w.files.Untold w.here (Preferences.file w.home).text) :
    Unloadable w (.file ⟨.nameTooLong, (Preferences.file w.home).text⟩)
  | usual {f : CloudSecrets.Fault} (hp : ¬w.files.Untold w.here (Preferences.file w.home).text)
    (h : Misread w (usualPath w.home).text f) : Unloadable w f

theorem astray_usualIfPresent_bind_iff {w : World} :
    Astray (usualIfPresent.outcome w >>= fun path =>
      (readFile w.reader path).outcome w >>= fun v => (accept path v).outcome w) f ↔
      Misread w (usualPath w.home).text f := by
  rw [outcome_usualIfPresent]
  generalize (usualPath w.home).text = path
  by_cases hu : w.files.Untold w.here path
  · rw [outcome_pathExists_of_untold hu]
    constructor
    · rintro ⟨⟨⟩, -⟩
      exact .untold hu
    · intro hmis
      rw [(hmis.eq_of_absent (.inr hu)).2]
      exact ⟨rfl, nofun⟩
  · rw [outcome_pathExists_of_not_untold hu]
    cases hthere : w.files.exists? w.here path with
    | false =>
      refine iff_of_false (by simp [bind, Except.bind]) fun hmis => ?_
      exact hu (hmis.eq_of_absent (.inl hthere)).1
    | true => exact astray_readFile_bind_iff hu

/-- Without preferences loading goes astray for these reasons and for no others. -/
theorem astray_load_iff {w : World}
    (h : w.files.exists? w.here (Preferences.file w.home).text = false) :
    Astray (load.outcome w) f ↔ Unloadable w f := by
  rw [outcome_load]
  by_cases hu : w.files.Untold w.here (Preferences.file w.home).text
  · have hread := Preferences.outcome_read_eq_error_iff.mpr (.untold hu)
    rw [outcome_place, outcome_preferred_of_unread hread]
    constructor
    · rintro ⟨⟨⟩, -⟩
      exact .preferences hu
    · intro hun
      cases hun with
      | preferences _ => exact ⟨rfl, nofun⟩
      | usual hp _ => exact absurd hu hp
  · have hplace : place.outcome w = usualIfPresent.outcome w := by
      rw [outcome_place, outcome_preferred_of_unset (Preferences.outcome_read_of_absent hu h) rfl]
      simp only [bind, Except.bind]
    rw [hplace]
    constructor
    · intro hast
      exact .usual hu (astray_usualIfPresent_bind_iff.mp hast)
    · intro hun
      cases hun with
      | preferences hp => exact absurd hp hu
      | usual _ hmis => exact astray_usualIfPresent_bind_iff.mpr hmis

/-- Without preferences loading gives a configuration, or tells why it cannot be used, exactly if
nothing can go astray; else it stops with what does. -/
theorem load_gives_or_refuses_iff {w : World}
    (h : w.files.exists? w.here (Preferences.file w.home).text = false) :
    (((∃ v, load.outcome w = .ok v) ∨ ∃ g, load.outcome w = .error (.config g)) ↔
      ∀ f, ¬Unloadable w f) ∧
    ∀ f, Unloadable w f → load.outcome w = .error f := by
  refine ⟨?_, fun f hf => ((astray_load_iff h).mpr hf).1⟩
  simp only [← astray_load_iff h]
  cases load.outcome w with
  | ok v => simp
  | error e => cases e <;> simp

/-- A process with a file at the default place. -/
def configWorld (content : Bytes) : World where
  files := {
    entries := [
      (["h"], .folder), (["h", ".config"], .folder), (["h", ".config", "secretctl"], .folder),
      (["h", ".config", "secretctl", "config.yml"], .file content)] }
  here := []
  home := "/h"
  reader := readDocument

/-- An empty file is refused, and one that is no UTF-8 stops loading otherwise. -/
theorem load_of_undecodable_config :
    (∀ f, ¬Unloadable (configWorld []) f) ∧
      load.outcome (configWorld [255]) = .error (.encoding ⟨[255], 0, .invalidStart⟩) := by
  have hplace : place.outcome (configWorld []) = .ok accountPath :=
    eq_ok_of_toOption (by decide +kernel)
  have hread : (readFile readDocument accountPath).outcome (configWorld []) = .ok .null :=
    outcome_readFile_eq_ok_iff.mpr
      ⟨[], rfl, readDocument_eq_ok rfl (eq_ok_of_toOption (by decide +kernel))⟩
  have hempty : load.outcome (configWorld []) = .error (.config (.empty accountPath)) := by
    rw [outcome_load, hplace, show (configWorld []).reader = readDocument from rfl]
    simp only [bind, Except.bind, hread]
    rfl
  have hrefused := load_gives_or_refuses_iff (w := configWorld []) (by decide +kernel)
  have hbroken := load_gives_or_refuses_iff (w := configWorld [255]) (by decide +kernel)
  have hpreferences : ¬(configWorld [255]).files.Untold [] (Preferences.file "/h").text := by
    rintro ⟨-, hf⟩
    cases hf
  have hmisread : Misread (configWorld [255]) accountPath
      (.encoding ⟨[255], 0, .invalidStart⟩) :=
    .reader (e := .encoding ⟨[255], 0, .invalidStart⟩) rfl rfl (by simp)
  exact ⟨hrefused.1.mp (.inr ⟨_, hempty⟩), hbroken.2 _ (.usual hpreferences hmisread)⟩

end Config

end CloudSecrets
