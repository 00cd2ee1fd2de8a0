import CloudSecrets.Proofs.Preference
import CloudSecrets.Proofs.Session.Credentials

/-!
# Preferences in a session

However preferences are read, set and cleared, the preferences file behaves as a map that keeps the
order of insertion. One use does to what is stored what it does to the map (`step_use`), so any
number of uses do what they do to the map one after the other (`stored?_after_uses`).
-/

namespace CloudSecrets

open CloudSecrets.Action
open Json (Lossless WithoutDecimals)

namespace Preferences

/-! ## Uses of a map -/

/-- A use of the preferences. -/
inductive Use where
  | get (key : String)
  | set (key value : String)
  | clear (key : String)

namespace Use

/-- The step of a session that uses the preferences. -/
def step : Use → Step
  | .get key => .getPreference key
  | .set key value => .setPreference key value
  | .clear key => .clearPreference key

/-- What a use makes of a map. -/
def apply (ps : Preferences) : Use → Preferences
  | .get _ => ps
  | .set key value => Entries.put key (.text value) ps
  | .clear key => Entries.erase key ps

/-- What a use of a map gives. -/
def result (ps : Preferences) : Use → Result
  | .get key => .preference (Entries.get? key ps)
  | .set .. => .nothing
  | .clear _ => .nothing

/-- Whether a use sets or clears a key. -/
def touches (key : String) : Use → Bool
  | .get _ => false
  | .set k _ => k == key
  | .clear k => k == key

/-- Whether a use writes the file: clearing a key that has no value does not. -/
def writes (ps : Preferences) : Use → Bool
  | .get _ => false
  | .set .. => true
  | .clear key => Entries.has key ps

/-- A use keeps what is lossless so. -/
theorem lossless_apply {ps : Preferences} (h : Lossless (.object ps)) (u : Use) :
    Lossless (.object (u.apply ps)) := by
  cases u with
  | get key => exact h
  | set key value => exact lossless_put h key value
  | clear key => exact lossless_erase h key

/-- A use keeps the entries of the keys that it does not touch, and their order. -/
theorem filter_apply (ps : Preferences) {u : Use} (p : String → Bool)
    (hp : ∀ key, u.touches key = true → p key = false) :
    (u.apply ps).filter (fun e => p e.1) = ps.filter fun e => p e.1 := by
  cases u with
  | get key => rfl
  | set key value => exact Entries.filter_put p (hp key (beq_self_eq_true key)) _ ps
  | clear key => exact Entries.filter_erase p (hp key (beq_self_eq_true key)) ps

theorem get?_apply_of_untouched (ps : Preferences) {u : Use} {key : String}
    (h : u.touches key = false) : Entries.get? key (u.apply ps) = Entries.get? key ps := by
  cases u with
  | get k => rfl
  | set k value => exact Entries.get?_put_of_ne (beq_eq_false_iff_ne.mp h) _ ps
  | clear k => exact Entries.get?_erase_of_ne (beq_eq_false_iff_ne.mp h) ps

end Use

/-- What uses make of a map, one after the other. -/
def applyAll (ps : Preferences) (uses : List Use) : Preferences := uses.foldl Use.apply ps

theorem applyAll_append (ps : Preferences) (before after : List Use) :
    applyAll ps (before ++ after) = applyAll (applyAll ps before) after := by
  rw [applyAll, List.foldl_append]
  rfl

theorem lossless_applyAll {ps : Preferences} (h : Lossless (.object ps)) (uses : List Use) :
    Lossless (.object (applyAll ps uses)) := by
  induction uses generalizing ps with
  | nil => exact h
  | cons u us ih => exact ih (u.lossless_apply h)

theorem filter_applyAll (ps : Preferences) {uses : List Use} (p : String → Bool)
    (hp : ∀ u ∈ uses, ∀ key, u.touches key = true → p key = false) :
    (applyAll ps uses).filter (fun e => p e.1) = ps.filter fun e => p e.1 := by
  induction uses generalizing ps with
  | nil => rfl
  | cons u us ih =>
    exact (ih (u.apply ps) fun v hv => hp v (List.mem_cons_of_mem _ hv)).trans
      (Use.filter_apply ps p (hp u List.mem_cons_self))

/-- A key that is not touched keeps its value. -/
theorem get?_applyAll_of_untouched (ps : Preferences) {uses : List Use} {key : String}
    (h : ∀ u ∈ uses, u.touches key = false) :
    Entries.get? key (applyAll ps uses) = Entries.get? key ps := by
  induction uses generalizing ps with
  | nil => rfl
  | cons u us ih =>
    exact (ih (u.apply ps) fun v hv => h v (List.mem_cons_of_mem _ hv)).trans
      (Use.get?_apply_of_untouched ps (h u List.mem_cons_self))

/-- A key has the value that it was last set to, if it was not cleared since. -/
theorem get?_applyAll_of_set (ps : Preferences) (before : List Use) (key value : String)
    {after : List Use} (h : ∀ u ∈ after, u.touches key = false) :
    Entries.get? key (applyAll ps (before ++ .set key value :: after)) = some (.text value) := by
  rw [applyAll_append]
  exact (get?_applyAll_of_untouched _ h).trans (Entries.get?_put_self key _ _)

/-- A key that was cleared and not set since has no value. -/
theorem get?_applyAll_of_clear {ps : Preferences} (hl : Lossless (.object ps))
    (before : List Use) (key : String) {after : List Use}
    (h : ∀ u ∈ after, u.touches key = false) :
    Entries.get? key (applyAll ps (before ++ .clear key :: after)) = none := by
  rw [applyAll_append]
  have hbefore := lossless_applyAll hl before
  cases hbefore with
  | object hn hv => exact (get?_applyAll_of_untouched _ h).trans (Entries.get?_erase_self hn key)

end Preferences

namespace Session

open Preferences (Use stored? Swallows applyAll)

variable {s : Session} {ps : Preferences}

/-! ## Steps -/

/-- No step of a list is refused by the file system. -/
def Unrefused (s : Session) : List Step → Prop
  | [] => True
  | st :: steps => (∀ f, (s.step st).1 ≠ .error (.file f)) ∧ (s.step st).2.Unrefused steps

/-- A step whose action is not refused ends as that does. -/
theorem step_of_run {st : Step} {r : Result} {P : World → Prop}
    (hok : ∀ f, (s.step st).1 ≠ .error (.file f))
    (h : Preferences.Refused ((s.action st).run.run s.world) ∨
      ∃ w, (s.action st).run.run s.world = (.ok r, w) ∧ P w) :
    (s.step st).1 = .ok r ∧ P (s.step st).2.world := by
  have hfst : (s.step st).1 = ((s.action st).run.run s.world).1 := rfl
  rcases h with ⟨f, hf⟩ | ⟨w, hr, hw⟩
  · exact absurd (hfst.trans hf) (hok f)
  · rw [hfst, world_step, hr]
    exact ⟨rfl, hw⟩

/-- A use that the file system does not refuse gives what it gives of a map, and what is stored
becomes what it makes of that. The files stay as they are unless it writes. -/
theorem step_use (h : stored? s.world = some ps) (hs : ¬Swallows s.world)
    (hl : Lossless (.object ps)) {u : Use} (hok : ∀ f, (s.step u.step).1 ≠ .error (.file f)) :
    (s.step u.step).1 = .ok (u.result ps) ∧
      stored? (s.step u.step).2.world = some (u.apply ps) ∧ ¬Swallows (s.step u.step).2.world ∧
      (u.writes ps = false → (s.step u.step).2.world.files = s.world.files) := by
  refine step_of_run (P := fun w => stored? w = some (u.apply ps) ∧ ¬Swallows w ∧
    (u.writes ps = false → w.files = s.world.files)) hok ?_
  cases u with
  | get key =>
    rcases Preferences.run_value? h key with hr | hr
    · exact .inl (Preferences.refused_bind hr)
    · exact .inr ⟨_, run_bind_of_ok hr _, h, hs, fun _ => rfl⟩
  | set key value =>
    rcases Preferences.run_put h hs hl key value with hr | ⟨w, hr, hw, hn⟩
    · exact .inl (Preferences.refused_bind hr)
    · exact .inr ⟨w, run_bind_of_ok hr _, hw, hn, nofun⟩
  | clear key =>
    cases hk : Entries.get? key ps with
    | none =>
      have hsame : Use.apply ps (.clear key) = ps := Entries.erase_of_get?_eq_none hk
      rcases Preferences.run_clear_of_none h hk with hr | ⟨logs, hr⟩
      · exact .inl (Preferences.refused_bind hr)
      · refine .inr ⟨_, run_bind_of_ok hr _, ?_, hs, fun _ => rfl⟩
        rw [hsame]
        exact h
    | some value =>
      have hwrites : Use.writes ps (.clear key) = true := by
        rw [Use.writes, Entries.has, hk, Option.isSome_some]
      rcases Preferences.run_clear_of_some h hs hl hk with hr | ⟨w, hr, hw, hn⟩
      · exact .inl (Preferences.refused_bind hr)
      · refine .inr ⟨w, run_bind_of_ok hr _, hw, hn, fun hidle => ?_⟩
        rw [hwrites] at hidle
        cases hidle

/-- A use behaves as that of a map does: it gives the value of its key, keeps the place of the key
that it sets or adds it at the end, and leaves all files as they are if there is nothing to clear.
-/
def Behaves (s : Session) (ps : Preferences) (u : Use) : Prop :=
  let later := s.step u.step
  match u with
  | .get key => later.1 = .ok (.preference (Entries.get? key ps)) ∧
    later.2.world.files = s.world.files
  | .set key value => later.1 = .ok .nothing ∧
    ∃ qs, stored? later.2.world = some qs ∧ Entries.get? key qs = some (.text value) ∧
      qs.map Prod.fst = if Entries.has key ps then ps.map Prod.fst else ps.map Prod.fst ++ [key]
  | .clear key => later.1 = .ok .nothing ∧
    (Entries.get? key ps = none → later.2.world.files = s.world.files)

theorem behaves_of_stored? (h : stored? s.world = some ps) (hs : ¬Swallows s.world)
    (hl : Lossless (.object ps)) {u : Use} (hok : ∀ f, (s.step u.step).1 ≠ .error (.file f)) :
    s.Behaves ps u := by
  obtain ⟨hresult, hnext, -, hfiles⟩ := step_use h hs hl hok
  cases u with
  | get key => exact ⟨hresult, hfiles rfl⟩
  | set key value =>
    exact ⟨hresult, _, hnext, Entries.get?_put_self _ _ _, Entries.keys_put _ _ _⟩
  | clear key =>
    refine ⟨hresult, fun hk => hfiles ?_⟩
    rw [Use.writes, Entries.has, hk, Option.isSome_none]

/-! ## Runs -/

/-- What is stored after any uses is what they make of the map, one after the other. -/
theorem stored?_after_uses (h : stored? s.world = some ps) (hs : ¬Swallows s.world)
    (hl : Lossless (.object ps)) {uses : List Use} (hok : s.Unrefused (uses.map Use.step)) :
    stored? (s.after (uses.map Use.step)).world = some (applyAll ps uses) ∧
      ¬Swallows (s.after (uses.map Use.step)).world := by
  induction uses generalizing s ps with
  | nil => exact ⟨h, hs⟩
  | cons u us ih =>
    obtain ⟨hu, hus⟩ := hok
    obtain ⟨-, hstored, hn, -⟩ := step_use h hs hl hu
    exact ih hstored hn (u.lossless_apply hl) hus

/-- The preferences file behaves as a map in insertion order. After any uses of a file that is
missing, or holds an object without decimals, and is not about to be a device, the value of a key is
the one that it was last set to, there is none if it was cleared since or there never was one, and
keys that were not touched keep their values and their order. The next use gives the value of its
key, or changes it: setting a key keeps its place, or adds it at the end, and clearing one that has
no value leaves all files as they are. -/
theorem preferences_refine {initial : Preferences} (h : stored? s.world = some initial)
    (hs : ¬Swallows s.world) (hd : WithoutDecimals (.object initial)) {uses : List Use}
    (hok : s.Unrefused (uses.map Use.step)) :
    let t := s.after (uses.map Use.step)
    ∃ ps, stored? t.world = some ps ∧
      (∀ before key value after, uses = before ++ .set key value :: after →
        (∀ u ∈ after, u.touches key = false) → Entries.get? key ps = some (.text value)) ∧
      (∀ before key after, uses = before ++ .clear key :: after →
        (∀ u ∈ after, u.touches key = false) → Entries.get? key ps = none) ∧
      (∀ key, (∀ u ∈ uses, u.touches key = false) →
        Entries.get? key ps = Entries.get? key initial) ∧
      ps.filter (fun e => uses.all fun u => !u.touches e.1) =
        initial.filter (fun e => uses.all fun u => !u.touches e.1) ∧
      ∀ u : Use, (∀ f, (t.step u.step).1 ≠ .error (.file f)) → t.Behaves ps u := by
  intro t
  have hl := Preferences.lossless_of_stored? h hd
  obtain ⟨hstored, hn⟩ := stored?_after_uses h hs hl hok
  refine ⟨applyAll initial uses, hstored, ?_, ?_, ?_, ?_, fun u hu => ?_⟩
  · rintro before key value after rfl ha
    exact Preferences.get?_applyAll_of_set initial before key value ha
  · rintro before key after rfl ha
    exact Preferences.get?_applyAll_of_clear hl before key ha
  · exact fun key hkey => Preferences.get?_applyAll_of_untouched initial hkey
  · refine Preferences.filter_applyAll initial (fun key => uses.all fun u => !u.touches key)
      fun u hu key htouch => ?_
    rw [List.all_eq_false]
    exact ⟨u, hu, by simp [htouch]⟩
  · exact behaves_of_stored? hstored hn (Preferences.lossless_applyAll hl uses) hu

/-- Two preferences, of which the first is a number. -/
def samplePreferences : Preferences := [("a", .integer 1), ("b", .text "x")]

theorem lossless_samplePreferences : Lossless (.object samplePreferences) := by
  have hshort : Json.Short 1 := Nat.lt_of_lt_of_le (by decide : 1 < tenTo 1) (tenTo_le (by decide))
  refine .object (by decide) fun f hf => ?_
  rcases List.mem_cons.mp hf with rfl | hf
  · exact .integer hshort
  · rw [List.mem_singleton.mp hf]
    exact .text "x"

/-- A process whose preferences file holds them. -/
def sampleWorld : World where
  files := {
    entries := [
      (["h"], .folder), (["h", ".config"], .folder), (["h", ".config", "secretctl"], .folder),
      (["h", ".config", "secretctl", "preferences.json"],
        .file (Utf8.encode (Preferences.text samplePreferences)))] }
  here := []
  home := "/h"
  reader := Config.readDocument

theorem stored?_sampleWorld : stored? (ofWorld sampleWorld).world = some samplePreferences := by
  obtain ⟨hplain, hparse⟩ := Preferences.parse_text lossless_samplePreferences
  have hfind : sampleWorld.files.find [] "/h/.config/secretctl/preferences.json" =
      .ok (.entry ["h", ".config", "secretctl", "preferences.json"]
        (.file (Utf8.encode (Preferences.text samplePreferences)))) := by
    rfl
  exact Preferences.stored?_of_find hfind (Utf8.decode_encode_of_plain hplain) hparse

/-- Setting the first one to a text keeps the other one, and clearing a third changes no file. -/
theorem preferences_of_sampleWorld :
    let t := (ofWorld sampleWorld).after ([.set "a" "y"].map Use.step)
    ∃ ps, stored? t.world = some ps ∧ Entries.get? "a" ps = some (.text "y") ∧
      Entries.get? "b" ps = some (.text "x") ∧ (t.step (Use.clear "c").step).1 = .ok .nothing ∧
      (t.step (Use.clear "c").step).2.world.files = t.world.files := by
  have hswallows : ¬Swallows (ofWorld sampleWorld).world :=
    Preferences.not_swallows_of_stored? stored?_sampleWorld (by decide +kernel) (by decide +kernel)
  have hset : ((ofWorld sampleWorld).step (Use.set "a" "y").step).1.toOption.isSome = true := by
    decide +kernel
  have hclear : (((ofWorld sampleWorld).after ([.set "a" "y"].map Use.step)).step
      (Use.clear "c").step).1.toOption.isSome = true := by
    decide +kernel
  have hgood : ∀ {r : Except Fault Result}, r.toOption.isSome = true →
      ∀ f, r ≠ .error (.file f) := by
    rintro r h f rfl
    cases h
  have hunrefused : (ofWorld sampleWorld).Unrefused ([.set "a" "y"].map Use.step) := by
    rw [List.map_singleton]
    exact ⟨hgood hset, trivial⟩
  have hrefine := preferences_refine stored?_sampleWorld hswallows
    lossless_samplePreferences.withoutDecimals hunrefused
  generalize (ofWorld sampleWorld).after ([.set "a" "y"].map Use.step) = t at hclear hrefine ⊢
  obtain ⟨ps, hstored, hlast, -, hkept, -, hnext⟩ := hrefine
  have ha : Entries.get? "a" ps = some (.text "y") := hlast [] "a" "y" [] rfl nofun
  have hb : Entries.get? "b" ps = some (.text "x") := hkept "b" (by decide)
  have hc : Entries.get? "c" ps = none := hkept "c" (by decide)
  obtain ⟨hresult, hfiles⟩ := hnext (.clear "c") (hgood hclear)
  exact ⟨ps, hstored, ha, hb, hresult, hfiles hc⟩

end Session

end CloudSecrets
