import CloudSecrets.Proofs.CommandLine.Perform
import CloudSecrets.Proofs.Config.Place

/-!
# Showing the place of the configuration

What is shown is the path that the preference names, or the default path without one, and whether
something is there. The search for the configuration goes on to the default path if nothing is at
the preferred one; what is shown does not. The two differ in that case only
(`show_agrees_unless_stale`).
-/

namespace CloudSecrets

open CloudSecrets.Action

namespace Config

/-- Whether the preference names a path at which nothing is. -/
def Stale (w : World) (q : Path) : Prop :=
  preferred.outcome w = .ok (some q) ∧ w.files.exists? w.here q.text = false

theorem run_usual (w : World) : usual.run.run w = (.ok (usualPath w.home), w) := rfl

/-- The configuration that is found is the preferred one, or it is the default one because there is
no preference or a stale one. Something is there. -/
theorem place_cases {w : World} {p : String} (h : place.outcome w = .ok p) :
    (pathExists p).outcome w = .ok true ∧
      ((∃ q, preferred.outcome w = .ok (some q) ∧ p = q.text) ∨
        p = (usualPath w.home).text ∧
          (preferred.outcome w = .ok none ∨
            ∃ q, Stale w q ∧ (pathExists q.text).outcome w = .ok false)) := by
  have husual : usualIfPresent.outcome w = .ok p →
      p = (usualPath w.home).text ∧ (pathExists p).outcome w = .ok true := by
    intro hu
    rw [outcome_usualIfPresent] at hu
    obtain ⟨found, hf, hu⟩ := bind_eq_ok.mp hu
    cases found with
    | false => cases hu
    | true =>
      cases hu
      exact ⟨rfl, hf⟩
  rw [outcome_place] at h
  obtain ⟨q, hq, h⟩ := bind_eq_ok.mp h
  cases q with
  | none =>
    obtain ⟨hp, hf⟩ := husual h
    exact ⟨hf, .inr ⟨hp, .inl hq⟩⟩
  | some q =>
    obtain ⟨found, hf, h⟩ := bind_eq_ok.mp h
    cases found with
    | true =>
      cases h
      exact ⟨hf, .inl ⟨q, hq, rfl⟩⟩
    | false =>
      obtain ⟨hp, hu⟩ := husual h
      exact ⟨hu, .inr ⟨hp, .inr ⟨q, ⟨hq, exists?_of_outcome_pathExists hf⟩, hf⟩⟩⟩

end Config

namespace CommandLine

/-- What is shown about a path. -/
def placeText (path source : String) (found : Bool) : String :=
  let note := if found then "" else " (file not found)"
  s!"Config path: {path}\n" ++ s!"Source: {source}{note}\n"

/-- Shows a path and where it comes from. -/
def showAt (path source : String) : Action Nat := do
  print s!"Config path: {path}\n"
  let note := if ← pathExists path then "" else " (file not found)"
  print s!"Source: {source}{note}\n"
  return 0

theorem showPath_eq : showPath = Config.preferred >>= fun q =>
    match q with
    | some p => showAt p.text "preference"
    | none => Config.usual >>= fun p => showAt p.text "default" := by
  refine bind_congr fun q => ?_
  cases q with
  | none => simp only [pure_bind, showAt]
  | some p => simp only [pure_bind, showAt]

theorem run_showAt {w : World} {path : String} {found : Bool}
    (hf : (pathExists path).outcome w = .ok found) (source : String) :
    (showAt path source).run.run w = (.ok 0, w.telling (placeText path source found)) := by
  -- Nothing is written in between, so what is there after the first line was there before it.
  have hlater (line : String) :
      (pathExists path).run.run (w.telling line) = (.ok found, w.telling line) := by
    have hsame : (pathExists path).outcome (w.telling line) = (pathExists path).outcome w :=
      (looks_pathExists _).outcome_eq ⟨rfl, rfl, rfl, rfl⟩
    rw [run_pathExists_eq, hsame, hf]
  have hprint (line : String) (v : World) : (print line).run.run v = (.ok (), v.telling line) := rfl
  rw [showAt, run_bind_of_ok (hprint _ _), run_bind_of_ok (hlater _), run_bind_of_ok (hprint _ _),
    World.telling_telling]
  rfl

/-- The path that is shown, and where it comes from. -/
def shownPlace (w : World) : Option Path → String × String
  | some p => (p.text, "preference")
  | none => ((Config.usualPath w.home).text, "default")

/-- The preferred or the default path is shown, with whether something is there. -/
theorem run_showPath {w : World} {q : Option Path} {found : Bool}
    (hq : Config.preferred.outcome w = .ok q)
    (hf : (pathExists (shownPlace w q).1).outcome w = .ok found) :
    ∃ logs, showPath.run.run w = (.ok 0,
      (w.logging logs).telling (placeText (shownPlace w q).1 (shownPlace w q).2 found)) := by
  obtain ⟨logs, hpreferred⟩ := Config.looks_preferred.run w
  rw [hq] at hpreferred
  have hf' : (pathExists (shownPlace w q).1).outcome (w.logging logs) = .ok found :=
    ((looks_pathExists _).outcome_logging w logs).trans hf
  refine ⟨logs, ?_⟩
  rw [showPath_eq, run_bind_of_ok hpreferred]
  cases q with
  | none =>
    dsimp only
    rw [run_bind_of_ok (Config.run_usual _)]
    exact run_showAt hf' _
  | some p => exact run_showAt hf' _

section Agreement

variable {w : World} {args : List String} {i : Invocation}

/-- A run that shows the place ends with 0 and prints nothing else. -/
theorem run_of_showPath (hw : w.output = "") (hr : read args = .ok i) (hv : i.verb = .showPath)
    {q : Option Path} {found : Bool} (hq : Config.preferred.outcome w = .ok q)
    (hf : (pathExists (shownPlace w q).1).outcome w = .ok found) :
    (run w args).exit = 0 ∧
      (run w args).output = placeText (shownPlace w q).1 (shownPlace w q).2 found := by
  obtain ⟨logs, hshow⟩ := run_showPath hq hf
  have hsettle := settle_of_ok hshow
  rw [show showPath = perform i.context i.verb by rw [hv]; rfl] at hsettle
  rw [run_eq hr hsettle]
  refine ⟨rfl, ?_⟩
  change w.output ++ _ = _
  rw [hw, String.empty_append]

/-- Showing the place of the configuration ends with 0 and names the path that is found, unless the
preference is stale. Then the default path is found, but the stale one is named and said to be
missing. -/
theorem show_agrees_unless_stale {p : String} (hw : w.output = "") (hr : read args = .ok i)
    (hv : i.verb = .showPath) (hp : Config.place.outcome w = .ok p) :
    (run w args).exit = 0 ∧
      ((¬∃ q, Config.Stale w q) → ∃ source ∈ ["preference", "default"],
        (run w args).output = placeText p source true) ∧
      ∀ q, Config.Stale w q → p = (Config.usualPath w.home).text ∧ q.text ≠ p ∧
        (run w args).output = placeText q.text "preference" false := by
  obtain ⟨hfound, ⟨q, hq, rfl⟩ | ⟨rfl, hq | ⟨q, hs, hf⟩⟩⟩ := Config.place_cases hp
  · obtain ⟨hexit, hout⟩ := run_of_showPath hw hr hv hq hfound
    refine ⟨hexit, fun _ => ⟨_, List.mem_cons_self, hout⟩, fun r hs => ?_⟩
    rw [Config.Stale, hq] at hs
    obtain ⟨⟨⟩, hnone⟩ := hs
    rw [exists?_of_outcome_pathExists hfound] at hnone
    cases hnone
  · obtain ⟨hexit, hout⟩ := run_of_showPath hw hr hv hq hfound
    refine ⟨hexit, fun _ => ⟨_, List.mem_cons_of_mem _ List.mem_cons_self, hout⟩, fun r hs => ?_⟩
    rw [Config.Stale, hq] at hs
    cases hs.1
  · obtain ⟨hexit, hout⟩ := run_of_showPath hw hr hv hs.1 hf
    refine ⟨hexit, fun hfresh => absurd ⟨q, hs⟩ hfresh, fun r hr => ?_⟩
    have hsame : r = q := by
      have hrq := hr.1.symm.trans hs.1
      cases hrq
      rfl
    subst hsame
    refine ⟨rfl, fun he => ?_, hout⟩
    have hnone := hs.2
    rw [he, exists?_of_outcome_pathExists hfound] at hnone
    cases hnone

/-- A process whose preference names a path at which nothing is, with a configuration at the default
place. -/
def staleWorld : World where
  files := {
    entries := [
      (["h"], .folder), (["h", ".config"], .folder), (["h", ".config", "secretctl"], .folder),
      (["h", ".config", "secretctl", "config.yml"], .file []),
      (["h", ".config", "secretctl", "preferences.json"],
        .file (Utf8.encode (Preferences.text [("config_path", .text "/gone")])))] }
  here := []
  home := "/h"
  reader := Config.readDocument

/-- The default path is found, but the one that is gone is shown. -/
theorem show_of_staleWorld :
    Config.place.outcome staleWorld = .ok "/h/.config/secretctl/config.yml" ∧
      (run staleWorld ["config", "show"]).output =
        "Config path: /gone\nSource: preference (file not found)\n" := by
  have hr : read ["config", "show"] = .ok ⟨0, ⟨none, none⟩, .showPath⟩ :=
    eq_ok_of_toOption (by decide +kernel)
  have hp : Config.place.outcome staleWorld = .ok "/h/.config/secretctl/config.yml" :=
    eq_ok_of_toOption (by decide +kernel)
  have hq : Config.preferred.outcome staleWorld = .ok (some (Path.ofText "/gone")) :=
    eq_ok_of_toOption (by decide +kernel)
  obtain ⟨-, -, hstale⟩ := show_agrees_unless_stale rfl hr rfl hp
  exact ⟨hp, (hstale _ ⟨hq, by decide +kernel⟩).2.2⟩

end Agreement

end CommandLine

end CloudSecrets
