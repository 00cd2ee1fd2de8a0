import CloudSecrets.Proofs.Config.Load

/-!
# Choosing the configuration file

Looking for the configuration file comes to the path that the preference names if something is
there, else to the default path if something is there, else to a fault (`outcome_place`). A path
along which a name is too long stops the search, as nothing can be told about it.
-/

namespace CloudSecrets

open CloudSecrets.Action

namespace FileTree

variable {t : FileTree} {here : Location} {path : String}

/-- Nothing can be told about a path if a name along it is too long, or if it is too long itself. -/
def Untold (t : FileTree) (here : Location) (path : String) : Prop :=
  holdsNull path = false ∧ t.find here path = .error .nameTooLong

theorem checked_of_untold {α : Type} (h : t.Untold here path) (answer : α) :
    t.checked here path answer = .error ⟨.nameTooLong, path⟩ := by
  rw [checked, h.1, h.2]
  rfl

theorem checked_of_not_untold {α : Type} (h : ¬t.Untold here path) (answer : α) :
    t.checked here path answer = .ok answer := by
  rw [checked]
  cases hn : holdsNull path with
  | true => rfl
  | false =>
    rw [if_neg Bool.false_ne_true]
    split
    · rename_i hf
      exact absurd ⟨hn, hf⟩ h
    · rfl

/-- Where a path leads something can be told about it. -/
theorem not_untold_of_find {f : Found} (h : t.find here path = .ok f) : ¬t.Untold here path := by
  rintro ⟨-, hf⟩
  rw [h] at hf
  cases hf

end FileTree

/-! ## Whether something is there -/

theorem Action.outcome_pathExists (path : String) (w : World) :
    (pathExists path).outcome w =
      (w.files.checked w.here path (w.files.exists? w.here path)).mapError .file := by
  rw [outcome, run_pathExists rfl]

theorem Action.run_pathExists_eq (path : String) (w : World) :
    (pathExists path).run.run w = ((pathExists path).outcome w, w) := by
  rw [outcome_pathExists, run_pathExists rfl]

theorem Action.outcome_pathExists_of_untold {path : String} {w : World}
    (h : w.files.Untold w.here path) :
    (pathExists path).outcome w = .error (.file ⟨.nameTooLong, path⟩) := by
  rw [outcome_pathExists, FileTree.checked_of_untold h]
  rfl

theorem Action.outcome_pathExists_of_not_untold {path : String} {w : World}
    (h : ¬w.files.Untold w.here path) :
    (pathExists path).outcome w = .ok (w.files.exists? w.here path) := by
  rw [outcome_pathExists, FileTree.checked_of_not_untold h]
  rfl

/-- What is told to be there is there. -/
theorem Action.exists?_of_outcome_pathExists {path : String} {w : World} {found : Bool}
    (h : (pathExists path).outcome w = .ok found) : w.files.exists? w.here path = found := by
  by_cases hu : w.files.Untold w.here path
  · rw [outcome_pathExists_of_untold hu] at h
    cases h
  · rw [outcome_pathExists_of_not_untold hu] at h
    exact Except.ok.inj h

namespace Config

/-! ## The place -/

/-- The default place is the default path if something is there. -/
theorem outcome_usualIfPresent (w : World) :
    usualIfPresent.outcome w = (pathExists (usualPath w.home).text).outcome w >>= fun found =>
      if found then .ok (usualPath w.home).text
      else .error (.config (.notFound (usualPath w.home).text)) := by
  have husual : usual.run.run w = (.ok (usualPath w.home), w) := rfl
  have hrun := run_pathExists_eq (usualPath w.home).text w
  rw [outcome, usualIfPresent, run_bind_of_ok husual]
  cases hf : (pathExists (usualPath w.home).text).outcome w with
  | error f =>
    rw [hf] at hrun
    rw [run_bind_of_error hrun]
    rfl
  | ok found =>
    rw [hf] at hrun
    rw [run_bind_of_ok hrun]
    cases found <;> rfl

/-! ## The path that is preferred -/

theorem outcome_preferred_of_unread {w : World} {f : CloudSecrets.Fault}
    (h : Preferences.read.outcome w = .error f) : preferred.outcome w = .error f := by
  obtain ⟨logs, hrun⟩ := Preferences.looks_read.run w
  rw [h] at hrun
  rw [outcome, preferred, Preferences.value?, bind_assoc, run_bind_of_error hrun]

/-- The value of the preference decides. -/
theorem run_value?_of_read {w : World} {ps : Preferences} (h : Preferences.read.outcome w = .ok ps) :
    ∃ logs, (Preferences.value? preferenceKey).run.run w =
      (.ok (Entries.get? preferenceKey ps), w.logging logs) := by
  obtain ⟨logs, hrun⟩ := Preferences.looks_read.run w
  rw [h] at hrun
  exact ⟨logs, run_bind_of_ok hrun _⟩

/-- Without a value nothing is preferred. -/
theorem outcome_preferred_of_unset {w : World} {ps : Preferences}
    (h : Preferences.read.outcome w = .ok ps) (hk : Entries.get? preferenceKey ps = none) :
    preferred.outcome w = .ok none := by
  obtain ⟨logs, hvalue⟩ := run_value?_of_read h
  rw [outcome, preferred, run_bind_of_ok hvalue, hk]
  rfl

/-- A text that is not empty is preferred as a path. -/
theorem outcome_preferred_of_text {w : World} {ps : Preferences} {s : String}
    (h : Preferences.read.outcome w = .ok ps)
    (hk : Entries.get? preferenceKey ps = some (.text s)) (hs : s ≠ "") :
    preferred.outcome w = .ok (some (Path.ofText s)) := by
  obtain ⟨logs, hvalue⟩ := run_value?_of_read h
  have hgiven : (Json.text s).isGiven = true := by
    simpa [Json.isGiven] using hs
  rw [outcome, preferred, run_bind_of_ok hvalue, hk]
  simp only [hgiven, if_true]
  rfl

/-! ## The place -/

/-- What the place of the configuration is, with a path that the preference names. -/
def placeAt (p : Path) : Action String := do
  if ← pathExists p.text then
    log .info s!"Using config from preference: {p.text}"
    return p.text
  else
    log .warning s!"Config path from preference doesn't exist: {p.text}"
    usualIfPresent

theorem looks_placeAt (p : Path) : Looks (placeAt p) := by
  refine (looks_pathExists _).bind fun found => ?_
  cases found with
  | false => exact (Looks.log _ _).bind fun _ => looks_usualIfPresent
  | true => exact (Looks.log _ _).bind fun _ => Looks.pure _

theorem outcome_placeAt (p : Path) (w : World) :
    (placeAt p).outcome w = (pathExists p.text).outcome w >>= fun found =>
      if found then .ok p.text else usualIfPresent.outcome w := by
  have hrun := run_pathExists_eq p.text w
  rw [outcome, placeAt]
  cases hf : (pathExists p.text).outcome w with
  | error f =>
    rw [hf] at hrun
    rw [run_bind_of_error hrun]
    rfl
  | ok found =>
    rw [hf] at hrun
    rw [run_bind_of_ok hrun]
    cases found with
    | true => rfl
    | false =>
      rw [if_neg Bool.false_ne_true, run_bind_of_ok (run_log _ _ _)]
      refine (looks_usualIfPresent.outcome_logging w _).trans ?_
      exact (pure_bind (m := Except CloudSecrets.Fault) false fun found =>
        if found = true then .ok p.text else usualIfPresent.outcome w).symm

/-- The place is the preferred path if there is one and something is there, else the default place.
-/
theorem outcome_place (w : World) :
    place.outcome w = preferred.outcome w >>= fun
      | none => usualIfPresent.outcome w
      | some p => (pathExists p.text).outcome w >>= fun found =>
        if found then .ok p.text else usualIfPresent.outcome w := by
  have hplace : place = preferred >>= fun q => q.elim usualIfPresent placeAt := by
    refine bind_congr fun q => ?_
    cases q <;> rfl
  have hlooks : ∀ q : Option Path, Looks (q.elim usualIfPresent placeAt) := by
    rintro (_ | p)
    · exact looks_usualIfPresent
    · exact looks_placeAt p
  rw [hplace, looks_preferred.outcome_bind hlooks]
  refine bind_congr fun q => ?_
  cases q with
  | none => rfl
  | some p => exact outcome_placeAt p w

end Config

end CloudSecrets
