import CloudSecrets.Proofs.CommandLine.Show
import CloudSecrets.Proofs.Label

/-!
# Misuse

A run exits with 2 for a misuse of its command line, for a group in which nothing was chosen, and
for a creation with a malformed label. All of them are found before anything is done, so such a run
changes nothing and calls nobody, and only tells (`misuse_precedes_effects`).
-/

namespace CloudSecrets.CommandLine

open CloudSecrets.Action

/-! ## What verbs exit with -/

/-- A verb that uses the service exits with 0, if nothing stops it. -/
theorem gives_onClient (c : Context) (op : Client → Action String) :
    Gives (· = 0) (onClient c op) :=
  Gives.bind fun _ => Gives.bind fun _ => Gives.bind fun _ => Gives.pure rfl

theorem gives_setPath (text : String) : Gives (· ≤ 1) (setPath text) := by
  refine Gives.bind fun path => Gives.bind fun found => ?_
  split
  · exact Gives.bind fun _ => Gives.pure le_rfl
  · exact Gives.bind fun _ => Gives.bind fun _ => Gives.pure (Nat.zero_le 1)

theorem gives_showPath : Gives (· = 0) showPath := by
  have hshow (path source : String) : Gives (· = 0) (showAt path source) :=
    Gives.bind fun _ => Gives.bind fun _ => Gives.bind fun _ => Gives.pure rfl
  rw [showPath_eq]
  refine Gives.bind fun q => ?_
  cases q with
  | none => exact Gives.bind fun p => hshow _ _
  | some p => exact hshow _ _

theorem gives_clearPath : Gives (· = 0) clearPath :=
  Gives.bind fun _ => Gives.bind fun _ => Gives.bind fun _ => Gives.pure rfl

/-- A creation whose labels cannot be read tells so before it makes a client. -/
theorem run_create_of_malformed {entries : List Supplied} {entry : String}
    (h : Labels.parse entries = .error (.malformed entry)) (context : Context) (name : String)
    (username password description : Supplied) (w : World) :
    (create context name username password description entries).run.run w =
      (.ok 2, { w with notes := w.notes ++ [.printed (Labels.malformedMessage entry)] }) := by
  rw [create, h]
  rfl

/-- Only telling has been done when a verb exits with 2. -/
theorem world_of_exit_two {context : Context} {verb : Verb} {v w : World}
    (h : (perform context verb).run.run w = (.ok 2, v)) :
    ∃ notes output, v = { w with notes := notes, output := output } := by
  cases hop : verb.operation? with
  | some op =>
    rw [perform_eq hop] at h
    cases gives_onClient context op _ _ _ h
  | none =>
    cases verb with
    | help c =>
      cases h
      exact ⟨_, _, rfl⟩
    | create name username password description entries =>
      rw [Verb.operation?] at hop
      cases hl : Labels.parse entries with
      | ok labels =>
        rw [hl] at hop
        cases hop
      | error fault =>
        cases fault with
        | malformed entry =>
          rw [perform, run_create_of_malformed hl] at h
          cases h
          exact ⟨_, _, rfl⟩
        | notText =>
          rw [perform, create, hl] at h
          cases h
    | inspect id => cases hop
    | list => cases hop
    | delete name recover => cases hop
    | version => cases h
    | setPath path => exact absurd (gives_setPath path _ _ _ h) (by decide)
    | showPath => cases gives_showPath _ _ _ h
    | clearPath => cases gives_clearPath _ _ _ h

/-- A run that exits with 2 has only told so. -/
theorem world_of_misuse {w : World} {args : List String} (h : (run w args).exit = 2) :
    ∃ notes output, (run w args).world = { w with notes := notes, output := output } := by
  cases hr : read args with
  | error s =>
    rw [run, hr]
    cases s <;> exact ⟨w.notes, w.output, rfl⟩
  | ok i =>
    rcases hrun : (perform i.context i.verb).run.run w with ⟨f | code, v⟩
    · rw [run_eq hr (settle_of_error hrun)] at h
      cases h
    · rw [run_eq hr (settle_of_ok hrun)] at h ⊢
      cases show code = 2 from h
      exact world_of_exit_two hrun

end CloudSecrets.CommandLine
