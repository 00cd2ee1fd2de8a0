import CloudSecrets.Client
import CloudSecrets.Proofs.Action

/-!
# What stops binding

Everything that can stop a new client comes from the preferences, from the configuration, or from
the lack of a project in all of its sources. That a call is made without a project is none of it:
only an operation that builds a path stops for that reason.
-/

namespace CloudSecrets

open CloudSecrets.Action
open Yaml (Value)

/-- Every fault but that a call is made without a project. -/
def Fault.Bound (f : Fault) : Prop := f ≠ .config .unboundProject

theorem Action.stops_pathExists (path : String) : Stops Fault.Bound (pathExists path) :=
  Stops.get.bind fun _ => Stops.ofExcept fun _ _ => nofun

namespace Preferences

theorem stops_ignore (path why : String) : Stops Fault.Bound (ignore path why) :=
  (Stops.log _ _).bind fun _ => Stops.pure _

theorem stops_read : Stops Fault.Bound read := by
  refine Stops.get.bind fun w => (stops_pathExists _).bind fun found => ?_
  cases found with
  | false => exact Stops.pure _
  | true =>
    refine Stops.get.bind fun w => ?_
    split
    · exact stops_ignore _ _
    · split
      · exact Stops.stop nofun
      · split
        · exact Stops.pure _
        · exact (Stops.log _ _).bind fun _ => Stops.pure _
        · exact Stops.stop nofun
        · exact stops_ignore _ _

theorem stops_write (ps : Preferences) : Stops Fault.Bound (write ps) := by
  have hset (v : World) : Stops Fault.Bound (set v : Action Unit) := fun _ => Fails.ok ()
  refine Stops.get.bind fun w => ?_
  split
  · exact (hset _).bind fun _ => Stops.stop nofun
  · refine (hset _).bind fun _ => (Stops.ofExcept fun _ _ => nofun).bind fun files => ?_
    exact fun _ => Fails.ok ()

theorem stops_put (key value : String) : Stops Fault.Bound (put key value) :=
  stops_read.bind fun _ => (stops_write _).bind fun _ => Stops.log _ _

theorem stops_clear (key : String) : Stops Fault.Bound (clear key) := by
  refine stops_read.bind fun ps => ?_
  split
  · exact Stops.log _ _
  · exact (stops_write _).bind fun _ => Stops.log _ _

end Preferences

namespace Config

/-! ## Finding the configuration -/

theorem stops_preferred : Stops Fault.Bound preferred := by
  refine (Preferences.stops_read.bind fun _ => Stops.pure _).bind fun j => ?_
  cases j with
  | none => exact Stops.pure _
  | some j =>
    dsimp only
    split
    · refine Stops.map ?_ _
      cases j
      case text s => exact Stops.pure _
      all_goals exact Stops.stop nofun
    · exact Stops.pure _

theorem stops_usualIfPresent : Stops Fault.Bound usualIfPresent := by
  refine (Stops.get.bind fun _ => Stops.pure _).bind fun p => ?_
  refine (stops_pathExists _).bind fun found => ?_
  cases found with
  | false => exact Stops.stop nofun
  | true => exact (Stops.log _ _).bind fun _ => Stops.pure _

theorem stops_place : Stops Fault.Bound place := by
  refine stops_preferred.bind fun q => ?_
  cases q with
  | none => exact stops_usualIfPresent
  | some p =>
    refine (stops_pathExists _).bind fun found => ?_
    cases found with
    | false => exact (Stops.log _ _).bind fun _ => stops_usualIfPresent
    | true => exact (Stops.log _ _).bind fun _ => Stops.pure _

/-! ## Reading and checking it -/

theorem stops_readFile (reader : Reader) (path : String) :
    Stops Fault.Bound (readFile reader path) := by
  refine Stops.get.bind fun w => ?_
  split
  · exact Stops.stop nofun
  · refine Stops.ofExcept fun e _ => ?_
    cases e <;> exact nofun

theorem fails_shown (v : Value) : Fails Fault.Bound (shown v) := Fails.mapError (fun _ => nofun) _

theorem fails_entryAt (files : FileTree) (here : Location) (v : Value) :
    Fails Fault.Bound (entryAt files here v) := by
  have hdescriptor (n : Int) : Fails Fault.Bound (if descriptorRange.2 < n then
      .error (.descriptor true) else if n < descriptorRange.1 then .error (.descriptor false)
      else .ok (Entries.get? n files.descriptors)) := by
    split
    · exact Fails.error nofun
    · split
      · exact Fails.error nofun
      · exact Fails.ok _
  cases v with
  | text s => exact Fails.ok _
  | octets bs =>
    rw [entryAt]
    split
    · exact Fails.ok _
    · exact Fails.ok _
  | integer n => exact hdescriptor n
  | bool b => exact hdescriptor _
  | _ => exact Fails.error nofun

theorem fails_checkAuthentication (files : FileTree) (here : Location) (path : String)
    (auth : Value) : Fails Fault.Bound (checkAuthentication files here path auth) := by
  have haccount : Fails Fault.Bound (checkAccount files here path auth) := by
    rw [checkAccount]
    split
    · exact Fails.error nofun
    · refine (fails_entryAt _ _ _).bind fun found => ?_
      split
      · exact (fails_shown _).bind fun _ => Fails.error nofun
      · exact (fails_shown _).bind fun _ => Fails.error nofun
      · exact Fails.ok _
  rw [checkAuthentication]
  split
  · exact Fails.error nofun
  · split
    · exact Fails.error nofun
    · split
      · exact haccount
      · exact Fails.ok _
  · exact (fails_shown _).bind fun _ => Fails.error nofun

theorem fails_checkCloud (path : String) (v : Value) : Fails Fault.Bound (checkCloud path v) := by
  have htimeoutOf (v : Value) : Fails Fault.Bound (timeoutOf v) := by
    cases v with
    | integer n =>
      rw [timeoutOf]
      split
      · exact Fails.error nofun
      · exact Fails.ok _
    | _ => exact Fails.ok _
  have htimeout (cloud : Value) : Fails Fault.Bound (checkTimeout cloud) := by
    rw [checkTimeout]
    split
    · exact Fails.ok _
    · exact Fails.ok _
    · refine (htimeoutOf _).bind fun t => ?_
      cases t with
      | some t => exact Fails.ok _
      | none => exact (Fails.mapError (fun _ => nofun) _).bind fun _ => Fails.error nofun
  rw [checkCloud]
  split
  · split
    · exact Fails.error nofun
    · exact htimeout _
  · exact Fails.error nofun

theorem fails_check (files : FileTree) (here : Location) (path : String) (v : Value) :
    Fails Fault.Bound (check files here path v) := by
  rw [check]
  split
  · exact Fails.error nofun
  · split
    · exact Fails.error nofun
    · split
      · exact (Fails.error nofun).bind fun _ => fails_checkCloud path v
      · exact (fails_checkAuthentication _ _ _ _).bind fun _ => fails_checkCloud path v

theorem stops_loadWith (reader : Reader) : Stops Fault.Bound (loadWith reader) := by
  refine stops_place.bind fun path => (stops_readFile reader path).bind fun v => ?_
  refine Stops.get.bind fun w => (Stops.ofExcept (fails_check _ _ _ _)).bind fun _ => ?_
  refine (Stops.log _ _).bind fun _ => (Stops.ofExcept (fails_shown _)).bind fun _ => ?_
  refine (Stops.log _ _).bind fun _ => (Stops.ofExcept (fails_shown _)).bind fun _ => ?_
  exact (Stops.log _ _).bind fun _ => Stops.pure _

theorem stops_load : Stops Fault.Bound load := Stops.get.bind fun _ => stops_loadWith _

theorem stops_current : Stops Fault.Bound current := by
  have hexport (v : Value) : Stops Fault.Bound (exportAccount v) := by
    rw [exportAccount]
    split
    · split
      · exact Stops.bind (fun _ => Fails.ok _) fun _ => Stops.log _ _
      · exact Stops.stop nofun
    · exact Stops.pure _
  refine Stops.get.bind fun w => ?_
  split
  · exact Stops.pure _
  · refine stops_load.bind fun v => Stops.bind (fun _ => Fails.ok _) fun _ => ?_
    exact (hexport v).bind fun _ => Stops.pure _

end Config

/-! ## Binding a client -/

theorem Client.stops_new (c : Context) : Stops Fault.Bound (new c) := by
  have hproject : Stops Fault.Bound (resolveProject c.project) := by
    rw [resolveProject]
    split
    · exact Stops.pure _
    · refine Stops.bind (Stops.get.bind fun _ => Stops.pure _) fun o => ?_
      split
      · exact (Stops.log _ _).bind fun _ => Stops.pure _
      · refine Config.stops_current.bind fun v => ?_
        dsimp only
        split
        · exact Stops.stop nofun
        · exact (Stops.ofExcept (Config.fails_shown _)).bind fun _ =>
            (Stops.log _ _).bind fun _ => Stops.pure _
  have hconfigured : Stops Fault.Bound configuredTimeout := by
    refine Stops.tryCatch (Config.stops_current.bind fun _ => Stops.pure _) fun f hf => ?_
    split
    · exact (Stops.log _ _).bind fun _ => Stops.pure _
    · exact Stops.stop hf
  have htimeout : Stops Fault.Bound (resolveTimeout c.timeout) := by
    cases c.timeout with
    | none => exact hconfigured
    | some t =>
      rw [resolveTimeout]
      split
      · exact Stops.pure _
      · exact hconfigured
  refine hproject.bind fun p => htimeout.bind fun t => (Stops.log _ _).bind fun _ => ?_
  exact Stops.get.bind fun w => Stops.bind (fun _ => Fails.ok _) fun _ => Stops.pure _

end CloudSecrets
