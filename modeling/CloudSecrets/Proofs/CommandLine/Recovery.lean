import CloudSecrets.Proofs.CommandLine.Perform
import CloudSecrets.Proofs.CommandLine.Reading
import CloudSecrets.Proofs.CommandLine.Settings

/-!
# Recoverable deletions

A deletion with `--recover` among the words before the separator never deletes, however the words
are ordered and whatever else is among them. Conversely it lists and disables versions only if one
of those words is `--recover` or begins like it (`recoverable_delete_never_destroys`).
-/

namespace CloudSecrets.CommandLine

open CloudSecrets.Action
open Service (Calling)

/-! ## Reading a deletion -/

/-- A leaf is what is chosen last. -/
theorem Command.descend_leaf {c d : Command} (hc : c.choices = []) {s : Settings}
    {args : List String} {depth : Nat} {t : Taken}
    (h : Command.descend s args depth c = .ok (d, t)) : d = c ∧ c.takeAll s args = .ok t := by
  have hchoose (name : String) : c.choose? name = none := by
    rw [choose?, hc]
    rfl
  cases depth with
  | zero =>
    obtain ⟨u, hu, h⟩ := Action.bind_eq_ok.mp h
    cases h
    exact ⟨rfl, hu⟩
  | succ depth =>
    obtain ⟨u, hu, h⟩ := Action.bind_eq_ok.mp h
    rcases (settings_of_takeAll hu).choose_spec.2.2 with hnone | ⟨name, e, words, hname, -⟩
    · rw [hnone] at h
      cases h
      exact ⟨rfl, hu⟩
    · rw [hchoose] at hname
      cases hname

/-- The names of a deletion. -/
def deletionNames : List String := ["delete", "rm", "remove"]

/-- A deletion is recoverable if its words turn recovery on. -/
theorem read_deletion {verb : String} (hverb : verb ∈ deletionNames) {rest : List String}
    {i : Invocation} (h : read (verb :: rest) = .ok i) :
    ∃ ws name recover, Command.delete.words rest = .ok ws ∧ i.verb = .delete name recover ∧
      (recover = true ↔ .on .recover ∈ Command.delete.given none ws) := by
  have hnames : ∀ verb ∈ deletionNames,
      verb.toList.head? ≠ some '-' ∧ Command.program.choose? verb = some .delete := by decide
  have hname := hnames verb hverb
  cases hwords : Command.program.words rest with
  | error m =>
    have hstop : Command.program.words (verb :: rest) = .error m := by
      rw [Command.words_operand _ hname.1, hwords]
      rfl
    rw [read_of_words hstop] at h
    cases h
  | ok us =>
    have hnone : ∀ g ∈ ([] : List (Flag × String)),
        g.1 ∈ Command.program.flags ∧ g.1.takesValue = true :=
      fun g hg => absurd hg List.not_mem_nil
    have hprogram : Command.program.takeAll {} (verb :: rest) =
        .ok { settings := {}, chosen := some (.delete, rest) } :=
      Command.takeAll_group rfl hnone rfl hname.1 hname.2 hwords
    obtain ⟨c, t, hdescend, -, rfl⟩ := read_eq_ok h
    rw [deepest, Command.descend, hprogram] at hdescend
    obtain ⟨taken, htaken, hdescend⟩ := bind_eq_ok.mp hdescend
    cases htaken
    obtain ⟨⟨d, u⟩, hleaf, hdescend⟩ := bind_eq_ok.mp hdescend
    cases hdescend
    obtain ⟨rfl, htaken⟩ := Command.descend_leaf rfl hleaf
    obtain ⟨ws, hws, hs, -⟩ := Command.settings_of_takeAll htaken
    refine ⟨ws, _, _, hws, rfl, ?_⟩
    rw [Settings.recover_applyAll hs]
    exact or_iff_right Bool.false_ne_true

/-! ## Spelling recovery -/

/-- A text is `--r` or a longer beginning of `--recover`. -/
def BeginsRecover (cs : List Char) : Prop :=
  "--r".toList <+: cs ∧ cs <+: "--recover".toList

theorem beginsRecover_of_spelled? {start : List Char}
    (h : Command.delete.spelled? start = some .recover) : BeginsRecover start := by
  rw [Command.spelled?] at h
  have hstart : "--recover".toList = start := by
    simpa [Flag.spellings, Flag.short?, Flag.letter?, Flag.long, Flag.word] using
      List.find?_some h
  rw [← hstart]
  exact ⟨by decide, List.prefix_rfl⟩

/-- Two dashes alone could be the beginning of `--help` as well. -/
theorem beginsRecover_of_abbreviated {start : List Char} (hlong : isLong start = true)
    (h : Command.delete.abbreviated start = [.recover]) : BeginsRecover start := by
  have hmem : .recover ∈ Command.delete.abbreviated start := h ▸ List.mem_singleton_self _
  have hstart : start <+: "--recover".toList :=
    List.isPrefixOf_iff_prefix.mp (List.mem_filter.mp hmem).2
  have hlong_enough : ∀ n < 10, isLong ("--recover".toList.take n) = true →
      Command.delete.abbreviated ("--recover".toList.take n) = [.recover] →
      "--r".toList <+: "--recover".toList.take n := by decide
  have hlength : start.length < 10 := Nat.lt_succ_of_le hstart.length_le
  rw [List.prefix_iff_eq_take.mp hstart] at hlong h
  refine ⟨?_, hstart⟩
  rw [List.prefix_iff_eq_take.mp hstart]
  exact hlong_enough start.length hlength hlong h

/-- A word that switches recovery on begins its name, as nothing can be attached to a switch. -/
theorem beginsRecover_of_wordOf {text : String} {short : Bool} {attached : Option (List Char)}
    {b : Bundle} (hword : Command.delete.wordOf text = .ok (.flag text .recover short attached))
    (hbundle : Command.delete.bundle .recover short attached = .ok b) :
    BeginsRecover text.toList := by
  rcases Command.wordOf_eq_flag hword with
    ⟨start, hcut, hflag⟩ | ⟨letter, rest, -, hletter, -⟩
  · have hbegins : BeginsRecover start ∧ short = false := by
      rcases hflag with ⟨hspelled, hshort⟩ | ⟨habbreviated, hlong, hshort⟩
      · have hlong : isLong start = true := by
          obtain ⟨cs, hcs⟩ := (beginsRecover_of_spelled? hspelled).1
          rw [← hcs]
          rfl
        exact ⟨beginsRecover_of_spelled? hspelled, by rw [hshort, hlong]; rfl⟩
      · exact ⟨beginsRecover_of_abbreviated hlong habbreviated, hshort⟩
    obtain ⟨hbegins, rfl⟩ := hbegins
    cases attached with
    | none =>
      have htext : text.toList = start := by
        rw [cutAttached] at hcut
        split at hcut
        · cases hcut
        · exact congrArg Prod.fst hcut
      exact htext ▸ hbegins
    | some value => cases hbundle
  · cases (Command.lettered?_eq_some hletter).2

/-- In a deletion the switch for recovery is spelled by a beginning of its name. -/
theorem word_of_on_recover {rest : List String} {ws : List Word}
    (hws : Command.delete.words rest = .ok ws) (h : .on .recover ∈ Command.delete.given none ws) :
    ∃ word ∈ rest.takeWhile (· != "--"), BeginsRecover word.toList := by
  obtain ⟨text, f, short, attached, b, hmem, hb, hrecover⟩ :=
    (Command.mem_given h).resolve_left nofun
  obtain ⟨htext, hword⟩ := (Command.flag_mem_words hws).mp hmem
  obtain ⟨others, hflags, hothers⟩ := Command.flags_of_bundle hb
  have hf : f = .recover := by
    rw [hflags] at hrecover
    rcases List.mem_cons.mp hrecover with hf | hother
    · exact hf.symm
    · -- Only letters spell flags behind the first one.
      obtain ⟨letter, hletter⟩ := hothers _ hother
      cases (Command.lettered?_eq_some hletter).2
  subst hf
  exact ⟨text, htext, beginsRecover_of_wordOf hword hb⟩

/-- In a deletion the name of the switch turns recovery on. -/
theorem on_recover_of_mem {rest : List String} {ws : List Word}
    (hws : Command.delete.words rest = .ok ws) (h : "--recover" ∈ rest.takeWhile (· != "--")) :
    .on .recover ∈ Command.delete.given none ws := by
  have hword : Command.delete.wordOf "--recover" = .ok (.flag "--recover" .recover false none) := by
    rfl
  exact Command.on_mem_given (by decide) (by decide) ((Command.flag_mem_words hws).mpr ⟨h, hword⟩)

/-! ## Deletions -/

/-- The calls that a deletion makes if its words ask for them. -/
inductive Asked (rest : List String) : Service.Call → Prop where
  | connects : Asked rest .connected
  | deletes (h : "--recover" ∉ rest.takeWhile (· != "--")) (target : String)
      (timeout : Option Timeout) : Asked rest (.sent (.deleteSecret target) timeout)
  | lists (h : ∃ word ∈ rest.takeWhile (· != "--"), BeginsRecover word.toList)
      (target filter : String) (timeout : Option Timeout) :
      Asked rest (.sent (.listVersions target filter) timeout)
  | disables (h : ∃ word ∈ rest.takeWhile (· != "--"), BeginsRecover word.toList)
      (version : Option String) (timeout : Option Timeout) :
      Asked rest (.sent (.disableVersion version) timeout)

/-- A run of a deletion makes only calls that its words ask for. -/
theorem calling_deletion {verb : String} (hverb : verb ∈ deletionNames) (rest : List String)
    (w : World) : Calling (Asked rest) w (run w (verb :: rest)).world := by
  refine calling_run (fun i hr => ?_) w
  obtain ⟨ws, name, recover, hws, hv, hrecover⟩ := read_deletion hverb hr
  rw [hv]
  refine (Client.calling_new _).bind fun client => Along.bind ?_ fun _ => Along.pure 0
  refine Service.calling_delete .connects (fun hoff target _ => .deletes (fun hmem => ?_) target _)
    (fun hon target _ => .lists (word_of_on_recover hws (hrecover.mp hon)) target _ _)
    fun hon version => .disables (word_of_on_recover hws (hrecover.mp hon)) version _
  rw [hrecover.mpr (on_recover_of_mem hws hmem)] at hoff
  cases hoff

/-- A recoverable deletion never destroys. If `--recover` is among the words before the separator,
nothing is deleted; and unless `--recover` or a beginning of it from `--r` on is among them, no
version is listed or disabled. -/
theorem recoverable_delete_never_destroys {w : World} (hw : w.calls = []) {verb : String}
    (hverb : verb ∈ ["delete", "rm", "remove"]) (rest : List String) :
    let calls := (run w (verb :: rest)).world.calls
    ("--recover" ∈ rest.takeWhile (· != "--") →
        ∀ target timeout, .sent (.deleteSecret target) timeout ∉ calls) ∧
      ((∃ target filter timeout, .sent (.listVersions target filter) timeout ∈ calls) ∨
          (∃ version timeout, .sent (.disableVersion version) timeout ∈ calls) →
        ∃ word ∈ rest.takeWhile (· != "--"),
          "--r".toList <+: word.toList ∧ word.toList <+: "--recover".toList) := by
  have hasked {c : Service.Call} (hc : c ∈ (run w (verb :: rest)).world.calls) : Asked rest c :=
    (calling_deletion hverb rest w).mem hw hc
  refine ⟨fun hmem target timeout hc => ?_, ?_⟩
  · cases hasked hc with
    | deletes h => exact h hmem
  · rintro (⟨target, filter, timeout, hc⟩ | ⟨version, timeout, hc⟩)
    · cases hasked hc with
      | lists h => exact h
    · cases hasked hc with
      | disables h => exact h

/-- A process without files for which the environment names a project, and whose service lists one
version. -/
def versionedWorld : World where
  files := { entries := [] }
  here := []
  home := "/h"
  reader := Config.readDocument
  environment := [("GCP_PROJECT", "p")]
  script := [
    (.listVersions, [.items [.resource { name := some "projects/p/secrets/s/versions/1" }]])]

/-- The switch may stand behind the name: the version is disabled, and the secret stays. -/
theorem calls_of_recoverable_rm :
    let calls := (run versionedWorld ["rm", "s", "--recover"]).world.calls
    calls = [.connected, .sent (.listVersions "projects/p/secrets/s" "state:ENABLED") none,
        .sent (.disableVersion (some "projects/p/secrets/s/versions/1")) none] ∧
      (∀ target timeout, .sent (.deleteSecret target) timeout ∉ calls) ∧
      ∃ word ∈ ["s", "--recover"].takeWhile (· != "--"),
        "--r".toList <+: word.toList ∧ word.toList <+: "--recover".toList := by
  intro calls
  have hcalls : calls = [.connected,
      .sent (.listVersions "projects/p/secrets/s" "state:ENABLED") none,
      .sent (.disableVersion (some "projects/p/secrets/s/versions/1")) none] := by decide +kernel
  have hw : versionedWorld.calls = [] := rfl
  have hverb : "rm" ∈ ["delete", "rm", "remove"] := by decide
  obtain ⟨hnever, hspelled⟩ := recoverable_delete_never_destroys hw hverb ["s", "--recover"]
  have hlisted : .sent (.listVersions "projects/p/secrets/s" "state:ENABLED") none ∈ calls := by
    rw [hcalls]
    exact List.mem_cons_of_mem _ List.mem_cons_self
  exact ⟨hcalls, hnever (by decide), hspelled (.inl ⟨_, _, _, hlisted⟩)⟩

end CloudSecrets.CommandLine
