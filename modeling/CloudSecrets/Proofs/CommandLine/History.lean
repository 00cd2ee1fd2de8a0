import CloudSecrets.Proofs.CommandLine.Frame
import CloudSecrets.Proofs.FileTree.Canonical

/-!
# Histories of runs

Runs follow one another, each a process of its own, and between them everything may change but the
preferences file. The path that was set last and has not been cleared since is remembered: after
every history the preferences file holds exactly this path, unless a run has brought a device to
light in its place (`remembers_of_history`).
-/

namespace CloudSecrets

open CloudSecrets.Action
open Json (Lossless)

namespace Preferences

variable {v w : World} {ps : Preferences} {k : Option String}

/-! ## The path that is remembered -/

/-- The preferences that set the path of the configuration, and nothing else. -/
def naming : Option String → Preferences
  | none => []
  | some q => [(Config.preferenceKey, .text q)]

theorem lossless_naming (k : Option String) : Lossless (.object (naming k)) := by
  cases k with
  | none => exact .object List.nodup_nil fun f hf => absurd hf List.not_mem_nil
  | some q =>
    refine .object (List.nodup_cons.mpr ⟨List.not_mem_nil, List.nodup_nil⟩) fun f hf => ?_
    rw [List.mem_singleton.mp hf]
    exact .text q

/-- The path that is named is stored where the text that names it stands. -/
theorem stored?_of_naming (h : present w = some (.file (Utf8.encode (text (naming k))))) :
    stored? w = some (naming k) := by
  obtain ⟨hplain, hparse⟩ := parse_text (lossless_naming k)
  obtain ⟨l, hf⟩ := find_of_present h
  exact stored?_of_find hf (Utf8.decode_encode_of_plain hplain) hparse

theorem put_naming (k : Option String) (q : String) :
    Entries.put Config.preferenceKey (.text q) (naming k) = naming (some q) := by
  cases k with
  | none => rfl
  | some old => simp only [naming, Entries.put, beq_self_eq_true, if_true]

theorem eq_none_of_naming (h : Entries.get? Config.preferenceKey (naming k) = none) : k = none := by
  cases k with
  | none => rfl
  | some q =>
    rw [naming, Entries.get?_cons, if_pos (beq_self_eq_true _)] at h
    cases h

theorem erase_naming (k : Option String) :
    Entries.erase Config.preferenceKey (naming k) = naming none := by
  cases k with
  | none => rfl
  | some q => simp only [naming, Entries.erase, beq_self_eq_true, if_true]

/-- What the preferences path may lead to if a path is remembered, or none is: to the file that says
so, to no file if none is, or to a device that has swallowed the file. -/
inductive Recalls : Option String → Option Entry → Prop where
  | file (k : Option String) : Recalls k (some (.file (Utf8.encode (text (naming k)))))
  | nothing {e : Option Entry} (h : ∀ content, e ≠ some (.file content)) : Recalls none e
  | device (k : Option String) : Recalls k (some .device)

/-- The preferences remember a path, or that there is none. -/
structure Remembers (w : World) (k : Option String) : Prop where
  recalls : Recalls k (present w)
  canonical : ∀ q, k = some q → Canonical q

theorem Remembers.congr (h : Remembers w k) (hv : present v = present w) : Remembers v k := by
  refine ⟨?_, h.canonical⟩
  rw [hv]
  exact h.recalls

/-- A path that is remembered is in the preferences file, unless a device is there. -/
theorem Remembers.present_eq {q : String} (h : Remembers w (some q))
    (hd : present w ≠ some .device) :
    present w = some (.file (Utf8.encode (text (naming (some q))))) := by
  have hr := h.recalls
  generalize present w = e at hr hd ⊢
  cases hr with
  | file => rfl
  | device => exact absurd rfl hd

/-- The path that is remembered is read, and nothing where a device is. -/
theorem Remembers.outcome_read (h : Remembers w k)
    (hu : ¬w.files.Untold w.here (file w.home).text) :
    (present w ≠ some .device → read.outcome w = .ok (naming k)) ∧
      (present w = some .device → read.outcome w = .ok (naming none)) := by
  have hempty (hno : ∀ content, present w ≠ some (.file content)) : read.outcome w = .ok [] :=
    outcome_read_of_no_file hu fun l content hf => hno content (present_of_find hf)
  have hr := h.recalls
  generalize hp : present w = e at hr hempty
  cases hr with
  | file => exact ⟨fun _ => Preferences.outcome_read hu (stored?_of_naming hp), nofun⟩
  | nothing hno => exact ⟨fun _ => hempty hno, fun _ => hempty hno⟩
  | device => exact ⟨fun hd => absurd rfl hd, fun _ => hempty nofun⟩

theorem Remembers.read_cases (h : Remembers w k) (hr : read.outcome w = .ok ps) :
    ps = naming k ∨ present w = some .device ∧ ps = naming none := by
  obtain ⟨hpath, hnone⟩ := h.outcome_read (stored?_of_read hr).1
  by_cases hd : present w = some .device
  · rw [hnone hd] at hr
    exact .inr ⟨hd, (Except.ok.inj hr).symm⟩
  · rw [hpath hd] at hr
    exact .inl (Except.ok.inj hr).symm

/-- What is remembered stays so where nothing is stored. -/
theorem Remembers.of_kept {t : FileTree} (h : Remembers w k) (hkept : Kept w t)
    (hv : present v = present { w with files := t }) : Remembers v k := by
  rcases hkept.present with hsame | ⟨hnone, hno⟩
  · exact h.congr (hv.trans hsame)
  · refine ⟨?_, h.canonical⟩
    have hrecalls := h.recalls
    rw [hnone] at hrecalls
    rw [hv]
    cases hrecalls with
    | nothing _ => exact .nothing hno

end Preferences

namespace CommandLine

open Preferences (Kept Stored Remembers Recalls Makeable present naming)

/-! ## Paths that are set -/

/-- What a path is resolved to is canonical: its links are resolved from the current folder. -/
theorem resolvePath_eq_ok {text q : String} {w : World}
    (h : (resolvePath text).outcome w = .ok q) :
    ∃ p, (expandHome (Path.ofText text)).outcome w = .ok p ∧
      q = w.files.canonical w.here p.text := by
  rw [outcome, resolvePath] at h
  rcases he : (expandHome (Path.ofText text)).run.run w with ⟨f | p, v⟩
  · rw [run_bind_of_error he] at h
    cases h
  · have hv := along_expandHome (Path.ofText text) w
    rw [he] at hv
    subst hv
    rw [run_bind_of_ok he] at h
    dsimp only at h
    split at h
    · cases h
    · rw [run_bind_of_ok (run_get _)] at h
      split at h
      · cases h
      · exact ⟨p, by rw [outcome, he], (Except.ok.inj h).symm⟩

theorem canonical_of_resolvePath {text q : String} {w : World}
    (h : (resolvePath text).outcome w = .ok q) : Canonical q := by
  obtain ⟨p, -, hq⟩ := resolvePath_eq_ok h
  rw [hq]
  exact FileTree.canonical_canonical _ _ _

/-- An absolute path does not name a home folder. -/
theorem outcome_expandHome {p : Path} (hp : p.root ≠ "") (w : World) :
    (expandHome p).outcome w = .ok p := by
  have hempty : p.root.isEmpty = false := by
    simpa using hp
  have hsame : p.expandHome? w.home w.homes = some p := by
    rw [Path.expandHome?]
    split
    · rename_i hroot _
      exact absurd hroot hp
    · rfl
  rw [outcome, expandHome, run_bind_of_ok (run_get w), hempty, Bool.false_and,
    if_neg Bool.false_ne_true, hsame]
  rfl

/-! ## Runs -/

/-- The path in the message that it has been set. -/
def announced (output : String) : String :=
  String.ofList (output.toList.drop "Config path set to: ".length).dropLast

theorem announced_message (q : String) : announced s!"Config path set to: {q}\n" = q := by
  have hout : (s!"Config path set to: {q}\n").toList =
      "Config path set to: ".toList ++ (q.toList ++ ['\n']) := by
    rw [← List.append_assoc]
    exact (String.toList_append ..).trans (congrArg (· ++ ['\n']) (String.toList_append ..))
  rw [announced, hout, ← String.length_toList, List.drop_left, List.dropLast_concat,
    String.ofList_toList]

/-- A run: the process that it starts, and its command line. -/
structure Turn where
  before : World
  args : List String

/-- How a run ends. -/
def Turn.ending (t : Turn) : Ending := run t.before t.args

/-- The path that is remembered after a run: the one that it told to be set, none if it has cleared
the path, and the one before otherwise. -/
def Turn.remembered (k : Option String) (t : Turn) : Option String :=
  match (read t.args).toOption.map Invocation.verb with
  | some (.setPath _) => if t.ending.exit = 0 then some (announced t.ending.output) else k
  | some .clearPath => if t.ending.exit = 0 then none else k
  | _ => k

/-- The path that is remembered after some runs. -/
def remembered (turns : List Turn) : Option String := turns.foldl Turn.remembered none

theorem present_of_stored {v w : World} {content : Bytes} {l : Location} {t : FileTree}
    (h : Stored w content l t) (hf : v.files = t) (hh : v.here = w.here) (hv : v.home = w.home) :
    present v = some (.file content) := by
  unfold present
  rw [hf, hh, hv, h.find]

/-- Preferences that have been stored, or swallowed, recall the path that they name. -/
theorem recalls_of_stored {v w : World} {k : Option String} {t : FileTree}
    (h : Kept w t ∧ present { w with files := t } = some .device ∨
      ∃ l, Stored w (Utf8.encode (Preferences.text (naming k))) l t)
    (hf : v.files = t) (hh : v.here = w.here) (hv : v.home = w.home) : Recalls k (present v) := by
  rcases h with ⟨-, hdevice⟩ | ⟨l, hl⟩
  · rw [Preferences.present_congr (w := { w with files := t }) hf hh hv, hdevice]
    exact .device k
  · rw [present_of_stored hl hf hh hv]
    exact .file k

section Turns

variable {w : World} {k : Option String}

/-- A path that is told to be set is remembered from then on. -/
theorem remembers_setPath {text : String} {code : Nat} {v : World} (hw : w.output = "")
    (h : Remembers w k) (hend : settle (setPath text) w = (code, v)) :
    Remembers v (if code = 0 then some (announced v.output) else k) := by
  rcases settle_setPath_cases text w with
    ⟨notes, t, hs, hkept⟩ | ⟨path, ps, t, logs, hpath, -, hps, hs, hcase⟩
  · rw [hend] at hs
    cases hs
    rw [if_neg Nat.one_ne_zero]
    exact h.of_kept hkept (Preferences.present_congr rfl rfl rfl)
  · have hnaming : Entries.put Config.preferenceKey (.text path) ps = naming (some path) := by
      rcases h.read_cases hps with rfl | ⟨-, rfl⟩
      · exact Preferences.put_naming k path
      · exact Preferences.put_naming none path
    have hout : (World.telling (World.logging { w with files := t } logs)
        s!"Config path set to: {path}\n").output =
          s!"Config path set to: {path}\n" := by
      change w.output ++ _ = _
      rw [hw, String.empty_append]
    rw [hnaming] at hcase
    rw [hend] at hs
    cases hs
    rw [if_pos rfl, hout, announced_message]
    refine ⟨recalls_of_stored hcase rfl rfl rfl, fun q hq => ?_⟩
    cases hq
    exact canonical_of_resolvePath hpath

/-- No path is remembered after it has been cleared. -/
theorem remembers_clearPath {code : Nat} {v : World} (h : Remembers w k)
    (hend : settle clearPath w = (code, v)) :
    Remembers v (if code = 0 then none else k) := by
  rcases settle_clearPath_cases w with
    ⟨notes, t, hs, hkept, -⟩ | ⟨ps, t, logs, hps, hs, hcase⟩
  · rw [hend] at hs
    cases hs
    rw [if_neg Nat.one_ne_zero]
    exact h.of_kept hkept (Preferences.present_congr rfl rfl rfl)
  · have hread := h.read_cases hps
    rw [hend] at hs
    cases hs
    rw [if_pos rfl]
    rcases hcase with ⟨rfl, hnone⟩ | ⟨-, hcase⟩
    · have hcleared : Remembers w none := by
        rcases hread with rfl | ⟨hdevice, -⟩
        · exact Preferences.eq_none_of_naming hnone ▸ h
        · exact ⟨hdevice ▸ .device none, fun q hq => by cases hq⟩
      exact hcleared.congr (Preferences.present_congr rfl rfl rfl)
    · have hnaming : Entries.erase Config.preferenceKey ps = naming none := by
        rcases hread with rfl | ⟨-, rfl⟩
        · exact Preferences.erase_naming k
        · rfl
      rw [hnaming] at hcase
      exact ⟨recalls_of_stored hcase rfl rfl rfl, fun q hq => by cases hq⟩

/-- A run keeps what is remembered, or sets or clears it. -/
theorem remembers_turn {t : Turn} (hw : t.before.Fresh) (h : Remembers t.before k) :
    Remembers t.ending.world (t.remembered k) := by
  obtain ⟨w, args⟩ := t
  rw [Turn.remembered, Turn.ending]
  rcases run_cases w args with
    ⟨hother, hstill⟩ | ⟨i, exit, v, hr, hrun, ⟨text, hv, hend⟩ | ⟨hv, hend⟩⟩
  · have hkept : Remembers (run w args).world k :=
      h.congr (Preferences.present_congr hstill.files hstill.here hstill.home)
    split
    · rename_i text hv
      obtain ⟨i, hi, hv⟩ := Option.map_eq_some_iff.mp hv
      exact absurd hv ((hother i (eq_ok_of_toOption hi)).1 text)
    · rename_i hv
      obtain ⟨i, hi, hv⟩ := Option.map_eq_some_iff.mp hv
      exact absurd hv (hother i (eq_ok_of_toOption hi)).2
    · exact hkept
  · rw [hr, Except.toOption, Option.map_some, hv, hrun]
    exact remembers_setPath hw.output h hend
  · rw [hr, Except.toOption, Option.map_some, hv, hrun]
    exact remembers_clearPath h hend

end Turns

/-! ## Histories -/

/-- A process that starts when another has ended: since then everything may have changed but what the
preferences path leads to. -/
structure Follows (w v : World) : Prop where
  fresh : v.Fresh
  present : present v = present w

/-- Runs that follow one another, and the world after the last. -/
inductive History (start : World) : List Turn → World → Prop where
  | nothing : History start [] start
  | turn {turns : List Turn} {w : World} {t : Turn} (before : History start turns w)
      (follows : Follows w t.before) : History start (turns ++ [t]) t.ending.world

/-- After every history that starts without preferences the path is remembered that was set last
and not cleared since. -/
theorem remembers_of_history {start w : World} {turns : List Turn} (hs : present start = none)
    (h : History start turns w) : Remembers w (remembered turns) := by
  induction h with
  | nothing =>
    refine ⟨?_, fun q hq => by cases hq⟩
    rw [hs]
    exact .nothing nofun
  | @turn turns w t before follows ih =>
    rw [remembered, List.foldl_append]
    exact remembers_turn follows.fresh (ih.congr follows.present)

/-- A run brings no device to light where the settings folder can be made. -/
theorem not_device_of_turn {t : Turn} (hc : t.before.files.Closed) (hm : Makeable t.before)
    (h : present t.before ≠ some .device) : present t.ending.world ≠ some .device := by
  obtain ⟨hhere, hhome⟩ := folders_run t.before t.args
  rcases (leaves_run t.before t.args).1 with hkept | ⟨-, content, l, hl⟩
  · rw [Turn.ending, Preferences.present_congr (hkept.eq_of_makeable hc hm) hhere hhome]
    exact h
  · rw [Turn.ending, present_of_stored hl rfl hhere hhome]
    nofun

/-- No history that starts without preferences brings a device to light if the settings folder can
be made whenever a run starts. -/
theorem not_device_of_history {start w : World} {turns : List Turn} (hs : present start = none)
    (h : History start turns w)
    (hm : ∀ t ∈ turns, t.before.files.Closed ∧ Makeable t.before) :
    present w ≠ some .device := by
  induction h with
  | nothing =>
    rw [hs]
    nofun
  | @turn turns w t before follows ih =>
    obtain ⟨hc, hmakeable⟩ := hm t List.mem_concat_self
    refine not_device_of_turn hc hmakeable ?_
    rw [follows.present]
    exact ih fun u hu => hm u (List.mem_append_left _ hu)

end CommandLine

end CloudSecrets
