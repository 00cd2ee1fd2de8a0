import CloudSecrets.Proofs.Config.Mishap

/-!
# Selecting the configuration file

The preference that names the configuration file is whatever JSON value stands at its key. `selected`
is the rule for it: a text that is not empty and leads to something is the path, else the default
path is, if something is there. The search follows that rule exactly unless it is stopped on the way:
by a preference that counts as given and is no text, or by a path about which nothing can be told
(`place_selects_iff`).
-/

namespace CloudSecrets

open CloudSecrets.Action

namespace Preferences

variable {w : World} {held : Option Json}

/-- What the preferences file holds: nothing if nothing is there, or the JSON value that its octets
write. -/
inductive Holds (w : World) : Option Json → Prop where
  | missing (h : w.files.exists? w.here (file w.home).text = false) : Holds w none
  | value {l : Location} {bytes : Bytes} {cs : List Char} {j : Json}
    (hf : w.files.find w.here (file w.home).text = .ok (.entry l (.file bytes)))
    (hd : Utf8.decode bytes = .ok cs) (hj : Json.parse (Text.unifyLineEnds cs) = .ok j) :
    Holds w (some j)

/-- The preferences in what a file holds: the fields of an object, else none. -/
def fieldsOf : Option Json → Preferences
  | some (.object fields) => fields
  | _ => []

/-- Octets that write a value hold its fields. -/
theorem contents_of_parse {bytes : Bytes} {cs : List Char} {j : Json}
    (hd : Utf8.decode bytes = .ok cs) (hj : Json.parse (Text.unifyLineEnds cs) = .ok j) :
    contents bytes = .ok (fieldsOf (some j)) := by
  rw [contents, hd]
  simp only [parse, hj, Except.map]
  cases j <;> rfl

/-- What the file holds is read, unless nothing can be told about its path. -/
theorem Holds.outcome_read (h : Holds w held)
    (hu : ¬w.files.Untold w.here (file w.home).text) : read.outcome w = .ok (fieldsOf held) := by
  cases h with
  | missing h => exact outcome_read_of_absent hu h
  | value hf hd hj =>
    rw [outcome_read_eq, outcome_pathExists_of_not_untold hu, hf]
    exact contents_of_parse hd hj

/-- Preferences that were written are held. -/
theorem holds_of_text {l : Location} {ps : Preferences}
    (hf : w.files.find w.here (file w.home).text = .ok (.entry l (.file (Utf8.encode (text ps)))))
    (h : Json.Lossless (.object ps)) : Holds w (some (.object ps)) := by
  obtain ⟨hplain, hparse⟩ := parse_text h
  obtain ⟨j, hj, hfields⟩ := Json.map_eq_ok hparse
  have hobject : j = .object ps := by
    cases j with
    | object fields => rw [Option.some.inj hfields]
    | _ => cases hfields
  exact .value hf (Utf8.decode_encode_of_plain hplain) (hobject ▸ hj)

end Preferences

namespace Config

open Preferences (Holds fieldsOf)

variable {w : World} {held : Option Json} {f : CloudSecrets.Fault}

/-! ## The preference -/

/-- The value that stands at the key of the configuration path. -/
def preferenceIn (held : Option Json) : Option Json := Entries.get? preferenceKey (fieldsOf held)

/-- The path that a preference writes if it is a text that is not empty. -/
def writtenPath? : Option Json → Option Path
  | some (.text s) => if s = "" then none else some (Path.ofText s)
  | _ => none

/-- Whether a preference counts as given although it is no text. -/
def Misshapen (preference : Option Json) : Prop :=
  ∃ j, preference = some j ∧ j.isGiven = true ∧ ∀ s, j ≠ .text s

/-- What a preference comes to: the path that it writes, unless it is misshapen. -/
theorem outcome_preferred_of_holds (h : Holds w held)
    (hu : ¬w.files.Untold w.here (Preferences.file w.home).text) :
    (∀ j, preferenceIn held = some j → j.isGiven = true → (∀ s, j ≠ .text s) →
      preferred.outcome w = .error (.notPath (jsonKind j))) ∧
    (¬Misshapen (preferenceIn held) →
      preferred.outcome w = .ok (writtenPath? (preferenceIn held))) := by
  have hvalue : (Preferences.value? preferenceKey).outcome w = .ok (preferenceIn held) := by
    rw [Preferences.outcome_value?, h.outcome_read hu]
    rfl
  obtain ⟨logs, hrun⟩ := (Preferences.looks_value? preferenceKey).run w
  rw [hvalue] at hrun
  rw [outcome, preferred, run_bind_of_ok hrun]
  constructor
  · intro j hj hg hn
    rw [hj]
    simp only [hg, if_true]
    cases j with
    | text s => exact absurd rfl (hn s)
    | _ => rfl
  · intro hm
    cases hp : preferenceIn held with
    | none => rfl
    | some j =>
      dsimp only
      cases hg : j.isGiven with
      | false =>
        cases j with
        | text s =>
          have hs : s = "" := by simpa [Json.isGiven] using hg
          rw [writtenPath?, if_pos hs]
          rfl
        | _ => rfl
      | true =>
        cases j with
        | text s =>
          have hs : s ≠ "" := by simpa [Json.isGiven] using hg
          rw [writtenPath?, if_neg hs]
          rfl
        | _ =>
          refine absurd ⟨_, hp, hg, fun s hs => ?_⟩ hm
          cases hs

/-! ## The rule -/

/-- The path to use: the one that the preference writes if something is there, else the default one if
something is there. -/
def selected (w : World) (preference : Option Json) : Except CloudSecrets.Fault String :=
  match (writtenPath? preference).filter fun p => w.files.exists? w.here p.text with
  | some p => .ok p.text
  | none =>
    if w.files.exists? w.here (usualPath w.home).text then .ok (usualPath w.home).text
    else .error (.config (.notFound (usualPath w.home).text))

/-- Why the search is stopped: nothing can be told about a path on which it depends, or the preference
counts as given and is no text. -/
inductive Stopped (w : World) (preference : Option Json) : CloudSecrets.Fault → Prop where
  | preferences (h : w.files.Untold w.here (Preferences.file w.home).text) :
    Stopped w preference (.file ⟨.nameTooLong, (Preferences.file w.home).text⟩)
  | notText {j : Json} (hu : ¬w.files.Untold w.here (Preferences.file w.home).text)
    (hj : preference = some j) (hg : j.isGiven = true) (hn : ∀ s, j ≠ .text s) :
    Stopped w preference (.notPath (jsonKind j))
  | preferred {p : Path} (hu : ¬w.files.Untold w.here (Preferences.file w.home).text)
    (hp : writtenPath? preference = some p) (h : w.files.Untold w.here p.text) :
    Stopped w preference (.file ⟨.nameTooLong, p.text⟩)
  | usual (hu : ¬w.files.Untold w.here (Preferences.file w.home).text)
    (hm : ¬Misshapen preference)
    (hp : ∀ p, writtenPath? preference = some p →
      ¬w.files.Untold w.here p.text ∧ w.files.exists? w.here p.text = false)
    (h : w.files.Untold w.here (usualPath w.home).text) :
    Stopped w preference (.file ⟨.nameTooLong, (usualPath w.home).text⟩)

/-- A search that is stopped selects nothing. -/
theorem Stopped.ne_selected {preference : Option Json} (h : Stopped w preference f) :
    selected w preference ≠ .error f := by
  intro hs
  rw [selected] at hs
  split at hs
  · cases hs
  · split at hs
    · cases hs
    · cases hs
      cases h

/-! ## The search -/

/-- The preferred path is taken if something is there, else the search goes on to the default path. -/
theorem outcome_place_of_preferred {q : Option Path} (hq : preferred.outcome w = .ok q)
    (htold : ∀ p, q = some p → ¬w.files.Untold w.here p.text) :
    place.outcome w = match q.filter fun p => w.files.exists? w.here p.text with
      | some p => .ok p.text
      | none => usualIfPresent.outcome w := by
  rw [outcome_place, hq]
  cases q with
  | none => simp only [bind, Except.bind, Option.filter_none]
  | some p =>
    simp only [bind, Except.bind, outcome_pathExists_of_not_untold (htold p rfl),
      Option.filter_some]
    cases w.files.exists? w.here p.text with
    | false => simp only [Bool.false_eq_true, if_false]
    | true => simp only [if_true]

theorem misshapen_of_writtenPath? {preference : Option Json} {p : Path}
    (h : writtenPath? preference = some p) : ¬Misshapen preference := by
  rintro ⟨j, rfl, -, hn⟩
  cases j with
  | text s => exact hn s rfl
  | _ => cases h

/-- A search that is stopped raises what stops it. -/
theorem outcome_place_of_stopped (h : Holds w held) (hf : Stopped w (preferenceIn held) f) :
    place.outcome w = .error f := by
  cases hf with
  | preferences hu =>
    have hread := Preferences.outcome_read_eq_error_iff.mpr (.untold hu)
    rw [outcome_place, outcome_preferred_of_unread hread]
    rfl
  | notText hu hj hg hn =>
    rw [outcome_place, (outcome_preferred_of_holds h hu).1 _ hj hg hn]
    rfl
  | preferred hu hp huntold =>
    have hpreferred := (outcome_preferred_of_holds h hu).2 (misshapen_of_writtenPath? hp)
    rw [outcome_place, hpreferred, hp]
    simp only [bind, Except.bind, outcome_pathExists_of_untold huntold]
  | usual hu hm hp huntold =>
    have hpreferred := (outcome_preferred_of_holds h hu).2 hm
    have hnone : (writtenPath? (preferenceIn held)).filter
        (fun p => w.files.exists? w.here p.text) = none := by
      rw [Option.filter_eq_none_iff]
      intro p hw
      rw [(hp p hw).2]
      exact Bool.false_ne_true
    rw [outcome_place_of_preferred hpreferred fun p hw => (hp p hw).1, hnone,
      outcome_usualIfPresent, outcome_pathExists_of_untold huntold]
    rfl

/-- A search that nothing stops follows the rule. -/
theorem outcome_place_of_not_stopped (h : Holds w held)
    (hnot : ∀ f, ¬Stopped w (preferenceIn held) f) :
    place.outcome w = selected w (preferenceIn held) := by
  have hu : ¬w.files.Untold w.here (Preferences.file w.home).text :=
    fun hu => hnot _ (.preferences hu)
  have hm : ¬Misshapen (preferenceIn held) := by
    rintro ⟨j, hj, hg, hn⟩
    exact hnot _ (.notText hu hj hg hn)
  have htold : ∀ p, writtenPath? (preferenceIn held) = some p → ¬w.files.Untold w.here p.text :=
    fun p hp huntold => hnot _ (.preferred hu hp huntold)
  rw [outcome_place_of_preferred ((outcome_preferred_of_holds h hu).2 hm) htold, selected]
  cases hfound : (writtenPath? (preferenceIn held)).filter
      fun p => w.files.exists? w.here p.text with
  | some p => rfl
  | none =>
    have husual : ¬w.files.Untold w.here (usualPath w.home).text := by
      intro huntold
      refine hnot _ (.usual hu hm (fun p hp => ⟨htold p hp, ?_⟩) huntold)
      exact Bool.eq_false_iff.mpr (Option.filter_eq_none_iff.mp hfound p hp)
    rw [outcome_usualIfPresent, outcome_pathExists_of_not_untold husual]
    simp only [bind, Except.bind]

/-- With preferences that can be read, or none, the search for the configuration file follows the rule
exactly if it is not stopped. If it is, it raises what stops it. -/
theorem place_selects_iff (h : Holds w held) :
    (place.outcome w = selected w (preferenceIn held) ↔ ∀ f, ¬Stopped w (preferenceIn held) f) ∧
    ∀ f, Stopped w (preferenceIn held) f → place.outcome w = .error f := by
  refine ⟨⟨fun hrule f hf => ?_, outcome_place_of_not_stopped h⟩,
    fun f => outcome_place_of_stopped h⟩
  exact hf.ne_selected (hrule.symm.trans (outcome_place_of_stopped h hf))

/-- A tree with a file in the root, one at the default place, and a preferences file. -/
def choosingTree (bytes : Bytes) : FileTree where
  entries := [
    (["c.yml"], .file []), (["h"], .folder), (["h", ".config"], .folder),
    (["h", ".config", "secretctl"], .folder),
    (["h", ".config", "secretctl", "config.yml"], .file []),
    (["h", ".config", "secretctl", "preferences.json"], .file bytes)]

/-- A process with a preference. -/
def choosingWorld (preference : Json) : World where
  files := choosingTree (Utf8.encode (Preferences.text [(preferenceKey, preference)]))
  here := []
  home := "/h"
  reader := readDocument

/-- The preferences file is found, whatever its octets are. -/
theorem find_choosingTree (bytes : Bytes) :
    (choosingTree bytes).find [] (Preferences.file "/h").text =
      .ok (.entry ["h", ".config", "secretctl", "preferences.json"] (.file bytes)) := by
  rfl

theorem holds_choosingWorld {preference : Json} (h : Json.Lossless preference) :
    Holds (choosingWorld preference) (some (.object [(preferenceKey, preference)])) := by
  refine Preferences.holds_of_text (find_choosingTree _) (.object (by simp) fun field hfield => ?_)
  rw [List.mem_singleton.mp hfield]
  exact h

/-- The text `/c.yml` is followed. The number 5 stops the search, although the rule gives the default
path. -/
theorem place_of_text_and_number :
    place.outcome (choosingWorld (.text "/c.yml")) = .ok "/c.yml" ∧
      place.outcome (choosingWorld (.integer 5)) = .error (.notPath "int") ∧
      selected (choosingWorld (.integer 5)) (some (.integer 5)) =
        .ok "/h/.config/secretctl/config.yml" := by
  have hpreferences (preference : Json) :
      ¬(choosingWorld preference).files.Untold [] (Preferences.file "/h").text := by
    rintro ⟨-, hf⟩
    cases hf
  have hthere (bytes : Bytes) :
      (choosingTree bytes).find [] "/c.yml" = .ok (.entry ["c.yml"] (.file [])) := by
    rfl
  have htext := place_selects_iff (holds_choosingWorld (.text "/c.yml"))
  have hshort : Json.Short 5 := Nat.lt_of_lt_of_le (by decide : 5 < tenTo 1) (tenTo_le (by decide))
  have hnumber := place_selects_iff (holds_choosingWorld (.integer hshort))
  refine ⟨?_, hnumber.2 _ (.notText (hpreferences _) rfl rfl nofun), ?_⟩
  · refine (htext.1.mpr ?_).trans (eq_ok_of_toOption (by decide +kernel))
    intro f hf
    cases hf with
    | preferences hu => exact hpreferences _ hu
    | notText _ hj _ hn =>
      cases hj
      exact hn _ rfl
    | preferred _ hp hu =>
      cases hp
      exact FileTree.not_untold_of_find (hthere _) hu
    | usual _ _ hp _ =>
      have hmissing := (hp _ rfl).2
      rw [FileTree.exists?, show (Path.ofText "/c.yml").text = "/c.yml" by decide] at hmissing
      cases hmissing
  · exact eq_ok_of_toOption (by decide +kernel)

end Config

end CloudSecrets
