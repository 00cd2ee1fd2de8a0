import CloudSecrets.CommandLine.Reading
import CloudSecrets.Proofs.Action

/-!
# Words that are flags

A word of a command is a flag if it stands before the separator and spells the flag in full, begins
like its long spelling and like no other, or starts with its letter (`flag_mem_words`,
`wordOf_eq_flag`). Behind the letter of a switch other letters may spell more flags, which one word
then spells together (`flags_of_bundle`). All of them are flags of the command (`Spells.mem_flags`).
-/

namespace CloudSecrets.CommandLine

/-- The flags of a bundle, in order. -/
def Bundle.flags (b : Bundle) : List Flag := b.switches ++ [b.last]

namespace Command

/-- The flags among the words of a command are spelled before the separator. -/
theorem flag_mem_words {c : Command} {args : List String} {ws : List Word}
    (h : c.words args = .ok ws) {text : String} {f : Flag} {short : Bool}
    {attached : Option (List Char)} :
    .flag text f short attached ∈ ws ↔
      text ∈ args.takeWhile (· != "--") ∧ c.wordOf text = .ok (.flag text f short attached) := by
  induction args generalizing ws with
  | nil =>
    cases h
    simp
  | cons arg rest ih =>
    rw [words] at h
    split at h
    · rename_i hs
      cases h
      simp [eq_of_beq hs]
    · rename_i hs
      obtain ⟨w, hw, h⟩ := Action.bind_eq_ok.mp h
      obtain ⟨us, hus, h⟩ := Action.bind_eq_ok.mp h
      cases h
      have hne : (arg != "--") = true := by simpa using hs
      rw [List.takeWhile_cons, if_pos hne, List.mem_cons, List.mem_cons, ih hus, or_and_right]
      refine or_congr_left ⟨fun hf => ?_, fun hf => ?_⟩
      · subst hf
        cases text_wordOf hw
        exact ⟨rfl, hw⟩
      · obtain ⟨rfl, hword⟩ := hf
        rw [hw] at hword
        exact (Except.ok.inj hword).symm

/-- A word that is a flag spells it in full, begins like its long spelling and like no other, or
starts with its letter. -/
theorem wordOf_eq_flag {c : Command} {text : String} {f : Flag} {short : Bool}
    {attached : Option (List Char)} (h : c.wordOf text = .ok (.flag text f short attached)) :
    (∃ start, cutAttached text.toList = (start, attached) ∧
      (c.spelled? start = some f ∧ short = !isLong start ∨
        c.abbreviated start = [f] ∧ isLong start = true ∧ short = false)) ∨
    ∃ letter rest, text.toList = '-' :: letter :: rest ∧ c.lettered? letter = some f ∧
      short = true ∧ attached = some rest := by
  have hlike {candidates : List (Flag × Bool × Option (List Char))}
      (h : wordLike text candidates = .ok (.flag text f short attached)) :
      candidates = [(f, short, attached)] := by
    unfold wordLike at h
    split at h
    · split at h <;> cases h
    · cases h
      rfl
    · cases h
  rw [wordOf] at h
  split at h
  · unfold dashed at h
    rcases hcut : cutAttached text.toList with ⟨start, value⟩
    rw [hcut] at h
    dsimp only at h
    cases hs : c.spelled? start with
    | some g =>
      rw [hs] at h
      cases h
      exact .inl ⟨start, rfl, .inl ⟨hs, rfl⟩⟩
    | none =>
      rw [hs] at h
      dsimp only at h
      split at h
      · rename_i hlong
        have hsingle := hlike h
        obtain ⟨g, hg, hflag⟩ := List.map_eq_singleton_iff.mp hsingle
        cases hflag
        exact .inl ⟨start, rfl, .inr ⟨hg, hlong, rfl⟩⟩
      · split at h
        · rename_i letter rest htext
          obtain ⟨g, hg, hflag⟩ := List.map_eq_singleton_iff.mp (hlike h)
          cases hflag
          exact .inr ⟨letter, rest, htext, Option.toList_eq_singleton_iff.mp hg, rfl, rfl⟩
        · cases h
  · cases h

/-! ## Which flags they spell -/

theorem lettered?_eq_some {c : Command} {letter : Char} {f : Flag}
    (h : c.lettered? letter = some f) : f ∈ c.flags ∧ f.letter? = some letter := by
  rw [lettered?] at h
  exact ⟨List.mem_of_find?_eq_some h, by simpa using List.find?_some h⟩

/-- A command recognises only its own flags. -/
theorem flag_mem_of_wordOf {c : Command} {text : String} {f : Flag} {short : Bool}
    {attached : Option (List Char)} (h : c.wordOf text = .ok (.flag text f short attached)) :
    f ∈ c.flags := by
  rcases wordOf_eq_flag h with ⟨start, -, ⟨hf, -⟩ | ⟨hf, -⟩⟩ | ⟨letter, rest, -, hf, -⟩
  · exact List.mem_of_find?_eq_some hf
  · exact (List.mem_filter.mp (hf ▸ List.mem_singleton_self f : f ∈ c.abbreviated start)).1
  · exact (lettered?_eq_some hf).1

/-- The letters behind a switch spell the other flags of its bundle. -/
theorem flags_of_unbundle {c : Command} {f : Flag} {letters : List Char} {b : Bundle}
    (h : c.unbundle f letters = .ok b) :
    ∃ others, b.flags = f :: others ∧ ∀ g ∈ others, ∃ letter, c.lettered? letter = some g := by
  induction letters generalizing f b with
  | nil =>
    cases h
    exact ⟨[], rfl, nofun⟩
  | cons letter rest ih =>
    rw [unbundle] at h
    split at h
    · cases h
      exact ⟨[], rfl, nofun⟩
    · split at h
      · cases h
      · rename_i g hg
        cases hb : c.unbundle g rest with
        | error m =>
          rw [hb] at h
          cases h
        | ok b' =>
          rw [hb] at h
          cases h
          obtain ⟨others, hflags, hothers⟩ := ih hb
          refine ⟨g :: others, congrArg (f :: ·) hflags, fun f' hf' => ?_⟩
          rcases List.mem_cons.mp hf' with rfl | hf'
          · exact ⟨letter, hg⟩
          · exact hothers f' hf'

/-- A word spells its flag first. -/
theorem flags_of_bundle {c : Command} {f : Flag} {short : Bool} {attached : Option (List Char)}
    {b : Bundle} (h : c.bundle f short attached = .ok b) :
    ∃ others, b.flags = f :: others ∧ ∀ g ∈ others, ∃ letter, c.lettered? letter = some g := by
  cases attached with
  | none =>
    cases h
    exact ⟨[], rfl, nofun⟩
  | some value =>
    rw [bundle] at h
    split at h
    · cases h
      exact ⟨[], rfl, nofun⟩
    · split at h
      · exact flags_of_unbundle h
      · cases h

/-- A flag is spelled by one of the words, perhaps behind others in a bundle. -/
def Spells (c : Command) (ws : List Word) (f : Flag) : Prop :=
  ∃ text g short attached b, .flag text g short attached ∈ ws ∧
    c.bundle g short attached = .ok b ∧ f ∈ b.flags

theorem Spells.cons {c : Command} {ws : List Word} {f : Flag} (h : c.Spells ws f) (w : Word) :
    c.Spells (w :: ws) f := by
  obtain ⟨text, g, short, attached, b, hw, hb⟩ := h
  exact ⟨text, g, short, attached, b, List.mem_cons_of_mem _ hw, hb⟩

/-- The flags that words spell are those of their command. -/
theorem Spells.mem_flags {c : Command} {args : List String} {ws : List Word}
    (h : c.words args = .ok ws) {f : Flag} (hf : c.Spells ws f) : f ∈ c.flags := by
  obtain ⟨text, g, short, attached, b, hw, hb, hmem⟩ := hf
  have hword := ((flag_mem_words h).mp hw).2
  obtain ⟨others, hflags, hothers⟩ := flags_of_bundle hb
  rw [hflags] at hmem
  rcases List.mem_cons.mp hmem with rfl | hmem
  · exact flag_mem_of_wordOf hword
  · obtain ⟨letter, hletter⟩ := hothers f hmem
    exact (lettered?_eq_some hletter).1

end Command

end CloudSecrets.CommandLine
