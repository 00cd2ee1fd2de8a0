import CloudSecrets.CommandLine.Reading
import Mathlib.Data.List.Forall2

/-!
# Reading settings with attached values

A command line that gives every setting as `--flag=value` and its operand behind the separator is
read as it was meant, whatever the values and the operand are (`read_given`). Each command looks at
all words behind it, so the program sees those of the chosen command too; it cannot make sense of
them, but it refuses none (`exists_wordOf_given`) and hands them on unchanged.
-/

namespace CloudSecrets.CommandLine

/-! ## Words -/

/-- The word that gives a flag a value behind an equals sign. -/
def Flag.given (f : Flag) (value : String) : String := f.long ++ "=" ++ value

theorem Flag.toList_given (f : Flag) (value : String) :
    (f.given value).toList = f.long.toList ++ '=' :: value.toList := by
  rw [given, String.toList_append, String.toList_append, List.append_assoc]
  rfl

/-- The value starts behind the first equals sign, as no flag holds one. -/
theorem cutAttached_given (f : Flag) (value : String) :
    cutAttached (f.given value).toList = (f.long.toList, some value.toList) := by
  have hf : '=' ∉ f.long.toList := by cases f <;> decide
  rw [cutAttached, f.toList_given, Text.cutFirst_eq_some_iff.mpr ⟨rfl, hf⟩]

theorem ne_separator_of_mem {text : String} (h : '=' ∈ text.toList) : text ≠ "--" := by
  rintro rfl
  exact absurd h (by decide)

theorem given_ne_separator (f : Flag) (value : String) : f.given value ≠ "--" :=
  ne_separator_of_mem (by rw [f.toList_given]; exact List.mem_append_right _ List.mem_cons_self)

theorem Command.wordOf_given_eq (c : Command) (f : Flag) (value : String) :
    c.wordOf (f.given value) = c.dashed (f.given value) := by
  have hhead : ((f.given value).toList.head? == some '-') = true := by
    rw [f.toList_given]
    cases f <;> rfl
  rw [wordOf, hhead, if_pos rfl]

/-- A flag of a command with a value is a flag with a value. -/
theorem Command.wordOf_given {c : Command} {f : Flag} (hf : f ∈ c.flags) (value : String) :
    c.wordOf (f.given value) = .ok (.flag (f.given value) f false (some value.toList)) := by
  have hs : c.spelled? f.long.toList = some f := by
    revert hf
    cases c <;> cases f <;> decide
  have hl : isLong f.long.toList = true := by cases f <;> rfl
  rw [wordOf_given_eq, dashed, cutAttached_given]
  simp only [hs, hl, Bool.not_true]

/-- No command refuses to look at a flag with a value. -/
theorem Command.exists_wordOf_given (c : Command) (f : Flag) (value : String) :
    ∃ w, c.wordOf (f.given value) = .ok w := by
  by_cases hf : f ∈ c.flags
  · exact ⟨_, wordOf_given hf value⟩
  · have hs : c.spelled? f.long.toList = none := by
      revert hf
      cases c <;> cases f <;> decide
    -- No long flag is the start of another, so a foreign one abbreviates nothing either.
    have ha : c.abbreviated f.long.toList = [] := by
      revert hf
      cases c <;> cases f <;> decide
    have hl : isLong f.long.toList = true := by cases f <;> rfl
    rw [wordOf_given_eq, dashed, cutAttached_given]
    simp only [hs, hl, ha, if_true, List.map_nil, wordLike]
    split
    · exact ⟨_, rfl⟩
    · exact ⟨_, rfl⟩

/-- Words in front of others are looked at one by one. -/
theorem Command.words_append {c : Command} {args : List String} {ws : List Word}
    (h : List.Forall₂ (fun a w => a ≠ "--" ∧ c.wordOf a = .ok w) args ws) (rest : List String) :
    c.words (args ++ rest) = (c.words rest).map (ws ++ ·) := by
  induction h with
  | nil =>
    rw [List.nil_append]
    cases c.words rest <;> rfl
  | cons hw _ ih =>
    rw [List.cons_append, words, if_neg (mt eq_of_beq hw.1), hw.2, ih]
    cases c.words rest <;> rfl

/-- A word that does not start with a dash is an operand of every command. -/
theorem Command.wordOf_of_head (c : Command) {text : String}
    (h : text.toList.head? ≠ some '-') : c.wordOf text = .ok (.operand text) := by
  rw [wordOf, beq_eq_false_iff_ne.mpr h, if_neg Bool.false_ne_true]

/-- An operand in front of other words stays in front of them. -/
theorem Command.words_operand (c : Command) {text : String} (h : text.toList.head? ≠ some '-')
    (rest : List String) :
    c.words (text :: rest) = (c.words rest).map (.operand text :: ·) := by
  have hne : text ≠ "--" := by
    rintro rfl
    exact h rfl
  exact words_append (.cons ⟨hne, c.wordOf_of_head h⟩ .nil) rest

/-! ## Settings behind each other -/

/-- The words that give flags values. -/
def givenAll (fs : List (Flag × String)) : List String := fs.map fun f => f.1.given f.2

/-- What a command that has the flags makes of them. -/
def givenWords (fs : List (Flag × String)) : List Word :=
  fs.map fun f => .flag (f.1.given f.2) f.1 false (some f.2.toList)

/-- The settings that flags with values make in order. -/
def Settings.assignAll (s : Settings) (fs : List (Flag × String)) : Except Misuse Settings :=
  fs.foldlM (fun s f => s.assign f.1 (Supplied.ofAttached f.2)) s

namespace Command

theorem words_given {c : Command} {fs : List (Flag × String)} (h : ∀ f ∈ fs, f.1 ∈ c.flags)
    (rest : List String) :
    c.words (givenAll fs ++ rest) = (c.words rest).map (givenWords fs ++ ·) := by
  apply words_append
  rw [givenAll, givenWords, List.forall₂_map_left_iff, List.forall₂_map_right_iff,
    List.forall₂_same]
  intro f hf
  exact ⟨given_ne_separator f.1 f.2, wordOf_given (h f hf) f.2⟩

theorem exists_words_given (c : Command) (fs : List (Flag × String)) {rest : List String}
    {ws : List Word} (h : c.words rest = .ok ws) :
    ∃ us, c.words (givenAll fs ++ rest) = .ok us := by
  induction fs with
  | nil => exact ⟨ws, h⟩
  | cons f fs ih =>
    obtain ⟨us, hus⟩ := ih
    obtain ⟨w, hw⟩ := c.exists_wordOf_given f.1 f.2
    refine ⟨w :: us, ?_⟩
    have hc := words_append (.cons ⟨given_ne_separator f.1 f.2, hw⟩ .nil) (givenAll fs ++ rest)
    rw [hus] at hc
    exact hc

/-- A command takes flags with values one by one. -/
theorem take_givenWords {c : Command} {fs : List (Flag × String)}
    (h : ∀ f ∈ fs, f.1.takesValue = true) {t : Taken} {s : Settings}
    (hs : t.settings.assignAll fs = .ok s) (ws : List Word) :
    c.take t (givenWords fs ++ ws) = c.take { t with settings := s } ws := by
  induction fs generalizing t with
  | nil =>
    cases hs
    rfl
  | cons f fs ih =>
    rw [Settings.assignAll, List.foldlM_cons] at hs
    cases ha : t.settings.assign f.1 (Supplied.ofAttached f.2) with
    | error m =>
      rw [ha] at hs
      cases hs
    | ok s' =>
      rw [ha] at hs
      have hf := h f List.mem_cons_self
      have hstep := ih (fun g hg => h g (List.mem_cons_of_mem _ hg))
        (t := { t with settings := s' }) hs
      rw [givenWords, List.map_cons, List.cons_append, take, bundle, if_pos hf]
      simp only [hf, if_true, Taken.turnOn, Taken.assign, bind, Except.bind,
        String.ofList_toList, ha]
      exact hstep

/-- A flag to which no value is attached takes the operand behind it. -/
theorem take_detached {c : Command} {f : Flag} (hf : f.takesValue = true) (t : Taken)
    (text : String) (short : Bool) (value : String) (ws : List Word) :
    c.take t (.flag text f short none :: .operand value :: ws) =
      t.assign c f (.text value) >>= fun t => c.take t ws := by
  rw [take, bundle]
  simp only [hf, if_true, Taken.turnOn, bind, Except.bind]

/-- If anything else stands behind it, or nothing, it is misused. -/
theorem take_detached_of_ne {c : Command} {f : Flag} (hf : f.takesValue = true) (t : Taken)
    (text : String) (short : Bool) {ws : List Word}
    (h : ∀ value us, ws ≠ .operand value :: us) :
    c.take t (.flag text f short none :: ws) = .error (.misuse c (.valueMissing f)) := by
  rw [take, bundle]
  simp only [hf, if_true]

/-- The separator and an operand behind it are taken by a leaf that waits for one. -/
theorem take_operand {c : Command} {t : Taken} (hc : c.operand?.isSome = true)
    (ht : t.operand = none) (n : String) :
    c.take t [.separator, .operand n] = .ok { t with operand := some n } := by
  have hg : c.isGroup = false := by
    revert hc
    cases c <;> decide
  have hw : t.waits c = true := by rw [Taken.waits, hc, ht]; rfl
  rw [take, hg, if_neg Bool.false_ne_true, if_pos hw, take]

/-- A group takes the name of a command with all that stands behind it. -/
theorem take_name {c : Command} (hc : c.isGroup = true) (t : Taken) (name : String)
    (ws : List Word) : c.take t (.operand name :: ws) = t.choose c name ws := by
  -- A separator goes with the operand in front of it, except behind the name of a command.
  by_cases h : ∃ us, ws = .separator :: us
  · obtain ⟨us, rfl⟩ := h
    rw [take.eq_4, if_pos hc]
  · rw [take.eq_5 _ _ _ _ fun us hu => h ⟨us, hu⟩, if_pos hc]

/-- A leaf takes its settings and its operand. -/
theorem takeAll_leaf {c : Command} (hc : c.operand?.isSome = true) {fs : List (Flag × String)}
    (h : ∀ f ∈ fs, f.1 ∈ c.flags ∧ f.1.takesValue = true) {s s' : Settings}
    (hs : s.assignAll fs = .ok s') (n : String) :
    c.takeAll s (givenAll fs ++ ["--", n]) = .ok { settings := s', operand := some n } := by
  have hwords : c.words ["--", n] = .ok [.separator, .operand n] := rfl
  have htake : c.take { settings := s } (givenWords fs ++ [.separator, .operand n]) =
      .ok { settings := s', operand := some n } := by
    rw [take_givenWords (fun f hf => (h f hf).2) hs, take_operand hc rfl]
  obtain ⟨o, ho⟩ := Option.isSome_iff_exists.mp hc
  rw [takeAll, words_given fun f hf => (h f hf).1, hwords]
  simp only [Except.map, htake, bind, Except.bind, ho]
  rfl

/-- A group takes its settings and the name of a command, and hands on the words behind it. -/
theorem takeAll_group {c d : Command} (hc : c.isGroup = true) {gs : List (Flag × String)}
    (h : ∀ g ∈ gs, g.1 ∈ c.flags ∧ g.1.takesValue = true) {s s' : Settings}
    (hs : s.assignAll gs = .ok s') {name : String} (hname : name.toList.head? ≠ some '-')
    (hd : c.choose? name = some d) {args : List String} {ws : List Word}
    (hargs : c.words args = .ok ws) :
    c.takeAll s (givenAll gs ++ name :: args) =
      .ok { settings := s', chosen := some (d, args) } := by
  have hoperand : c.operand? = none := by
    revert hc
    cases c <;> decide
  have hwords : c.words (name :: args) = .ok (.operand name :: ws) := by
    rw [c.words_operand hname, hargs]
    rfl
  have hchoose : ({ settings := s' } : Taken).choose c name ws =
      .ok { settings := s', chosen := some (d, args) } := by
    rw [Taken.choose, hd, ← map_text_words hargs]
  have htake : c.take { settings := s } (givenWords gs ++ .operand name :: ws) =
      .ok { settings := s', chosen := some (d, args) } := by
    rw [take_givenWords (fun g hg => (h g hg).2) hs, take_name hc, hchoose]
  rw [takeAll, words_given fun g hg => (h g hg).1, hwords]
  simp only [Except.map, htake, bind, Except.bind, hoperand]
  rfl

end Command

/-- What the program and the leaf that it chooses have taken makes an invocation. -/
theorem read_of_taken {args words : List String} {c : Command} {s s' : Settings} {n : String}
    (hprogram : Command.program.takeAll {} args = .ok { settings := s, chosen := some (c, words) })
    (hleaf : c.takeAll s words = .ok { settings := s', operand := some n }) :
    read args = .ok ⟨s'.verbosity, ⟨s'.project, s'.timeout⟩, c.verb s' n⟩ := by
  have hdescend : Command.descend {} args deepest .program =
      .ok (c, { settings := s', operand := some n }) := by
    simp only [deepest, Command.descend, hprogram, hleaf, bind, Except.bind]
    rfl
  simp only [read, hdescend, bind, Except.bind]
  rfl

/-- Reading stops where the leaf that the program chooses stops. -/
theorem read_of_stop {args words : List String} {c : Command} {s : Settings} {e : Stop}
    (hprogram : Command.program.takeAll {} args = .ok { settings := s, chosen := some (c, words) })
    (hleaf : c.takeAll s words = .error e) : read args = .error e := by
  have hdescend : Command.descend {} args deepest .program = .error e := by
    simp only [deepest, Command.descend, hprogram, hleaf, bind, Except.bind]
  simp only [read, hdescend, bind, Except.bind]

/-- Reading stops at a word that the program cannot make sense of, wherever it stands. -/
theorem read_of_words {args : List String} {m : Misuse}
    (h : Command.program.words args = .error m) : read args = .error (.misuse .program m) := by
  simp only [read, deepest, Command.descend, Command.takeAll, h, bind, Except.bind]

/-- Settings of the program, the name of a leaf with its settings, and its operand behind the
separator are read as they are given. -/
theorem read_given {gs fs : List (Flag × String)} {s s' : Settings} {name : String} {c : Command}
    (hgs : ∀ g ∈ gs, g.1 ∈ Command.program.flags ∧ g.1.takesValue = true)
    (hs : ({} : Settings).assignAll gs = .ok s) (hname : name.toList.head? ≠ some '-')
    (hchoice : Command.program.choose? name = some c) (hc : c.operand?.isSome = true)
    (hfs : ∀ f ∈ fs, f.1 ∈ c.flags ∧ f.1.takesValue = true) (hs' : s.assignAll fs = .ok s')
    (n : String) :
    read (givenAll gs ++ name :: (givenAll fs ++ ["--", n])) =
      .ok ⟨s'.verbosity, ⟨s'.project, s'.timeout⟩, c.verb s' n⟩ := by
  have hend : Command.program.words ["--", n] = .ok [.separator, .operand n] := rfl
  obtain ⟨ws, hws⟩ := Command.program.exists_words_given fs hend
  have hprogram := Command.takeAll_group rfl hgs hs hname hchoice hws
  exact read_of_taken hprogram (Command.takeAll_leaf hc hfs hs' n)

end CloudSecrets.CommandLine
