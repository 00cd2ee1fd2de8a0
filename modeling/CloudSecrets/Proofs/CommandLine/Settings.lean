import CloudSecrets.Proofs.CommandLine.Word

/-!
# Words as settings

What the words of a command line set, told by the words alone: `given` lists what the flags of a
command set, in order, and a command that takes its words applies that list to its settings
(`given_of_take`). So a setting is decided by what was given for its own flag: recovery by whether
the switch was given at all (`recover_applyAll`), and the timeout by the last value
(`timeout_applyAll`), whichever command is chosen (`timeout_of_read`).
-/

namespace CloudSecrets.CommandLine

/-- One setting: a switch is turned on, or a flag is given a value. -/
inductive Setting where
  | on (f : Flag)
  | value (f : Flag) (supplied : Supplied)
  deriving Repr, DecidableEq

/-- The flag that is set. -/
def Setting.flag : Setting → Flag
  | .on f => f
  | .value f _ => f

namespace Settings

/-- Settings with one more. -/
def apply (s : Settings) : Setting → Except Misuse Settings
  | .on f => .ok (s.switch f)
  | .value f v => s.assign f v

/-- Settings with more of them, in order. -/
def applyAll (s : Settings) (gs : List Setting) : Except Misuse Settings :=
  gs.foldlM Settings.apply s

@[simp] theorem applyAll_nil (s : Settings) : s.applyAll [] = .ok s := rfl

theorem applyAll_cons (s : Settings) (g : Setting) (gs : List Setting) :
    s.applyAll (g :: gs) = s.apply g >>= fun s => s.applyAll gs := rfl

theorem applyAll_append (s : Settings) (gs hs : List Setting) :
    s.applyAll (gs ++ hs) = s.applyAll gs >>= fun s => s.applyAll hs :=
  List.foldlM_append

end Settings

/-- The settings that a bundle makes by itself. -/
def Bundle.settings (b : Bundle) : List Setting :=
  b.switches.map .on ++
    if b.last.takesValue then
      (b.attached.map fun value => .value b.last (Supplied.ofAttached (String.ofList value))).toList
    else [.on b.last]

/-- The flag that awaits a value behind a bundle. -/
def Bundle.awaiting (b : Bundle) : Option Flag :=
  if b.last.takesValue && b.attached.isNone then some b.last else none

namespace Command

/-- The settings that words make, in order, where a value for a flag may be awaited; a word that
cannot be taken makes none. A group stops at its first operand, which chooses the command that takes
the words behind it. -/
def given (c : Command) : (awaiting : Option Flag) → List Word → List Setting
  | _, [] => []
  | some f, .operand value :: ws => .value f (.text value) :: c.given none ws
  | none, .operand _ :: ws => if c.isGroup then [] else c.given none ws
  | _, .flag _ f short attached :: ws =>
    match c.bundle f short attached with
    | .error _ => c.given none ws
    | .ok b => b.settings ++ c.given b.awaiting ws
  | _, .separator :: ws => c.given none ws
  | _, .unknown _ :: ws => c.given none ws

/-- Switches are turned on one by one, and nothing else changes. -/
theorem turnOn_eq_ok {c : Command} {t t' : Taken} {fs : List Flag}
    (h : Taken.turnOn c t fs = .ok t') :
    t.settings.applyAll (fs.map .on) = .ok t'.settings ∧ t'.chosen = t.chosen := by
  induction fs generalizing t with
  | nil =>
    cases h
    exact ⟨rfl, rfl⟩
  | cons f fs ih =>
    by_cases hf : f = .help
    · subst hf
      cases h
    · rw [Taken.turnOn.eq_3 _ _ _ _ hf] at h
      exact ih h

theorem assign_eq_ok {c : Command} {t t' : Taken} {f : Flag} {v : Supplied}
    (h : t.assign c f v = .ok t') :
    t.settings.assign f v = .ok t'.settings ∧ t'.chosen = t.chosen := by
  rw [Taken.assign] at h
  split at h
  · rename_i s hs
    cases h
    exact ⟨hs, rfl⟩
  · cases h

/-- A command that takes its words makes the settings that they give, and it chooses a command of
its own or none. -/
theorem given_of_take {c : Command} {t t' : Taken} {ws : List Word} (h : c.take t ws = .ok t') :
    t.settings.applyAll (c.given none ws) = .ok t'.settings ∧
      (t'.chosen = t.chosen ∨
        ∃ name d words, c.choose? name = some d ∧ t'.chosen = some (d, words)) := by
  have hchoose {t t' : Taken} {name : String} {ws : List Word} (h : t.choose c name ws = .ok t') :
      t'.settings = t.settings ∧
        ∃ name d words, c.choose? name = some d ∧ t'.chosen = some (d, words) := by
    rw [Taken.choose] at h
    split at h
    · cases h
    · rename_i d hd
      cases h
      exact ⟨rfl, _, d, _, hd, rfl⟩
  fun_induction Command.take c t ws generalizing t' with
  | case1 t =>
    cases h
    exact ⟨rfl, .inl rfl⟩
  | case2 t text ws ih => exact ih h
  | case3 t text f short attached ws m hm => cases h
  | case4 t text f short attached switches last hl value ws hb ih =>
    obtain ⟨t₁, h₁, h⟩ := Action.bind_eq_ok.mp h
    obtain ⟨t₂, h₂, h⟩ := Action.bind_eq_ok.mp h
    obtain ⟨hs₁, hc₁⟩ := turnOn_eq_ok h₁
    obtain ⟨hs₂, hc₂⟩ := assign_eq_ok h₂
    obtain ⟨hs, hc⟩ := ih t₂ h
    refine ⟨?_, hc.imp (fun hc => hc.trans (hc₂.trans hc₁)) id⟩
    simp only [given, hb, Bundle.settings, Bundle.awaiting, hl, if_true, Option.map_some,
      Option.toList_some, Option.isNone_some, Bool.and_false, Bool.false_eq_true, if_false,
      Settings.applyAll_append, Settings.applyAll_cons, Settings.applyAll_nil, Settings.apply, hs₁,
      hs₂, bind, Except.bind, hs]
  | case5 t text f short attached switches last hl value ws hb ih =>
    obtain ⟨t₁, h₁, h⟩ := Action.bind_eq_ok.mp h
    obtain ⟨t₂, h₂, h⟩ := Action.bind_eq_ok.mp h
    obtain ⟨hs₁, hc₁⟩ := turnOn_eq_ok h₁
    obtain ⟨hs₂, hc₂⟩ := assign_eq_ok h₂
    obtain ⟨hs, hc⟩ := ih t₂ h
    refine ⟨?_, hc.imp (fun hc => hc.trans (hc₂.trans hc₁)) id⟩
    simp only [given, hb, Bundle.settings, Bundle.awaiting, hl, if_true, Option.map_none,
      Option.toList_none, Option.isNone_none, Bool.and_self, List.append_nil,
      Settings.applyAll_append, Settings.applyAll_cons, Settings.apply, hs₁, hs₂, bind,
      Except.bind, hs]
  | case6 t text f short attached ws switches last hl hne hb => cases h
  | case7 t text f short attached ws switches last attached' hb hl ih =>
    obtain ⟨t₁, h₁, h⟩ := Action.bind_eq_ok.mp h
    obtain ⟨hs₁, hc₁⟩ := turnOn_eq_ok h₁
    obtain ⟨hs, hc⟩ := ih t₁ h
    rw [List.map_append, List.map_singleton] at hs₁
    refine ⟨?_, hc.imp (fun hc => hc.trans hc₁) id⟩
    simp only [given, hb, Bundle.settings, Bundle.awaiting, hl, Bool.false_and, Bool.false_eq_true,
      if_false]
    rw [Settings.applyAll_append, hs₁]
    exact hs
  | case8 t text ws hg =>
    obtain ⟨hs, hd⟩ := hchoose h
    rw [given, if_pos hg, hs]
    exact ⟨rfl, .inr hd⟩
  | case9 t text hg hw ws ih =>
    rw [given, if_neg hg]
    exact ih h
  | case10 t text hg hw ws hne ih =>
    rw [given, if_neg hg]
    exact ih h
  | case11 t text ws hg hw ih =>
    rw [given, if_neg hg]
    exact ih h
  | case12 t text ws hg =>
    obtain ⟨hs, hd⟩ := hchoose h
    rw [given, given, if_pos hg, hs]
    exact ⟨rfl, .inr hd⟩
  | case13 t text ws hg hw ih =>
    rw [given, given, if_neg hg]
    exact ih h
  | case14 t text ws hg hw ih =>
    rw [given, given, if_neg hg]
    exact ih h
  | case15 t ws hne ih => exact ih h

/-- A bundle sets its own flags. -/
theorem flag_mem_of_settings {b : Bundle} {s : Setting} (h : s ∈ b.settings) :
    s.flag ∈ b.flags := by
  rcases List.mem_append.mp h with h | h
  · obtain ⟨f, hf, rfl⟩ := List.mem_map.mp h
    exact List.mem_append_left _ hf
  · have hlast : s.flag = b.last := by
      split at h
      · obtain ⟨value, -, rfl⟩ := Option.map_eq_some_iff.mp (Option.mem_toList.mp h)
        rfl
      · rw [List.mem_singleton.mp h]
        rfl
    exact List.mem_append_right _ (List.mem_singleton.mpr hlast)

/-- What words set was awaited before them or is spelled by them. -/
theorem mem_given {c : Command} {awaiting : Option Flag} {ws : List Word} {s : Setting}
    (h : s ∈ c.given awaiting ws) : awaiting = some s.flag ∨ c.Spells ws s.flag := by
  fun_induction Command.given c awaiting ws with
  | case1 => cases h
  | case2 f value ws ih =>
    rcases List.mem_cons.mp h with rfl | h
    · exact .inl rfl
    · exact .inr (((ih h).resolve_left nofun).cons _)
  | case3 => cases h
  | case4 text ws _ ih => exact .inr (((ih h).resolve_left nofun).cons _)
  | case5 _ text f short attached ws m _ ih => exact .inr (((ih h).resolve_left nofun).cons _)
  | case6 _ text f short attached ws b hb ih =>
    have hspell {g : Flag} (hg : g ∈ b.flags) :
        c.Spells (.flag text f short attached :: ws) g :=
      ⟨text, f, short, attached, b, List.mem_cons_self, hb, hg⟩
    rcases List.mem_append.mp h with h | h
    · exact .inr (hspell (flag_mem_of_settings h))
    · rcases ih h with hawait | hws
      · rw [Bundle.awaiting] at hawait
        split at hawait
        · have hlast : s.flag = b.last := (Option.some.inj hawait).symm
          exact .inr (hspell (List.mem_append_right _ (List.mem_singleton.mpr hlast)))
        · cases hawait
      · exact .inr (hws.cons _)
  | case7 _ ws ih => exact .inr (((ih h).resolve_left nofun).cons _)
  | case8 _ text ws ih => exact .inr (((ih h).resolve_left nofun).cons _)

/-- A leaf sets every switch among its words to which nothing is attached. -/
theorem on_mem_given {c : Command} (hc : ¬c.isGroup = true) {awaiting : Option Flag}
    {ws : List Word} {text : String} {f : Flag} (hf : ¬f.takesValue = true) {short : Bool}
    (h : .flag text f short none ∈ ws) : .on f ∈ c.given awaiting ws := by
  fun_induction Command.given c awaiting ws with
  | case1 => cases h
  | case2 g value ws ih =>
    exact List.mem_cons_of_mem _ (ih ((List.mem_cons.mp h).resolve_left nofun))
  | case3 _ _ hg => exact absurd hg hc
  | case4 _ ws _ ih => exact ih ((List.mem_cons.mp h).resolve_left nofun)
  | case5 _ text' g short' attached ws m hm ih =>
    rcases List.mem_cons.mp h with hw | h
    · cases hw
      cases hm
    · exact ih h
  | case6 _ text' g short' attached ws b hb ih =>
    rcases List.mem_cons.mp h with hw | h
    · cases hw
      cases hb
      refine List.mem_append_left _ ?_
      rw [Bundle.settings, if_neg hf]
      exact List.mem_cons_self
    · exact List.mem_append_right _ (ih h)
  | case7 _ ws ih => exact ih ((List.mem_cons.mp h).resolve_left nofun)
  | case8 _ _ ws ih => exact ih ((List.mem_cons.mp h).resolve_left nofun)

end Command

/-! ## What settings come to -/

/-- What a setting gives a flag. -/
def Setting.supplied? (f : Flag) : Setting → Option Supplied
  | .on _ => none
  | .value g supplied => if g = f then some supplied else none

namespace Settings

/-- The timeout that a value for it gives. -/
def timeoutOf : Supplied → Option Timeout
  | .text text => (readTimeout text).toOption
  | .nothing => none

theorem assign_timeout {s s' : Settings} {v : Supplied} (h : s.assign .timeout v = .ok s') :
    s' = { s with timeout := timeoutOf v } := by
  cases v with
  | nothing =>
    cases h
    rfl
  | text text =>
    rw [assign] at h
    rw [timeoutOf]
    cases hr : readTimeout text with
    | error m =>
      rw [hr] at h
      cases h
    | ok t =>
      rw [hr] at h
      cases h
      rfl

theorem assign_of_ne {s s' : Settings} {f : Flag} {v : Supplied} (hf : f ≠ .timeout)
    (h : s.assign f v = .ok s') : s'.timeout = s.timeout ∧ s'.recover = s.recover := by
  cases f
  case timeout => exact absurd rfl hf
  all_goals
    cases h
    exact ⟨rfl, rfl⟩

theorem recover_apply {s s' : Settings} {g : Setting} (h : s.apply g = .ok s') :
    s'.recover = true ↔ s.recover = true ∨ g = .on .recover := by
  cases g with
  | on f =>
    cases h
    cases f <;> simp [switch]
  | value f v =>
    have hs : s'.recover = s.recover := by
      by_cases hf : f = .timeout
      · subst hf
        rw [assign_timeout h]
      · exact (assign_of_ne hf h).2
    rw [hs]
    exact (or_iff_left nofun).symm

/-- Recovery is on if it was or if it is turned on. -/
theorem recover_applyAll {s s' : Settings} {gs : List Setting} (h : s.applyAll gs = .ok s') :
    s'.recover = true ↔ s.recover = true ∨ .on .recover ∈ gs := by
  induction gs generalizing s with
  | nil =>
    cases h
    simp
  | cons g gs ih =>
    rw [applyAll_cons] at h
    obtain ⟨u, hg, h⟩ := Action.bind_eq_ok.mp h
    rw [ih h, recover_apply hg, List.mem_cons, or_assoc, eq_comm (a := g)]

theorem timeout_apply {s s' : Settings} {g : Setting} (h : s.apply g = .ok s') :
    s'.timeout = (g.supplied? .timeout).elim s.timeout timeoutOf := by
  cases g with
  | on f =>
    cases h
    cases f <;> rfl
  | value f v =>
    rw [Setting.supplied?]
    by_cases hf : f = .timeout
    · subst hf
      rw [assign_timeout h, if_pos rfl]
      rfl
    · rw [(assign_of_ne hf h).1, if_neg hf]
      rfl

/-- The timeout is that of the last value that is given for it. -/
theorem timeout_applyAll {s s' : Settings} {gs : List Setting} (h : s.applyAll gs = .ok s') :
    s'.timeout =
      (gs.filterMap (Setting.supplied? .timeout)).getLast?.elim s.timeout timeoutOf := by
  induction gs generalizing s with
  | nil =>
    cases h
    rfl
  | cons g gs ih =>
    rw [applyAll_cons] at h
    obtain ⟨u, hg, h⟩ := Action.bind_eq_ok.mp h
    rw [ih h, timeout_apply hg, List.filterMap_cons]
    cases g.supplied? .timeout with
    | none => rfl
    | some v =>
      dsimp only
      rw [List.getLast?_cons]
      cases (gs.filterMap (Setting.supplied? .timeout)).getLast? <;> rfl

end Settings

/-! ## Reading -/

namespace Command

/-- A command takes the settings that its words give, and chooses a command of its own or none. -/
theorem settings_of_takeAll {c : Command} {s : Settings} {args : List String} {t : Taken}
    (h : c.takeAll s args = .ok t) :
    ∃ ws, c.words args = .ok ws ∧ s.applyAll (c.given none ws) = .ok t.settings ∧
      (t.chosen = none ∨ ∃ name d words, c.choose? name = some d ∧ t.chosen = some (d, words)) := by
  rw [takeAll] at h
  split at h
  · cases h
  · rename_i ws hws
    obtain ⟨u, hu, h⟩ := Action.bind_eq_ok.mp h
    have hut : u = t := by
      split at h
      · cases h
      · exact Except.ok.inj h
    subst hut
    exact ⟨ws, hws, given_of_take hu⟩

/-- No group offers the program. -/
theorem ne_program_of_choose? {c d : Command} {name : String} (h : c.choose? name = some d) :
    d ≠ .program := by
  obtain ⟨choice, hfind, rfl⟩ := Option.map_eq_some_iff.mp h
  have hall : ∀ choice ∈ c.choices, choice.command ≠ .program := by cases c <;> decide
  exact hall choice (List.mem_of_find?_eq_some hfind)

/-- Only the program sets the timeout. -/
theorem timeout_of_takeAll {c : Command} (hc : c ≠ .program) {s : Settings} {args : List String}
    {t : Taken} (h : c.takeAll s args = .ok t) : t.settings.timeout = s.timeout := by
  obtain ⟨ws, hws, hs, -⟩ := settings_of_takeAll h
  have hflags : .timeout ∉ c.flags := by
    revert hc
    cases c <;> decide
  have hnone : (c.given none ws).filterMap (Setting.supplied? .timeout) = [] := by
    rw [List.filterMap_eq_nil_iff]
    intro g hg
    cases g with
    | on f => rfl
    | value f v =>
      rw [Setting.supplied?, if_neg]
      rintro rfl
      exact hflags (((mem_given hg).resolve_left nofun).mem_flags hws)
  rw [Settings.timeout_applyAll hs, hnone]
  rfl

theorem timeout_of_descend {c d : Command} (hc : c ≠ .program) {s : Settings}
    {args : List String} {depth : Nat} {t : Taken}
    (h : Command.descend s args depth c = .ok (d, t)) : t.settings.timeout = s.timeout := by
  induction depth generalizing s args c d t with
  | zero =>
    obtain ⟨u, hu, h⟩ := Action.bind_eq_ok.mp h
    cases h
    exact timeout_of_takeAll hc hu
  | succ depth ih =>
    obtain ⟨u, hu, h⟩ := Action.bind_eq_ok.mp h
    rcases (settings_of_takeAll hu).choose_spec.2.2 with hnone | ⟨name, e, words, hname, hchosen⟩
    · rw [hnone] at h
      cases h
      exact timeout_of_takeAll hc hu
    · rw [hchosen] at h
      obtain ⟨⟨last, v⟩, hv, h⟩ := Action.bind_eq_ok.mp h
      cases h
      exact (ih (ne_program_of_choose? hname) hv).trans (timeout_of_takeAll hc hu)

end Command

/-- The last value that the words of the program give a flag. -/
def lastGiven? (f : Flag) (args : List String) : Option Supplied :=
  match Command.program.words args with
  | .ok ws => ((Command.program.given none ws).filterMap (Setting.supplied? f)).getLast?
  | .error _ => none

/-- The timeout that a command line gives: that of the last value, if it is a number. -/
def timeoutGiven? (args : List String) : Option Timeout :=
  (lastGiven? .timeout args).bind Settings.timeoutOf

/-- A command line that can be read leaves no words over, and is what the last command makes of its
settings. -/
theorem read_eq_ok {args : List String} {i : Invocation} (h : read args = .ok i) :
    ∃ c t, Command.descend {} args deepest .program = .ok (c, t) ∧ t.left = [] ∧
      i = ⟨t.settings.verbosity, ⟨t.settings.project, t.settings.timeout⟩,
        c.verb t.settings (t.operand.getD "")⟩ := by
  obtain ⟨⟨c, t⟩, hdescend, h⟩ := Action.bind_eq_ok.mp h
  dsimp only at h
  split at h
  · cases h
  · rename_i hleft
    exact ⟨c, t, hdescend, by simpa using hleft, (Except.ok.inj h).symm⟩

/-- The timeout of a command line that can be read is the one that its words give. -/
theorem timeout_of_read {args : List String} {i : Invocation} (h : read args = .ok i) :
    i.context.timeout = timeoutGiven? args := by
  obtain ⟨c, t, hdescend, -, rfl⟩ := read_eq_ok h
  rw [deepest, Command.descend] at hdescend
  obtain ⟨u, hu, hdescend⟩ := Action.bind_eq_ok.mp hdescend
  obtain ⟨ws, hws, hs, hchosen⟩ := Command.settings_of_takeAll hu
  have hprogram : u.settings.timeout = timeoutGiven? args := by
    rw [Settings.timeout_applyAll hs, timeoutGiven?, lastGiven?, hws]
    dsimp only
    cases ((Command.program.given none ws).filterMap (Setting.supplied? .timeout)).getLast? <;> rfl
  rw [← hprogram]
  rcases hchosen with hnone | ⟨name, d, words, hname, hchosen⟩
  · rw [hnone] at hdescend
    cases hdescend
    rfl
  · rw [hchosen] at hdescend
    obtain ⟨⟨last, v⟩, hv, hdescend⟩ := Action.bind_eq_ok.mp hdescend
    cases hdescend
    have hlast := Command.timeout_of_descend (Command.ne_program_of_choose? hname) hv
    exact hlast

end CloudSecrets.CommandLine
