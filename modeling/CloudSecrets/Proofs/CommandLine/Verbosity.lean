import CloudSecrets.CommandLine.Run
import CloudSecrets.Proofs.CommandLine.Reading
import CloudSecrets.Proofs.CommandLine.Settings

/-!
# Verbosity

One more `-v` in front of a command line is read as one more level of verbosity and as nothing else,
misuses and calls for help included (`read_verbose`). What a run does cannot depend on the
verbosity, which only decides which of its notes are shown; and whatever a verbosity shows is shown
by every greater one (`verbosity_only_adds_messages`).
-/

namespace CloudSecrets

open CloudSecrets.Action

namespace CommandLine

/-! ## Reading one more level -/

/-- Settings with one more level of verbosity. -/
def Settings.louder (s : Settings) : Settings := { s with verbosity := s.verbosity + 1 }

/-- What has been taken, with one more level of verbosity. -/
def Taken.louder (t : Taken) : Taken := { t with settings := t.settings.louder }

/-- An invocation with one more level of verbosity. -/
def Invocation.louder (i : Invocation) : Invocation := { i with verbosity := i.verbosity + 1 }

theorem Settings.switch_louder (s : Settings) (f : Flag) :
    s.louder.switch f = (s.switch f).louder := by
  cases f <;> rfl

theorem Settings.assign_louder (s : Settings) (f : Flag) (v : Supplied) :
    s.louder.assign f v = (s.assign f v).map louder := by
  cases f
  case timeout =>
    cases v with
    | nothing => rfl
    | text text =>
      rw [assign, assign]
      cases readTimeout text <;> rfl
  all_goals rfl

theorem Taken.turnOn_louder (c : Command) (t : Taken) (fs : List Flag) :
    turnOn c t.louder fs = (turnOn c t fs).map louder := by
  induction fs generalizing t with
  | nil => rfl
  | cons f fs ih =>
    by_cases hf : f = .help
    · subst hf
      rfl
    · rw [turnOn.eq_3 _ _ _ _ hf, turnOn.eq_3 _ _ _ _ hf, ← ih]
      exact congrArg (turnOn c · fs) (congrArg (fun s => { t with settings := s })
        (t.settings.switch_louder f))

theorem Taken.assign_louder (c : Command) (t : Taken) (f : Flag) (v : Supplied) :
    t.louder.assign c f v = (t.assign c f v).map louder := by
  rw [assign, assign, show t.louder.settings = t.settings.louder from rfl, Settings.assign_louder]
  cases t.settings.assign f v <;> rfl

theorem Taken.choose_louder (c : Command) (t : Taken) (name : String) (ws : List Word) :
    t.louder.choose c name ws = (t.choose c name ws).map louder := by
  rw [choose, choose]
  cases c.choose? name <;> rfl

theorem bind_louder {r r' : Except Stop Taken} {f : Taken → Except Stop Taken}
    (hr : r' = r.map Taken.louder) (hf : ∀ t, f t.louder = (f t).map Taken.louder) :
    (r' >>= f) = (r >>= f).map Taken.louder := by
  subst hr
  cases r with
  | error e => rfl
  | ok t => exact hf t

/-- A leaf that does not wait for an operand leaves it over. -/
theorem Command.take_of_not_waits {c : Command} (hc : ¬c.isGroup = true) {t : Taken}
    (ht : ¬t.waits c = true) (text : String) (ws : List Word) :
    c.take t (.operand text :: ws) = c.take (t.leave [.operand text]) ws := by
  by_cases h : ∃ us, ws = .separator :: us
  · obtain ⟨us, rfl⟩ := h
    rw [take.eq_4, if_neg hc, if_neg ht]
  · rw [take.eq_5 _ _ _ _ fun us hu => h ⟨us, hu⟩, if_neg hc, if_neg ht]

/-- What a command takes of its words does not depend on the verbosity so far. -/
theorem Command.take_louder (c : Command) (t : Taken) (ws : List Word) :
    c.take t.louder ws = (c.take t ws).map Taken.louder := by
  fun_induction Command.take c t ws with
  | case1 t => rfl
  | case2 t text ws ih =>
    rw [take]
    exact ih
  | case3 t text f short attached ws m hm =>
    rw [take, hm]
    rfl
  | case4 t text f short attached switches last hl value ws hb ih =>
    rw [take, hb]
    simp only [hl, if_true]
    exact bind_louder (Taken.turnOn_louder _ _ _) fun t₁ =>
      bind_louder (Taken.assign_louder _ _ _ _) fun t₂ => ih t₂
  | case5 t text f short attached switches last hl value ws hb ih =>
    rw [take, hb]
    simp only [hl, if_true]
    exact bind_louder (Taken.turnOn_louder _ _ _) fun t₁ =>
      bind_louder (Taken.assign_louder _ _ _ _) fun t₂ => ih t₂
  | case6 t text f short attached ws switches last hl hne hb =>
    rw [take, hb]
    simp only [hl, if_true]
    rfl
  | case7 t text f short attached ws switches last attached' hb hl ih =>
    rw [take, hb]
    simp only [hl]
    exact bind_louder (Taken.turnOn_louder _ _ _) fun t₁ => ih t₁
  | case8 t text ws hg =>
    rw [take_name hg]
    exact Taken.choose_louder _ _ _ _
  | case9 t text hg hw ws ih =>
    rw [take.eq_4, if_neg hg, if_pos (by exact hw)]
    exact ih
  | case10 t text hg hw ws hne ih =>
    rw [take.eq_5 _ _ _ _ hne, if_neg hg, if_pos (by exact hw)]
    exact ih
  | case11 t text ws hg hw ih =>
    rw [take_of_not_waits hg (by exact hw)]
    exact ih
  | case12 t text ws hg =>
    rw [take, if_pos hg]
    exact Taken.choose_louder _ _ _ _
  | case13 t text ws hg hw ih =>
    rw [take, if_neg hg, if_pos (by exact hw)]
    exact ih
  | case14 t text ws hg hw ih =>
    rw [take, if_neg hg, if_neg (by exact hw)]
    exact ih
  | case15 t ws hne ih =>
    rw [take]
    · exact ih
    · exact hne

/-- Nor does what it takes of all its words. -/
theorem Command.takeAll_louder (c : Command) (s : Settings) (args : List String) :
    c.takeAll s.louder args = (c.takeAll s args).map Taken.louder := by
  rw [takeAll, takeAll]
  cases c.words args with
  | error m => rfl
  | ok ws =>
    refine bind_louder (c.take_louder { settings := s } ws) fun t => ?_
    have hoperand : t.louder.operand = t.operand := rfl
    rw [hoperand]
    split <;> rfl

/-- Nor does which command is chosen last, nor what that takes. -/
theorem Command.descend_louder {s s' : Settings} {args args' : List String} {c : Command}
    (h : c.takeAll s' args' = (c.takeAll s args).map Taken.louder) (depth : Nat) :
    Command.descend s' args' depth c =
      (Command.descend s args depth c).map fun r => (r.1, r.2.louder) := by
  induction depth generalizing s s' args args' c with
  | zero =>
    rw [descend, descend, h]
    cases c.takeAll s args <;> rfl
  | succ depth ih =>
    rw [descend, descend, h]
    cases c.takeAll s args with
    | error e => rfl
    | ok t =>
      have hchosen : t.louder.chosen = t.chosen := rfl
      simp only [Except.map, bind, Except.bind, hchosen]
      cases t.chosen with
      | none => rfl
      | some chosen =>
        dsimp only
        rw [show t.louder.settings = t.settings.louder from rfl,
          ih (chosen.1.takeAll_louder t.settings chosen.2)]
        cases Command.descend t.settings chosen.2 depth chosen.1 <;> rfl

/-- The program takes one more switch in front as one more level of verbosity. -/
theorem takeAll_verbose (args : List String) :
    Command.program.takeAll {} ("-v" :: args) =
      (Command.program.takeAll {} args).map Taken.louder := by
  have hword : Command.program.wordOf "-v" = .ok (.flag "-v" .verbose true none) := rfl
  have hwords : Command.program.words ("-v" :: args) =
      (Command.program.words args).map ([.flag "-v" .verbose true none] ++ ·) :=
    Command.words_append (.cons ⟨by decide, hword⟩ .nil) args
  have htake (ws : List Word) :
      Command.program.take { settings := {} } ([.flag "-v" .verbose true none] ++ ws) =
        Command.program.take { settings := Settings.louder {} } ws := by
    rw [List.singleton_append, Command.take]
    rfl
  rw [← Command.takeAll_louder, Command.takeAll, Command.takeAll, hwords]
  cases Command.program.words args with
  | error m => rfl
  | ok ws =>
    simp only [Except.map, htake]

/-- One more switch in front is one more level of verbosity and makes no other difference. -/
theorem read_verbose (args : List String) :
    read ("-v" :: args) = (read args).map Invocation.louder := by
  rw [read, read, Command.descend_louder (takeAll_verbose args)]
  cases Command.descend {} args deepest .program with
  | error e => rfl
  | ok r =>
    have hleft : r.2.louder.left = r.2.left := rfl
    simp only [Except.map, bind, Except.bind, hleft]
    split
    · rfl
    · exact congrArg Except.ok (congrArg _ (by cases r.1 <;> rfl))

end CommandLine

/-! ## Messages -/

/-- Whether a verbosity shows a note. -/
def Note.isShown (verbosity : Nat) : Note → Bool
  | .logged level _ => level.isShown verbosity
  | .printed _ => true

/-- The text of a note on the error stream. -/
def Note.text : Note → String
  | .logged _ text => text ++ "\n"
  | .printed text => text

/-- The messages that a verbosity shows of notes, in order. -/
def Note.messages (verbosity : Nat) (notes : List Note) : List String :=
  (notes.filter (isShown verbosity)).map text

/-- Notes are shown by their messages. -/
theorem Note.shownAll_eq_join (verbosity : Nat) (notes : List Note) :
    shownAll verbosity notes = String.join (messages verbosity notes) := by
  induction notes with
  | nil => rfl
  | cons n ns ih =>
    rw [shownAll] at ih
    rw [shownAll, List.map_cons, String.join_cons, ih, messages, messages, List.filter_cons]
    cases n with
    | printed text =>
      rw [isShown, if_pos rfl, List.map_cons, String.join_cons]
      rfl
    | logged level text =>
      rw [shown, isShown]
      cases level.isShown verbosity with
      | false =>
        rw [if_neg Bool.false_ne_true, if_neg Bool.false_ne_true, String.empty_append]
      | true =>
        rw [if_pos rfl, if_pos rfl, List.map_cons, String.join_cons]
        rfl

theorem Note.isShown_succ {verbosity : Nat} {n : Note} (h : n.isShown verbosity = true) :
    n.isShown (verbosity + 1) = true := by
  cases n with
  | printed text => rfl
  | logged level text =>
    cases level with
    | debug => exact decide_eq_true (Nat.le_succ_of_le (of_decide_eq_true h))
    | info => exact decide_eq_true (Nat.le_succ_of_le (of_decide_eq_true h))
    | warning => rfl
    | error => rfl

/-- A greater verbosity shows the same messages and perhaps more between them. -/
theorem Note.messages_sublist (verbosity : Nat) (notes : List Note) :
    (messages verbosity notes).Sublist (messages (verbosity + 1) notes) :=
  (List.monotone_filter_right notes fun _ => isShown_succ).map text

namespace CommandLine

/-- The messages of a run on the error stream: what its verbosity shows of its notes, or what is
said about its command line. -/
def messages (w : World) (args : List String) : List String :=
  match read args with
  | .ok i => Note.messages i.verbosity (settle (perform i.context i.verb) w).2.notes
  | .error s => [(s.ending w).errors]

/-- The error stream of a run holds its messages. -/
theorem errors_eq_join (w : World) (args : List String) :
    (run w args).errors = String.join (messages w args) := by
  rw [run, messages]
  cases read args with
  | ok i => exact Note.shownAll_eq_join _ _
  | error s =>
    rw [String.join_cons, String.join_nil, String.append_empty]

/-- Verbosity only adds messages. With one more `-v` in front a run ends with the same code, prints
the same, and leaves the same world behind, with its calls, its variables and its files; and of its
messages on the error stream it keeps all, in their order. -/
theorem verbosity_only_adds_messages (w : World) (args : List String) :
    let quiet := run w args
    let loud := run w ("-v" :: args)
    loud.exit = quiet.exit ∧ loud.output = quiet.output ∧ loud.world = quiet.world ∧
      quiet.errors = String.join (messages w args) ∧
      loud.errors = String.join (messages w ("-v" :: args)) ∧
      (messages w args).Sublist (messages w ("-v" :: args)) := by
  intro quiet loud
  have hmessages : (messages w args).Sublist (messages w ("-v" :: args)) := by
    rw [messages, messages, read_verbose]
    cases read args with
    | ok i => exact Note.messages_sublist _ _
    | error s => exact List.Sublist.refl _
  have hsame : loud.exit = quiet.exit ∧ loud.output = quiet.output ∧ loud.world = quiet.world := by
    simp only [loud, quiet, run, read_verbose]
    cases read args with
    | ok i => exact ⟨rfl, rfl, rfl⟩
    | error s => exact ⟨rfl, rfl, rfl⟩
  exact ⟨hsame.1, hsame.2.1, hsame.2.2, errors_eq_join _ _, errors_eq_join _ _, hmessages⟩

end CommandLine

end CloudSecrets
