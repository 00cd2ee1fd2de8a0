import CloudSecrets.World
import Mathlib.Order.Defs.Unbundled

/-!
# Running actions

How the parts of an action run, and properties that are shown part by part and then hold of the
whole. `Along R a` says that every run of `a`, stopped or not, moves the world along `R`, which is
how an action is shown to leave something alone. `Gives P a` and `Stops P a` say of which kind the
values and the faults are that `a` comes to. `Looks a` says that `a` only looks around: what it
gives and what it logs depend on the view of the world, and nothing but the log grows. `Agrees R a` is about two runs: from worlds that `R` relates, `a` comes to the same.
-/

namespace CloudSecrets

variable {α β ε : Type}

/-- The world after some log messages. -/
def World.logging (w : World) (logs : List (Level × String)) : World :=
  { w with notes := w.notes ++ logs.map fun l => .logged l.1 l.2 }

@[simp] theorem World.logging_nil (w : World) : w.logging [] = w := by
  simp [World.logging]

@[simp] theorem World.logging_logging (w : World) (ls ms : List (Level × String)) :
    (w.logging ls).logging ms = w.logging (ls ++ ms) := by
  simp [World.logging]

/-- Two worlds have the same view: the files, the current folder, the home folder and the reader of
configuration files. -/
structure World.SameView (v w : World) : Prop where
  files : v.files = w.files
  here : v.here = w.here
  home : v.home = w.home
  reader : v.reader = w.reader

theorem World.SameView.refl (w : World) : w.SameView w := ⟨rfl, rfl, rfl, rfl⟩

theorem World.sameView_logging (w : World) (logs : List (Level × String)) :
    (w.logging logs).SameView w := ⟨rfl, rfl, rfl, rfl⟩

theorem World.SameView.logging {v w : World} (h : v.SameView w) (logs : List (Level × String)) :
    (v.logging logs).SameView w := ⟨h.files, h.here, h.home, h.reader⟩

/-- The world after some output. -/
def World.telling (w : World) (s : String) : World := { w with output := w.output ++ s }

@[simp] theorem World.telling_telling (w : World) (s t : String) :
    (w.telling s).telling t = w.telling (s ++ t) := by
  simp only [World.telling, String.append_assoc]

/-- Every error that a computation comes to is of a kind. -/
def Fails (P : ε → Prop) (r : Except ε α) : Prop := ∀ e, r = .error e → P e

namespace Fails

variable {P : ε → Prop}

theorem ok (x : α) : Fails P (.ok x) := nofun

theorem error {e : ε} (h : P e) : Fails P (.error e : Except ε α) := by
  rintro _ ⟨⟩
  exact h

theorem bind {r : Except ε α} {f : α → Except ε β} (hr : Fails P r) (hf : ∀ x, Fails P (f x)) :
    Fails P (r >>= f) := by
  cases r with
  | error e => exact error (hr e rfl)
  | ok x => exact hf x

theorem mapError {δ : Type} {g : δ → ε} (h : ∀ e, P (g e)) (r : Except δ α) :
    Fails P (r.mapError g) := by
  cases r with
  | error e => exact error (h e)
  | ok x => exact ok x

end Fails

namespace Action

/-! ## Runs -/

theorem run_pure (x : α) (w : World) : (pure x : Action α).run.run w = (.ok x, w) := rfl

theorem run_stop (f : Fault) (w : World) : (stop f : Action α).run.run w = (.error f, w) := rfl

theorem run_get (w : World) : (get : Action World).run.run w = (.ok w, w) := rfl

theorem run_set (v w : World) : (set v : Action Unit).run.run w = (.ok (), v) := rfl

theorem run_modify (f : World → World) (w : World) :
    (modify f : Action Unit).run.run w = (.ok (), f w) := rfl

theorem run_log (l : Level) (s : String) (w : World) :
    (log l s).run.run w = (.ok (), w.logging [(l, s)]) := rfl

theorem run_warn (s : String) (w : World) :
    (warn s).run.run w = (.ok (), { w with notes := w.notes ++ [.printed s] }) := rfl

theorem run_print (s : String) (w : World) :
    (print s).run.run w = (.ok (), { w with output := w.output ++ s }) := rfl

theorem run_ofExcept_ok (toFault : ε → Fault) (x : α) (w : World) :
    (ofExcept toFault (.ok x)).run.run w = (.ok x, w) := rfl

theorem run_ofExcept (toFault : ε → Fault) (r : Except ε α) (w : World) :
    (ofExcept toFault r).run.run w = (r.mapError toFault, w) := by
  cases r <;> rfl

/-- A sequence runs its second part only if the first gives a value. -/
theorem run_bind (a : Action α) (f : α → Action β) (w : World) :
    (a >>= f).run.run w = match a.run.run w with
      | (.ok x, v) => (f x).run.run v
      | (.error e, v) => (.error e, v) := by
  change ((a.run >>= ExceptT.bindCont f) : StateM World (Except Fault β)).run w = _
  simp only [StateT.run_bind]
  change (ExceptT.bindCont f (a.run.run w).1).run (a.run.run w).2 = _
  rcases a.run.run w with ⟨r, v⟩
  cases r <;> rfl

theorem run_bind_of_ok {a : Action α} {x : α} {v w : World} (h : a.run.run w = (.ok x, v))
    (f : α → Action β) : (a >>= f).run.run w = (f x).run.run v := by
  rw [run_bind, h]

theorem run_bind_of_error {a : Action α} {e : Fault} {v w : World}
    (h : a.run.run w = (.error e, v)) (f : α → Action β) :
    (a >>= f).run.run w = (.error e, v) := by
  rw [run_bind, h]

/-- Whether a path leads to an entry is told, unless the path has too long a name. -/
theorem run_pathExists {w : World} {path : String} {r : Except FileFault Bool}
    (h : w.files.checked w.here path (w.files.exists? w.here path) = r) :
    (pathExists path).run.run w = (r.mapError .file, w) := by
  rw [pathExists, run_bind_of_ok (run_get w), h, run_ofExcept]

theorem run_map (g : α → β) (a : Action α) (w : World) :
    (g <$> a).run.run w = ((a.run.run w).1.map g, (a.run.run w).2) := by
  change (a >>= fun x => pure (g x)).run.run w = _
  rw [run_bind]
  rcases a.run.run w with ⟨r, v⟩
  cases r <;> rfl

/-- A handler runs only on a fault, in the world that the fault left. -/
theorem run_tryCatch (a : Action α) (h : Fault → Action α) (w : World) :
    (tryCatch a h).run.run w = match a.run.run w with
      | (.ok x, v) => (.ok x, v)
      | (.error e, v) => (h e).run.run v := by
  change (ExceptT.tryCatch a h).run.run w = _
  simp only [ExceptT.tryCatch, ExceptT.run_mk, StateT.run_bind]
  rw [show StateT.run (m := Id) a w = a.run.run w from rfl]
  rcases a.run.run w with ⟨r, v⟩
  cases r <;> rfl

theorem run_tryCatch_of_ok {a : Action α} {x : α} {v w : World} (hr : a.run.run w = (.ok x, v))
    (h : Fault → Action α) : (tryCatch a h).run.run w = (.ok x, v) := by
  rw [run_tryCatch, hr]

theorem run_tryCatch_of_error {a : Action α} {e : Fault} {v w : World}
    (hr : a.run.run w = (.error e, v)) (h : Fault → Action α) :
    (tryCatch a h).run.run w = (h e).run.run v := by
  rw [run_tryCatch, hr]

/-! ## Moving along a relation -/

/-- Every run of an action moves the world along a relation. -/
def Along (R : World → World → Prop) (a : Action α) : Prop := ∀ w, R w (a.run.run w).2

section Along

variable {R : World → World → Prop}

theorem Along.pure [Std.Refl R] (x : α) : Along R (pure x : Action α) := fun w => refl w

theorem Along.stop [Std.Refl R] (f : Fault) : Along R (stop f : Action α) := fun w => refl w

theorem Along.ofExcept [Std.Refl R] (toFault : ε → Fault) (r : Except ε α) :
    Along R (ofExcept toFault r) := by
  cases r with
  | ok x => exact Along.pure x
  | error e => exact Along.stop _

theorem Along.bind [IsTrans World R] {a : Action α} {f : α → Action β} (ha : Along R a)
    (hf : ∀ x, Along R (f x)) : Along R (a >>= f) := by
  intro w
  have hw := ha w
  rw [run_bind]
  rcases h : a.run.run w with ⟨r, v⟩
  rw [h] at hw
  cases r with
  | ok x => exact IsTrans.trans _ _ _ hw (hf x v)
  | error e => exact hw

/-- What is computed apart decides along which relation the rest moves. -/
theorem Along.ofExcept_bind [Std.Refl R] {toFault : ε → Fault} {r : Except ε α}
    {f : α → Action β} (hf : ∀ x, r = .ok x → Along R (f x)) :
    Along R (Action.ofExcept toFault r >>= f) := by
  intro w
  cases r with
  | error e =>
    have hstop : (Action.ofExcept toFault (.error e : Except ε α)).run.run w =
        (.error (toFault e), w) := rfl
    rw [run_bind_of_error hstop]
    exact refl w
  | ok x =>
    rw [run_bind_of_ok (run_ofExcept_ok toFault x w)]
    exact hf x rfl w

theorem Along.map {a : Action α} (ha : Along R a) (g : α → β) : Along R (g <$> a) := by
  intro w
  rw [run_map]
  exact ha w

/-- An action that moves along a relation moves along every weaker one. -/
theorem Along.mono {S : World → World → Prop} {a : Action α} (ha : Along R a)
    (h : ∀ v w, R v w → S v w) : Along S a := fun w => h _ _ (ha w)

end Along

/-! ## What actions give -/

/-- Every value that an action gives is of a kind. -/
def Gives (P : α → Prop) (a : Action α) : Prop := ∀ w x v, a.run.run w = (.ok x, v) → P x

section Gives

variable {P : α → Prop}

theorem Gives.pure {x : α} (h : P x) : Gives P (pure x : Action α) := by
  rintro w y v hr
  cases hr
  exact h

theorem Gives.stop (f : Fault) : Gives P (stop f : Action α) := by
  rintro w x v hr
  cases hr

theorem Gives.ofExcept {toFault : ε → Fault} {r : Except ε α} (h : ∀ x, r = .ok x → P x) :
    Gives P (ofExcept toFault r) := by
  cases r with
  | ok x => exact Gives.pure (h x rfl)
  | error e => exact Gives.stop _

/-- A sequence gives what its second part gives for the values of the first. -/
theorem Gives.bind_of {Q : β → Prop} {a : Action β} {f : β → Action α} (ha : Gives Q a)
    (hf : ∀ y, Q y → Gives P (f y)) : Gives P (a >>= f) := by
  intro w x v hr
  rcases hrun : a.run.run w with ⟨e | y, u⟩
  · rw [run_bind_of_error hrun] at hr
    cases hr
  · rw [run_bind_of_ok hrun] at hr
    exact hf y (ha w y u hrun) u x v hr

theorem Gives.bind {a : Action β} {f : β → Action α} (hf : ∀ y, Gives P (f y)) :
    Gives P (a >>= f) :=
  Gives.bind_of (Q := fun _ => True) (fun _ _ _ _ => trivial) fun y _ => hf y

end Gives

/-! ## What stops actions -/

/-- Every fault that stops an action is of a kind. -/
def Stops (P : Fault → Prop) (a : Action α) : Prop := ∀ w, Fails P (a.run.run w).1

section Stops

variable {P : Fault → Prop}

theorem Stops.pure (x : α) : Stops P (pure x : Action α) := fun _ => Fails.ok x

theorem Stops.stop {f : Fault} (h : P f) : Stops P (stop f : Action α) := fun _ => Fails.error h

theorem Stops.ofExcept {toFault : ε → Fault} {r : Except ε α}
    (h : Fails (fun e => P (toFault e)) r) : Stops P (Action.ofExcept toFault r) := by
  cases r with
  | error e => exact Stops.stop (h e rfl)
  | ok x => exact Stops.pure x

theorem Stops.bind {a : Action α} {f : α → Action β} (ha : Stops P a) (hf : ∀ x, Stops P (f x)) :
    Stops P (a >>= f) := by
  intro w
  have hw := ha w
  rcases hr : a.run.run w with ⟨e | x, v⟩
  · rw [hr] at hw
    rw [run_bind_of_error hr]
    exact Fails.error (hw e rfl)
  · rw [run_bind_of_ok hr]
    exact hf x v

theorem Stops.map {a : Action α} (ha : Stops P a) (g : α → β) : Stops P (g <$> a) :=
  ha.bind fun x => Stops.pure (g x)

/-- A handler may stop for reasons of its own. -/
theorem Stops.tryCatch {a : Action α} {h : Fault → Action α} (ha : Stops P a)
    (hh : ∀ f, P f → Stops P (h f)) : Stops P (tryCatch a h) := by
  intro w
  have hw := ha w
  rw [run_tryCatch]
  rcases hr : a.run.run w with ⟨e | x, v⟩
  · rw [hr] at hw
    exact hh e (hw e rfl) v
  · exact Fails.ok x

theorem Stops.get : Stops P (get : Action World) := fun w => Fails.ok w

theorem Stops.log (l : Level) (s : String) : Stops P (log l s) := fun _ => Fails.ok ()

theorem Stops.print (s : String) : Stops P (print s) := fun _ => Fails.ok ()

end Stops

/-! ## Looking around -/

/-- An action only looks around: in worlds with the same view it gives the same and logs the same,
and it does nothing else. -/
def Looks (a : Action α) : Prop :=
  ∀ w : World, ∃ (r : Except Fault α) (logs : List (Level × String)), ∀ v : World,
    v.SameView w → a.run.run v = (r, v.logging logs)

theorem Looks.pure (x : α) : Looks (pure x : Action α) :=
  fun _ => ⟨.ok x, [], fun v _ => by rw [run_pure, World.logging_nil]⟩

theorem Looks.stop (f : Fault) : Looks (stop f : Action α) :=
  fun _ => ⟨.error f, [], fun v _ => by rw [run_stop, World.logging_nil]⟩

theorem Looks.log (l : Level) (s : String) : Looks (log l s) :=
  fun _ => ⟨.ok (), [(l, s)], fun _ _ => rfl⟩

theorem Looks.ofExcept (toFault : ε → Fault) (r : Except ε α) : Looks (ofExcept toFault r) := by
  cases r with
  | ok x => exact Looks.pure x
  | error e => exact Looks.stop _

theorem Looks.bind {a : Action α} {f : α → Action β} (ha : Looks a) (hf : ∀ x, Looks (f x)) :
    Looks (a >>= f) := by
  intro w
  obtain ⟨r, logs, ha⟩ := ha w
  -- The first part leaves the view alone, so the second finds that of `w`.
  cases r with
  | error e => exact ⟨.error e, logs, fun v hv => run_bind_of_error (ha v hv) f⟩
  | ok x =>
    obtain ⟨r, more, hf⟩ := hf x w
    refine ⟨r, logs ++ more, fun v hv => ?_⟩
    rw [run_bind_of_ok (ha v hv) f, hf _ (hv.logging logs), World.logging_logging]

theorem Looks.map {a : Action α} (ha : Looks a) (g : α → β) : Looks (g <$> a) :=
  ha.bind fun x => Looks.pure (g x)

/-- What follows on the world may use its view. -/
theorem Looks.get_bind {f : World → Action α}
    (same : ∀ v w : World, v.SameView w → f v = f w) (hf : ∀ w, Looks (f w)) :
    Looks (get >>= f) := by
  intro w
  obtain ⟨r, logs, hf⟩ := hf w w
  refine ⟨r, logs, fun v hv => ?_⟩
  rw [run_bind_of_ok (run_get v) f, same v w hv, hf v hv]

/-! ## Outcomes -/

/-- A sequence of computations gives a value if both parts do. -/
theorem bind_eq_ok {r : Except ε α} {f : α → Except ε β} {y : β} :
    (r >>= f) = .ok y ↔ ∃ x, r = .ok x ∧ f x = .ok y := by
  cases r <;> simp [bind, Except.bind]

theorem mapError_eq_ok {δ : Type} {r : Except ε α} {g : ε → δ} {x : α} :
    r.mapError g = .ok x ↔ r = .ok x := by
  cases r with
  | error e => exact iff_of_false (by rintro ⟨⟩) (by rintro ⟨⟩)
  | ok y =>
    constructor
    · rintro ⟨⟩
      rfl
    · rintro ⟨⟩
      rfl

theorem mapError_eq_error_iff {δ : Type} {r : Except ε α} {g : ε → δ} {d : δ} :
    r.mapError g = .error d ↔ ∃ e, r = .error e ∧ g e = d := by
  cases r with
  | error e =>
    constructor
    · rintro ⟨⟩
      exact ⟨e, rfl, rfl⟩
    · rintro ⟨_, ⟨⟩, rfl⟩
      rfl
  | ok x =>
    refine iff_of_false (by rintro ⟨⟩) ?_
    rintro ⟨e, ⟨⟩, -⟩

theorem eq_ok_of_toOption {r : Except ε α} {x : α} (h : r.toOption = some x) : r = .ok x := by
  cases r with
  | error e => cases h
  | ok y =>
    cases h
    rfl

/-- The fault or the value that an action comes to in a world. -/
def outcome (a : Action α) (w : World) : Except Fault α := (a.run.run w).1

/-- A run that only looks around comes to its outcome and logs. -/
theorem Looks.run {a : Action α} (ha : Looks a) (w : World) :
    ∃ logs, a.run.run w = (a.outcome w, w.logging logs) := by
  obtain ⟨r, logs, h⟩ := ha w
  have hw := h w (.refl w)
  exact ⟨logs, by rw [outcome, hw]⟩

/-- The outcome of an action that only looks around depends on the view of the world. -/
theorem Looks.outcome_eq {a : Action α} (ha : Looks a) {v w : World} (h : v.SameView w) :
    a.outcome v = a.outcome w := by
  obtain ⟨r, logs, hr⟩ := ha w
  rw [outcome, outcome, hr v h, hr w (.refl w)]

/-- What has been logged makes no difference to an action that only looks around. -/
theorem Looks.outcome_logging {a : Action α} (ha : Looks a) (w : World)
    (logs : List (Level × String)) : a.outcome (w.logging logs) = a.outcome w :=
  ha.outcome_eq (w.sameView_logging logs)

/-- The outcome of actions in sequence is that of their outcomes. -/
theorem Looks.outcome_bind {a : Action α} {f : α → Action β} (ha : Looks a)
    (hf : ∀ x, Looks (f x)) (w : World) :
    (a >>= f).outcome w = a.outcome w >>= fun x => (f x).outcome w := by
  obtain ⟨logs, h⟩ := ha.run w
  cases hr : a.outcome w with
  | error e =>
    rw [hr] at h
    rw [outcome, run_bind_of_error h]
    rfl
  | ok x =>
    rw [hr] at h
    rw [outcome, run_bind_of_ok h]
    exact (hf x).outcome_logging w logs

/-- What only looks around adds its outcome and its log messages to a run. -/
theorem run_bind_looks (a : Action α) {f : α → Action β} (hf : ∀ x, Looks (f x)) (w : World) :
    ∃ logs, (a >>= f).run.run w =
      ((a.run.run w).1 >>= fun x => (f x).outcome (a.run.run w).2,
        (a.run.run w).2.logging logs) := by
  rcases h : a.run.run w with ⟨r, v⟩
  cases r with
  | error e => exact ⟨[], by rw [run_bind_of_error h, World.logging_nil]; rfl⟩
  | ok x =>
    obtain ⟨logs, hr⟩ := (hf x).run v
    exact ⟨logs, by rw [run_bind_of_ok h, hr]; rfl⟩

/-! ## Two runs -/

/-- From worlds in a relation an action comes to the same, and leaves worlds in the relation. -/
def Agrees (R : World → World → Prop) (a : Action α) : Prop :=
  ∀ v w, R v w → a.outcome w = a.outcome v ∧ R (a.run.run v).2 (a.run.run w).2

section Agrees

variable {R : World → World → Prop}

theorem Agrees.pure (x : α) : Agrees R (pure x : Action α) := fun _ _ h => ⟨rfl, h⟩

theorem Agrees.stop (f : Fault) : Agrees R (stop f : Action α) := fun _ _ h => ⟨rfl, h⟩

theorem Agrees.ofExcept (toFault : ε → Fault) (r : Except ε α) : Agrees R (ofExcept toFault r) := by
  cases r with
  | ok x => exact Agrees.pure x
  | error e => exact Agrees.stop _

theorem Agrees.modify {f : World → World} (h : ∀ v w, R v w → R (f v) (f w)) :
    Agrees R (modify f : Action Unit) := fun v w hr => ⟨rfl, h v w hr⟩

theorem Agrees.bind {a : Action α} {f : α → Action β} (ha : Agrees R a)
    (hf : ∀ x, Agrees R (f x)) : Agrees R (a >>= f) := by
  intro v w h
  obtain ⟨hsame, hend⟩ := ha v w h
  rw [outcome, outcome] at hsame
  rcases hv : a.run.run v with ⟨r, v'⟩
  rcases hw : a.run.run w with ⟨r', w'⟩
  rw [hv, hw] at hsame hend
  subst hsame
  rw [outcome, outcome]
  cases r' with
  | error e =>
    rw [run_bind_of_error hv, run_bind_of_error hw]
    exact ⟨rfl, hend⟩
  | ok x =>
    rw [run_bind_of_ok hv, run_bind_of_ok hw]
    exact hf x v' w' hend

theorem Agrees.map {a : Action α} (ha : Agrees R a) (g : α → β) : Agrees R (g <$> a) :=
  ha.bind fun x => Agrees.pure (g x)

/-- What follows on the world may use what worlds in the relation have in common. -/
theorem Agrees.get_bind {f : World → Action α}
    (h : ∀ v w, R v w → f w = f v ∧ Agrees R (f v)) : Agrees R (get >>= f) := by
  intro v w hr
  obtain ⟨hsame, hf⟩ := h v w hr
  rw [outcome, outcome, run_bind_of_ok (run_get v), run_bind_of_ok (run_get w), hsame]
  exact hf v w hr

end Agrees

end Action

end CloudSecrets
