import CloudSecrets.Proofs.Client
import CloudSecrets.Proofs.Service.Calls

/-!
# What a run meets

A run meets the answers of its calls, and the items of lists as it reaches them. `encounters` tells
all of them from the script and the recorded calls alone: answers are taken in the order of the
calls, and the items of a list are reached one by one, each before the call that is made for it.
Nothing is met behind a call that raises. `Meets` is a triple for operations in which a fault can
only be that of the last encounter.
-/

namespace CloudSecrets.Service

open CloudSecrets.Action

/-- What a run meets: a call with its answer, or an item of a list. -/
inductive Encounter where
  | asked (c : Call) (a : Option Answer)
  | reached (i : Item)

/-- The fault that an encounter raises. -/
def Encounter.fault? : Encounter → Option Fault
  | .asked _ a => a.bind Answer.fault?
  | .reached i => i.fault?

/-- The call of an encounter. -/
def Encounter.call? : Encounter → Option Call
  | .asked c _ => some c
  | .reached _ => none

/-- The pending items that are reached before a call: one for each version that is disabled. -/
def Call.reaches : Call → List Item → List Item
  | .sent (.disableVersion _) _, items => items.take 1
  | _, _ => []

/-- The items that are pending after a call and its answer. -/
def Call.leaves : Call → Option Answer → List Item → List Item
  | .sent (.disableVersion _) _, _, items => items.drop 1
  | .sent (.listSecrets _) _, a, _ => itemsOf a
  | .sent (.listVersions ..) _, a, _ => itemsOf a
  | _, _, items => items

/-- Items are reached in order up to the first that raises. -/
def reachable : List Item → List Encounter
  | [] => []
  | i :: items => .reached i :: if i.fault?.isSome then [] else reachable items

/-- What a run with these calls meets, from a script and pending items on. -/
def encounters (s : Script) (pending : List Item) : List Call → List Encounter
  | [] => reachable pending
  | c :: calls =>
    let a := (s.next c.method).1
    (c.reaches pending).map .reached ++ .asked c a ::
      if (a.bind Answer.fault?).isSome then []
      else encounters (s.next c.method).2 (c.leaves a pending) calls

/-! ## Named resources -/

/-- Whether an item is a resource with a name, or none at all. -/
def Item.Named : Item → Prop
  | .resource r => r.name ≠ none
  | _ => True

/-- Whether the resources of an answer have names. -/
def Answer.Named : Answer → Prop
  | .resource r => r.name ≠ none
  | .items listed => ∀ i ∈ listed, i.Named
  | _ => True

/-- Whether all resources that a script answers with have names. -/
def Script.Named (s : Script) : Prop :=
  ∀ m queue, Entries.get? m s = some queue → ∀ a ∈ queue, a.Named

/-- The answer that is taken has named resources, and so have the others. -/
theorem Script.Named.next {s : Script} (h : s.Named) (m : Method) :
    (∀ a, (s.next m).1 = some a → a.Named) ∧ (s.next m).2.Named := by
  rw [Script.next]
  split
  · rename_i a queue hq
    refine ⟨?_, fun n rest hn => ?_⟩
    · rintro b ⟨⟩
      exact h m _ hq a List.mem_cons_self
    · by_cases hm : m = n
      · subst hm
        rw [Entries.get?_put_self] at hn
        cases hn
        exact fun b hb => h m _ hq b (List.mem_cons_of_mem a hb)
      · rw [Entries.get?_put_of_ne hm] at hn
        exact h n rest hn
  · exact ⟨fun a ha => absurd ha (Option.some_ne_none a).symm, h⟩

/-! ## Triples -/

/-- From a world and pending items on, an action either gives a value with items that stay pending,
meeting nothing that raises, or is stopped by the fault of the last encounter. -/
def MeetsFrom {α : Type} (w : World) (pending : List Item) (a : Action α)
    (Q : α → List Item → Prop) : Prop :=
  (∃ x w' calls met items, a.run.run w = (.ok x, w') ∧ w'.script.Named ∧
      w'.calls = w.calls ++ calls ∧ Q x items ∧ met.filterMap Encounter.call? = calls ∧
      (∀ e ∈ met, e.fault? = none) ∧
      ∀ rest, encounters w.script pending (calls ++ rest) =
        met ++ encounters w'.script items rest) ∨
    ∃ f w' calls met e, a.run.run w = (.error f, w') ∧ w'.calls = w.calls ++ calls ∧
      (met ++ [e]).filterMap Encounter.call? = calls ∧ (∀ e ∈ met, e.fault? = none) ∧
      e.fault? = some f ∧ encounters w.script pending calls = met ++ [e]

/-- The same from every world whose script names its resources. -/
def Meets {α : Type} (pending : List Item) (a : Action α) (Q : α → List Item → Prop) : Prop :=
  ∀ w : World, w.script.Named → MeetsFrom w pending a Q

section Meets

variable {α β : Type} {pending : List Item} {Q : α → List Item → Prop}

/-- What gives a value without using the service meets nothing. -/
theorem MeetsFrom.of_run {a : Action α} {x : α} {w w' : World} (hw : w.script.Named)
    (hx : Q x pending) (hr : a.run.run w = (.ok x, w')) (hs : w'.script = w.script)
    (hc : w'.calls = w.calls) : MeetsFrom w pending a Q := by
  have hv : w'.script.Named := by rw [hs]; exact hw
  refine .inl ⟨x, w', [], [], pending, hr, hv, ?_, hx, rfl, ?_, fun rest => ?_⟩
  · rw [hc, List.append_nil]
  · exact fun e he => absurd he List.not_mem_nil
  · rw [hs, List.nil_append, List.nil_append]

theorem meets_pure {x : α} (hx : Q x pending) : Meets pending (pure x) Q :=
  fun _ hw => .of_run hw hx rfl rfl rfl

theorem meets_ofExcept {ε : Type} {toFault : ε → Fault} {r : Except ε α} {x : α}
    (hr : r = .ok x) :
    Meets pending (ofExcept toFault r) fun y items => y = x ∧ items = pending := by
  subst hr
  exact meets_pure ⟨rfl, rfl⟩

theorem meets_log (l : Level) (s : String) :
    Meets pending (log l s) fun _ items => items = pending :=
  fun w hw => .of_run hw rfl (run_log l s w) rfl rfl

theorem Meets.mono {a : Action α} {R : α → List Item → Prop} (ha : Meets pending a Q)
    (h : ∀ x items, Q x items → R x items) : Meets pending a R := by
  intro w hw
  rcases ha w hw with ⟨x, v, cs, met, items, hr, hv, hcs, hq, hrest⟩ | hf
  · exact .inl ⟨x, v, cs, met, items, hr, hv, hcs, h x items hq, hrest⟩
  · exact .inr hf

/-- The parts of a sequence meet one after the other. -/
theorem Meets.bind {a : Action α} {f : α → Action β} {R : β → List Item → Prop}
    (ha : Meets pending a Q) (hf : ∀ x items, Q x items → Meets items (f x) R) :
    Meets pending (a >>= f) R := by
  have both {p : Encounter → Prop} {xs ys : List Encounter} (hx : ∀ e ∈ xs, p e)
      (hy : ∀ e ∈ ys, p e) : ∀ e ∈ xs ++ ys, p e := by
    intro e he
    rcases List.mem_append.mp he with h | h
    · exact hx e h
    · exact hy e h
  intro w hw
  rcases ha w hw with ⟨x, v, cs, met, items, hr, hv, hcs, hq, hm, hn, he⟩ |
    ⟨g, v, cs, met, e, hr, hcs, hm, hn, hg, he⟩
  · -- What the first part leaves pending is where the second starts.
    rcases hf x items hq v hv with ⟨y, u, ds, met', items', hr', hu, hds, hq', hm', hn', he'⟩ |
      ⟨g, u, ds, met', e, hr', hds, hm', hn', hg, he'⟩
    · refine .inl ⟨y, u, cs ++ ds, met ++ met', items', ?_, hu, ?_, hq', ?_, both hn hn',
        fun rest => ?_⟩
      · rw [run_bind_of_ok hr, hr']
      · rw [hds, hcs, List.append_assoc]
      · rw [List.filterMap_append, hm, hm']
      · rw [List.append_assoc, he, he', List.append_assoc]
    · refine .inr ⟨g, u, cs ++ ds, met ++ met', e, ?_, ?_, ?_, both hn hn', hg, ?_⟩
      · rw [run_bind_of_ok hr, hr']
      · rw [hds, hcs, List.append_assoc]
      · rw [List.append_assoc, List.filterMap_append, hm, hm']
      · rw [he, he', List.append_assoc]
  · exact .inr ⟨g, v, cs, met, e, run_bind_of_error hr f, hcs, hm, hn, hg, he⟩

/-- What leaves pending what was pending is followed from there. -/
theorem Meets.bind_of_eq {a : Action α} {f : α → Action β} {R : β → List Item → Prop}
    (ha : Meets pending a fun _ items => items = pending) (hf : ∀ x, Meets pending (f x) R) :
    Meets pending (a >>= f) R := by
  apply ha.bind
  intro x items h
  rw [h]
  exact hf x

/-- What is computed apart without a fault goes on with its value. -/
theorem meets_ofExcept_bind {ε : Type} {toFault : ε → Fault} {r : Except ε α} {x : α}
    (hr : r = .ok x) {f : α → Action β} {R : β → List Item → Prop} (hf : Meets pending (f x) R) :
    Meets pending (ofExcept toFault r >>= f) R := by
  rw [hr]
  exact hf

end Meets

/-! ## Calls -/

theorem filterMap_reached (items : List Item) :
    (items.map Encounter.reached).filterMap Encounter.call? = [] := by
  rw [List.filterMap_map, List.filterMap_eq_nil_iff]
  exact fun i _ => rfl

/-- A call meets its answer, behind the item that it is made for. -/
theorem MeetsFrom.of_call {α : Type} {Q : α → List Item → Prop} {a : Action α} {c : Call}
    {x : Option Answer → α} {pending : List Item} {w w' : World} (hw : w.script.Named)
    (hp : ∀ i ∈ c.reaches pending, i.fault? = none)
    (hr : a.run.run w = (raised ((w.script.next c.method).1.bind Answer.fault?)
      (x (w.script.next c.method).1), w'))
    (hs : w'.script = (w.script.next c.method).2) (hc : w'.calls = w.calls ++ [c])
    (hQ : ∀ b, (∀ y, b = some y → y.Named) → Q (x b) (c.leaves b pending)) :
    MeetsFrom w pending a Q := by
  have hb : ∀ e ∈ (c.reaches pending).map Encounter.reached, e.fault? = none := by
    intro e he
    obtain ⟨i, hi, rfl⟩ := List.mem_map.mp he
    exact hp i hi
  have hm (b : Option Answer) : ((c.reaches pending).map Encounter.reached ++
      [Encounter.asked c b]).filterMap Encounter.call? = [c] := by
    rw [List.filterMap_append, filterMap_reached]
    rfl
  obtain ⟨hn, hv⟩ := hw.next c.method
  cases hf : (w.script.next c.method).1.bind Answer.fault? with
  | none =>
    rw [hf] at hr
    refine .inl ⟨_, w', [c], _, _, hr, by rw [hs]; exact hv, hc, hQ _ hn,
      hm (w.script.next c.method).1, ?_, fun rest => ?_⟩
    · intro e he
      rcases List.mem_append.mp he with h | h
      · exact hb e h
      · rw [List.mem_singleton.mp h]
        exact hf
    · rw [List.singleton_append, encounters, hf, hs, List.append_assoc]
      rfl
  | some f =>
    rw [hf] at hr
    refine .inr ⟨f, w', [c], _, _, hr, hc, hm (w.script.next c.method).1, hb, hf, ?_⟩
    rw [encounters, hf]
    rfl

theorem meets_send (c : Context) (r : Request) {pending : List Item}
    (hp : ∀ i ∈ (Call.sent r (timeoutOf c)).reaches pending, i.fault? = none) :
    Meets pending (send c r) fun a items =>
      items = (Call.sent r (timeoutOf c)).leaves a pending ∧ ∀ y, a = some y → y.Named :=
  fun w hw => .of_call (x := fun a => a) hw hp (run_send c r w) rfl rfl fun _ hb => ⟨rfl, hb⟩

theorem meets_send_nil (c : Context) (r : Request) :
    Meets [] (send c r) fun a items =>
      items = (Call.sent r (timeoutOf c)).leaves a [] ∧ ∀ y, a = some y → y.Named := by
  have hn : (Call.sent r (timeoutOf c)).reaches [] = [] := by cases r <;> rfl
  refine meets_send c r ?_
  rw [hn]
  exact fun _ hi => absurd hi List.not_mem_nil

theorem meets_connect (k : Nat) (pending : List Item) :
    Meets pending (connect k) fun _ items => items = pending := by
  intro w hw
  by_cases h : k ∈ w.connected
  · exact .of_run hw rfl (run_connect_of_connected h) rfl rfl
  · obtain ⟨w', hr, hs, hc⟩ : ∃ w', (connect k).run.run w =
        (raised ((w.script.next .connect).1.bind Answer.fault?) (), w') ∧
        w'.script = (w.script.next .connect).2 ∧ w'.calls = w.calls ++ [.connected] := by
      rw [run_connect_of_not h]
      cases (w.script.next .connect).1.bind Answer.fault? with
      | none => exact ⟨_, rfl, rfl, rfl⟩
      | some f => exact ⟨_, rfl, rfl, rfl⟩
    exact .of_call (c := .connected) (x := fun _ => ()) hw nofun hr hs hc fun _ _ => rfl

/-! ## Items -/

/-- Items that raise nothing are all reached. -/
theorem reachable_append {items : List Item} (h : ∀ i ∈ items, i.fault? = none)
    (more : List Item) :
    reachable (items ++ more) = items.map .reached ++ reachable more := by
  induction items with
  | nil => rfl
  | cons i items ih =>
    have hi := h i List.mem_cons_self
    rw [List.cons_append, reachable, hi, ih fun j hj => h j (List.mem_cons_of_mem i hj)]
    rfl

/-- An item is reached behind others that have raised nothing. -/
theorem meets_reach (before after : List Item) {i : Item}
    (hb : ∀ j ∈ before, j.fault? = none) :
    Meets (before ++ i :: after) (reach i) fun r items =>
      items = before ++ i :: after ∧ i = .resource r := by
  intro w hw
  cases hf : i.fault? with
  | none =>
    cases i with
    | resource r => exact .of_run hw ⟨rfl, rfl⟩ (run_reach r w) rfl rfl
    | failure f => cases hf
    | interrupt => cases hf
  | some f =>
    refine .inr ⟨f, w, [], before.map .reached, .reached i, run_reach_of_fault hf w, ?_, ?_, ?_,
      hf, ?_⟩
    · rw [List.append_nil]
    · rw [List.filterMap_append, filterMap_reached]
      rfl
    · intro e he
      obtain ⟨j, hj, rfl⟩ := List.mem_map.mp he
      exact hb j hj
    · rw [encounters, reachable_append hb, reachable, hf]
      rfl

/-- A named resource is a secret. -/
theorem secretOf_of_named {r : Resource} (h : r.name ≠ none) : ∃ s, secretOf r = .ok s := by
  rw [secretOf]
  cases hn : r.name with
  | none => exact absurd hn h
  | some name => exact ⟨_, rfl⟩

theorem meets_collect (before : List Item) {items : List Item}
    (hb : ∀ j ∈ before, j.fault? = none) (hn : ∀ j ∈ items, j.Named) :
    Meets (before ++ items) (collect items) fun _ left =>
      ∀ j ∈ left, j.fault? = none := by
  -- The items of a list stay pending while they are reached, as no call is made for them.
  induction items generalizing before with
  | nil =>
    rw [List.append_nil]
    exact meets_pure hb
  | cons i items ih =>
    refine (meets_reach before items hb).bind fun r left hr => ?_
    obtain ⟨rfl, rfl⟩ := hr
    obtain ⟨s, hs⟩ := secretOf_of_named (hn _ List.mem_cons_self)
    apply meets_ofExcept_bind hs
    have hi : ∀ j ∈ before ++ [.resource r], j.fault? = none := by
      intro j hj
      rcases List.mem_append.mp hj with h | h
      · exact hb j h
      · rw [List.mem_singleton.mp h]
        rfl
    have hc := ih (before ++ [.resource r]) hi fun j hj => hn j (List.mem_cons_of_mem _ hj)
    rw [List.append_assoc] at hc
    exact hc.bind fun _ left hl => meets_pure hl

theorem meets_disableAll (client : Client) (items : List Item) :
    Meets items (disableAll client items) fun _ left => left = [] := by
  induction items with
  | nil => exact meets_pure rfl
  | cons i items ih =>
    refine (meets_reach [] items nofun).bind fun r left hr => ?_
    obtain ⟨rfl, rfl⟩ := hr
    apply (meets_connect _ _).bind_of_eq
    intro _
    refine (meets_send client.context (.disableVersion r.name) ?_).bind fun _ left hl => ?_
    · intro j hj
      rw [List.mem_singleton.mp hj]
      rfl
    · -- The version that was reached is no longer pending once it is disabled.
      obtain ⟨rfl, -⟩ := hl
      exact (meets_log _ _).bind_of_eq fun _ => ih

/-! ## Operations -/

/-- Resources keep their names where the request asked for one. -/
theorem resourceOr_named {name : String} {a : Option Answer} (h : ∀ y, a = some y → y.Named) :
    (resourceOr { name := some name } a).name ≠ none := by
  rcases a with _ | (_ | r | _ | _ | _)
  · exact nofun
  · exact nofun
  · exact h _ rfl
  · exact nofun
  · exact nofun
  · exact nofun

/-- Items of a named answer are named. -/
theorem itemsOf_named {a : Option Answer} (h : ∀ y, a = some y → y.Named) :
    ∀ i ∈ itemsOf a, i.Named := by
  rcases a with _ | (_ | _ | items | _ | _)
  · exact nofun
  · exact nofun
  · exact nofun
  · exact h _ rfl
  · exact nofun
  · exact nofun

/-- Without calls so far and with nothing pending, what is met is what the calls and the script
tell; a value is given if nothing of it raises, and a fault is that of the last encounter. -/
theorem Meets.run {α : Type} {a : Action α} {Q : α → List Item → Prop} (ha : Meets [] a Q)
    (hQ : ∀ x items, Q x items → ∀ i ∈ items, i.fault? = none) {w : World} (hw : w.script.Named)
    (hc : w.calls = []) :
    ∃ r w', a.run.run w = (r, w') ∧
      (encounters w.script [] w'.calls).filterMap Encounter.call? = w'.calls ∧
      ((∃ x, r = .ok x ∧ ∀ e ∈ encounters w.script [] w'.calls, e.fault? = none) ∨
        ∃ f init e, r = .error f ∧ encounters w.script [] w'.calls = init ++ [e] ∧
          (∀ e ∈ init, e.fault? = none) ∧ e.fault? = some f) := by
  rcases ha w hw with ⟨x, v, cs, met, left, hr, -, hcs, hq, hm, hn, he⟩ |
    ⟨f, v, cs, met, e, hr, hcs, hm, hn, hf, he⟩
  · rw [hc, List.nil_append] at hcs
    -- What is still pending at the end raises nothing, so all of it is reached.
    have hl := hQ x left hq
    have hmet : encounters w.script [] v.calls = met ++ left.map .reached := by
      have hreach := reachable_append hl []
      rw [List.append_nil, reachable, List.append_nil] at hreach
      rw [hcs, ← List.append_nil cs, he, encounters, hreach]
    refine ⟨.ok x, v, hr, ?_, .inl ⟨x, rfl, ?_⟩⟩
    · rw [hmet, List.filterMap_append, filterMap_reached, hm, hcs, List.append_nil]
    · intro e hmem
      rw [hmet] at hmem
      rcases List.mem_append.mp hmem with h | h
      · exact hn e h
      · obtain ⟨i, hi, rfl⟩ := List.mem_map.mp h
        exact hl i hi
  · rw [hc, List.nil_append] at hcs
    refine ⟨.error f, v, hr, ?_, .inr ⟨f, met, e, rfl, ?_, hn, hf⟩⟩
    · rw [hcs, he, hm]
    · rw [hcs, he]

section Operations

variable {client : Client} {p : String} (hc : client.context.project = some p) (hp : p ≠ "")

include hc hp

theorem meets_create (s : Secret) :
    Meets [] (create client s) fun _ left => left = [] := by
  apply (meets_connect _ _).bind_of_eq
  intro _
  apply meets_ofExcept_bind (projectPath_of_project hc hp)
  refine (meets_send_nil _ _).bind fun a left hl => ?_
  obtain ⟨rfl, -⟩ := hl
  apply (meets_log _ _).bind_of_eq
  intro _
  refine (meets_send_nil _ _).bind fun a left hl => ?_
  obtain ⟨rfl, -⟩ := hl
  exact (meets_log _ _).bind_of_eq fun _ => meets_pure rfl

theorem meets_inspect (id : String) :
    Meets [] (inspect client id) fun _ left => left = [] := by
  obtain ⟨name, hn⟩ := secretPath_of_project hc hp id
  apply (meets_connect _ _).bind_of_eq
  intro _
  apply meets_ofExcept_bind hn
  refine (meets_send_nil _ _).bind fun a left hl => ?_
  obtain ⟨rfl, ha⟩ := hl
  obtain ⟨s, hs⟩ := secretOf_of_named (resourceOr_named ha)
  exact (meets_ofExcept hs).mono fun _ _ hl => hl.2

theorem meets_list :
    Meets [] (list client) fun _ left => ∀ i ∈ left, i.fault? = none := by
  apply (meets_connect _ _).bind_of_eq
  intro _
  apply meets_ofExcept_bind (projectPath_of_project hc hp)
  refine (meets_send_nil _ _).bind fun a left hl => ?_
  obtain ⟨rfl, ha⟩ := hl
  exact meets_collect [] nofun (itemsOf_named ha)

theorem meets_delete (name : String) (recover : Bool) :
    Meets [] (delete client name recover) fun _ left => left = [] := by
  obtain ⟨target, ht⟩ := secretPath_of_project hc hp name
  apply meets_ofExcept_bind ht
  apply (meets_connect _ _).bind_of_eq
  intro _
  cases recover with
  | false =>
    refine (meets_send_nil _ _).bind fun a left hl => ?_
    obtain ⟨rfl, -⟩ := hl
    exact meets_log _ _
  | true =>
    refine (meets_send_nil _ _).bind fun a left hl => ?_
    obtain ⟨rfl, -⟩ := hl
    exact meets_disableAll client _

end Operations

end CloudSecrets.Service
