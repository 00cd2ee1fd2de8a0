import CloudSecrets.Proofs.FileTree.Path

/-!
# Where paths lead

`Leads` says step by step how names lead from a folder to an entry or to a vacant place; a walk
succeeds exactly if its names lead somewhere (`walk_eq_ok_iff`). From it: what is written at the end
of a path is found there.
-/

namespace CloudSecrets.FileTree

variable {t : FileTree} {aim : Aim} {here : Location} {f : Found}

theorem Aim.eq_of_beq {a b : Aim} (h : (a == b) = true) : a = b := by
  cases a <;> cases b <;> first
  | rfl
  | cases h

/-- Whether a name in front of others is looked up: it is a name of its own, it is not too long, and
no place for a file is asked for as a folder. -/
structure Looked (aim : Aim) (name : String) (rest : List String) : Prop where
  ne_empty : name ≠ ""
  ne_dot : name ≠ "."
  ne_dots : name ≠ ".."
  place : aim = .place → asksForFolder rest = false
  short : name.utf8ByteSize ≤ longestName

/-- Names lead from a folder to where they end, across at most so many links. -/
inductive Leads (t : FileTree) (aim : Aim) : Nat → Location → List String → Found → Prop where
  | arrived {links : Nat} {here : Location} : Leads t aim links here [] (.entry here .folder)
  | stay {links : Nat} {here : Location} {name : String} {rest : List String} {f : Found}
      (hn : name = "" ∨ name = ".") (hr : Leads t aim links here rest f) :
      Leads t aim links here (name :: rest) f
  | up {links : Nat} {here : Location} {rest : List String} {f : Found}
      (hr : Leads t aim links here.parent rest f) : Leads t aim links here (".." :: rest) f
  | down {links : Nat} {here : Location} {name : String} {rest : List String} {f : Found}
      (hn : Looked aim name rest) (hl : t.lookup (here ++ [name]) = some .folder)
      (hr : Leads t aim links (here ++ [name]) rest f) : Leads t aim links here (name :: rest) f
  | vacant {links : Nat} {here : Location} {name : String}
      (hn : Looked aim name []) (hl : t.lookup (here ++ [name]) = none) :
      Leads t aim links here [name] (.vacant (here ++ [name]))
  | entry {links : Nat} {here : Location} {name : String} {e : Entry}
      (hn : Looked aim name []) (hl : t.lookup (here ++ [name]) = some e) (he : e ≠ .folder)
      (ha : ∀ target, e = .link target → aim = .entry) :
      Leads t aim links here [name] (.entry (here ++ [name]) e)
  | across {links : Nat} {here : Location} {name target : String} {rest : List String} {f : Found}
      (hn : Looked aim name rest) (hl : t.lookup (here ++ [name]) = some (.link target))
      (ha : aim = .entry → rest ≠ []) (ht : target ≠ "")
      (hr : Leads t aim links (start here target) (steps target ++ rest) f) :
      Leads t aim (links + 1) here (name :: rest) f

/-! ## Walks -/

/-- How a walk follows a link from the folder that holds it. -/
def crossing (t : FileTree) (aim : Aim) : Nat → Location → String → List String →
    Except FileCause Found
  | 0, _, _, _ => .error .tooManyLinks
  | links + 1, here, target, rest =>
    if target.isEmpty then .error .missing
    else walk t aim links (start here target) (steps target ++ rest)

theorem walk_eq (links : Nat) : walk t aim links = walkAcross t aim (crossing t aim links) := by
  cases links <;> rfl

/-- The entry that a name is looked up to decides where a walk goes on. -/
theorem walkAcross_of_looked {name : String} {rest : List String} (hn : Looked aim name rest)
    (cross : Location → String → List String → Except FileCause Found) :
    walkAcross t aim cross here (name :: rest) =
      match t.lookup (here ++ [name]) with
      | none => if rest.isEmpty then .ok (.vacant (here ++ [name])) else .error .missing
      | some .folder => walkAcross t aim cross (here ++ [name]) rest
      | some (.link target) =>
        if rest.isEmpty && aim == .entry then .ok (.entry (here ++ [name]) (.link target))
        else cross here target rest
      | some e => if rest.isEmpty then .ok (.entry (here ++ [name]) e) else .error .notFolder := by
  have hplain : (name.isEmpty || name == ".") = false := by
    rw [Bool.or_eq_false_iff, beq_eq_false_iff_ne]
    exact ⟨by simpa using hn.ne_empty, hn.ne_dot⟩
  have hplace : (aim == .place && asksForFolder rest) = false := by
    cases ha : aim == .place with
    | false => rfl
    | true => exact hn.place (Aim.eq_of_beq ha)
  have hup : ¬(name == "..") = true := by
    simpa using hn.ne_dots
  have hstep := walkAcross.eq_2 t aim cross here name rest
  rw [hplain, if_neg Bool.false_ne_true, if_neg hup, hplace, if_neg Bool.false_ne_true,
    if_neg (Nat.not_lt.mpr hn.short)] at hstep
  exact hstep

/-- A walk that succeeds skips the next name, goes up, or looks it up. -/
theorem looked_of_walkAcross {cross : Location → String → List String → Except FileCause Found}
    {name : String} {rest : List String} (h : walkAcross t aim cross here (name :: rest) = .ok f) :
    (name = "" ∨ name = ".") ∧ walkAcross t aim cross here rest = .ok f ∨
      name = ".." ∧ walkAcross t aim cross here.parent rest = .ok f ∨ Looked aim name rest := by
  by_cases hs : (name.isEmpty || name == ".") = true
  · rw [walkAcross, if_pos hs] at h
    exact .inl ⟨by simpa using hs, h⟩
  · by_cases hu : (name == "..") = true
    · rw [walkAcross, if_neg hs, if_pos hu] at h
      exact .inr (.inl ⟨by simpa using hu, h⟩)
    · rw [walkAcross, if_neg hs, if_neg hu] at h
      split at h
      · cases h
      · rename_i hplace
        split at h
        · cases h
        · rename_i hlong
          rw [Bool.or_eq_true, not_or] at hs
          refine .inr (.inr ⟨by simpa using hs.1, by simpa using hs.2, by simpa using hu, ?_,
            Nat.not_lt.mp hlong⟩)
          intro ha
          subst ha
          simpa [show (Aim.place == Aim.place) = true from rfl] using hplace

/-- Names that are walked lead where the walk ends, if that holds of the links that it follows. -/
theorem leads_of_walkAcross {links : Nat}
    {cross : Location → String → List String → Except FileCause Found}
    (hcross : ∀ here target rest, cross here target rest = .ok f →
      ∃ n, links = n + 1 ∧ target ≠ "" ∧
        Leads t aim n (start here target) (steps target ++ rest) f)
    (names : List String) (h : walkAcross t aim cross here names = .ok f) :
    Leads t aim links here names f := by
  induction names generalizing here with
  | nil =>
    cases h
    exact .arrived
  | cons name rest ih =>
    rcases looked_of_walkAcross h with ⟨hn, h⟩ | ⟨rfl, h⟩ | hn
    · exact .stay hn (ih h)
    · exact .up (ih h)
    · rw [walkAcross_of_looked hn] at h
      cases hl : t.lookup (here ++ [name]) with
      | none =>
        rw [hl] at h
        cases rest with
        | nil =>
          cases h
          exact .vacant hn hl
        | cons next rest => cases h
      | some e =>
        rw [hl] at h
        cases e with
        | folder => exact .down hn hl (ih h)
        | link target =>
          by_cases he : (rest.isEmpty && aim == .entry) = true
          · simp only [he, if_true] at h
            cases h
            rw [Bool.and_eq_true, List.isEmpty_iff] at he
            obtain ⟨rfl, ha⟩ := he
            exact .entry hn hl nofun fun _ _ => Aim.eq_of_beq ha
          · simp only [he] at h
            obtain ⟨n, rfl, ht, hr⟩ := hcross _ _ _ h
            refine .across hn hl (fun ha hnil => he ?_) ht hr
            rw [ha, hnil]
            rfl
        | file content =>
          cases rest with
          | nil =>
            cases h
            exact .entry hn hl nofun nofun
          | cons next rest => cases h
        | device =>
          cases rest with
          | nil =>
            cases h
            exact .entry hn hl nofun nofun
          | cons next rest => cases h

theorem leads_of_walk {links : Nat} {names : List String}
    (h : walk t aim links here names = .ok f) : Leads t aim links here names f := by
  induction links generalizing here names with
  | zero => exact leads_of_walkAcross (fun _ _ _ hc => by cases hc) names h
  | succ n ih =>
    rw [walk_eq] at h
    refine leads_of_walkAcross (fun here target rest hc => ⟨n, rfl, ?_⟩) names h
    rw [crossing] at hc
    split at hc
    · cases hc
    · rename_i ht
      exact ⟨by simpa using ht, ih hc⟩

/-- A walk ends where its names lead. -/
theorem walk_eq_ok_iff {links : Nat} {names : List String} :
    walk t aim links here names = .ok f ↔ Leads t aim links here names f := by
  refine ⟨leads_of_walk, fun h => ?_⟩
  induction h with
  | arrived =>
    rw [walk_eq]
    rfl
  | stay hn hr ih =>
    rw [walk_eq] at ih ⊢
    rw [walkAcross, if_pos (by simpa using hn), ih]
  | up hr ih =>
    rw [walk_eq] at ih ⊢
    exact ih
  | down hn hl hr ih =>
    rw [walk_eq] at ih ⊢
    rw [walkAcross_of_looked hn, hl]
    exact ih
  | vacant hn hl =>
    rw [walk_eq, walkAcross_of_looked hn, hl]
    rfl
  | @entry links here name e hn hl he ha =>
    rw [walk_eq, walkAcross_of_looked hn, hl]
    cases e with
    | folder => exact absurd rfl he
    | link target =>
      rw [ha target rfl]
      rfl
    | file content => rfl
    | device => rfl
  | @across links here name target rest f hn hl ha ht hr ih =>
    have hnot : ¬(rest.isEmpty && aim == .entry) = true := by
      rw [Bool.and_eq_true, List.isEmpty_iff]
      exact fun h => ha (Aim.eq_of_beq h.2) h.1
    rw [walk_eq, walkAcross_of_looked hn, hl]
    simp only [if_neg hnot]
    rw [crossing, if_neg (by simpa using ht), ih]

/-- A path leads somewhere if it is neither empty nor too long, and its names do. -/
theorem findAim_eq_ok_iff {path : String} :
    t.findAim aim here path = .ok f ↔ path ≠ "" ∧ path.utf8ByteSize ≤ longestPath ∧
      Leads t aim mostLinks (start here path) (steps path) f := by
  rw [findAim]
  split
  · rename_i he
    simp only [reduceCtorEq, false_iff]
    exact fun h => h.1 (by simpa using he)
  · rename_i he
    split
    · rename_i hl
      simp only [reduceCtorEq, false_iff]
      exact fun h => absurd hl (Nat.not_lt.mpr h.2.1)
    · rename_i hl
      rw [walk_eq_ok_iff]
      exact ⟨fun h => ⟨by simpa using he, Nat.not_lt.mp hl, h⟩, fun h => h.2.2⟩

/-! ## Writing -/

/-- Where a path leads if a file can be written there: to a vacant place, or to a file. -/
def Found.Takes (l : Location) (f : Found) : Prop :=
  f = .vacant l ∨ ∃ content, f = .entry l (.file content)

/-- A vacant place holds nothing, and an entry that is no folder stands where names lead to it. -/
theorem Leads.lookup_eq {links : Nat} {names : List String}
    (h : Leads t aim links here names f) :
    (∀ l, f = .vacant l → t.lookup l = none) ∧
      ∀ l e, f = .entry l e → e ≠ .folder → t.lookup l = some e := by
  induction h with
  | arrived =>
    refine ⟨nofun, fun l e hf he => ?_⟩
    cases hf
    exact absurd rfl he
  | stay hn hr ih => exact ih
  | up hr ih => exact ih
  | down hn hl hr ih => exact ih
  | vacant hn hl =>
    refine ⟨fun l hf => ?_, nofun⟩
    cases hf
    exact hl
  | entry hn hl _ _ =>
    refine ⟨nofun, fun l e hf _ => ?_⟩
    cases hf
    exact hl
  | across hn hl ha ht hr ih => exact ih

/-- A file cannot be put in the place of the root. -/
theorem ne_nil_of_takes {path : String} {l : Location} (h : t.findAim aim here path = .ok f)
    (hf : f.Takes l) : l ≠ [] := by
  obtain ⟨-, -, hr⟩ := findAim_eq_ok_iff.mp h
  rintro rfl
  rcases hf with hf | ⟨c, hf⟩
  · cases hr.lookup_eq.1 [] hf
  · cases hr.lookup_eq.2 [] _ hf nofun

/-- Only a place for a file makes a difference to what stands behind a name. -/
theorem Looked.of_ne_place {other : Aim} {name : String} {rest behind : List String}
    (h : Looked aim name rest) (ha : other ≠ .place) : Looked other name behind :=
  ⟨h.ne_empty, h.ne_dot, h.ne_dots, fun hp => absurd hp ha, h.short⟩

/-- A place for a file is what the path leads to. -/
theorem Leads.target_of_place {links : Nat} {names : List String}
    (h : Leads t .place links here names f) : Leads t .target links here names f := by
  induction h with
  | arrived => exact .arrived
  | stay hn hr ih => exact .stay hn ih
  | up hr ih => exact .up ih
  | down hn hl hr ih => exact .down (hn.of_ne_place nofun) hl ih
  | vacant hn hl => exact .vacant (hn.of_ne_place nofun) hl
  | entry hn hl he ha =>
    exact .entry (hn.of_ne_place nofun) hl he fun target h => nomatch ha target h
  | across hn hl ha ht hr ih => exact .across (hn.of_ne_place nofun) hl nofun ht ih

/-- Names that lead to a place for a file lead to the file or the folder that is put there. -/
theorem Leads.put {links : Nat} {names : List String} {l : Location} {e : Entry}
    (h : Leads t aim links here names f) (hf : f.Takes l) (he : ∀ target, e ≠ .link target) :
    Leads (t.put l e) .target links here names (.entry l e) := by
  have hfree : t.lookup l = none ∨ ∃ c, t.lookup l = some (.file c) := by
    rcases hf with hf | ⟨c, hf⟩
    · exact .inl (h.lookup_eq.1 l hf)
    · exact .inr ⟨c, h.lookup_eq.2 l _ hf nofun⟩
  -- Folders and links on the way are elsewhere, so they are still there.
  have hkeep : ∀ {m : Location} {old : Entry}, t.lookup m = some old → (∀ c, old ≠ .file c) →
      (t.put l e).lookup m = some old := by
    intro m old hm hold
    rw [lookup_put_of_ne ?_, hm]
    rintro rfl
    rcases hfree with hn | ⟨c, hc⟩
    · rw [hn] at hm
      cases hm
    · rw [hc] at hm
      exact hold c (Option.some.inj hm).symm
  -- At the last name stands what was put there.
  have hlast : ∀ {links : Nat} {here : Location} {name : String}, Looked aim name [] →
      l = here ++ [name] → Leads (t.put l e) .target links here [name] (.entry l e) := by
    rintro links here name hn rfl
    have hne : here ++ [name] ≠ [] :=
      List.append_ne_nil_of_right_ne_nil here (List.cons_ne_nil name [])
    have hself := lookup_put_self hne t e
    by_cases hfolder : e = .folder
    · subst hfolder
      exact .down (hn.of_ne_place nofun) hself .arrived
    · exact .entry (hn.of_ne_place nofun) hself hfolder fun target h => absurd h (he target)
  induction h with
  | arrived => rcases hf with hf | ⟨_, hf⟩ <;> cases hf
  | stay hn hr ih => exact .stay hn (ih hf)
  | up hr ih => exact .up (ih hf)
  | down hn hl hr ih => exact .down (hn.of_ne_place nofun) (hkeep hl nofun) (ih hf)
  | vacant hn hl =>
    rcases hf with hf | ⟨_, hf⟩
    · cases hf
      exact hlast hn rfl
    · cases hf
  | entry hn hl _ _ =>
    rcases hf with hf | ⟨c, hf⟩
    · cases hf
    · cases hf
      exact hlast hn rfl
  | across hn hl ha ht hr ih =>
    exact .across (hn.of_ne_place nofun) (hkeep hl nofun) nofun ht (ih hf)

/-- What can be written at a path is what the path leads to. -/
theorem find_of_place {path : String} (h : t.findAim .place here path = .ok f) :
    t.find here path = .ok f := by
  obtain ⟨hne, hlen, hr⟩ := findAim_eq_ok_iff.mp h
  exact findAim_eq_ok_iff.mpr ⟨hne, hlen, hr.target_of_place⟩

/-- A file or a folder that is put where a path leads is what the path leads to. -/
theorem find_put {path : String} {l : Location} {e : Entry} (h : t.findAim aim here path = .ok f)
    (hf : f.Takes l) (he : ∀ target, e ≠ .link target) :
    (t.put l e).find here path = .ok (.entry l e) := by
  obtain ⟨hne, hlen, hr⟩ := findAim_eq_ok_iff.mp h
  exact findAim_eq_ok_iff.mpr ⟨hne, hlen, hr.put hf he⟩

/-- What is put where a path leads is read there. -/
theorem read_put {path : String} {l : Location} (h : t.findAim aim here path = .ok f)
    (hf : f.Takes l) (content : Bytes) :
    (t.put l (.file content)).read here path = .ok content := by
  rw [read, find_put h hf fun _ hlink => Entry.noConfusion hlink]

/-- Links are followed, unless the entry itself is looked for. -/
theorem Leads.ne_link {links : Nat} {names : List String} (h : Leads t aim links here names f)
    (ha : aim ≠ .entry) (l : Location) (target : String) : f ≠ .entry l (.link target) := by
  induction h with
  | arrived => nofun
  | stay hn hr ih => exact ih
  | up hr ih => exact ih
  | down hn hl hr ih => exact ih
  | vacant hn hl => nofun
  | entry hn hl he hlink =>
    intro hf
    cases hf
    exact ha (hlink target rfl)
  | across hn hl _ ht hr ih => exact ih

/-- Writing fails, puts the file where the path leads, or goes to a device and changes nothing. -/
theorem write_cases (t : FileTree) (here : Location) (path : String) (content : Bytes) :
    (∃ fault, t.write here path content = .error fault) ∨
      (∃ l f, t.findAim .place here path = .ok f ∧ f.Takes l ∧
        t.write here path content = .ok (t.put l (.file content))) ∨
      ∃ l, t.findAim .place here path = .ok (.entry l .device) ∧
        t.write here path content = .ok t := by
  rw [write]
  cases hf : t.findAim .place here path with
  | error cause => exact .inl ⟨_, rfl⟩
  | ok f =>
    cases f with
    | vacant l => exact .inr (.inl ⟨l, _, rfl, .inl rfl, rfl⟩)
    | entry l e =>
      cases e with
      | file old => exact .inr (.inl ⟨l, _, rfl, .inr ⟨old, rfl⟩, rfl⟩)
      | folder => exact .inl ⟨_, rfl⟩
      | device => exact .inr (.inr ⟨l, rfl, rfl⟩)
      | link target =>
        obtain ⟨-, -, hr⟩ := findAim_eq_ok_iff.mp hf
        exact absurd rfl (hr.ne_link nofun l target)

/-- An answer about a path is given, unless a name in it is too long. -/
theorem checked_cases {α : Type} (t : FileTree) (here : Location) (path : String) (answer : α) :
    t.checked here path answer = .ok answer ∨
      ∃ fault, t.checked here path answer = .error fault := by
  rw [checked]
  split
  · exact .inl rfl
  · split
    · exact .inr ⟨_, rfl⟩
    · exact .inl rfl

end CloudSecrets.FileTree
