import CloudSecrets.Entries
import Mathlib.Data.List.Basic
import Mathlib.Data.List.Induction

/-!
# Building and updating maps

A map that is built from a list of entries has each key once, in the order in which the keys are
first given (`keys_ofList`), with the value that is given last (`get?_ofList_eq_some_iff`). Building
it from two lists is building a map from each and updating the first with the second
(`ofList_append`): a key that is put again keeps its place, so its earlier values make no
difference.
-/

namespace CloudSecrets.Entries

variable {α β : Type} [BEq α] [LawfulBEq α]

/-! ## Putting again -/

/-- The value that is put last stays. -/
theorem put_put_self (k : α) (v v' : β) (es : Entries α β) :
    put k v (put k v' es) = put k v es := by
  induction es with
  | nil => simp [put]
  | cons e es ih =>
    by_cases h : e.1 == k
    · simp [put, h]
    · simp [put, h, ih]

omit [LawfulBEq α] in
/-- A key has a value if it is that of the first entry, or has one in the others. -/
theorem has_cons (k : α) (e : α × β) (es : Entries α β) :
    has k (e :: es) = ((e.1 == k) || has k es) := by
  rw [has, get?_cons]
  split <;> simp_all [has]

theorem has_put_self (k : α) (v : β) (es : Entries α β) : has k (put k v es) = true := by
  rw [has, get?_put_self]
  rfl

/-- A key keeps having a value. -/
theorem has_put {k : α} {es : Entries α β} (h : has k es = true) (l : α) (u : β) :
    has k (put l u es) = true := by
  by_cases hkl : l = k
  · rw [hkl]
    exact has_put_self k u es
  · rw [has, get?_put_of_ne hkl]
    exact h

/-- A key that has a value keeps its place, so it may as well be put before another one. -/
theorem put_comm_of_has {k l : α} (hkl : k ≠ l) {es : Entries α β} (h : has k es = true) (v u : β) :
    put k v (put l u es) = put l u (put k v es) := by
  induction es with
  | nil => cases h
  | cons e es ih =>
    rw [has_cons] at h
    by_cases hk : e.1 = k
    · simp [put, hk, hkl]
    · by_cases hl : e.1 = l
      · simp [put, hl, Ne.symm hkl]
      · simp_all [put]

/-! ## Putting many entries -/

/-- A key that has a value may as well be put behind entries with other keys. -/
theorem putAll_put_of_has {k : α} (v : β) {news : Entries α β} (hk : k ∉ news.map Prod.fst)
    {es : Entries α β} (h : has k es = true) :
    putAll (put k v es) news = put k v (putAll es news) := by
  induction news generalizing es with
  | nil => rfl
  | cons e news ih =>
    rw [List.map_cons, List.mem_cons, not_or] at hk
    rw [putAll, List.foldl_cons, ← put_comm_of_has hk.1 h]
    exact ih hk.2 (has_put h e.1 e.2)

/-- An entry that is put into entries with distinct keys is put into the map with them. -/
theorem putAll_put (k : α) (v : β) {news : Entries α β} (hn : (news.map Prod.fst).Nodup)
    (es : Entries α β) : putAll es (put k v news) = put k v (putAll es news) := by
  induction news generalizing es with
  | nil => rfl
  | cons e news ih =>
    rw [List.map_cons, List.nodup_cons] at hn
    by_cases h : e.1 = k
    · subst h
      have hput : put e.1 v (e :: news) = (e.1, v) :: news := by
        rw [put, beq_self_eq_true, if_pos rfl]
      rw [hput, putAll, List.foldl_cons, ← put_put_self e.1 v e.2 es]
      exact putAll_put_of_has v hn.1 (has_put_self e.1 e.2 es)
    · have hput : put k v (e :: news) = e :: put k v news := by
        rw [put, if_neg (by simpa using h)]
      rw [hput]
      exact ih hn.2 (put e.1 e.2 es)

omit [LawfulBEq α] in
theorem ofList_concat (news : Entries α β) (e : α × β) :
    ofList (news ++ [e]) = put e.1 e.2 (ofList news) := by
  rw [ofList, putAll, List.foldl_concat]
  rfl

theorem nodup_ofList (news : Entries α β) : ((ofList news).map Prod.fst).Nodup := by
  induction news using List.reverseRecOn with
  | nil => exact List.nodup_nil
  | append_singleton news e ih =>
    rw [ofList_concat]
    exact nodup_put ih e.1 e.2

/-- Putting the entries of a list is putting those of the map that they build. -/
theorem putAll_ofList (es news : Entries α β) : putAll es (ofList news) = putAll es news := by
  induction news using List.reverseRecOn with
  | nil => rfl
  | append_singleton news e ih =>
    rw [ofList_concat, putAll_put e.1 e.2 (nodup_ofList news), ih, putAll, putAll,
      List.foldl_concat]

/-- Two lists of entries build one map, updated with the other. -/
theorem ofList_append (a b : Entries α β) : ofList (a ++ b) = putAll (ofList a) (ofList b) := by
  rw [putAll_ofList, ofList, putAll, List.foldl_append]
  rfl

/-! ## What a list of entries builds -/

/-- The keys stand in the order in which they are first given. -/
theorem keys_ofList (news : Entries α β) :
    (ofList news).map Prod.fst = (news.map Prod.fst).eraseDups := by
  induction news using List.reverseRecOn with
  | nil => rfl
  | append_singleton news e ih =>
    have hhas : has e.1 (ofList news) = true ↔ e.1 ∈ news.map Prod.fst := by
      rw [← List.mem_eraseDups, ← ih, has, Option.isSome_iff_ne_none, ne_eq, get?_eq_none_iff,
        not_not]
    rw [ofList_concat, keys_put, ih, List.map_append, List.eraseDups_append]
    by_cases hk : e.1 ∈ news.map Prod.fst
    · rw [if_pos (hhas.mpr hk)]
      simp [List.removeAll, hk]
    · rw [if_neg (mt hhas.mp hk)]
      simp [List.removeAll, hk, List.eraseDups_cons]

omit [BEq α] [LawfulBEq α] in
/-- An entry of a list is its last one or stands before that. -/
theorem concat_eq_append_cons {news before after : Entries α β} {e x : α × β}
    (h : news ++ [e] = before ++ x :: after) :
    (x = e ∧ after = []) ∨ ∃ rest, after = rest ++ [e] ∧ news = before ++ x :: rest := by
  rcases List.eq_nil_or_concat' after with rfl | ⟨rest, last, rfl⟩
  · exact .inl ⟨(List.append_singleton_inj.mp h).2.symm, rfl⟩
  · rw [← List.cons_append, ← List.append_assoc] at h
    obtain ⟨hnews, rfl⟩ := List.append_singleton_inj.mp h
    exact .inr ⟨rest, rfl, hnews⟩

/-- The value of a key is the one that is given last. -/
theorem get?_ofList_eq_some_iff {k : α} {v : β} {news : Entries α β} :
    get? k (ofList news) = some v ↔
      ∃ before after, news = before ++ (k, v) :: after ∧ k ∉ after.map Prod.fst := by
  induction news using List.reverseRecOn with
  | nil => simp [ofList, putAll, get?]
  | append_singleton news e ih =>
    rw [ofList_concat]
    by_cases h : e.1 = k
    · rw [h, get?_put_self]
      constructor
      · intro hv
        exact ⟨news, [], by rw [← h, ← Option.some.inj hv], List.not_mem_nil⟩
      · rintro ⟨before, after, hsplit, hafter⟩
        rcases concat_eq_append_cons hsplit with ⟨hlast, -⟩ | ⟨rest, rfl, -⟩
        · rw [← hlast]
        · exact absurd (by simp [h]) hafter
    · rw [get?_put_of_ne h, ih]
      constructor
      · rintro ⟨before, after, rfl, hafter⟩
        refine ⟨before, after ++ [e], by rw [List.append_assoc, List.cons_append], ?_⟩
        simp [hafter, Ne.symm h]
      · rintro ⟨before, after, hsplit, hafter⟩
        rcases concat_eq_append_cons hsplit with ⟨hlast, -⟩ | ⟨rest, rfl, rfl⟩
        · exact absurd (congrArg Prod.fst hlast.symm) h
        · exact ⟨before, rest, rfl, fun hk => hafter (by simp [hk])⟩

end CloudSecrets.Entries
