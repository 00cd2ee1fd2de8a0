/-!
# Insertion-ordered maps

A map is the list of its entries in the order in which the keys were first put. Putting a key again
replaces its value and keeps its place; erasing removes the entry. `get?` is the view through which
the operations are described.
-/

namespace CloudSecrets

/-- The entries of a map in insertion order. -/
abbrev Entries (α β : Type) := List (α × β)

namespace Entries

variable {α β : Type} [BEq α]

/-- The value of a key. -/
def get? (k : α) : Entries α β → Option β
  | [] => none
  | (k', v) :: es => if k' == k then some v else get? k es

/-- Whether a key has a value. -/
def has (k : α) (es : Entries α β) : Bool := (get? k es).isSome

/-- Gives a key a value: in place if the key is present, else at the end. -/
def put (k : α) (v : β) : Entries α β → Entries α β
  | [] => [(k, v)]
  | (k', v') :: es => if k' == k then (k', v) :: es else (k', v') :: put k v es

/-- Removes a key. -/
def erase (k : α) : Entries α β → Entries α β
  | [] => []
  | (k', v) :: es => if k' == k then es else (k', v) :: erase k es

/-- Puts all entries of a list in order. -/
def putAll (es news : Entries α β) : Entries α β :=
  news.foldl (fun es e => put e.1 e.2 es) es

/-- The map that a list of entries builds, later values winning. -/
def ofList (news : Entries α β) : Entries α β := putAll [] news

/-! ## Looking up -/

theorem get?_nil (k : α) : get? k ([] : Entries α β) = none := rfl

theorem get?_cons (k k' : α) (v : β) (es : Entries α β) :
    get? k ((k', v) :: es) = if k' == k then some v else get? k es := rfl

variable [LawfulBEq α]

/-- What was put is found. -/
theorem get?_put_self (k : α) (v : β) (es : Entries α β) : get? k (put k v es) = some v := by
  induction es with
  | nil => simp [put, get?]
  | cons e es ih =>
    by_cases h : e.1 == k
    · simp [put, get?, h]
    · simp [put, get?, h, ih]

/-- Putting one key leaves the others alone. -/
theorem get?_put_of_ne {k l : α} (hkl : k ≠ l) (v : β) (es : Entries α β) :
    get? l (put k v es) = get? l es := by
  induction es with
  | nil => simp [put, get?, hkl]
  | cons e es ih =>
    by_cases h : e.1 == k
    · simp [put, get?, eq_of_beq h, hkl]
    · simp [put, get?, h, ih]

/-- Erasing one key leaves the others alone. -/
theorem get?_erase_of_ne {k l : α} (hkl : k ≠ l) (es : Entries α β) :
    get? l (erase k es) = get? l es := by
  induction es with
  | nil => rfl
  | cons e es ih =>
    by_cases h : e.1 == k
    · simp [erase, get?, eq_of_beq h, hkl]
    · simp [erase, get?, h, ih]

/-- A key that has a value keeps its place, and a new one goes to the end. -/
theorem keys_put (k : α) (v : β) (es : Entries α β) :
    (put k v es).map Prod.fst = if has k es then es.map Prod.fst else es.map Prod.fst ++ [k] := by
  induction es with
  | nil => rfl
  | cons e es ih =>
    by_cases h : e.1 == k
    · simp [put, has, get?, eq_of_beq h]
    · by_cases hk : (get? k es).isSome <;> simp [put, has, get?, h, ih, hk]

/-- Putting a key adds an entry if the key is new. -/
theorem length_put (k : α) (v : β) (es : Entries α β) :
    (put k v es).length = if has k es then es.length else es.length + 1 := by
  have hkeys := congrArg List.length (keys_put k v es)
  rw [List.length_map] at hkeys
  rw [hkeys]
  split
  · rw [List.length_map]
  · rw [List.length_append, List.length_map, List.length_singleton]

omit [BEq α] [LawfulBEq α] in
/-- In entries with distinct keys no key stands twice. -/
theorem notMem_of_nodup {before after : Entries α β} {k : α} {v : β}
    (h : ((before ++ (k, v) :: after).map Prod.fst).Nodup) : k ∉ before.map Prod.fst := by
  rw [List.map_append, List.map_cons] at h
  exact fun hk => (List.nodup_append.mp h).2.2 k hk k List.mem_cons_self rfl

/-- A new key goes to the end. -/
theorem put_of_notMem {k : α} {es : Entries α β} (h : k ∉ es.map Prod.fst) (v : β) :
    put k v es = es ++ [(k, v)] := by
  induction es with
  | nil => rfl
  | cons e es ih =>
    rw [List.map_cons, List.mem_cons, not_or] at h
    have hne : (e.1 == k) = false := beq_eq_false_iff_ne.mpr (Ne.symm h.1)
    rw [put, hne, ih h.2]
    rfl

/-! ## Keys -/

/-- A key has a value if it is among the keys. -/
theorem get?_eq_none_iff {k : α} {es : Entries α β} :
    get? k es = none ↔ k ∉ es.map Prod.fst := by
  induction es with
  | nil => simp [get?]
  | cons e es ih =>
    by_cases h : e.1 == k
    · simp [get?, eq_of_beq h]
    · have hne : k ≠ e.1 := fun he => h (by rw [he]; exact beq_self_eq_true e.1)
      simp [get?, h, ih, hne]

/-- What stands in a map after putting is what was put or stood there before. -/
theorem mem_of_mem_put {k : α} {v : β} {es : Entries α β} {e : α × β} (h : e ∈ put k v es) :
    e = (k, v) ∨ e ∈ es := by
  induction es with
  | nil => exact .inl (List.mem_singleton.mp h)
  | cons e' es ih =>
    by_cases hk : e'.1 == k
    · rw [put, if_pos hk] at h
      rcases List.mem_cons.mp h with rfl | h
      · exact .inl (by rw [eq_of_beq hk])
      · exact .inr (List.mem_cons_of_mem _ h)
    · rw [put, if_neg hk] at h
      rcases List.mem_cons.mp h with rfl | h
      · exact .inr List.mem_cons_self
      · exact (ih h).imp_right (List.mem_cons_of_mem _)

/-- Putting keeps keys distinct. -/
theorem nodup_put {es : Entries α β} (h : (es.map Prod.fst).Nodup) (k : α) (v : β) :
    ((put k v es).map Prod.fst).Nodup := by
  rw [keys_put]
  split
  · exact h
  · rename_i hk
    have hnew : k ∉ es.map Prod.fst := by
      rw [← get?_eq_none_iff]
      simpa [has] using hk
    rw [List.nodup_append]
    refine ⟨h, List.pairwise_singleton _ _, ?_⟩
    intro a ha b hb hab
    rw [List.mem_singleton.mp hb] at hab
    exact hnew (hab ▸ ha)

omit [LawfulBEq α] in
/-- Erasing removes an entry at most. -/
theorem erase_sublist (k : α) (es : Entries α β) : (erase k es).Sublist es := by
  induction es with
  | nil => exact List.Sublist.slnil
  | cons e es ih =>
    rw [erase]
    split
    · exact List.sublist_cons_self _ _
    · exact ih.cons_cons _

omit [LawfulBEq α] in
/-- Erasing keeps keys distinct. -/
theorem nodup_erase {es : Entries α β} (h : (es.map Prod.fst).Nodup) (k : α) :
    ((erase k es).map Prod.fst).Nodup :=
  h.sublist ((erase_sublist k es).map Prod.fst)

/-- What was erased is not found if its key stood once. -/
theorem get?_erase_self {es : Entries α β} (h : (es.map Prod.fst).Nodup) (k : α) :
    get? k (erase k es) = none := by
  induction es with
  | nil => rfl
  | cons e es ih =>
    rw [List.map_cons, List.nodup_cons] at h
    rw [erase]
    split
    · rename_i hk
      rw [get?_eq_none_iff, ← eq_of_beq hk]
      exact h.1
    · rename_i hk
      rw [get?_cons, if_neg hk]
      exact ih h.2

omit [LawfulBEq α] in
/-- A key without a value cannot be erased. -/
theorem erase_of_get?_eq_none {k : α} {es : Entries α β} (h : get? k es = none) :
    erase k es = es := by
  induction es with
  | nil => rfl
  | cons e es ih =>
    rw [get?_cons] at h
    split at h
    · cases h
    · rename_i hk
      rw [erase, if_neg hk, ih h]

/-- A choice of keys that leaves one out does not see it being put. -/
theorem filter_put {k : α} (p : α → Bool) (hp : p k = false) (v : β) (es : Entries α β) :
    (put k v es).filter (fun e => p e.1) = es.filter fun e => p e.1 := by
  induction es with
  | nil => simp [put, hp]
  | cons e es ih =>
    by_cases h : e.1 == k
    · simp [put, eq_of_beq h, hp]
    · simp [put, h, List.filter_cons, ih]

/-- Nor does it see it being erased. -/
theorem filter_erase {k : α} (p : α → Bool) (hp : p k = false) (es : Entries α β) :
    (erase k es).filter (fun e => p e.1) = es.filter fun e => p e.1 := by
  induction es with
  | nil => rfl
  | cons e es ih =>
    by_cases h : e.1 == k
    · simp [erase, eq_of_beq h, hp]
    · simp [erase, h, List.filter_cons, ih]

end Entries

end CloudSecrets
