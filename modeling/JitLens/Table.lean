/-!
# Ordered tables

Tables from text keys to values that remember the order in which keys first came in.  A new
value for a known key takes the place of the old one.
-/

namespace JitLens

/-- Entries in the order in which their keys first came in. -/
abbrev Table (α : Type) := List (String × α)

/-- Gives a key its value, among entries whose keys are compared with `same`. -/
def putBy {κ α : Type} (same : κ → κ → Bool) (key : κ) (value : α) : List (κ × α) → List (κ × α)
  | [] => [(key, value)]
  | (k, v) :: rest =>
    if same k key then (k, value) :: rest else (k, v) :: putBy same key value rest

namespace Table

variable {α : Type}

/-- Gives a key its value. -/
def put (table : Table α) (key : String) (value : α) : Table α :=
  putBy (· == ·) key value table

/-- The value of a key. -/
def get? : Table α → String → Option α
  | [], _ => none
  | (k, v) :: rest, key => if k = key then some v else get? rest key

/-- Gives every key of the updates its value, in their order. -/
def putAll (table updates : Table α) : Table α :=
  updates.foldl (fun t (k, v) => put t k v) table

/-- The table with the entries given, the last value of a key that is repeated. -/
def ofList (entries : List (String × α)) : Table α :=
  putAll [] entries

@[simp] theorem get?_nil (key : String) : get? ([] : Table α) key = none := rfl

/-- A key has the value it was given last, and the other keys keep theirs. -/
@[simp] theorem get?_put (table : Table α) (key : String) (value : α) (k : String) :
    get? (put table key value) k = if key = k then some value else get? table k := by
  induction table with
  | nil => simp [get?, put, putBy]
  | cons e rest ih =>
    obtain ⟨k', v'⟩ := e
    simp only [put, putBy, beq_iff_eq] at ih ⊢
    by_cases h : k' = key
    · subst h
      by_cases hk : k' = k <;> simp [get?, hk]
    · by_cases hk : k' = k
      · subst hk
        simp [get?, h, Ne.symm h]
      · simp [get?, h, hk, ih]

theorem get?_append (table more : Table α) (key : String) :
    get? (table ++ more) key = (get? table key).or (get? more key) := by
  induction table with
  | nil => rfl
  | cons e rest ih =>
    obtain ⟨k, v⟩ := e
    by_cases h : k = key
    · simp [get?, h]
    · simp [get?, h, ih]

/-- A key has the value that the updates give it last, and the other keys keep theirs. -/
theorem get?_putAll (table updates : Table α) (key : String) :
    get? (putAll table updates) key = (get? updates.reverse key).or (get? table key) := by
  induction updates generalizing table with
  | nil => rfl
  | cons e rest ih =>
    obtain ⟨k, v⟩ := e
    have hput : putAll table ((k, v) :: rest) = putAll (put table k v) rest := rfl
    rw [hput, ih, List.reverse_cons, get?_append, get?_put, Option.or_assoc]
    by_cases h : k = key
    · simp [get?, h]
    · simp [get?, h]

theorem get?_eq_none_iff {table : Table α} {key : String} :
    get? table key = none ↔ key ∉ table.map Prod.fst := by
  induction table with
  | nil => simp [get?]
  | cons e rest ih =>
    obtain ⟨k, v⟩ := e
    by_cases h : k = key
    · simp [get?, h]
    · simp [get?, h, ih, Ne.symm h]

/-- The value of a key is the first one that it has. -/
theorem get?_eq_some_iff {table : Table α} {key : String} {value : α} :
    get? table key = some value ↔
      ∃ before after, table = before ++ (key, value) :: after ∧ key ∉ before.map Prod.fst := by
  constructor
  · intro hget
    induction table with
    | nil => simp at hget
    | cons e rest ih =>
      obtain ⟨k, v⟩ := e
      by_cases h : k = key
      · subst h
        rw [get?, if_pos rfl, Option.some.injEq] at hget
        exact ⟨[], rest, by rw [hget]; rfl, by simp⟩
      · rw [get?, if_neg h] at hget
        obtain ⟨before, after, rfl, hbefore⟩ := ih hget
        exact ⟨(k, v) :: before, after, rfl, by simpa [Ne.symm h] using hbefore⟩
  · rintro ⟨before, after, rfl, hbefore⟩
    rw [get?_append, get?_eq_none_iff.2 hbefore]
    simp [get?]

/-- A key that comes in once has the value that it comes in with. -/
theorem get?_eq_some_iff_mem {table : Table α} (hnodup : (table.map Prod.fst).Nodup)
    {key : String} {value : α} : get? table key = some value ↔ (key, value) ∈ table := by
  rw [get?_eq_some_iff]
  constructor
  · rintro ⟨before, after, rfl, -⟩
    simp
  · intro hmem
    obtain ⟨before, after, rfl⟩ := List.append_of_mem hmem
    refine ⟨before, after, rfl, ?_⟩
    rw [List.map_append, List.nodup_append] at hnodup
    exact fun hbefore => hnodup.2.2 key hbefore key (by simp) rfl

/-- Updates with a value for each key lie over the values that the keys had before. -/
theorem get?_putAll_of_nodup {table updates : Table α} (hnodup : (updates.map Prod.fst).Nodup)
    {key : String} {value : α} :
    get? (putAll table updates) key = some value ↔
      (key, value) ∈ updates ∨ key ∉ updates.map Prod.fst ∧ get? table key = some value := by
  have hreverse : (updates.reverse.map Prod.fst).Nodup := by
    rw [List.map_reverse, List.Nodup, List.pairwise_reverse]
    exact hnodup.imp Ne.symm
  rw [get?_putAll, Option.or_eq_some_iff, get?_eq_some_iff_mem hreverse, get?_eq_none_iff]
  simp

/-- The keys are unchanged by a value for a known key, and a new key goes to the end. -/
theorem keys_put (table : Table α) (key : String) (value : α) :
    (put table key value).map Prod.fst =
      if key ∈ table.map Prod.fst then table.map Prod.fst else table.map Prod.fst ++ [key] := by
  induction table with
  | nil => rfl
  | cons e rest ih =>
    obtain ⟨k', v'⟩ := e
    simp only [put, putBy] at ih ⊢
    by_cases h : k' = key
    · subst h
      simp
    · have hf : (k' == key) = false := by simpa using h
      simp only [hf, Bool.false_eq_true, if_false, List.map_cons, ih, List.mem_cons]
      have hne : key ≠ k' := fun hk => h hk.symm
      by_cases hm : key ∈ rest.map Prod.fst <;> simp [hm, hne]

theorem nodup_putAll {table : Table α} (htable : (table.map Prod.fst).Nodup)
    (updates : List (String × α)) : ((putAll table updates).map Prod.fst).Nodup := by
  induction updates generalizing table with
  | nil => exact htable
  | cons e rest ih =>
    apply ih
    rw [keys_put]
    split
    · exact htable
    · next hnew =>
      rw [List.nodup_append]
      refine ⟨htable, by simp, ?_⟩
      intro k hk k' hk' heq
      rw [List.mem_singleton.1 hk'] at heq
      exact hnew (heq ▸ hk)

/-- Each key comes in once. -/
theorem nodup_ofList (entries : List (String × α)) : ((ofList entries).map Prod.fst).Nodup :=
  nodup_putAll (by simp) entries

end Table
end JitLens
