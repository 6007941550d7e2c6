/-!
# Keyed collections in insertion order

A finite map from strings to values that remembers the order in which its keys were first given.
Giving a key again replaces its value and keeps its place.
-/

namespace ComponentBuilder

/-- Give `key` the value `value`: in its place when the key is there, else at the end. -/
def assign {α : Type} (key : String) (value : α) : List (String × α) → List (String × α)
  | [] => [(key, value)]
  | (k, v) :: rest => if k = key then (k, value) :: rest else (k, v) :: assign key value rest

/-- The keys after an assignment: one more at the end exactly when the key is new. -/
theorem map_fst_assign {α : Type} (key : String) (value : α) (entries : List (String × α)) :
    (assign key value entries).map Prod.fst =
      if key ∈ entries.map Prod.fst then entries.map Prod.fst
      else entries.map Prod.fst ++ [key] := by
  induction entries with
  | nil => simp [assign]
  | cons entry rest ih =>
      obtain ⟨k, v⟩ := entry
      by_cases h : k = key
      · simp [assign, h]
      · simp only [assign, h, if_false, List.map_cons, ih, List.mem_cons, Ne.symm h, false_or]
        split <;> simp

/-- The value of a key after an assignment. -/
theorem lookup_assign {α : Type} (key other : String) (value : α) (entries : List (String × α)) :
    (assign key value entries).lookup other =
      if other = key then some value else entries.lookup other := by
  induction entries with
  | nil =>
      by_cases h : other = key
      · simp [assign, h]
      · have hne : (other == key) = false := by simp [h]
        simp [assign, List.lookup_cons, h, hne]
  | cons entry rest ih =>
      obtain ⟨k, v⟩ := entry
      by_cases hk : k = key
      · subst hk
        by_cases h : other = k
        · simp [assign, h]
        · have hne : (other == k) = false := by simp [h]
          simp [assign, List.lookup_cons, h, hne]
      · by_cases ho : other = k
        · subst ho
          simp [assign, hk]
        · have hne : (other == k) = false := by simp [ho]
          simp [assign, List.lookup_cons, hk, hne, ih]

/-- A new key goes to the end. -/
theorem assign_of_not_mem {α : Type} {key : String} {value : α} {entries : List (String × α)}
    (h : key ∉ entries.map Prod.fst) : assign key value entries = entries ++ [(key, value)] := by
  induction entries with
  | nil => rfl
  | cons entry rest ih =>
      obtain ⟨k, v⟩ := entry
      simp only [List.map_cons, List.mem_cons, not_or] at h
      rw [assign, if_neg (Ne.symm h.1), ih h.2]
      rfl

theorem mem_assign {α : Type} {key : String} {value : α} {entries : List (String × α)} {entry : String × α}
    (h : entry ∈ assign key value entries) : entry = (key, value) ∨ entry ∈ entries := by
  induction entries with
  | nil => exact .inl (List.mem_singleton.1 h)
  | cons first rest ih =>
      obtain ⟨k, v⟩ := first
      unfold assign at h
      by_cases hk : k = key
      · rw [if_pos hk] at h
        subst hk
        rcases List.mem_cons.1 h with rfl | hrest
        · exact .inl rfl
        · exact .inr (List.mem_cons_of_mem _ hrest)
      · rw [if_neg hk] at h
        rcases List.mem_cons.1 h with rfl | hrest
        · exact .inr List.mem_cons_self
        · exact (ih hrest).imp_right (List.mem_cons_of_mem _)

theorem mem_of_lookup {α : Type} {key : String} {value : α} {entries : List (String × α)}
    (h : entries.lookup key = some value) : (key, value) ∈ entries := by
  induction entries with
  | nil => cases h
  | cons entry rest ih =>
      obtain ⟨k, v⟩ := entry
      rw [List.lookup_cons] at h
      split at h
      · next hk =>
          obtain rfl : key = k := by simpa using hk
          obtain rfl : v = value := by simpa using h
          exact List.mem_cons_self
      · exact List.mem_cons_of_mem _ (ih h)

theorem lookup_of_mem {α : Type} {key : String} {value : α} {entries : List (String × α)}
    (hdistinct : (entries.map Prod.fst).Nodup) (h : (key, value) ∈ entries) : entries.lookup key = some value := by
  induction entries with
  | nil => cases h
  | cons entry rest ih =>
      obtain ⟨hnew, hdistinct⟩ := List.nodup_cons.1 hdistinct
      rcases List.mem_cons.1 h with rfl | hrest
      · simp
      · have hother : key ≠ entry.1 := by
          intro hsame
          exact hnew (hsame ▸ List.mem_map_of_mem hrest)
        rw [List.lookup_cons, beq_false_of_ne hother]
        exact ih hdistinct hrest

theorem lookup_filter {α : Type} (keep : String → Bool) (key : String) (entries : List (String × α)) :
    (entries.filter fun entry => keep entry.1).lookup key =
      if keep key then entries.lookup key else none := by
  induction entries with
  | nil => simp
  | cons entry rest ih =>
      obtain ⟨k, v⟩ := entry
      by_cases h : key = k
      · subst h
        cases hkey : keep key with
        | true => simp [hkey]
        | false => simpa [hkey] using ih
      · have hne : (key == k) = false := by simp [h]
        cases hk : keep k with
        | true => simpa [List.lookup_cons, hk, hne] using ih
        | false => simpa [List.lookup_cons, hk, hne] using ih

theorem isSome_lookup_iff {α : Type} {key : String} {entries : List (String × α)} :
    (entries.lookup key).isSome = true ↔ key ∈ entries.map Prod.fst := by
  induction entries with
  | nil => simp
  | cons entry rest ih =>
      obtain ⟨k, v⟩ := entry
      by_cases h : key = k
      · simp [h]
      · have hne : (key == k) = false := by simp [h]
        simp [List.lookup_cons, h, hne, ih]

/-- A map from strings to `α` whose entries are kept in the order of their keys' first use. -/
structure Keyed (α : Type) where
  entries : List (String × α)
  distinct : (entries.map Prod.fst).Nodup
deriving DecidableEq

namespace Keyed

variable {α : Type}

/-- The map without entries. -/
def empty : Keyed α where
  entries := []
  distinct := List.nodup_nil

instance : Inhabited (Keyed α) := ⟨empty⟩

/-- The value of a key. -/
def get? (m : Keyed α) (key : String) : Option α :=
  m.entries.lookup key

/-- Give a key a value, in its place when the key is there, else at the end. -/
def set (m : Keyed α) (key : String) (value : α) : Keyed α where
  entries := assign key value m.entries
  distinct := by
    rw [map_fst_assign]
    split
    · exact m.distinct
    · next h => exact List.nodup_append.2 ⟨m.distinct, by simp, by
        intro a ha b hb hab
        simp only [List.mem_singleton] at hb
        exact h (hb ▸ hab ▸ ha)⟩

/-- The map that results from giving the entries one after the other. -/
def ofList (entries : List (String × α)) : Keyed α :=
  entries.foldl (fun m entry => m.set entry.1 entry.2) empty

/-- Take a key out. -/
def erase (m : Keyed α) (key : String) : Keyed α where
  entries := m.entries.filter fun entry => entry.1 != key
  distinct := m.distinct.sublist (List.filter_sublist.map Prod.fst)

/-- The keys in order. -/
def keys (m : Keyed α) : List String :=
  m.entries.map Prod.fst

/-- The values in the order of their keys. -/
def values (m : Keyed α) : List α :=
  m.entries.map Prod.snd

/-- Whether a key is there. -/
def contains (m : Keyed α) (key : String) : Bool :=
  (m.get? key).isSome

@[simp] theorem get?_empty (key : String) : (empty : Keyed α).get? key = none := rfl

/-- A key has the value that it was given last. -/
theorem get?_set (m : Keyed α) (key other : String) (value : α) :
    (m.set key value).get? other = if other = key then some value else m.get? other :=
  lookup_assign key other value m.entries

/-- The keys in order after a key was given a value. -/
theorem keys_set (m : Keyed α) (key : String) (value : α) :
    (m.set key value).keys = if key ∈ m.keys then m.keys else m.keys ++ [key] :=
  map_fst_assign key value m.entries

theorem entries_set_of_not_mem {m : Keyed α} {key : String} {value : α} (h : key ∉ m.keys) :
    (m.set key value).entries = m.entries ++ [(key, value)] :=
  assign_of_not_mem h

@[ext] theorem ext {m n : Keyed α} (h : m.entries = n.entries) : m = n := by
  cases m
  cases n
  cases h
  rfl

/-- Giving new keys one after the other puts them at the end in that order. -/
theorem entries_foldl_set {entries : List (String × α)} {m : Keyed α}
    (h : (m.keys ++ entries.map Prod.fst).Nodup) :
    (entries.foldl (fun m entry => m.set entry.1 entry.2) m).entries = m.entries ++ entries := by
  induction entries generalizing m with
  | nil => exact (List.append_nil _).symm
  | cons entry rest ih =>
      have hnew : entry.1 ∉ m.keys := fun hmem =>
        (List.nodup_append.1 h).2.2 entry.1 hmem entry.1 List.mem_cons_self rfl
      have hkeys : (m.set entry.1 entry.2).keys = m.keys ++ [entry.1] := by
        rw [keys_set, if_neg hnew]
      rw [List.foldl_cons, ih (by rw [hkeys, List.append_assoc]; exact h), entries_set_of_not_mem hnew,
        List.append_assoc]
      rfl

/-- A map is what its entries say. -/
theorem ofList_entries (m : Keyed α) : ofList m.entries = m := by
  apply ext
  exact entries_foldl_set m.distinct

theorem mem_entries_set {m : Keyed α} {key : String} {value : α} {entry : String × α}
    (h : entry ∈ (m.set key value).entries) : entry = (key, value) ∨ entry ∈ m.entries :=
  mem_assign h

theorem mem_of_get? {m : Keyed α} {key : String} {value : α} (h : m.get? key = some value) :
    (key, value) ∈ m.entries :=
  mem_of_lookup h

theorem mem_entries_iff {m : Keyed α} {key : String} {value : α} :
    (key, value) ∈ m.entries ↔ m.get? key = some value :=
  ⟨lookup_of_mem m.distinct, mem_of_get?⟩

/-- A key that was taken out has no value. -/
theorem get?_erase (m : Keyed α) (key other : String) :
    (m.erase key).get? other = if other = key then none else m.get? other := by
  rw [get?, erase, lookup_filter (· != key)]
  by_cases h : other = key <;> simp [h, get?]

theorem isSome_get?_iff {m : Keyed α} {key : String} : (m.get? key).isSome = true ↔ key ∈ m.keys :=
  isSome_lookup_iff

end Keyed

end ComponentBuilder
