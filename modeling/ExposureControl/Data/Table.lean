/-!
# Tables

A table is a finite map kept as the list of its entries in order of first insertion.  No key
occurs twice, which is part of the type, so that counting entries counts keys.
-/

namespace ExposureControl

/-- A finite map from keys to values, in order of first insertion. -/
structure Table (κ ν : Type) where
  entries : List (κ × ν)
  distinct : (entries.map Prod.fst).Nodup

namespace Table

variable {κ ν : Type}

def empty : Table κ ν := ⟨[], by simp⟩

instance : EmptyCollection (Table κ ν) := ⟨empty⟩
instance : Inhabited (Table κ ν) := ⟨empty⟩

/-- The keys, in order of first insertion. -/
def keys (table : Table κ ν) : List κ := table.entries.map Prod.fst

def values (table : Table κ ν) : List ν := table.entries.map Prod.snd

def size (table : Table κ ν) : Nat := table.entries.length

def filter (keep : κ → ν → Bool) (table : Table κ ν) : Table κ ν where
  entries := table.entries.filter fun entry => keep entry.1 entry.2
  distinct := table.distinct.sublist (List.filter_sublist.map Prod.fst)

def mapValues {ω : Type} (f : κ → ν → ω) (table : Table κ ν) : Table κ ω where
  entries := table.entries.map fun entry => (entry.1, f entry.1 entry.2)
  distinct := by
    simpa only [List.map_map, Function.comp_def] using table.distinct

variable [DecidableEq κ]

def lookup (key : κ) : List (κ × ν) → Option ν
  | [] => none
  | (k, v) :: rest => if k = key then some v else lookup key rest

/-- Replace the value of a key where it stands, or add the entry at the end. -/
def assign (key : κ) (value : ν) : List (κ × ν) → List (κ × ν)
  | [] => [(key, value)]
  | (k, v) :: rest => if k = key then (k, value) :: rest else (k, v) :: assign key value rest

theorem keys_assign (key : κ) (value : ν) (entries : List (κ × ν)) :
    (assign key value entries).map Prod.fst =
      if key ∈ entries.map Prod.fst then entries.map Prod.fst
      else entries.map Prod.fst ++ [key] := by
  induction entries with
  | nil => simp [assign]
  | cons entry rest ih =>
    obtain ⟨k, v⟩ := entry
    by_cases hk : k = key
    · simp [assign, hk]
    · have hk' : ¬ key = k := fun h => hk h.symm
      by_cases hmem : key ∈ rest.map Prod.fst
      · simp only [assign, hk, if_false, List.map_cons, ih, hmem, if_true, List.mem_cons, or_true]
      · simp only [assign, hk, if_false, List.map_cons, ih, hmem, List.mem_cons, hk', or_self,
          List.cons_append]

def find? (table : Table κ ν) (key : κ) : Option ν :=
  lookup key table.entries

/-- Give a key a value, keeping its place if it is there already. -/
def insert (key : κ) (value : ν) (table : Table κ ν) : Table κ ν where
  entries := assign key value table.entries
  distinct := by
    rw [keys_assign]
    split
    · exact table.distinct
    · next hnew =>
      exact List.nodup_append.2 ⟨table.distinct, by simp, by
        intro a ha b hb hab
        simp only [List.mem_singleton] at hb
        exact hnew (hb ▸ hab ▸ ha)⟩

/-- Change the value of a key, starting from `initial` if it is not there. -/
def update (key : κ) (initial : ν) (f : ν → ν) (table : Table κ ν) : Table κ ν :=
  table.insert key (f ((table.find? key).getD initial))

def modify (key : κ) (f : ν → ν) (table : Table κ ν) : Table κ ν :=
  match table.find? key with
  | none => table
  | some value => table.insert key (f value)

def erase (key : κ) (table : Table κ ν) : Table κ ν :=
  table.filter fun k _ => k ≠ key

/-- The table of a list of entries; a later entry of the same key replaces an earlier one. -/
def ofList (entries : List (κ × ν)) : Table κ ν :=
  entries.foldl (fun table entry => table.insert entry.1 entry.2) empty

theorem lookup_assign (key other : κ) (value : ν) (entries : List (κ × ν)) :
    lookup other (assign key value entries) =
      if other = key then some value else lookup other entries := by
  induction entries with
  | nil =>
    by_cases h : other = key
    · simp [assign, lookup, h]
    · have h' : ¬ key = other := fun e => h e.symm
      simp [assign, lookup, h, h']
  | cons entry rest ih =>
    obtain ⟨k, v⟩ := entry
    by_cases hk : k = key
    · by_cases h : other = key
      · simp [assign, lookup, hk, h]
      · have h' : ¬ key = other := fun e => h e.symm
        simp [assign, lookup, hk, h, h']
    · by_cases h : other = key
      · subst h
        simpa [assign, lookup, hk] using ih
      · simp [assign, lookup, hk, ih, h]

/-- After an insertion the key has the new value and every other key has its old one. -/
theorem find?_insert (table : Table κ ν) (key other : κ) (value : ν) :
    (table.insert key value).find? other =
      if other = key then some value else table.find? other :=
  lookup_assign key other value table.entries

@[simp]
theorem find?_insert_self (table : Table κ ν) (key : κ) (value : ν) :
    (table.insert key value).find? key = some value := by
  simp [find?_insert]

theorem find?_insert_of_ne {table : Table κ ν} {key other : κ} {value : ν} (h : other ≠ key) :
    (table.insert key value).find? other = table.find? other := by
  simp [find?_insert, h]

@[simp]
theorem find?_empty (key : κ) : (empty : Table κ ν).find? key = none := rfl

theorem lookup_filter (keep : κ → Bool) (key : κ) (entries : List (κ × ν)) :
    lookup key (entries.filter fun entry => keep entry.1) =
      if keep key then lookup key entries else none := by
  induction entries with
  | nil => simp [lookup]
  | cons entry rest ih =>
    obtain ⟨k, v⟩ := entry
    by_cases hk : k = key
    · subst hk
      cases h : keep k <;> simp_all [lookup]
    · cases h : keep k <;> simp_all [lookup]

theorem find?_erase (table : Table κ ν) (key other : κ) :
    (table.erase key).find? other = if other = key then none else table.find? other := by
  have h := lookup_filter (ν := ν) (fun k => decide (k ≠ key)) other table.entries
  by_cases ho : other = key
  · simpa [find?, erase, filter, ho] using h
  · simpa [find?, erase, filter, ho] using h

theorem find?_update (table : Table κ ν) (key other : κ) (initial : ν) (f : ν → ν) :
    (table.update key initial f).find? other =
      if other = key then some (f ((table.find? key).getD initial)) else table.find? other :=
  find?_insert table key other _

theorem find?_modify (table : Table κ ν) (key other : κ) (f : ν → ν) :
    (table.modify key f).find? other =
      if other = key then (table.find? key).map f else table.find? other := by
  unfold modify
  cases hfound : table.find? key with
  | none =>
    by_cases h : other = key
    · simp [h, hfound]
    · simp [h]
  | some value => simp [find?_insert]

theorem assign_of_lookup_eq_some {key : κ} {value : ν} {entries : List (κ × ν)}
    (h : lookup key entries = some value) : assign key value entries = entries := by
  induction entries with
  | nil => cases h
  | cons entry rest ih =>
    obtain ⟨k, v⟩ := entry
    by_cases hk : k = key
    · rw [lookup, if_pos hk] at h
      rw [assign, if_pos hk, Option.some.inj h]
    · rw [lookup, if_neg hk] at h
      rw [assign, if_neg hk, ih h]

theorem insert_of_find?_eq_some {table : Table κ ν} {key : κ} {value : ν}
    (h : table.find? key = some value) : table.insert key value = table := by
  obtain ⟨entries, distinct⟩ := table
  simp only [insert, assign_of_lookup_eq_some h]

theorem lookup_eq_none_of_notMem {key : κ} {entries : List (κ × ν)}
    (h : key ∉ entries.map Prod.fst) : lookup key entries = none := by
  induction entries with
  | nil => rfl
  | cons entry rest ih =>
    simp only [List.map_cons, List.mem_cons, not_or] at h
    rw [lookup, if_neg (Ne.symm h.1), ih h.2]

theorem mem_entries_iff (table : Table κ ν) (key : κ) (value : ν) :
    (key, value) ∈ table.entries ↔ table.find? key = some value := by
  obtain ⟨entries, distinct⟩ := table
  simp only [find?]
  induction entries with
  | nil => simp [lookup]
  | cons entry rest ih =>
    obtain ⟨k, v⟩ := entry
    simp only [List.map_cons, List.nodup_cons] at distinct
    by_cases hk : k = key
    · subst hk
      have hrest : (k, value) ∉ rest := fun h => distinct.1 (List.mem_map_of_mem h)
      simp [lookup, hrest, eq_comm]
    · have hk' : ¬ key = k := fun h => hk h.symm
      simp [lookup, hk, hk', ih distinct.2]

theorem mem_values_iff (table : Table κ ν) (value : ν) :
    value ∈ table.values ↔ ∃ key, table.find? key = some value := by
  simp [values, ← mem_entries_iff]

theorem find?_mapValues {ω : Type} (table : Table κ ν) (f : κ → ν → ω) (key : κ) :
    (table.mapValues f).find? key = (table.find? key).map (f key) := by
  obtain ⟨entries, distinct⟩ := table
  simp only [find?, mapValues]
  clear distinct
  induction entries with
  | nil => rfl
  | cons entry rest ih =>
    obtain ⟨k, v⟩ := entry
    by_cases hk : k = key
    · simp [lookup, hk]
    · simp [lookup, hk, ih]

theorem find?_filter (table : Table κ ν) (keep : κ → ν → Bool) (key : κ) :
    (table.filter keep).find? key = (table.find? key).filter (keep key) := by
  obtain ⟨entries, distinct⟩ := table
  simp only [find?, filter]
  induction entries with
  | nil => rfl
  | cons entry rest ih =>
    obtain ⟨k, v⟩ := entry
    simp only [List.map_cons, List.nodup_cons] at distinct
    by_cases hk : k = key
    · subst hk
      have hgone : lookup k (rest.filter fun entry => keep entry.1 entry.2) = none :=
        lookup_eq_none_of_notMem fun h =>
          distinct.1 ((List.filter_sublist.map Prod.fst).subset h)
      cases hkeep : keep k v <;> simp [lookup, Option.filter, hkeep, hgone]
    · cases hkeep : keep k v <;>
        simp [lookup, hkeep, hk, ih distinct.2]

theorem assign_of_notMem {key : κ} {value : ν} {entries : List (κ × ν)}
    (hnew : key ∉ entries.map Prod.fst) : assign key value entries = entries ++ [(key, value)] := by
  induction entries with
  | nil => rfl
  | cons entry rest ih =>
    rw [List.map_cons, List.mem_cons, not_or] at hnew
    rw [assign, if_neg (Ne.symm hnew.1), ih hnew.2, List.cons_append]

theorem mem_assign {key : κ} {value : ν} {entries : List (κ × ν)} {entry : κ × ν}
    (hmem : entry ∈ assign key value entries) : entry = (key, value) ∨ entry ∈ entries := by
  induction entries with
  | nil => exact .inl (List.mem_singleton.mp hmem)
  | cons first rest ih =>
    rw [assign] at hmem
    split at hmem
    · next hkey =>
      rw [List.mem_cons, hkey] at hmem
      exact hmem.imp_right (List.mem_cons_of_mem _)
    · obtain rfl | hmem := List.mem_cons.mp hmem
      · exact .inr List.mem_cons_self
      · exact (ih hmem).imp_right (List.mem_cons_of_mem _)

theorem entries_ofList (entries : List (κ × ν)) (hdistinct : (entries.map Prod.fst).Nodup) :
    (ofList entries).entries = entries := by
  have hmore : ∀ table : Table κ ν, ((table.entries ++ entries).map Prod.fst).Nodup →
      (entries.foldl (fun table entry => table.insert entry.1 entry.2) table).entries =
        table.entries ++ entries := by
    clear hdistinct
    induction entries with
    | nil => exact fun table _ => (List.append_nil _).symm
    | cons entry rest ih =>
      intro table hdistinct
      have hnew : entry.1 ∉ table.entries.map Prod.fst := by
        rw [List.map_append, List.nodup_append] at hdistinct
        exact fun hentry => hdistinct.2.2 _ hentry _ List.mem_cons_self rfl
      have hinsert : (table.insert entry.1 entry.2).entries = table.entries ++ [entry] :=
        assign_of_notMem hnew
      rw [List.foldl_cons, ih _ (by rwa [hinsert, List.append_assoc]), hinsert,
        List.append_assoc, List.singleton_append]
  exact hmore empty hdistinct

theorem mem_of_mem_ofList {entries : List (κ × ν)} {entry : κ × ν}
    (hmem : entry ∈ (ofList entries).entries) : entry ∈ entries := by
  have hmore : ∀ table : Table κ ν,
      entry ∈ (entries.foldl (fun table entry => table.insert entry.1 entry.2) table).entries →
        entry ∈ table.entries ∨ entry ∈ entries := by
    clear hmem
    induction entries with
    | nil => exact fun _ hmem => .inl hmem
    | cons first rest ih =>
      intro table hmem
      obtain hbefore | hrest := ih _ hmem
      · obtain rfl | hold := mem_assign hbefore
        · exact .inr List.mem_cons_self
        · exact .inl hold
      · exact .inr (List.mem_cons_of_mem first hrest)
  exact (hmore empty hmem).resolve_left nofun

end Table

end ExposureControl
