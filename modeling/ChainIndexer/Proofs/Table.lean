import ChainIndexer.Table

/-!
# Looking things up in tables

What each operation on a table does to its lookups. A table is determined by its lookups, so these
laws are all that later proofs need to know of tables.
-/

namespace ChainIndexer.Table

variable {κ ν : Type} [Ord κ]

@[simp]
theorem get?_empty (key : κ) : (empty : Table κ ν).get? key = none := rfl

theorem contains_iff {table : Table κ ν} {key : κ} :
    table.contains key = true ↔ ∃ value, table.get? key = some value := by
  rw [contains, Option.isSome_iff_exists]

theorem keys_nodup [Std.ReflOrd κ] (table : Table κ ν) : table.keys.Nodup := by
  rw [keys, List.Nodup, List.pairwise_map]
  refine table.ordered.imp fun hlt heq => ?_
  rw [heq, Std.ReflOrd.compare_self] at hlt
  cases hlt

theorem filter_true (table : Table κ ν) : (table.filter fun _ _ => true) = table := by
  cases table
  simp [filter]

theorem filter_filter (table : Table κ ν) (first second : κ → ν → Bool) :
    (table.filter first).filter second =
      table.filter fun key value => first key value && second key value := by
  cases table
  simp [filter, List.filter_filter, Bool.and_comm]

section Lookup

variable [Std.LawfulEqOrd κ] [DecidableEq κ]

theorem lookup_cons (key : κ) (entry : κ × ν) (rest : List (κ × ν)) :
    lookup key (entry :: rest) = if key = entry.1 then some entry.2 else lookup key rest := by
  simp only [lookup, Std.compare_eq_iff_eq]

theorem lookup_eq_find? (key : κ) (entries : List (κ × ν)) :
    lookup key entries = (entries.find? (·.1 = key)).map (·.2) := by
  induction entries with
  | nil => rfl
  | cons first rest ih =>
    rw [lookup_cons, List.find?_cons, ih]
    by_cases hkey : key = first.1
    · simp [hkey]
    · simp [hkey, Ne.symm hkey]

theorem lookup_eq_none_of_lt {key : κ} {entries : List (κ × ν)}
    (h : ∀ entry ∈ entries, compare key entry.1 = .lt) : lookup key entries = none := by
  induction entries with
  | nil => rfl
  | cons first rest ih =>
    have hfirst := h first List.mem_cons_self
    have hne : key ≠ first.1 := by
      intro heq
      rw [← heq, Std.ReflOrd.compare_self] at hfirst
      cases hfirst
    rw [lookup_cons, if_neg hne]
    exact ih fun entry hentry => h entry (List.mem_cons_of_mem _ hentry)

theorem mem_iff_lookup {key : κ} {value : ν} {entries : List (κ × ν)}
    (h : entries.Pairwise fun a b => compare a.1 b.1 = .lt) :
    (key, value) ∈ entries ↔ lookup key entries = some value := by
  induction entries with
  | nil => simp [lookup]
  | cons first rest ih =>
    obtain ⟨hfirst, hrest⟩ := List.pairwise_cons.1 h
    rw [lookup_cons, List.mem_cons, ih hrest]
    by_cases hkey : key = first.1
    · subst hkey
      rw [lookup_eq_none_of_lt hfirst]
      simp [Prod.ext_iff, eq_comm]
    · rw [if_neg hkey]
      constructor
      · rintro (heq | hlookup)
        · exact absurd (congrArg Prod.fst heq) hkey
        · exact hlookup
      · exact Or.inr

theorem mem_entries_iff {table : Table κ ν} {key : κ} {value : ν} :
    (key, value) ∈ table.entries ↔ table.get? key = some value :=
  mem_iff_lookup table.ordered

theorem mem_values_iff {table : Table κ ν} {value : ν} :
    value ∈ table.values ↔ ∃ key, table.get? key = some value := by
  simp only [values, List.mem_map, Prod.exists, mem_entries_iff]
  constructor
  · rintro ⟨key, _, hget, rfl⟩
    exact ⟨key, hget⟩
  · rintro ⟨key, hget⟩
    exact ⟨key, value, hget, rfl⟩

/-- Values that name their keys are listed in their order. -/
theorem values_ordered {table : Table κ ν} {keyOf : ν → κ}
    (h : ∀ key value, table.get? key = some value → keyOf value = key) :
    table.values.Pairwise fun a b => compare (keyOf a) (keyOf b) = .lt := by
  rw [values, List.pairwise_map]
  refine table.ordered.imp_of_mem fun ha hb hlt => ?_
  rwa [h _ _ (mem_entries_iff.1 ha), h _ _ (mem_entries_iff.1 hb)]

/-- Values that name their keys name them once. -/
theorem values_map_nodup {table : Table κ ν} {keyOf : ν → κ}
    (h : ∀ key value, table.get? key = some value → keyOf value = key) :
    (table.values.map keyOf).Nodup := by
  have hkeys : table.values.map keyOf = table.keys := by
    rw [values, keys, List.map_map]
    exact List.map_congr_left fun entry hentry => h _ _ (mem_entries_iff.1 hentry)
  rw [hkeys]
  exact table.keys_nodup

theorem lookup_insertEntry (key other : κ) (value : ν) (entries : List (κ × ν)) :
    lookup other (insertEntry key value entries) =
      if other = key then some value else lookup other entries := by
  induction entries with
  | nil => rw [insertEntry, lookup_cons]
  | cons first rest ih =>
    rw [insertEntry]
    split
    next => rw [lookup_cons]
    next heq =>
      rw [lookup_cons, lookup_cons, ← Std.LawfulEqOrd.eq_of_compare heq]
      split <;> rfl
    next hgt =>
      rw [lookup_cons, lookup_cons, ih]
      by_cases hfirst : other = first.1
      · have hne : other ≠ key := by
          rintro rfl
          rw [hfirst, Std.ReflOrd.compare_self] at hgt
          cases hgt
        rw [if_pos hfirst, if_neg hne, if_pos hfirst]
      · rw [if_neg hfirst, if_neg hfirst]

theorem lookup_filter (key : κ) (keep : κ → ν → Bool) {entries : List (κ × ν)}
    (h : entries.Pairwise fun a b => compare a.1 b.1 = .lt) :
    lookup key (entries.filter fun entry => keep entry.1 entry.2) =
      (lookup key entries).filter (keep key) := by
  induction entries with
  | nil => rfl
  | cons first rest ih =>
    obtain ⟨hfirst, hrest⟩ := List.pairwise_cons.1 h
    rw [List.filter_cons, lookup_cons]
    by_cases hkey : key = first.1
    · subst hkey
      rw [if_pos rfl]
      by_cases hkeep : keep first.1 first.2 = true
      · rw [if_pos hkeep, lookup_cons, if_pos rfl, Option.filter_some_pos hkeep]
      · rw [if_neg hkeep, ih hrest, lookup_eq_none_of_lt hfirst, Option.filter_none,
          Option.filter_some_neg (Bool.eq_false_iff.2 hkeep)]
    · rw [if_neg hkey, ← ih hrest]
      split
      next => rw [lookup_cons, if_neg hkey]
      next => rfl

@[simp]
theorem get?_filter (table : Table κ ν) (keep : κ → ν → Bool) (key : κ) :
    (table.filter keep).get? key = (table.get? key).filter (keep key) :=
  lookup_filter key keep table.ordered

theorem get?_of_get?_drop {table : Table κ ν} {count : Nat} {key : κ} {value : ν}
    (h : (table.drop count).get? key = some value) : table.get? key = some value :=
  mem_entries_iff.1 (List.mem_of_mem_drop (mem_entries_iff.2 h))

/-- What is dropped first does not have the highest key. -/
theorem get?_drop_of_le {table : Table Nat ν} {count key : Nat} {value : ν}
    (h : table.get? key = some value)
    (hlast : ∀ other value, table.get? other = some value → other ≤ key)
    (hcount : count < table.entries.length) : (table.drop count).get? key = some value := by
  have hentry := mem_entries_iff.2 h
  have hordered := table.ordered
  rw [← List.take_append_drop count table.entries] at hentry hordered
  refine mem_entries_iff.1 ((List.mem_append.1 hentry).resolve_left fun hmem => ?_)
  obtain ⟨last, hdropped⟩ := List.exists_mem_of_length_pos
    (l := table.entries.drop count) (by rw [List.length_drop]; omega)
  have hlt := (List.pairwise_append.1 hordered).2.2 _ hmem last hdropped
  have hle := hlast last.1 last.2 (mem_entries_iff.1 (List.mem_of_mem_drop hdropped))
  rw [Nat.compare_eq_lt] at hlt
  exact Nat.not_lt.2 hle hlt

@[simp]
theorem get?_erase (table : Table κ ν) (key other : κ) :
    (table.erase key).get? other = if other = key then none else table.get? other := by
  rw [erase, get?_filter]
  by_cases hother : other = key
  · subst hother
    rw [if_pos rfl, Std.ReflOrd.compare_self]
    cases table.get? other <;> simp
  · have hne : compare key other ≠ .eq := fun h => hother (Std.LawfulEqOrd.eq_of_compare h).symm
    rw [if_neg hother]
    cases table.get? other <;> simp [hne]

@[simp]
theorem get?_map {ν' : Type} (table : Table κ ν) (f : κ → ν → ν') (key : κ) :
    (table.map f).get? key = (table.get? key).map (f key) := by
  simp only [map, get?]
  induction table.entries with
  | nil => rfl
  | cons first rest ih =>
    rw [List.map_cons, lookup_cons, lookup_cons]
    by_cases hkey : key = first.1
    · rw [if_pos hkey, if_pos hkey, Option.map_some, hkey]
    · rw [if_neg hkey, if_neg hkey]
      exact ih

@[simp]
theorem get?_modify (table : Table κ ν) (key other : κ) (f : ν → ν) :
    (table.modify key f).get? other =
      if other = key then (table.get? key).map f else table.get? other := by
  rw [modify, get?_map]
  by_cases hother : other = key
  · subst hother
    rw [if_pos rfl, Std.ReflOrd.compare_self]
    simp
  · have hne : compare key other ≠ .eq := fun h => hother (Std.LawfulEqOrd.eq_of_compare h).symm
    rw [if_neg hother]
    simp [hne]

end Lookup

section Insert

variable [Std.TransOrd κ] [Std.LawfulEqOrd κ] [DecidableEq κ]

theorem ext_get? {a b : Table κ ν} (h : ∀ key, a.get? key = b.get? key) : a = b := by
  have hmem : ∀ entry, entry ∈ a.entries ↔ entry ∈ b.entries := by
    rintro ⟨key, value⟩
    rw [mem_entries_iff, mem_entries_iff, h]
  have hnodup : ∀ table : Table κ ν, table.entries.Nodup := fun table =>
    List.Pairwise.of_map (·.1) (fun _ _ hne heq => hne (congrArg _ heq)) table.keys_nodup
  have hperm := (List.perm_ext_iff_of_nodup (hnodup a) (hnodup b)).2 hmem
  have hentries : a.entries = b.entries := by
    refine hperm.eq_of_pairwise (fun x y _ _ hxy hyx => ?_) a.ordered b.ordered
    rw [Std.OrientedCmp.gt_of_lt hxy] at hyx
    cases hyx
  cases a
  cases b
  cases hentries
  rfl

@[simp]
theorem get?_insert (table : Table κ ν) (key other : κ) (value : ν) :
    (table.insert key value).get? other = if other = key then some value else table.get? other :=
  lookup_insertEntry key other value table.entries

theorem get?_insertNew (table : Table κ ν) (key other : κ) (value : ν) :
    (table.insertNew key value).get? other =
      (table.get? other).or (if other = key then some value else none) := by
  rw [insertNew]
  split
  next hmem =>
    obtain ⟨old, hold⟩ := contains_iff.1 hmem
    by_cases hother : other = key
    · rw [hother, hold, Option.some_or]
    · rw [if_neg hother, Option.or_none]
  next hmem =>
    rw [get?_insert]
    by_cases hother : other = key
    · have hnone : table.get? key = none := by
        rwa [contains, Bool.not_eq_true, Option.isSome_eq_false_iff, Option.isNone_iff_eq_none]
          at hmem
      rw [if_pos hother, if_pos hother, hother, hnone, Option.none_or]
    · rw [if_neg hother, if_neg hother, Option.or_none]

/-- Of the values given for a key the last one counts. -/
theorem get?_insertAll (table : Table κ ν) (entries : List (κ × ν)) (key : κ) :
    (table.insertAll entries).get? key =
      ((entries.reverse.find? (·.1 = key)).map (·.2)).or (table.get? key) := by
  induction entries generalizing table with
  | nil => rfl
  | cons first rest ih =>
    have hstep : table.insertAll (first :: rest) =
        (table.insert first.1 first.2).insertAll rest := rfl
    rw [hstep, ih, get?_insert, List.reverse_cons, List.find?_append]
    cases rest.reverse.find? (·.1 = key) with
    | some entry => rfl
    | none =>
      by_cases hkey : key = first.1
      · simp [hkey]
      · simp [hkey, Ne.symm hkey]

theorem get?_insertAll_map {α : Type} (table : Table κ ν) (items : List α) (keyOf : α → κ)
    (valueOf : α → ν) (key : κ) :
    (table.insertAll (items.map fun item => (keyOf item, valueOf item))).get? key =
      ((items.reverse.find? (keyOf · = key)).map valueOf).or (table.get? key) := by
  rw [get?_insertAll, ← List.map_reverse, List.find?_map, Option.map_map]
  rfl

/-- What is found was put in, or was there before. -/
theorem mem_of_get?_insertAll {table : Table κ ν} {entries : List (κ × ν)} {key : κ} {value : ν}
    (h : (table.insertAll entries).get? key = some value) :
    (key, value) ∈ entries ∨ table.get? key = some value := by
  rw [get?_insertAll, Option.or_eq_some_iff] at h
  rcases h with hnew | ⟨-, hold⟩
  · obtain ⟨entry, hfind, rfl⟩ := Option.map_eq_some_iff.1 hnew
    have hkey : entry.1 = key := by simpa using List.find?_some hfind
    exact Or.inl (hkey ▸ List.mem_reverse.1 (List.mem_of_find?_eq_some hfind))
  · exact Or.inr hold

omit [DecidableEq κ] in
theorem insertAll_append (table : Table κ ν) (first second : List (κ × ν)) :
    table.insertAll (first ++ second) = (table.insertAll first).insertAll second :=
  List.foldl_append

/-- Of items added under the same key the first one counts, unless the key was taken before. -/
theorem get?_foldl_insertNew {α : Type} (items : List α) (keyOf : α → κ) (valueOf : α → ν)
    (table : Table κ ν) (key : κ) :
    (items.foldl (fun table item => table.insertNew (keyOf item) (valueOf item)) table).get? key =
      (table.get? key).or ((items.find? (keyOf · = key)).map valueOf) := by
  induction items generalizing table with
  | nil => rw [List.foldl_nil, List.find?_nil, Option.map_none, Option.or_none]
  | cons first rest ih =>
    rw [List.foldl_cons, ih, get?_insertNew, List.find?_cons]
    by_cases hfirst : keyOf first = key
    · simp [hfirst]
    · simp [hfirst, Ne.symm hfirst]

theorem get?_insertAll_filterMap (table : Table κ ν) (keys : List κ) (f : κ → Option ν) (key : κ) :
    (table.insertAll (keys.filterMap fun key => (f key).map fun value => (key, value))).get? key =
      if key ∈ keys then (f key).or (table.get? key) else table.get? key := by
  induction keys generalizing table with
  | nil => rfl
  | cons first rest ih =>
    rw [List.filterMap_cons]
    cases hvalue : f first with
    | none =>
      have hstep := ih table
      by_cases hkey : key = first
      · subst hkey
        simp_all
      · simp_all
    | some value =>
      have hstep := ih (table.insert first value)
      have hcons : ∀ entries, table.insertAll ((first, value) :: entries) =
          (table.insert first value).insertAll entries := fun _ => rfl
      by_cases hkey : key = first
      · subst hkey
        simp_all
      · simp_all

theorem get?_insertAll_of_not_mem {table : Table κ ν} {entries : List (κ × ν)} {key : κ}
    (h : key ∉ entries.map (·.1)) : (table.insertAll entries).get? key = table.get? key := by
  have hnone : entries.reverse.find? (·.1 = key) = none := by
    rw [List.find?_eq_none]
    intro entry hentry hkey
    exact h (List.mem_map.2 ⟨entry, List.mem_reverse.1 hentry, of_decide_eq_true hkey⟩)
  rw [get?_insertAll, hnone]
  rfl

theorem get?_insertAll_of_mem {table : Table κ ν} {entries : List (κ × ν)} {key : κ} {value : ν}
    (hkeys : (entries.map (·.1)).Nodup) (h : (key, value) ∈ entries) :
    (table.insertAll entries).get? key = some value := by
  induction entries generalizing table with
  | nil => cases h
  | cons first rest ih =>
    have hstep : table.insertAll (first :: rest) =
        (table.insert first.1 first.2).insertAll rest := rfl
    obtain ⟨hfirst, hrest⟩ := List.nodup_cons.1 hkeys
    rw [hstep]
    rcases List.mem_cons.1 h with rfl | hmem
    · rw [get?_insertAll_of_not_mem hfirst, get?_insert, if_pos rfl]
    · exact ih hrest hmem

/-- Of entries with different keys, all are found. -/
theorem ofList_eq {table : Table κ ν} {entries : List (κ × ν)} (hkeys : (entries.map (·.1)).Nodup)
    (h : ∀ key value, (key, value) ∈ entries ↔ table.get? key = some value) :
    ofList entries = table := by
  refine ext_get? fun key => Option.ext fun value => ?_
  rw [← h]
  constructor
  · exact fun hget => (mem_of_get?_insertAll hget).resolve_right nofun
  · exact get?_insertAll_of_mem hkeys

end Insert

end ChainIndexer.Table
