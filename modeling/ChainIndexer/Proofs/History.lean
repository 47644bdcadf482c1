import ChainIndexer.Processing
import ChainIndexer.Proofs.Table
import ChainIndexer.Repo.Store

/-!
# Writes and their history

A write is a change of an entity with the event it came from. The value of an entity is that of its
last write, and the history has one entry for each write, linked to the write of the entity before
it. So what remains of a history once some events are left out is the history of the other writes.
-/

namespace ChainIndexer

/-! ### The last write of an entity -/

/-- The last of some writes that changes an entity. -/
def lastWrite? (writes : List (EntityChange × Origin)) (key : EntityKey) :
    Option (EntityChange × Origin) :=
  writes.reverse.find? (·.1.key = key)

section LastWrite

variable {writes : List (EntityChange × Origin)} {key : EntityKey}

theorem lastWrite?_append (first second : List (EntityChange × Origin)) (key : EntityKey) :
    lastWrite? (first ++ second) key = (lastWrite? second key).or (lastWrite? first key) := by
  rw [lastWrite?, List.reverse_append, List.find?_append]
  rfl

theorem lastWrite?_cons (write : EntityChange × Origin) (rest : List (EntityChange × Origin))
    (key : EntityKey) :
    lastWrite? (write :: rest) key =
      (lastWrite? rest key).or (if write.1.key = key then some write else none) := by
  rw [← List.singleton_append, lastWrite?_append]
  congr 1
  by_cases hkey : write.1.key = key
  · simp [lastWrite?, hkey]
  · simp [lastWrite?, hkey]

theorem mem_of_lastWrite? {write : EntityChange × Origin} (h : lastWrite? writes key = some write) :
    write ∈ writes ∧ write.1.key = key :=
  ⟨List.mem_reverse.1 (List.mem_of_find?_eq_some h), by simpa using List.find?_some h⟩

theorem lastWrite?_eq_none_iff :
    lastWrite? writes key = none ↔ ∀ write ∈ writes, write.1.key ≠ key := by
  rw [lastWrite?, List.find?_eq_none]
  constructor
  · exact fun h write hmem heq => h write (List.mem_reverse.2 hmem) (decide_eq_true heq)
  · exact fun h write hmem heq => h write (List.mem_reverse.1 hmem) (of_decide_eq_true heq)

theorem lastWrite?_filter {keep : EntityChange × Origin → Bool}
    (h : ∀ write ∈ writes, write.1.key = key → keep write = true) :
    lastWrite? (writes.filter keep) key = lastWrite? writes key := by
  induction writes with
  | nil => rfl
  | cons first rest ih =>
    have hrest := ih fun write hmem => h write (List.mem_cons_of_mem _ hmem)
    rw [lastWrite?_cons, List.filter_cons]
    by_cases hkeep : keep first = true
    · rw [if_pos hkeep, lastWrite?_cons, hrest]
    · have hne : first.1.key ≠ key := fun hkey => hkeep (h first List.mem_cons_self hkey)
      rw [if_neg hkeep, hrest, if_neg hne, Option.or_none]

/-- Of what is noted for each write, that for the last one is found. -/
theorem get?_insertAll_writes {ν : Type} (table : Table EntityKey ν)
    (writes : List (EntityChange × Origin)) (value : EntityChange × Origin → ν) (key : EntityKey) :
    (table.insertAll (writes.map fun write => (write.1.key, value write))).get? key =
      ((lastWrite? writes key).map value).or (table.get? key) := by
  induction writes generalizing table with
  | nil => rfl
  | cons first rest ih =>
    have hstep : table.insertAll ((first :: rest).map fun write => (write.1.key, value write)) =
        (table.insert first.1.key (value first)).insertAll
          (rest.map fun write => (write.1.key, value write)) := rfl
    rw [hstep, ih, Table.get?_insert, lastWrite?_cons]
    cases lastWrite? rest key with
    | some write => rfl
    | none =>
      by_cases hkey : key = first.1.key
      · simp [hkey]
      · simp [hkey, Ne.symm hkey]

end LastWrite

/-! ### Entities -/

namespace Store

variable {entities : Table EntityKey Json}

theorem get?_applyChange (entities : Table EntityKey Json) (change : EntityChange)
    (key : EntityKey) :
    (applyChange entities change).get? key =
      if key = change.key then change.fields? else entities.get? key := by
  cases change with
  | set changed fields => exact Table.get?_insert entities changed key fields
  | delete changed => exact Table.get?_erase entities changed key

theorem applyChanges_append (entities : Table EntityKey Json) (first second : List EntityChange) :
    applyChanges entities (first ++ second) = applyChanges (applyChanges entities first) second :=
  List.foldl_append

/-- Of several changes of an entity the last one counts. -/
theorem get?_applyChanges_last (entities : Table EntityKey Json) (changes : List EntityChange)
    (key : EntityKey) :
    (applyChanges entities changes).get? key =
      (changes.reverse.find? (·.key = key)).elim (entities.get? key) (·.fields?) := by
  induction changes generalizing entities with
  | nil => rfl
  | cons first rest ih =>
    have hstep : applyChanges entities (first :: rest) =
        applyChanges (applyChange entities first) rest := rfl
    rw [hstep, ih, get?_applyChange, List.reverse_cons, List.find?_append]
    cases rest.reverse.find? (·.key = key) with
    | some change => rfl
    | none =>
      by_cases hkey : key = first.key
      · simp [hkey]
      · simp [hkey, Ne.symm hkey]

theorem get?_applyChanges (entities : Table EntityKey Json) (writes : List (EntityChange × Origin))
    (key : EntityKey) :
    (applyChanges entities (writes.map (·.1))).get? key =
      (lastWrite? writes key).elim (entities.get? key) (·.1.fields?) := by
  rw [get?_applyChanges_last, ← List.map_reverse, List.find?_map, Option.elim_map]
  rfl

theorem get?_applyChanges_of_not_mem {changes : List EntityChange} {key : EntityKey}
    (h : key ∉ changes.map (·.key)) :
    (applyChanges entities changes).get? key = entities.get? key := by
  have hnone : changes.reverse.find? (·.key = key) = none := by
    rw [List.find?_eq_none]
    intro change hchange hkey
    exact h (List.mem_map.2 ⟨change, List.mem_reverse.1 hchange, of_decide_eq_true hkey⟩)
  rw [get?_applyChanges_last, hnone]
  rfl

theorem get?_applyChanges_of_mem {changes : List EntityChange} {change : EntityChange}
    (hkeys : (changes.map (·.key)).Nodup) (h : change ∈ changes) :
    (applyChanges entities changes).get? change.key = change.fields? := by
  induction changes generalizing entities with
  | nil => cases h
  | cons first rest ih =>
    have hstep : applyChanges entities (first :: rest) =
        applyChanges (applyChange entities first) rest := rfl
    obtain ⟨hfirst, hrest⟩ := List.nodup_cons.1 hkeys
    rw [hstep]
    rcases List.mem_cons.1 h with rfl | hmem
    · rw [get?_applyChanges_of_not_mem hfirst, get?_applyChange, if_pos rfl]
    · exact ih hrest hmem

theorem get?_applyChanges_entries {ν : Type} {table : Table EntityKey ν}
    {change : EntityKey × ν → EntityChange}
    (hkeys : ∀ entry ∈ table.entries, (change entry).key = entry.1) (key : EntityKey) :
    (applyChanges entities (table.entries.map change)).get? key =
      (table.get? key).elim (entities.get? key) fun value => (change (key, value)).fields? := by
  have hkeysEq : (table.entries.map change).map (·.key) = table.keys := by
    rw [List.map_map]
    exact List.map_congr_left hkeys
  cases hget : table.get? key with
  | some value =>
    have hentry := Table.mem_entries_iff.2 hget
    have hkey : (change (key, value)).key = key := hkeys _ hentry
    have hfields : (applyChanges entities (table.entries.map change)).get?
        (change (key, value)).key = (change (key, value)).fields? :=
      get?_applyChanges_of_mem (hkeysEq ▸ table.keys_nodup) (List.mem_map_of_mem hentry)
    rwa [hkey] at hfields
  | none =>
    refine get?_applyChanges_of_not_mem ?_
    rw [hkeysEq, Table.keys, List.mem_map]
    rintro ⟨entry, hentry, rfl⟩
    rw [Table.mem_entries_iff.1 hentry] at hget
    cases hget

end Store

/-! ### Linked history -/

theorem HistoryEntry.toChange_ofChange (change : EntityChange) (origin previous : Origin) :
    (HistoryEntry.ofChange change origin previous).toChange = change := by
  cases change <;> rfl

theorem HistoryEntry.toChange_key (entry : HistoryEntry) : entry.toChange.key = entry.key := by
  unfold HistoryEntry.toChange
  split <;> rfl

/-- Where the last record of each entity came from after some writes. -/
def latestAfter (latest : Table EntityKey Origin) (writes : List (EntityChange × Origin)) :
    Table EntityKey Origin :=
  latest.insertAll (writes.map fun write => (write.1.key, write.2))

theorem get?_latestAfter (latest : Table EntityKey Origin) (writes : List (EntityChange × Origin))
    (key : EntityKey) :
    (latestAfter latest writes).get? key =
      ((lastWrite? writes key).map (·.2)).or (latest.get? key) :=
  get?_insertAll_writes latest writes (·.2) key

theorem linkHistory_append (latest : Table EntityKey Origin)
    (first second : List (EntityChange × Origin)) :
    linkHistory latest (first ++ second) =
      linkHistory latest first ++ linkHistory (latestAfter latest first) second := by
  induction first generalizing latest with
  | nil => rfl
  | cons write rest ih =>
    rw [List.cons_append, linkHistory, ih, linkHistory, List.cons_append]
    rfl

theorem linkHistory_congr {writes : List (EntityChange × Origin)} {a b : Table EntityKey Origin}
    (h : ∀ write ∈ writes, a.get? write.1.key = b.get? write.1.key) :
    linkHistory a writes = linkHistory b writes := by
  induction writes generalizing a b with
  | nil => rfl
  | cons first rest ih =>
    rw [linkHistory, linkHistory, h first List.mem_cons_self]
    refine congrArg (_ :: ·) (ih fun write hmem => ?_)
    rw [Table.get?_insert, Table.get?_insert, h write (List.mem_cons_of_mem _ hmem)]

theorem linkHistory_writes (latest : Table EntityKey Origin)
    (writes : List (EntityChange × Origin)) :
    (linkHistory latest writes).map (fun entry => (entry.toChange, entry.origin)) = writes := by
  induction writes generalizing latest with
  | nil => rfl
  | cons first rest ih =>
    rw [linkHistory, List.map_cons, ih, HistoryEntry.toChange_ofChange]
    rfl

theorem linkHistory_key (latest : Table EntityKey Origin) (writes : List (EntityChange × Origin)) :
    (linkHistory latest writes).map (fun entry => (entry.key, entry.origin)) =
      writes.map fun write => (write.1.key, write.2) := by
  induction writes generalizing latest with
  | nil => rfl
  | cons first rest ih =>
    rw [linkHistory, List.map_cons, ih]
    rfl

/-- Leaving out events leaves out what they recorded, if no event that stays writes an entity after
one that goes. -/
theorem linkHistory_filter {keep : Origin → Bool} {writes : List (EntityChange × Origin)}
    (hapart : writes.Pairwise fun a b => keep a.2 = false → keep b.2 = true → a.1.key ≠ b.1.key)
    {a b : Table EntityKey Origin}
    (h : ∀ write ∈ writes, keep write.2 = true → a.get? write.1.key = b.get? write.1.key) :
    linkHistory a (writes.filter fun write => keep write.2) =
      (linkHistory b writes).filter fun entry => keep entry.origin := by
  induction writes generalizing a b with
  | nil => rfl
  | cons first rest ih =>
    obtain ⟨hfirst, hrest⟩ := List.pairwise_cons.1 hapart
    have hlater := fun write hmem => h write (List.mem_cons_of_mem first hmem)
    rw [linkHistory, List.filter_cons, List.filter_cons]
    have horigin : ∀ previous, (HistoryEntry.ofChange first.1 first.2 previous).origin = first.2 :=
      fun _ => rfl
    rw [horigin]
    by_cases hkeep : keep first.2 = true
    · rw [if_pos hkeep, if_pos hkeep, linkHistory, h first List.mem_cons_self hkeep]
      refine congrArg (_ :: ·) (ih hrest fun write hmem hkept => ?_)
      rw [Table.get?_insert, Table.get?_insert, hlater write hmem hkept]
    · rw [if_neg hkeep, if_neg hkeep]
      refine ih hrest fun write hmem hkept => ?_
      have hne := hfirst write hmem (Bool.eq_false_iff.2 hkeep) hkept
      rw [Table.get?_insert, if_neg hne.symm, hlater write hmem hkept]

end ChainIndexer
