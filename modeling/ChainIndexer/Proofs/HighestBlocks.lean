import ChainIndexer.Proofs.Window
import Mathlib.Data.Finset.Sort
import Mathlib.Data.List.DropRight
import Mathlib.Data.List.Find

/-!
# The highest blocks recorded

A block window is all that was recorded, cut to the blocks under the highest numbers. It makes no
difference whether the lowest blocks go after each block or once at the end, as a block that is too
low stays too low when others are added. So a window depends on what its last truncation left and
what was recorded since, and on the order of these only where a number comes more than once: there
the last block counts.
-/

namespace ChainIndexer

/-! ### The end of a table -/

theorem rtake_cons {α : Type} {first : α} {rest : List α} {size : Nat}
    (h : size ≤ rest.length) : (first :: rest).rtake size = rest.rtake size := by
  rw [List.rtake, List.rtake, List.length_cons, Nat.succ_sub h, List.drop_succ_cons]

namespace Table

section Last

variable {κ ν : Type} [Ord κ]

/-- The entries under the highest keys, `size` of them at most. -/
def last (table : Table κ ν) (size : Nat) : Table κ ν :=
  table.drop (table.entries.length - size)

theorem length_last_le (table : Table κ ν) (size : Nat) :
    (table.last size).entries.length ≤ size := by
  rw [last, drop, List.length_drop]
  omega

theorem last_of_le {table : Table κ ν} {size : Nat} (h : table.entries.length ≤ size) :
    table.last size = table := by
  rw [last, Nat.sub_eq_zero_of_le h]
  rfl

theorem reverse_values_last (table : Table κ ν) (size : Nat) :
    (table.last size).values.reverse = table.values.reverse.take size := by
  have hlast : (table.last size).values = table.values.rtake size := by
    rw [last, drop, values, values, List.map_drop, List.rtake, List.length_map]
  rw [hlast, List.rtake_eq_reverse_take_reverse, List.reverse_reverse]

theorem length_le_length_insertEntry (key : κ) (value : ν) (entries : List (κ × ν)) :
    entries.length ≤ (insertEntry key value entries).length := by
  induction entries with
  | nil => exact Nat.zero_le _
  | cons first rest ih =>
    rw [insertEntry]
    split
    next => exact Nat.le_succ _
    next => exact Nat.le_refl _
    next => exact Nat.succ_le_succ ih

theorem insertEntry_of_lt {key : κ} {value : ν} {entries : List (κ × ν)}
    (h : ∀ entry ∈ entries, compare key entry.1 = .lt) :
    insertEntry key value entries = (key, value) :: entries := by
  cases entries with
  | nil => rfl
  | cons first rest => rw [insertEntry, h first List.mem_cons_self]

variable [Std.TransOrd κ] [Std.LawfulEqOrd κ]

/-- The entry under the lowest key is of no matter to the end of a table that is long enough without
it. -/
theorem rtake_insertEntry_cons {key : κ} {value : ν} {first : κ × ν} {rest : List (κ × ν)}
    {size : Nat} (hordered : (first :: rest).Pairwise fun a b => compare a.1 b.1 = .lt)
    (hsize : size ≤ rest.length) :
    (insertEntry key value (first :: rest)).rtake size =
      (insertEntry key value rest).rtake size := by
  obtain ⟨hfirst, -⟩ := List.pairwise_cons.1 hordered
  cases hcompare : compare key first.1 with
  | lt =>
    have hlow : ∀ entry ∈ rest, compare key entry.1 = .lt := fun entry hentry =>
      Std.TransCmp.lt_trans hcompare (hfirst entry hentry)
    rw [insertEntry, hcompare, insertEntry_of_lt hlow, rtake_cons hsize]
    exact (rtake_cons (Nat.le_succ_of_le hsize)).trans (rtake_cons hsize)
  | eq =>
    have hlow : ∀ entry ∈ rest, compare key entry.1 = .lt := fun entry hentry =>
      Std.LawfulEqOrd.eq_of_compare hcompare ▸ hfirst entry hentry
    rw [insertEntry, hcompare, insertEntry_of_lt hlow]
  | gt =>
    rw [insertEntry, hcompare]
    exact rtake_cons (hsize.trans (length_le_length_insertEntry key value rest))

theorem rtake_insertEntry_rtake (key : κ) (value : ν) {entries : List (κ × ν)} (size : Nat)
    (hordered : entries.Pairwise fun a b => compare a.1 b.1 = .lt) :
    (insertEntry key value (entries.rtake size)).rtake size =
      (insertEntry key value entries).rtake size := by
  induction entries with
  | nil => rw [List.rtake_nil]
  | cons first rest ih =>
    by_cases hsize : size ≤ rest.length
    · rw [rtake_cons hsize, ih hordered.of_cons, rtake_insertEntry_cons hordered hsize]
    · have hwhole : (first :: rest).rtake size = first :: rest := by
        rw [List.rtake, List.length_cons, Nat.sub_eq_zero_of_le (by omega), List.drop_zero]
      rw [hwhole]

/-- What is too low for the end of a table is too low after an insert as well. -/
theorem last_insert_last (table : Table κ ν) (key : κ) (value : ν) (size : Nat) :
    ((table.last size).insert key value).last size = (table.insert key value).last size := by
  have hentries := rtake_insertEntry_rtake key value size table.ordered
  simpa only [last, drop, insert, mk.injEq, List.rtake] using hentries

end Last

/-- The values of a table, by its keys from the highest down. -/
theorem reverse_values_eq {ν : Type} (table : Table Nat ν) {numbers : Finset Nat}
    {value? : Nat → Option ν} (hget : ∀ number, table.get? number = value? number)
    (hnumbers : ∀ number, number ∈ numbers ↔ (value? number).isSome) :
    table.values.reverse = (numbers.sort (· ≥ ·)).filterMap value? := by
  have hkeys : table.keys.reverse = numbers.sort (· ≥ ·) := by
    have hmem : ∀ number, number ∈ table.keys.reverse ↔ number ∈ numbers.sort (· ≥ ·) := by
      intro number
      rw [Finset.mem_sort, hnumbers, ← hget, List.mem_reverse, keys, List.mem_map,
        Option.isSome_iff_exists]
      constructor
      · rintro ⟨entry, hentry, rfl⟩
        exact ⟨entry.2, mem_entries_iff.1 hentry⟩
      · rintro ⟨value, hvalue⟩
        exact ⟨(number, value), mem_entries_iff.2 hvalue, rfl⟩
    have hperm := (List.perm_ext_iff_of_nodup (List.nodup_reverse.2 table.keys_nodup)
      (Finset.sort_nodup ..)).2 hmem
    refine hperm.eq_of_pairwise (fun a b _ _ hab hba => Nat.le_antisymm hba hab) ?_
      (Finset.pairwise_sort ..)
    rw [List.pairwise_reverse, keys, List.pairwise_map]
    exact table.ordered.imp fun hlt => Nat.le_of_lt (Nat.compare_eq_lt.1 hlt)
  have hvalues : table.values = table.keys.filterMap value? := by
    rw [values, keys, List.filterMap_map, ← List.filterMap_eq_map]
    refine List.filterMap_congr fun entry hentry => ?_
    rw [Function.comp_apply, Function.comp_apply, ← hget, mem_entries_iff.1 hentry]
  rw [hvalues, ← List.filterMap_reverse, hkeys]

end Table

/-! ### What was recorded -/

/-- The block last recorded under a number. -/
def latest? (recorded : List Block) (number : Nat) : Option Block :=
  recorded.reverse.find? (·.number = number)

/-- The numbers under which blocks were recorded. -/
def recordedNumbers (recorded : List Block) : Finset Nat := (recorded.map (·.number)).toFinset

/-- The blocks last recorded under the highest numbers, `size` of them at most, highest first. -/
def highest (size : Nat) (recorded : List Block) : List Block :=
  (((recordedNumbers recorded).sort (· ≥ ·)).filterMap (latest? recorded)).take size

section Recorded

variable {recorded : List Block} {block : Block} {number : Nat}

theorem latest?_append (first second : List Block) (number : Nat) :
    latest? (first ++ second) number = (latest? second number).or (latest? first number) := by
  rw [latest?, List.reverse_append, List.find?_append]
  rfl

theorem latest?_append_singleton :
    latest? (recorded ++ [block]) number =
      if number = block.number then some block else latest? recorded number := by
  rw [latest?_append, latest?, List.reverse_singleton, List.find?_singleton]
  by_cases h : number = block.number
  · simp [h]
  · simp [h, Ne.symm h]

theorem number_of_latest? (h : latest? recorded number = some block) : block.number = number := by
  simpa using List.find?_some h

theorem mem_recordedNumbers_iff :
    number ∈ recordedNumbers recorded ↔ (latest? recorded number).isSome := by
  simp [recordedNumbers, latest?]

/-- Blocks by their numbers, as they are put into a window. -/
def numbered (blocks : List Block) : List (Nat × Block) :=
  blocks.map fun block => (block.number, block)

theorem get?_insertAll_numbered (table : Table Nat Block) (blocks : List Block) (number : Nat) :
    (table.insertAll (numbered blocks)).get? number =
      (latest? blocks number).or (table.get? number) := by
  have hget := Table.get?_insertAll_map table blocks (·.number) id number
  rwa [Option.map_id] at hget

/-- A table of the blocks last recorded lists them. -/
theorem take_reverse_values {table : Table Nat Block}
    (h : ∀ number, table.get? number = latest? recorded number) (size : Nat) :
    table.values.reverse.take size = highest size recorded := by
  rw [highest, table.reverse_values_eq h fun number => mem_recordedNumbers_iff]

theorem latest?_eq_some_iff (h : (recorded.map (·.number)).Nodup) :
    latest? recorded number = some block ↔ block ∈ recorded ∧ block.number = number := by
  constructor
  · intro hlatest
    exact ⟨List.mem_reverse.1 (List.mem_of_find?_eq_some hlatest), number_of_latest? hlatest⟩
  · rintro ⟨hmem, rfl⟩
    obtain ⟨found, hfound⟩ := Option.isSome_iff_exists.1
      (mem_recordedNumbers_iff.1 (List.mem_toFinset.2 (List.mem_map_of_mem hmem)))
    have hrecorded := List.mem_reverse.1 (List.mem_of_find?_eq_some hfound)
    rwa [List.inj_on_of_nodup_map h hrecorded hmem (number_of_latest? hfound)] at hfound

/-- The order of blocks with different numbers is of no matter. -/
theorem latest?_of_perm {recorded' : List Block} (hperm : recorded.Perm recorded')
    (h : (recorded.map (·.number)).Nodup) (number : Nat) :
    latest? recorded number = latest? recorded' number := by
  have h' := (hperm.map (·.number)).nodup_iff.1 h
  refine Option.ext fun block => ?_
  rw [latest?_eq_some_iff h, latest?_eq_some_iff h', hperm.mem_iff]

end Recorded

/-! ### Windows -/

/-- What happens to a window. -/
inductive WindowStep where
  | record (block : Block)
  | truncateAbove (number : Nat)

def WindowStep.run (window : BlockWindow) : WindowStep → BlockWindow
  | record block => window.record block
  | truncateAbove number => window.truncateAbove number

/-- The blocks that are recorded in some steps. -/
def recordedIn (steps : List WindowStep) : List Block :=
  steps.filterMap fun step =>
    match step with
    | .record block => some block
    | .truncateAbove _ => none

namespace BlockWindow

/-- A window after some steps. -/
def after (window : BlockWindow) (steps : List WindowStep) : BlockWindow :=
  steps.foldl WindowStep.run window

theorem after_map_record (window : BlockWindow) (blocks : List Block) :
    window.after (blocks.map .record) = window.recordAll blocks := by
  rw [after, List.foldl_map]
  rfl

/-- To drop the lowest blocks after each block is to drop them once at the end. -/
theorem recordAll_last (table : Table Nat Block) (capacity : Nat) (blocks : List Block) :
    recordAll ⟨capacity, table.last capacity⟩ blocks =
      ⟨capacity, (table.insertAll (numbered blocks)).last capacity⟩ := by
  induction blocks generalizing table with
  | nil => rfl
  | cons block rest ih =>
    have hrecord : record ⟨capacity, table.last capacity⟩ block =
        ⟨capacity, (table.insert block.number block).last capacity⟩ :=
      congrArg (BlockWindow.mk capacity) (table.last_insert_last ..)
    refine Eq.trans ?_ (ih (table.insert block.number block))
    rw [recordAll, List.foldl_cons, hrecord]
    rfl

/-- What is known of a window of some size after blocks were recorded. -/
structure Keeps (window : BlockWindow) (size : Nat) (recorded : List Block) : Prop where
  capacity : window.capacity = size
  length : window.blocks.entries.length ≤ size
  latest : ∀ number block, window.get? number = some block →
    latest? recorded number = some block

namespace Keeps

variable {window : BlockWindow} {size : Nat} {recorded : List Block}

theorem record (h : window.Keeps size recorded) (block : Block) :
    (window.record block).Keeps size (recorded ++ [block]) where
  capacity := h.capacity
  length := h.capacity ▸ Table.length_last_le ..
  latest number found hget := by
    have hinserted := Table.get?_of_get?_drop hget
    rw [Table.get?_insert] at hinserted
    rw [latest?_append_singleton]
    split at hinserted
    next heq => rwa [if_pos heq]
    next hne =>
      rw [if_neg hne]
      exact h.latest number found hinserted

theorem truncateAbove (h : window.Keeps size recorded) (number : Nat) :
    (window.truncateAbove number).Keeps size recorded where
  capacity := h.capacity
  length := (List.length_filter_le ..).trans h.length
  latest other block hget := by
    rw [get?_truncateAbove, Option.filter_eq_some_iff] at hget
    exact h.latest other block hget.1

theorem after (h : window.Keeps size recorded) (steps : List WindowStep) :
    (window.after steps).Keeps size (recorded ++ recordedIn steps) := by
  induction steps generalizing window recorded with
  | nil => rwa [recordedIn, List.filterMap_nil, List.append_nil]
  | cons step rest ih =>
    cases step with
    | record block =>
      have hrest := ih (h.record block)
      rwa [List.append_assoc] at hrest
    | truncateAbove number => exact ih (h.truncateAbove number)

theorem start (capacity : Nat) (initial : List Block) :
    (BlockWindow.start capacity initial).Keeps (max capacity 1) initial := by
  have hempty : BlockWindow.Keeps ⟨max capacity 1, .empty⟩ (max capacity 1) [] :=
    ⟨rfl, Nat.zero_le _, fun _ _ => nofun⟩
  have hrecorded := hempty.after (initial.map .record)
  have hinitial : recordedIn (initial.map .record) = initial := by
    rw [recordedIn, List.filterMap_map]
    exact List.filterMap_some
  rwa [hinitial, after_map_record] at hrecorded

theorem number_eq (h : window.Keeps size recorded) {number : Nat} {block : Block}
    (hget : window.get? number = some block) : block.number = number :=
  number_of_latest? (h.latest number block hget)

theorem recordAll_eq (h : window.Keeps size recorded) (blocks : List Block) :
    window.recordAll blocks =
      ⟨size, (window.blocks.insertAll (numbered blocks)).last size⟩ := by
  obtain ⟨capacity, table⟩ := window
  obtain rfl : capacity = size := h.capacity
  rw [← recordAll_last, Table.last_of_le h.length]

/-- A window that is listed and recorded again would be the same. -/
theorem latest?_descending (h : window.Keeps size recorded) (number : Nat) :
    latest? window.descending number = window.get? number := by
  rw [latest?, descending, List.reverse_reverse, Table.values, List.find?_map, get?, Table.get?,
    Table.lookup_eq_find?]
  refine congrArg (Option.map _) (List.find?_congr fun entry hentry => ?_)
  rw [Function.comp_apply, h.number_eq (Table.mem_entries_iff.1 hentry)]

theorem descending_recordAll (h : window.Keeps size recorded) (blocks : List Block) :
    (window.recordAll blocks).descending = highest size (window.descending ++ blocks) := by
  rw [h.recordAll_eq, descending, Table.reverse_values_last]
  refine take_reverse_values (fun number => ?_) size
  rw [get?_insertAll_numbered, latest?_append, h.latest?_descending]
  rfl

theorem recordAll_of_perm (h : window.Keeps size recorded) {blocks blocks' : List Block}
    (hperm : blocks.Perm blocks') (hnumbers : (blocks.map (·.number)).Nodup) :
    window.recordAll blocks = window.recordAll blocks' := by
  have htables : window.blocks.insertAll (numbered blocks) =
      window.blocks.insertAll (numbered blocks') := by
    refine Table.ext_get? fun number => ?_
    rw [get?_insertAll_numbered, get?_insertAll_numbered, latest?_of_perm hperm hnumbers]
  rw [h.recordAll_eq, h.recordAll_eq, htables]

theorem descending_truncateAbove (h : window.Keeps size recorded) (number : Nat) :
    (window.truncateAbove number).descending =
      window.descending.filter fun block => block.number ≤ number := by
  have hentries : (window.truncateAbove number).blocks.entries =
      window.blocks.entries.filter fun entry => entry.2.number ≤ number :=
    List.filter_congr fun entry hentry => by rw [h.number_eq (Table.mem_entries_iff.1 hentry)]
  rw [descending, descending, List.filter_reverse, Table.values, Table.values, List.filter_map,
    hentries]
  rfl

theorem length_descending_le (h : window.Keeps size recorded) :
    window.descending.length ≤ size := by
  rw [descending, List.length_reverse, Table.values, List.length_map]
  exact h.length

theorem pairwise_descending (h : window.Keeps size recorded) :
    window.descending.Pairwise fun a b => b.number < a.number :=
  descending_pairwise fun _ _ => h.number_eq

theorem get?_eq_some_iff (h : window.Keeps size recorded) {number : Nat} {block : Block} :
    window.get? number = some block ↔ block ∈ window.descending ∧ block.number = number := by
  have hnumbers : (window.descending.map (·.number)).Nodup := by
    rw [List.Nodup, List.pairwise_map]
    exact h.pairwise_descending.imp Nat.ne_of_gt
  rw [← h.latest?_descending, latest?_eq_some_iff hnumbers]

end Keeps

/-- Whatever is recorded and truncated, a window lists no more blocks than fit, by numbers strictly
descending, and finds those that it lists; each is the last recorded under its number. From the
start it lists the highest of all blocks recorded. Truncating keeps what is not above the number;
and after any steps, what is recorded from there on leaves the highest of the blocks held then and
of those recorded since, however blocks of different numbers are ordered. -/
theorem highest_recorded (capacity : Nat) (initial : List Block) (steps : List WindowStep) :
    let window := (start capacity initial).after steps
    window.descending.length ≤ max capacity 1 ∧
    (window.descending.Pairwise fun a b => b.number < a.number) ∧
    (∀ number block, window.get? number = some block ↔
      block ∈ window.descending ∧ block.number = number) ∧
    (∀ number block, window.get? number = some block →
      latest? (initial ++ recordedIn steps) number = some block) ∧
    (∀ blocks, ((start capacity initial).after (blocks.map .record)).descending =
      highest (max capacity 1) (initial ++ blocks)) ∧
    (∀ number, (window.truncateAbove number).descending =
      window.descending.filter fun block => block.number ≤ number) ∧
    (∀ blocks, (window.after (blocks.map .record)).descending =
      highest (max capacity 1) (window.descending ++ blocks)) ∧
    ∀ blocks blocks' : List Block, blocks.Perm blocks' → (blocks.map (·.number)).Nodup →
      window.after (blocks.map .record) = window.after (blocks'.map .record) := by
  intro window
  have hkeeps : window.Keeps (max capacity 1) (initial ++ recordedIn steps) :=
    (Keeps.start capacity initial).after steps
  refine ⟨hkeeps.length_descending_le, hkeeps.pairwise_descending,
    fun number block => hkeeps.get?_eq_some_iff, hkeeps.latest, fun blocks => ?_,
    hkeeps.descending_truncateAbove, fun blocks => ?_, fun blocks blocks' hperm hnumbers => ?_⟩
  · have hempty : (start capacity []).Keeps (max capacity 1) [] := .start capacity []
    have hall := hempty.descending_recordAll (initial ++ blocks)
    rw [recordAll, List.foldl_append] at hall
    rw [after_map_record]
    exact hall
  · rw [after_map_record]
    exact hkeeps.descending_recordAll blocks
  · rw [after_map_record, after_map_record]
    exact hkeeps.recordAll_of_perm hperm hnumbers

/-- A block of a sample chain, in one of its versions. -/
def sampleBlock (number : Nat) (hash : String) : Block := ⟨number, hash, "0x0", 10 * number⟩

/-- Blocks 5 and 4 were loaded, block 6 was recorded, and a reorg left block 5. In whatever order a
block below, a block above and another block 5 are recorded then, the last two stay. -/
theorem highest_recorded_refetched :
    let window := (start 2 [sampleBlock 5 "0x5", sampleBlock 4 "0x4"]).after
      [.record (sampleBlock 6 "0x6"), .truncateAbove 5]
    let blocks := [sampleBlock 7 "0x7", sampleBlock 5 "0xb5", sampleBlock 3 "0x3"]
    let blocks' := [sampleBlock 3 "0x3", sampleBlock 5 "0xb5", sampleBlock 7 "0x7"]
    window.descending = [sampleBlock 5 "0x5"] ∧ blocks.Perm blocks' ∧
      (blocks.map (·.number)).Nodup ∧
      window.after (blocks.map .record) = window.after (blocks'.map .record) ∧
      (window.after (blocks'.map .record)).descending =
        [sampleBlock 7 "0x7", sampleBlock 5 "0xb5"] := by
  intro window blocks blocks'
  have hperm : blocks.Perm blocks' := by decide
  have hnumbers : (blocks.map (·.number)).Nodup := by decide
  obtain ⟨-, -, -, -, -, -, -, horder⟩ := highest_recorded 2
    [sampleBlock 5 "0x5", sampleBlock 4 "0x4"] [.record (sampleBlock 6 "0x6"), .truncateAbove 5]
  exact ⟨by decide, hperm, hnumbers, horder blocks blocks' hperm hnumbers, by decide⟩

end BlockWindow

end ChainIndexer
