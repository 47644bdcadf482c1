/-!
# Tables

A finite map kept as a list in strictly ascending key order. The order is part of the type, so two
tables with the same lookups are the same table, and listing one is deterministic.
-/

namespace ChainIndexer

/-- A finite map from `κ` to `ν`, listed in ascending key order. -/
structure Table (κ ν : Type) [Ord κ] where
  entries : List (κ × ν)
  ordered : entries.Pairwise fun a b => compare a.1 b.1 = .lt

namespace Table

variable {κ ν : Type} [Ord κ]

instance [DecidableEq κ] [DecidableEq ν] : DecidableEq (Table κ ν) := fun a b =>
  if h : a.entries = b.entries then
    isTrue (by cases a; cases b; cases h; rfl)
  else
    isFalse fun hab => h (hab ▸ rfl)

def empty : Table κ ν := ⟨[], .nil⟩

instance : Inhabited (Table κ ν) := ⟨empty⟩

/-- Looks a key up among listed entries. -/
def lookup (key : κ) : List (κ × ν) → Option ν
  | [] => none
  | entry :: rest => if compare key entry.1 = .eq then some entry.2 else lookup key rest

def get? (table : Table κ ν) (key : κ) : Option ν :=
  lookup key table.entries

def contains (table : Table κ ν) (key : κ) : Bool :=
  (table.get? key).isSome

def keys (table : Table κ ν) : List κ :=
  table.entries.map (·.1)

def values (table : Table κ ν) : List ν :=
  table.entries.map (·.2)

/-- Puts an entry at its place, replacing one under the same key. -/
def insertEntry (key : κ) (value : ν) : List (κ × ν) → List (κ × ν)
  | [] => [(key, value)]
  | entry :: rest =>
    match compare key entry.1 with
    | .lt => (key, value) :: entry :: rest
    | .eq => (key, value) :: rest
    | .gt => entry :: insertEntry key value rest

theorem mem_insertEntry {key : κ} {value : ν} {entry : κ × ν} {entries : List (κ × ν)}
    (h : entry ∈ insertEntry key value entries) : entry = (key, value) ∨ entry ∈ entries := by
  induction entries with
  | nil => simpa [insertEntry] using h
  | cons first rest ih =>
    rw [insertEntry] at h
    split at h <;> grind

theorem insertEntry_ordered [Std.TransOrd κ] [Std.LawfulEqOrd κ] (key : κ) (value : ν)
    {entries : List (κ × ν)} (h : entries.Pairwise fun a b => compare a.1 b.1 = .lt) :
    (insertEntry key value entries).Pairwise fun a b => compare a.1 b.1 = .lt := by
  induction entries with
  | nil => simp [insertEntry]
  | cons first rest ih =>
    obtain ⟨hfirst, hrest⟩ := List.pairwise_cons.1 h
    rw [insertEntry]
    split
    next hlt =>
      refine List.pairwise_cons.2 ⟨fun entry hentry => ?_, h⟩
      rcases List.mem_cons.1 hentry with rfl | hmem
      · exact hlt
      · exact Std.TransCmp.lt_trans hlt (hfirst entry hmem)
    next heq =>
      rw [Std.LawfulEqOrd.eq_of_compare heq]
      exact List.pairwise_cons.2 ⟨hfirst, hrest⟩
    next hgt =>
      refine List.pairwise_cons.2 ⟨fun entry hentry => ?_, ih hrest⟩
      rcases mem_insertEntry hentry with rfl | hmem
      · exact Std.OrientedCmp.lt_of_gt hgt
      · exact hfirst entry hmem

def insert [Std.TransOrd κ] [Std.LawfulEqOrd κ] (table : Table κ ν) (key : κ) (value : ν) :
    Table κ ν :=
  ⟨insertEntry key value table.entries, insertEntry_ordered key value table.ordered⟩

/-- Adds an entry unless the key already has one. -/
def insertNew [Std.TransOrd κ] [Std.LawfulEqOrd κ] (table : Table κ ν) (key : κ) (value : ν) :
    Table κ ν :=
  if table.contains key then table else table.insert key value

/-- Keeps the entries that pass a test. -/
def filter (table : Table κ ν) (keep : κ → ν → Bool) : Table κ ν :=
  ⟨table.entries.filter fun entry => keep entry.1 entry.2, table.ordered.filter _⟩

/-- Leaves out the entries with the lowest keys. -/
def drop (table : Table κ ν) (count : Nat) : Table κ ν :=
  ⟨table.entries.drop count, table.ordered.sublist (List.drop_sublist ..)⟩

def erase (table : Table κ ν) (key : κ) : Table κ ν :=
  table.filter fun other _ => compare key other ≠ .eq

/-- Inserts entries in turn, so the last value given for a key stays. -/
def insertAll [Std.TransOrd κ] [Std.LawfulEqOrd κ] (table : Table κ ν) (entries : List (κ × ν)) :
    Table κ ν :=
  entries.foldl (fun table entry => table.insert entry.1 entry.2) table

def ofList [Std.TransOrd κ] [Std.LawfulEqOrd κ] (entries : List (κ × ν)) : Table κ ν :=
  empty.insertAll entries

/-- Changes every value, leaving the keys alone. -/
def map {ν' : Type} (table : Table κ ν) (f : κ → ν → ν') : Table κ ν' :=
  ⟨table.entries.map fun entry => (entry.1, f entry.1 entry.2),
    List.pairwise_map.2 (table.ordered.imp id)⟩

/-- Changes the value under one key, if there is one. -/
def modify (table : Table κ ν) (key : κ) (f : ν → ν) : Table κ ν :=
  table.map fun other value => if compare key other = .eq then f value else value

end Table

end ChainIndexer
