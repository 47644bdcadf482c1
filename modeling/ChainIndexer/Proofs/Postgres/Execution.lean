import ChainIndexer.Postgres.Write
import Mathlib.Data.List.Infix
import Mathlib.Logic.Function.Basic

/-!
# What statements do to tables

Inserts and deletes of entities as a database executes them. An insert stands for the rows that its
placeholders give, which go into the table one after another; a row whose key is taken makes the
insert fail, is left out, or changes the row that is there. Inserts are cut into pieces, and the
pieces in turn do what one long insert would.
-/

namespace ChainIndexer

/-! ### Pieces -/

theorem flatten_pieces {α : Type} (size : Nat) (items : List α) :
    (pieces size items).flatten = items := by
  induction items using pieces.induct size with
  | case1 => rw [pieces, List.flatten_nil]
  | case2 item rest ih =>
    rw [pieces, List.flatten_cons, ih, List.cons_append, List.take_append_drop]

theorem of_mem_pieces {α : Type} {size : Nat} {items piece : List α}
    (h : piece ∈ pieces size items) : piece ≠ [] ∧ piece.length ≤ size + 1 := by
  induction items using pieces.induct size with
  | case1 =>
    rw [pieces] at h
    cases h
  | case2 item rest ih =>
    rw [pieces] at h
    rcases List.mem_cons.1 h with rfl | hmem
    · refine ⟨List.cons_ne_nil _ _, ?_⟩
      rw [List.length_cons, List.length_take]
      omega
    · exact ih hmem

namespace Postgres

/-! ### Executing statements -/

/-- A row that a table holds, by its columns. -/
abbrev TableRow := String → Value

/-- The rows of each table, in the order in which they came. -/
abbrev Contents := String → List TableRow

/-- What the server works out itself; the same all through a transaction. -/
structure Computed where
  /-- The value of a column of a table where an insert leaves it out. -/
  omitted : String → String → Value
  expression : String → Value

/-- The most parameters that one statement can have. -/
def maxParams : Nat := 65535

/-- The value that a placeholder stands for. -/
def bound? (params : List Value) (number : Nat) : Option Value :=
  if number = 0 then none else params[number - 1]?

def Column.mentions (column : Column) (words : String) : Bool :=
  decide (words.toList <:+: column.type.toList)

/-- Whether a column takes no NULL. -/
def Column.isRequired (column : Column) : Bool :=
  column.mentions "NOT NULL" || column.mentions "PRIMARY KEY"

namespace TableSchema

/-- The columns that no two rows of a table agree on. -/
def uniqueKeys (table : TableSchema) : List (List String) :=
  (table.columns.filter (·.mentions "PRIMARY KEY")).map (fun column => [column.name])
    ++ (if table.primaryKey.isEmpty then [] else [table.primaryKey])
    ++ (table.indexes.filter (·.isUnique)).map (·.columns)

/-- Whether a table has all columns of a row, each of them given once, and none NULL that may not
be. -/
def fits (table : TableSchema) (row : Row) : Bool :=
  decide (row.map (·.1)).Nodup && row.all fun (name, value) =>
    match table.columns.find? (·.name = name) with
    | some column => value ≠ .null || !column.isRequired
    | none => false

end TableSchema

/-- A row with all columns that were left out. -/
def Row.completed (computed : Computed) (table : String) (row : Row) : TableRow := fun column =>
  (row.lookup column).getD (computed.omitted table column)

/-- Whether two rows have one key. NULL differs even from NULL. -/
def agree (key : List String) (a b : TableRow) : Bool :=
  key.all fun column => a column = b column && a column ≠ .null

/-- Adds a row unless one of its keys is taken. -/
def append? (keys : List (List String)) (rows : List TableRow) (row : TableRow) :
    Option (List TableRow) :=
  if keys.any fun key => rows.any (agree key row) then none else some (rows ++ [row])

/-- A row that is there, with the new values of some columns, and others worked out anew. -/
def updated (computed : Computed) (columns : List String) (expressions : List (String × String))
    (old new : TableRow) : TableRow := fun column =>
  if column ∈ columns then new column
  else ((expressions.lookup column).map computed.expression).getD (old column)

namespace OnConflict

/-- Puts a row among those of a table. -/
def put? (computed : Computed) (keys : List (List String)) (rows : List TableRow)
    (row : TableRow) : OnConflict → Option (List TableRow)
  | fail => append? keys rows row
  | keep key => if rows.any (agree key row) then some rows else append? keys rows row
  | update key columns expressions =>
    if rows.any (agree key row) then
      some (rows.map fun old =>
        if agree key row old then updated computed columns expressions old row else old)
    else append? keys rows row

/-- Whether an insert may say this: it has to name a key, and no row may be updated twice. -/
def allows (keys : List (List String)) (rows : List TableRow) : OnConflict → Bool
  | fail => true
  | keep key => keys.contains key
  | update key _ _ => keys.contains key && decide (rows.Pairwise fun a b => agree key a b = false)

/-- Puts rows into a table one after another. -/
def putAll? (onConflict : OnConflict) (computed : Computed) (table : TableSchema)
    (stored : List TableRow) (rows : List Row) : Option (List TableRow) :=
  (rows.map (Row.completed computed table.name)).foldlM
    (fun stored row => onConflict.put? computed table.uniqueKeys stored row) stored

end OnConflict

namespace Insert

/-- The row for a list of placeholders, one for each column. -/
def row? (insert : Insert) (numbers : List Nat) : Option Row :=
  if numbers.length = insert.columns.length then
    (numbers.mapM (bound? insert.params)).map insert.columns.zip
  else none

/-- Whether a table takes an insert of some rows, whichever rows it has. -/
def admits (insert : Insert) (computed : Computed) (table : TableSchema) (rows : List Row) : Bool :=
  !rows.isEmpty && rows.all table.fits && insert.params.length ≤ maxParams
    && insert.onConflict.allows table.uniqueKeys (rows.map (Row.completed computed table.name))

/-- The rows of a table after an insert, unless that is rejected. -/
def run? (insert : Insert) (computed : Computed) (table : TableSchema) (stored : List TableRow) :
    Option (List TableRow) := do
  let rows ← insert.rows.mapM insert.row?
  if insert.admits computed table rows then insert.onConflict.putAll? computed table stored rows
  else none

end Insert

/-- Whether a row meets `kind = $1 AND id = ANY($2)`. -/
def meetsKindAndIds (params : List Value) (row : TableRow) : Bool :=
  match bound? params 1, bound? params 2, row "id" with
  | some kind, some (.texts ids), .text id => row "kind" = kind && ids.contains id
  | _, _, _ => false

/-- What a statement makes of the tables, unless it is rejected. Only inserts and deletes of
entities have a meaning here. -/
def Statement.run? (computed : Computed) (contents : Contents) (statement : Statement) :
    Option Contents :=
  match statement with
  | .insert rows => do
    let table ← dataTables.find? (·.name = rows.table)
    let after ← rows.run? computed table (contents table.name)
    return Function.update contents table.name after
  | .deleteEntities _ _ =>
    let left := (contents entitiesTable.name).filter fun row =>
      !meetsKindAndIds statement.params row
    some (Function.update contents entitiesTable.name left)
  | _ => none

/-- Runs statements in turn, up to the first that is rejected. -/
def runStatements? (computed : Computed) (contents : Contents) (statements : List Statement) :
    Option Contents :=
  statements.foldlM (Statement.run? computed) contents

/-! ### Placeholders and their parameters -/

theorem mapM_bound?_range' (before row after : List Value) :
    (List.range' (before.length + 1) row.length).mapM (bound? (before ++ row ++ after)) =
      some row := by
  induction row generalizing before with
  | nil => rfl
  | cons value rest ih =>
    have hvalue : bound? (before ++ value :: rest ++ after) (before.length + 1) = some value := by
      simp [bound?]
    have hrest := ih (before ++ [value])
    rw [List.length_append, List.length_singleton, List.append_assoc before,
      List.singleton_append] at hrest
    rw [List.length_cons, List.range'_succ, List.mapM_cons, hvalue, hrest]
    rfl

theorem bindRows_snd (bound : List Value) (rows : List (List Value)) :
    (bindRows bound rows).2 = bound ++ rows.flatten := by
  induction rows generalizing bound with
  | nil => rw [bindRows, List.flatten_nil, List.append_nil]
  | cons row rest ih =>
    rw [List.flatten_cons, ← List.append_assoc]
    exact ih (bound ++ row)

/-- Every placeholder stands for the value that it was made for. -/
theorem mapM_row?_bindRows (insert : Insert) {rows : List (List Value)}
    (before after : List Value) (hparams : insert.params = before ++ rows.flatten ++ after)
    (hlength : ∀ row ∈ rows, row.length = insert.columns.length) :
    (bindRows before rows).1.mapM insert.row? = some (rows.map insert.columns.zip) := by
  induction rows generalizing before with
  | nil => rfl
  | cons row rest ih =>
    have hrow : insert.row? (List.range' (before.length + 1) row.length) =
        some (insert.columns.zip row) := by
      rw [Insert.row?, List.length_range', if_pos (hlength row List.mem_cons_self), hparams,
        List.flatten_cons, ← List.append_assoc, List.append_assoc _ rest.flatten,
        mapM_bound?_range', Option.map_some]
    have hrest := ih (before ++ row) (by simpa using hparams)
      fun other hother => hlength other (List.mem_cons_of_mem _ hother)
    rw [List.map_cons, bindRows, bindRow, List.mapM_cons, hrow, hrest]
    rfl

/-! ### Inserts of rows -/

section Rows

variable {computed : Computed} {table : TableSchema} {onConflict : OnConflict} {rows : List Row}
  {columns : List String}

theorem zip_columns (row : Row) : (row.map (·.1)).zip (row.map (·.2)) = row := by
  rw [List.zip_map']
  exact List.map_id' row

/-- An insert stands for the rows that it was made from, with a parameter for each of their
values. -/
theorem exists_insertRows_eq (table : TableSchema) (onConflict : OnConflict)
    (hcolumns : ∀ row ∈ rows, row.map (·.1) = columns) (hrows : rows ≠ []) :
    ∃ insert : Insert, insertRows table rows onConflict = .insert insert ∧
      insert.table = table.name ∧ insert.onConflict = onConflict ∧
      insert.params.length = rows.length * columns.length ∧
      insert.rows.mapM insert.row? = some rows := by
  have hlength : ∀ row ∈ rows, row.length = columns.length := fun row hrow => by
    rw [← hcolumns row hrow, List.length_map]
  set insert : Insert :=
    .ofRows table.name columns (rows.map fun row => row.map (·.2)) onConflict with hinsert
  have hparams : insert.params = (rows.map fun row => row.map (·.2)).flatten := bindRows_snd [] _
  refine ⟨insert, ?_, rfl, rfl, ?_, ?_⟩
  · obtain ⟨first, rest, rfl⟩ := List.exists_cons_of_ne_nil hrows
    rw [insertRows, List.headD_cons, hcolumns first List.mem_cons_self]
  · have hlengths : (rows.map fun row => row.map (·.2)).map List.length =
        rows.map fun _ => columns.length := by
      rw [List.map_map]
      exact List.map_congr_left fun row hrow => (List.length_map _).trans (hlength row hrow)
    rw [hparams, List.length_flatten, hlengths, List.map_const', List.sum_replicate_nat]
  · have hread := mapM_row?_bindRows insert [] [] (by simpa using hparams) <| by
      intro values hvalues
      obtain ⟨row, hrow, rfl⟩ := List.mem_map.1 hvalues
      exact (List.length_map _).trans (hlength row hrow)
    refine hread.trans (congrArg some ?_)
    rw [List.map_map]
    refine (List.map_congr_left fun row hrow => ?_).trans (List.map_id' rows)
    have hzip := zip_columns row
    rwa [hcolumns row hrow] at hzip

/-- Whether some rows can be inserted together. -/
structure Insertable (computed : Computed) (table : TableSchema) (onConflict : OnConflict)
    (columns : List String) (rows : List Row) : Prop where
  columns : ∀ row ∈ rows, row.map (·.1) = columns
  fits : ∀ row ∈ rows, table.fits row = true
  allows : onConflict.allows table.uniqueKeys (rows.map (Row.completed computed table.name)) = true

theorem OnConflict.allows_sublist {keys : List (List String)} {part all : List TableRow}
    (h : onConflict.allows keys all = true) (hpart : part.Sublist all) :
    onConflict.allows keys part = true := by
  cases onConflict with
  | fail => rfl
  | keep key => exact h
  | update key columns expressions =>
    rw [allows, Bool.and_eq_true, decide_eq_true_eq] at h ⊢
    exact ⟨h.1, h.2.sublist hpart⟩

theorem Insertable.sublist {part : List Row} (h : Insertable computed table onConflict columns rows)
    (hpart : part.Sublist rows) : Insertable computed table onConflict columns part where
  columns row hrow := h.columns row (hpart.mem hrow)
  fits row hrow := h.fits row (hpart.mem hrow)
  allows := OnConflict.allows_sublist h.allows (hpart.map _)

theorem run?_insertRows (contents : Contents)
    (h : Insertable computed table onConflict columns rows)
    (htable : dataTables.find? (·.name = table.name) = some table) (hrows : rows ≠ [])
    (hparams : rows.length * columns.length ≤ maxParams) :
    (insertRows table rows onConflict).run? computed contents =
      (onConflict.putAll? computed table (contents table.name) rows).map
        (Function.update contents table.name) := by
  obtain ⟨insert, hinsert, hname, honConflict, hlength, hread⟩ :=
    exists_insertRows_eq table onConflict h.columns hrows
  have hadmits : insert.admits computed table rows = true := by
    simp only [Insert.admits, Bool.and_eq_true, Bool.not_eq_true', List.isEmpty_eq_false_iff,
      List.all_eq_true, decide_eq_true_eq]
    exact ⟨⟨⟨hrows, h.fits⟩, hlength ▸ hparams⟩, honConflict ▸ h.allows⟩
  have hrun : insert.run? computed table (contents table.name) =
      onConflict.putAll? computed table (contents table.name) rows := by
    rw [Insert.run?, hread, Option.bind_eq_bind, Option.bind_some, if_pos hadmits, honConflict]
  rw [hinsert, Statement.run?, hname, htable, Option.bind_eq_bind, Option.bind_some, hrun]
  cases onConflict.putAll? computed table (contents table.name) rows <;> rfl

theorem OnConflict.putAll?_append (stored : List TableRow) (first second : List Row) :
    onConflict.putAll? computed table stored (first ++ second) =
      (onConflict.putAll? computed table stored first).bind fun stored =>
        onConflict.putAll? computed table stored second := by
  rw [putAll?, List.map_append, List.foldlM_append]
  rfl

/-- However rows are cut into pieces, the pieces in turn do what one insert would. -/
theorem runStatements?_map_insertRows (contents : Contents) {parts : List (List Row)}
    (h : Insertable computed table onConflict columns parts.flatten)
    (htable : dataTables.find? (·.name = table.name) = some table)
    (hparts : ∀ part ∈ parts, part ≠ [] ∧ part.length * columns.length ≤ maxParams) :
    runStatements? computed contents
        (parts.map fun part => insertRows table part onConflict) =
      (onConflict.putAll? computed table (contents table.name) parts.flatten).map
        (Function.update contents table.name) := by
  induction parts generalizing contents with
  | nil => exact (congrArg some (Function.update_eq_self table.name contents)).symm
  | cons part rest ih =>
    rw [List.flatten_cons] at h ⊢
    obtain ⟨hpart, hparams⟩ := hparts part List.mem_cons_self
    have hfirst := run?_insertRows contents (h.sublist (List.sublist_append_left ..))
      htable hpart hparams
    have hrest := fun contents => ih contents (h.sublist (List.sublist_append_right ..))
      fun other hother => hparts other (List.mem_cons_of_mem _ hother)
    rw [OnConflict.putAll?_append, List.map_cons, runStatements?, List.foldlM_cons, hfirst]
    cases onConflict.putAll? computed table (contents table.name) part with
    | none => rfl
    | some stored =>
      refine (hrest (Function.update contents table.name stored)).trans ?_
      rw [Function.update_self, Option.bind_some]
      cases onConflict.putAll? computed table stored rest.flatten with
      | none => rfl
      | some all => exact congrArg some (Function.update_idem ..)

theorem runStatements?_insertAll (contents : Contents)
    (h : Insertable computed table onConflict columns rows)
    (htable : dataTables.find? (·.name = table.name) = some table)
    (hcolumns : columns.length * rowsPerInsert ≤ maxParams) :
    runStatements? computed contents (insertAll table rows onConflict) =
      (onConflict.putAll? computed table (contents table.name) rows).map
        (Function.update contents table.name) := by
  have hflatten := flatten_pieces (rowsPerInsert - 1) rows
  have hrun := runStatements?_map_insertRows contents (hflatten.symm ▸ h) htable
    fun part hpart => by
      obtain ⟨hne, hlength⟩ := of_mem_pieces hpart
      exact ⟨hne, (Nat.mul_comm .. ▸ Nat.mul_le_mul_left _ hlength).trans hcolumns⟩
  rwa [hflatten] at hrun

end Rows

end Postgres

end ChainIndexer
