import ChainIndexer.Postgres.Repo
import ChainIndexer.Proofs.Call
import ChainIndexer.Proofs.Postgres.Conditions
import Mathlib.Data.List.Dedup
import Mathlib.Data.List.Perm.Basic

/-!
# Deletes and queries as a database reads them

A delete takes the rows of a table away of which its search condition is true. A query answers these
rows, or the lowest number in a column for each group of them. A server that runs SQL does to its
tables what the text of a delete says, and answers what the text of a query asks for, in any order.
-/

namespace ChainIndexer.Postgres

/-! ### What texts ask for -/

/-- A row as the server sends it. -/
def TableSchema.send (table : TableSchema) (row : TableRow) : Json :=
  Row.toJson (table.columns.map fun column => (column.name, row column.name))

def Value.bigint? : Value → Option Int
  | bigint value => some value
  | _ => none

namespace Sql

/-- Whether a search condition is true of a row: neither false nor unknown. -/
def Search.selects (search : Search) (row : TableRow) : Bool :=
  decide (search.truth row = some true)

def Operand.columns : Operand → List String
  | column name => [name]
  | literal _ => []

/-- The columns that a search condition looks at. -/
def Search.columns (search : Search) : List String :=
  search.flatMap fun comparison =>
    comparison.pairs.flatMap fun pair => pair.1.columns ++ pair.2.columns

/-- The table of a name, if it has some columns and they are all numbers. -/
def table? (name : String) (columns : List String) : Option TableSchema :=
  (dataTables.find? (·.name = name)).filter fun table =>
    columns.all fun name =>
      table.columns.any fun column => column.name = name && column.mentions "BIGINT"

/-- The table of a clause with `FROM` and `WHERE`, and what comes after these. -/
def from? (tokens : List Token) : Option (String × List Token) := do
  let .word name :: rest ← tokens.dropPrefix? [.word "from"] | none
  return (name, ← rest.dropPrefix? [.word "where"])

/-- A delete of the rows that are selected. -/
structure Delete where
  table : TableSchema
  search : Search

namespace Delete

def ofTokens? (tokens : List Token) : Option Delete := do
  let (name, condition) ← from? (← tokens.dropPrefix? [.word "delete"])
  let search ← search? condition
  return ⟨← table? name search.columns, search⟩

def ofText? (text : String) : Option Delete := (tokens? text.toList).bind ofTokens?

/-- The tables after a delete. -/
def run (delete : Delete) (contents : Contents) : Contents :=
  let left := (contents delete.table.name).filter fun row => !delete.search.selects row
  Function.update contents delete.table.name left

end Delete

/-- A query about the rows that are selected. -/
inductive Select where
  /-- Whole rows. -/
  | rows (table : TableSchema) (search : Search)
  /-- The lowest number of a column, under a name of its own, for each value of another column. -/
  | minima (table : TableSchema) (search : Search) (group column result : String)

/-- The lowest of some numbers, or NULL if there is none. -/
def least (values : List Value) : Value := .ofOption .bigint (values.filterMap Value.bigint?).min?

/-- Each value of a group, with the lowest number that it is paired with. -/
def minima (pairs : List (Value × Value)) : List (Value × Value) :=
  (pairs.map (·.1)).dedup.map fun group =>
    (group, least ((pairs.filter fun pair => pair.1 = group).map (·.2)))

namespace Select

def rows? (tokens : List Token) : Option Select := do
  let (name, condition) ← from? tokens
  let search ← search? condition
  return .rows (← table? name search.columns) search

def minima? (group : String) (tokens : List Token) : Option Select := do
  let .word column :: tokens ← tokens.dropPrefix? [.mark ',', .word "min", .mark '('] | none
  let .word result :: tokens ← tokens.dropPrefix? [.mark ')', .word "as"] | none
  let (name, tokens) ← from? tokens
  let search ← search? (← tokens.dropSuffix? [.word "group", .word "by", .word group])
  return .minima (← table? name (group :: column :: search.columns)) search group column result

def ofTokens? (tokens : List Token) : Option Select := do
  match ← tokens.dropPrefix? [.word "select"] with
  | .mark '*' :: rest => rows? rest
  | .word group :: rest => minima? group rest
  | _ => none

/-- A query stands within one for all of its rows as one list. -/
def ofText? (text : String) : Option Select := do
  let rest ← text.toList.dropPrefix? "WITH result AS (".toList
  let inner ← rest.dropSuffix?
    ") SELECT COALESCE(json_agg(result), '[]'::json) FROM result".toList
  ofTokens? (← tokens? inner)

/-- What a query answers, in the order of the rows. -/
def answer (contents : Contents) : Select → List Json
  | rows table search => ((contents table.name).filter search.selects).map table.send
  | minima table search group column result =>
    let selected := (contents table.name).filter search.selects
    (Sql.minima (selected.map fun row => (row group, row column))).map fun (value, lowest) =>
      Row.toJson [(group, value), (result, lowest)]

end Select

end Sql

open Sql

/-- Whether a server does to its tables what the texts of deletes say, and answers what the texts of
queries ask for, the rows in any order. -/
structure Server.RunsSql {σ : Type} (server : Server σ) (tables : σ → Contents) : Prop where
  deletes : ∀ statement delete state, statement.params = [] →
    Delete.ofText? statement.text = some delete →
      ∃ after, server.execute statement state = (.ok (), after) ∧
        tables after = delete.run (tables state)
  selects : ∀ query select state, query.params = [] → Select.ofText? query.text = some select →
    ∃ rows after, server.fetch query state = (.ok (some (.arr rows)), after) ∧
      tables after = tables state ∧ rows.Perm (select.answer (tables state))

/-- A server that has nothing but its tables, and sends the last row first. -/
def Server.ofTables : Server Contents where
  execute statement contents :=
    match Delete.ofText? statement.text with
    | some delete => (.ok (), delete.run contents)
    | none => (.error (.rejected "0A000"), contents)
  fetch query contents :=
    match Select.ofText? query.text with
    | some select => (.ok (some (.arr (select.answer contents).reverse)), contents)
    | none => (.error (.rejected "0A000"), contents)

theorem Server.runsSql_ofTables : Server.ofTables.RunsSql id where
  deletes statement delete contents _ hdelete := by
    refine ⟨delete.run contents, ?_, rfl⟩
    rw [ofTables]
    simp only [hdelete]
  selects query select contents _ hselect := by
    refine ⟨(select.answer contents).reverse, contents, ?_, rfl, List.reverse_perm _⟩
    rw [ofTables]
    simp only [hselect]

/-! ### Texts are read as they are meant -/

theorem Condition.columns_search (condition : Condition) :
    condition.search.columns = condition.columns := by
  induction condition with
  | equals column value => rfl
  | above column value => rfl
  | both first second ihFirst ihSecond =>
    rw [columns, ← ihFirst, ← ihSecond]
    exact List.flatMap_append
  | tupleAbove columns =>
    rw [search, Search.columns, List.flatMap_singleton, List.flatMap_map]
    exact (List.map_eq_flatMap ..).symm

section Texts

variable {table : TableSchema} {condition : Condition} {query : Query} {tokens : List Token}
  {select : Select}

theorem Statement.lexes_deleteWhere (hname : isName table.name = true)
    (h : condition.isReadable = true) :
    Lexes (deleteWhere table.name condition).text.toList
      (.word "delete" :: .word "from" :: .word table.name :: .word "where" ::
        condition.tokens) := by
  have hdelete : Lexes "DELETE FROM ".toList [.word "delete", .word "from"] := by decide
  have hwhere : Lexes " WHERE ".toList [.word "where"] := by decide
  have hall := (hdelete.after (.name hname) (by decide)).around hwhere (Condition.lexes_text h)
    (by decide)
  have htext : (deleteWhere table.name condition).text =
      "DELETE FROM " ++ table.name ++ " WHERE " ++ condition.text := rfl
  simpa [htext, String.toList_append] using hall

/-- A delete is read as one of the rows that its condition stands for. -/
theorem Statement.ofText?_deleteWhere (hname : isName table.name = true)
    (h : condition.isReadable = true)
    (htable : table? table.name condition.columns = some table) :
    Delete.ofText? (deleteWhere table.name condition).text = some ⟨table, condition.search⟩ := by
  rw [Delete.ofText?, lexes_deleteWhere hname h, Option.bind_some]
  simp [Delete.ofTokens?, from?, List.dropPrefix?, Condition.search?_tokens h,
    Condition.columns_search, htable]

/-- A query is read as it is without what stands around it. -/
theorem Query.ofText?_aggregated (h : Lexes query.text.toList tokens) :
    Select.ofText? query.aggregated.text = Select.ofTokens? tokens := by
  have hprefix (rest : List Char) :
      ("WITH result AS (".toList ++ rest).dropPrefix? "WITH result AS (".toList = some rest :=
    List.dropPrefix?_append_of_beq rest rfl
  have hsuffix (inner : List Char) :
      (inner ++ ") SELECT COALESCE(json_agg(result), '[]'::json) FROM result".toList).dropSuffix?
        ") SELECT COALESCE(json_agg(result), '[]'::json) FROM result".toList = some inner :=
    List.dropSuffix?_eq_some_iff.2 ⟨_, rfl, beq_self_eq_true _⟩
  -- What stands around a query has marks that are no tokens, so it is taken off as characters.
  have htext : query.aggregated.text =
      "WITH result AS (" ++ query.text
        ++ ") SELECT COALESCE(json_agg(result), '[]'::json) FROM result" := rfl
  rw [Select.ofText?, htext, String.toList_append, String.toList_append, List.append_assoc,
    hprefix, Option.bind_eq_bind, Option.bind_some, hsuffix, Option.bind_eq_bind,
    Option.bind_some, h]
  rfl

theorem Query.ofText?_rows (hname : isName table.name = true) (h : condition.isReadable = true)
    (htable : table? table.name condition.columns = some table)
    (htext : query.text = "SELECT * FROM " ++ table.name ++ " WHERE " ++ condition.text) :
    Select.ofText? query.aggregated.text = some (.rows table condition.search) := by
  have hselect : Lexes "SELECT * FROM ".toList [.word "select", .mark '*', .word "from"] := by
    decide
  have hwhere : Lexes " WHERE ".toList [.word "where"] := by decide
  have hall := (hselect.after (.name hname) (by decide)).around hwhere (Condition.lexes_text h)
    (by decide)
  rw [← String.toList_append, ← String.toList_append, ← String.toList_append, ← htext] at hall
  rw [ofText?_aggregated hall]
  simp [Select.ofTokens?, Select.rows?, from?, List.dropPrefix?, Condition.search?_tokens h,
    Condition.columns_search, htable]

theorem Query.ofText?_minima {group column result : String} (hgroup : isName group = true)
    (hcolumn : isName column = true) (hresult : isName result = true)
    (hname : isName table.name = true) (h : condition.isReadable = true)
    (htable :
      table? table.name (group :: column :: condition.columns) = some table)
    (htext : query.text = "SELECT " ++ group ++ ", MIN(" ++ column ++ ") AS " ++ result ++ " FROM "
      ++ table.name ++ " WHERE " ++ condition.text ++ " GROUP BY " ++ group) :
    Select.ofText? query.aggregated.text =
      some (.minima table condition.search group column result) := by
  have hselect : Lexes "SELECT ".toList [.word "select"] := by decide
  have hmin : Lexes ", MIN(".toList [.mark ',', .word "min", .mark '('] := by decide
  have has : Lexes ") AS ".toList [.mark ')', .word "as"] := by decide
  have hfrom : Lexes " FROM ".toList [.word "from"] := by decide
  have hwhere : Lexes " WHERE ".toList [.word "where"] := by decide
  have hby : Lexes " GROUP BY ".toList [.word "group", .word "by"] := by decide
  have hcolumns := ((hselect.after (.name hgroup) (by decide)).around hmin (.name hcolumn)
    (by decide)).around has (.name hresult) (by decide)
  have hall := ((hcolumns.around hfrom (.name hname) (by decide)).around hwhere
    (Condition.lexes_text h) (by decide)).around hby (.name hgroup) (by decide)
  simp only [← String.toList_append] at hall
  rw [← htext] at hall
  have hsuffix : (condition.tokens ++ [Token.word "group", .word "by", .word group]).dropSuffix?
      [.word "group", .word "by", .word group] = some condition.tokens :=
    List.dropSuffix?_eq_some_iff.2 ⟨_, rfl, beq_self_eq_true _⟩
  rw [ofText?_aggregated hall]
  simp [Select.ofTokens?, Select.minima?, from?, List.dropPrefix?, hsuffix,
    Condition.search?_tokens h, Condition.columns_search, htable]

end Texts

/-! ### Servers that run SQL -/

section RunsSql

variable {σ α β : Type} {server : Server σ} {tables : σ → Contents}

/-- Deletes of one condition, in turn. -/
theorem exists_executeAll_deletes (hserver : server.RunsSql tables) {condition : Condition}
    (h : condition.isReadable = true) {deleted : List TableSchema}
    (htables : ∀ table ∈ deleted, isName table.name = true ∧
      table? table.name condition.columns = some table) (state : σ) :
    ∃ after,
      executeAll server (deleted.map fun table => .deleteWhere table.name condition) state =
          (.ok (), after) ∧
        ∀ name, tables after name =
          if name ∈ deleted.map (·.name) then
            (tables state name).filter fun row => !condition.search.selects row
          else tables state name := by
  induction deleted generalizing state with
  | nil => exact ⟨state, rfl, fun name => by simp⟩
  | cons first rest ih =>
    obtain ⟨⟨hname, htable⟩, hrest⟩ := List.forall_mem_cons.1 htables
    obtain ⟨between, hfirst, hbetween⟩ := hserver.deletes _ _ state rfl
      (Statement.ofText?_deleteWhere hname h htable)
    obtain ⟨after, hexecute, hafter⟩ := ih hrest between
    refine ⟨after, (Call.bind_of_ok hfirst _).trans hexecute, fun name => ?_⟩
    rw [hafter, hbetween, Delete.run]
    by_cases hsame : name = first.name
    · subst hsame
      simp [List.filter_filter]
    · simp [hsame]

/-- What a query answers is read row by row, in the order in which the rows come. -/
theorem exists_load_eq (hserver : server.RunsSql tables) {query : Query} {select : Select}
    {state : σ} {items : List β} {send : β → Json} {read : Json → Option α} {value : β → α}
    (hparams : query.params = []) (hselect : Select.ofText? query.aggregated.text = some select)
    (hanswer : (select.answer (tables state)).Perm (items.map send))
    (hread : ∀ item ∈ items, read (send item) = some (value item)) :
    ∃ (sent : List β) (after : σ), load server query read state = (.ok (sent.map value), after) ∧
      tables after = tables state ∧ sent.Perm items := by
  obtain ⟨rows, after, hfetch, hafter, hrows⟩ := hserver.selects query.aggregated select state
    hparams hselect
  -- Rows in any order are those of the items in some order.
  have hcomp := congrFun (congrFun (List.eq_map_comp_perm send) rows) items
  obtain ⟨sent, rfl, hsent⟩ := hcomp.mpr (hrows.trans hanswer)
  have hmapM : (sent.map send).mapM read = some (sent.map value) := by
    rw [List.mapM_map]
    exact mapM_eq_pure_map fun item hitem => hread item (hsent.subset hitem)
  have hreadRows : readRows read (.arr (sent.map send)) = .ok (sent.map value) := by
    rw [readRows]
    simp only [hmapM]
  have hon : onServer (server.fetch query.aggregated) state =
      (.ok (some (.arr (sent.map send))), after) := by
    rw [onServer, hfetch]
  refine ⟨sent, after, ?_, hafter, hsent⟩
  rw [load, Call.bind_of_ok hon]
  exact congrArg (·, after) hreadRows

end RunsSql

/-! ### Lowest numbers -/

/-- Whether a pair has the lowest number of all pairs with its key. -/
def IsLowest (pairs : List (Nat × Nat)) (pair : Nat × Nat) : Prop :=
  pair ∈ pairs ∧ ∀ other ∈ pairs, other.1 = pair.1 → pair.2 ≤ other.2

/-- A pair of numbers in two columns. -/
def bigints (pair : Nat × Nat) : Value × Value := (.bigint pair.1, .bigint pair.2)

theorem least_bigints {values : List Nat} {lowest : Nat} (hmem : lowest ∈ values)
    (hle : ∀ value ∈ values, lowest ≤ value) :
    least (values.map fun value : Nat => .bigint value) = .bigint lowest := by
  have hnumbers : (values.map fun value : Nat => Value.bigint value).filterMap Value.bigint? =
      values.map Int.ofNat := by
    rw [List.filterMap_map]
    exact congrFun (List.filterMap_eq_map (f := Int.ofNat)) values
  have hmin : (values.map Int.ofNat).min? = some (Int.ofNat lowest) := by
    rw [List.min?_eq_some_iff]
    refine ⟨List.mem_map_of_mem hmem, fun other hother => ?_⟩
    obtain ⟨value, hvalue, rfl⟩ := List.mem_map.1 hother
    exact Int.ofNat_le.2 (hle value hvalue)
  rw [least, hnumbers, hmin]
  rfl

theorem exists_isLowest {numbers : List (Nat × Nat)} {key : Nat}
    (h : key ∈ numbers.map (·.1)) : ∃ lowest, IsLowest numbers (key, lowest) := by
  obtain ⟨first, hfirst, rfl⟩ := List.mem_map.1 h
  have hne : ((numbers.filter (·.1 = first.1)).map (·.2)) ≠ [] :=
    List.ne_nil_of_mem (List.mem_map_of_mem (List.mem_filter.2 ⟨hfirst, decide_eq_true rfl⟩))
  obtain ⟨lowest, hlowest⟩ := Option.isSome_iff_exists.1 (List.isSome_min?_iff.2 hne)
  obtain ⟨hmem, hle⟩ := List.min?_eq_some_iff.1 hlowest
  obtain ⟨⟨key, number⟩, hpair, rfl⟩ := List.mem_map.1 hmem
  obtain ⟨hpair, hkey⟩ := List.mem_filter.1 hpair
  obtain rfl : key = first.1 := of_decide_eq_true hkey
  exact ⟨number, hpair, fun other hother hsame =>
    hle _ (List.mem_map_of_mem (List.mem_filter.2 ⟨hother, decide_eq_true hsame⟩))⟩

theorem IsLowest.unique {numbers : List (Nat × Nat)} {key a b : Nat}
    (ha : IsLowest numbers (key, a)) (hb : IsLowest numbers (key, b)) : a = b :=
  Nat.le_antisymm (ha.2 _ hb.1 rfl) (hb.2 _ ha.1 rfl)

theorem minima_bigints {numbers : List (Nat × Nat)} {lowest : Nat → Nat}
    (h : ∀ key ∈ numbers.map (·.1), IsLowest numbers (key, lowest key)) :
    minima (numbers.map bigints) =
      (numbers.map (·.1)).dedup.map fun key => bigints (key, lowest key) := by
  have hkeys : (numbers.map bigints).map (·.1) =
      (numbers.map (·.1)).map fun key : Nat => Value.bigint key := by
    rw [List.map_map, List.map_map]
    rfl
  have hinjective : Function.Injective fun key : Nat => Value.bigint key := fun a b hab =>
    Int.ofNat.inj (Value.bigint.inj hab)
  rw [minima, hkeys, List.dedup_map_of_injective hinjective, List.map_map]
  refine List.map_congr_left fun key hkey => ?_
  obtain ⟨hmem, hle⟩ := h key (List.mem_dedup.1 hkey)
  have hgroup : ((numbers.map bigints).filter fun pair => pair.1 = .bigint key).map (·.2) =
      ((numbers.filter (·.1 = key)).map (·.2)).map fun number : Nat => Value.bigint number := by
    rw [List.filter_map, List.map_map, List.map_map]
    refine congrArg (List.map _) (List.filter_congr fun pair _ => ?_)
    exact decide_eq_decide.2 hinjective.eq_iff
  refine Prod.ext rfl ?_
  rw [Function.comp_apply, hgroup]
  refine least_bigints
    (List.mem_map_of_mem (List.mem_filter.2 ⟨hmem, decide_eq_true rfl⟩)) fun number hnumber => ?_
  obtain ⟨pair, hpair, rfl⟩ := List.mem_map.1 hnumber
  obtain ⟨hpair, hsame⟩ := List.mem_filter.1 hpair
  exact hle pair hpair (of_decide_eq_true hsame)

/-- What is found for groups of numbers is a pair for each key, with its lowest number. -/
theorem exists_minima_eq {pairs : List (Value × Value)} {numbers : List (Nat × Nat)}
    (h : pairs.Perm (numbers.map bigints)) :
    ∃ found : List (Nat × Nat), minima pairs = found.map bigints ∧ (found.map (·.1)).Nodup ∧
      ∀ pair, pair ∈ found ↔ IsLowest numbers pair := by
  have hcomp := congrFun (congrFun (List.eq_map_comp_perm bigints) pairs) numbers
  obtain ⟨sent, rfl, hsent⟩ := hcomp.mpr h
  have hexists : ∀ key ∈ sent.map (·.1), ∃ lowest, IsLowest sent (key, lowest) :=
    fun key => exists_isLowest
  choose! lowest hlowest using hexists
  refine ⟨(sent.map (·.1)).dedup.map fun key => (key, lowest key), ?_, ?_, fun pair => ?_⟩
  · rw [minima_bigints hlowest, List.map_map]
    rfl
  · rw [List.map_map]
    exact (List.map_id' _).symm ▸ List.nodup_dedup _
  · have hperm : IsLowest numbers pair ↔ IsLowest sent pair := by
      simp only [IsLowest, hsent.mem_iff]
    rw [hperm, List.mem_map]
    constructor
    · rintro ⟨key, hkey, rfl⟩
      exact hlowest key (List.mem_dedup.1 hkey)
    · intro hpair
      have hkey := List.mem_map_of_mem (f := (·.1)) hpair.1
      exact ⟨pair.1, List.mem_dedup.2 hkey, Prod.ext rfl ((hlowest _ hkey).unique hpair)⟩

end ChainIndexer.Postgres
