import ChainIndexer.Postgres.Repo
import ChainIndexer.Proofs.Resets

/-!
# Resets on a server

A store that a server keeps can be reset if the server does what a database does: a statement
writes to the table that it names, and a transaction takes effect as a whole or not at all. What
fails may have taken effect even so, as an answer can get lost.
-/

namespace ChainIndexer.Postgres

variable {σ ρ : Type}

/-! ### Sessions -/

/-- What a client sees of a database: the rows of each table, none where the table is missing, and
the rows to go back to while a transaction is open. -/
structure Session (ρ : Type) where
  rows : String → List ρ
  saved : Option (String → List ρ)

namespace Session

variable {table : String} {kept : List ρ} {before after : Session ρ}

/-- Whether no transaction is open. -/
def Idle (session : Session ρ) : Prop := session.saved = none

/-- Whether one table at most has other rows than before. -/
structure WritesTo (table : String) (before after : Session ρ) : Prop where
  saved : after.saved = before.saved
  others : ∀ other, other ≠ table → after.rows other = before.rows other

/-- Whether no transaction is open any more. If one was, all that it wrote stays, or nothing. -/
structure Ends (before after : Session ρ) : Prop where
  idle : after.Idle
  rows : after.rows = before.rows ∨ before.saved = some after.rows

/-- Whether a table has some rows, and will have if a rollback comes. -/
def Holds (table : String) (kept : List ρ) (session : Session ρ) : Prop :=
  session.rows table = kept ∧ ∀ saved, session.saved = some saved → saved table = kept

theorem Holds.writesTo (h : before.Holds table kept) {written : String}
    (hwrites : WritesTo written before after) (hother : table ≠ written) :
    after.Holds table kept :=
  ⟨(hwrites.others table hother).trans h.1, fun saved hsaved =>
    h.2 saved (hwrites.saved.symm.trans hsaved)⟩

theorem Holds.ends (h : before.Holds table kept) (hends : before.Ends after) :
    after.Idle ∧ after.rows table = kept := by
  refine ⟨hends.idle, ?_⟩
  rcases hends.rows with hrows | hsaved
  · exact hrows ▸ h.1
  · exact h.2 after.rows hsaved

end Session

/-- The table that a statement writes to, if the statement names one. -/
def Statement.target? : Statement → Option String
  | startTransaction | commit | rollback | script _ => none
  | insert rows => some rows.table
  | deleteWhere table _ => some table
  | deleteEntities _ _ => some entitiesTable.name
  | deleteBlocksAbove _ _ => some blocksTable.name
  | deleteBelow table _ _ => some table
  | deleteSuperseded _ _ => some historyTable.name

/-- How many resets are counted. -/
def Session.resets (session : Session ρ) : Nat := (session.rows resetCountsTable.name).length

/-- The rows of all tables that a reset drops. -/
def Session.data (session : Session ρ) : List (List ρ) :=
  dataTables.map fun table => session.rows table.name

/-- The script that counts a reset. -/
def countScript : String := "INSERT INTO " ++ resetCountsTable.name ++ " DEFAULT VALUES"

/-- What indexing and resets rely on of a server. Scripts and queries come outside transactions. -/
structure Server.Serves (server : Server σ) (session : σ → Session ρ) : Prop where
  begins : ∀ state result after, (session state).Idle →
    server.execute .startTransaction state = (result, after) →
    (session after).rows = (session state).rows ∧
      ((session after).saved = none ∨ (session after).saved = some (session state).rows)
  commits : ∀ state result after, server.execute .commit state = (result, after) →
    (session state).Ends (session after)
  /-- A connection that is gone has no transaction open either. -/
  rollsBack : ∀ state result after, server.execute .rollback state = (result, after) →
    (session state).Ends (session after)
  writes : ∀ statement table state result after, statement.target? = some table →
    server.execute statement state = (result, after) →
    Session.WritesTo table (session state) (session after) ∨ (session state).Ends (session after)
  creates : ∀ script ∈ migrations, ∀ state result after, (session state).Idle →
    server.execute (.script script) state = (result, after) → session after = session state
  drops : ∀ table ∈ dataTables, ∀ state result after, (session state).Idle →
    server.execute (.script table.drop) state = (result, after) →
    Session.WritesTo table.name (session state) (session after) ∧
      ((session after).rows table.name = [] ∨
        result ≠ .ok () ∧ (session after).rows table.name = (session state).rows table.name)
  counts : ∀ state result after, (session state).Idle →
    server.execute (.script countScript) state = (result, after) →
    Session.WritesTo resetCountsTable.name (session state) (session after) ∧
      ((∃ row, (session after).rows resetCountsTable.name =
          (session state).rows resetCountsTable.name ++ [row]) ∨
        result ≠ .ok () ∧ (session after).rows resetCountsTable.name =
          (session state).rows resetCountsTable.name)
  fetches : ∀ query state result after, (session state).Idle →
    server.fetch query state = (result, after) → session after = session state
  /-- The count is a signed number of 64 bits. -/
  counted : ∀ state answer after, (session state).Idle →
    server.fetch Query.resetCount state = (.ok answer, after) →
    (session state).resets < Word.half ∧ answer = some (.int (session state).resets)

/-! ### What statements leave alone -/

section Calls

variable {τ α : Type} {server : Server σ} {ready made : σ → Prop} {see : σ → τ}
  {statement : Statement} {statements : List Statement}

/-- Whether a state is ready can depend on what is seen of it. -/
theorem keeps_of_eq {ε : Type} {call : Call σ ε α} {ready : τ → Prop}
    (h : ∀ state result after, ready (see state) → call state = (result, after) →
      see after = see state) :
    call.Keeps (fun state => ready (see state)) see := by
  intro state result after hready hrun
  have hsame := h state result after hready hrun
  exact ⟨(congrArg ready hsame).mpr hready, hsame⟩

theorem keeps_onServer {call : Call σ ServerError α} (h : call.Keeps ready see) :
    (onServer call).Keeps ready see := by
  intro state result after hready hrun
  rw [onServer] at hrun
  split at hrun
  next hcall =>
    cases hrun
    exact h _ _ _ hready hcall
  next hcall =>
    cases hrun
    exact h _ _ _ hready hcall

/-- The answer to a script that is run alone tells whether the script failed. -/
theorem execute_of_runScripts {script : String} {state after : σ} {result : Except RepoError Unit}
    (h : runScripts server [script] state = (result, after)) :
    ∃ answer, server.execute (.script script) state = (answer, after) ∧
      (result = .ok () → answer = .ok ()) := by
  rw [runScripts, onServer, List.map_singleton, executeAll, Call.bind_apply] at h
  cases hexecute : server.execute (.script script) state with
  | mk answer reached =>
    rw [hexecute] at h
    cases answer with
    | ok value =>
      cases h
      exact ⟨_, rfl, fun _ => rfl⟩
    | error error =>
      cases h
      exact ⟨_, rfl, fun hok => nomatch hok⟩

theorem ok_of_onServer {call : Call σ ServerError α} {state after : σ} {value : α}
    (h : onServer call state = (.ok value, after)) : call state = (.ok value, after) := by
  rw [onServer] at h
  split at h
  next hcall =>
    cases h
    exact hcall
  next => cases h

theorem keeps_executeAll
    (h : ∀ statement ∈ statements, (server.execute statement).Keeps ready see) :
    (executeAll server statements).Keeps ready see := by
  induction statements with
  | nil => exact .pure ()
  | cons first rest ih =>
    have hrest := ih fun statement hmem => h statement (List.mem_cons_of_mem _ hmem)
    exact (h first List.mem_cons_self).bind fun _ => hrest

/-- What a statement brings about holds in the end, if no statement undoes it. -/
theorem made_of_executeAll (hmem : statement ∈ statements)
    (hready : ∀ statement ∈ statements, (server.execute statement).Keeps ready fun _ => ())
    (hkeeps : ∀ statement ∈ statements, (server.execute statement).Keeps made fun _ => ())
    (hmakes : ∀ state after, ready state → server.execute statement state = (.ok (), after) →
      made after)
    {state after : σ} (hstart : ready state)
    (hrun : executeAll server statements state = (.ok (), after)) : made after := by
  induction statements generalizing state with
  | nil => cases hmem
  | cons first rest ih =>
    obtain ⟨_, between, hfirst, hrest⟩ := Call.bind_eq_ok hrun
    have hrestKeeps := fun statement hmem => hkeeps statement (List.mem_cons_of_mem first hmem)
    rcases List.mem_cons.1 hmem with rfl | hmem
    · exact (keeps_executeAll hrestKeeps _ _ _ (hmakes _ _ hstart hfirst) hrest).1
    · have hbetween := (hready first List.mem_cons_self _ _ _ hstart hfirst).1
      exact ih hmem (fun statement hmem => hready statement (List.mem_cons_of_mem first hmem))
        hrestKeeps hbetween hrest

theorem keeps_load {query : Query} {read : Json → Option α}
    (h : (server.fetch query.aggregated).Keeps ready see) :
    (load server query read).Keeps ready see := by
  refine (keeps_onServer h).bind fun answer => ?_
  cases answer with
  | none => exact .pure []
  | some answer =>
    intro state result after hready hrun
    cases hrun
    exact ⟨hready, rfl⟩

theorem keeps_loadRecords {query : Query}
    (h : (server.fetch query.aggregated).Keeps ready see) :
    (loadRecords server query).Keeps ready see :=
  (keeps_load h).bind fun rows state result after hready hrun => by
    cases hrun
    exact ⟨hready, rfl⟩

end Calls

namespace Server.Serves

variable {server : Server σ} {session : σ → Session ρ} {table : String} {kept : List ρ}
  {statement : Statement} {statements : List Statement}

theorem holds_of_begin (h : server.Serves session) (table : String) {state after : σ}
    {result : Except ServerError Unit} (hidle : (session state).Idle)
    (hbegin : server.execute .startTransaction state = (result, after)) :
    (session after).Holds table ((session state).rows table) := by
  obtain ⟨hrows, hsaved⟩ := h.begins state result after hidle hbegin
  refine ⟨congrFun hrows table, fun saved hsome => ?_⟩
  rcases hsaved with hnone | hsame
  · exact nomatch hnone.symm.trans hsome
  · rw [Option.some.inj (hsome.symm.trans hsame)]

/-- A statement that writes to another table leaves the rows alone, also those to go back to. -/
theorem keeps_holds (h : server.Serves session)
    (hother : ∃ written, statement.target? = some written ∧ table ≠ written) :
    (server.execute statement).Keeps (fun state => (session state).Holds table kept)
      fun _ => () := by
  -- A connection that breaks may end the transaction here: then the saved rows are there again.
  intro before result after hholds hexecute
  obtain ⟨written, htarget, hne⟩ := hother
  refine ⟨?_, rfl⟩
  rcases h.writes statement written before result after htarget hexecute with hwrites | hends
  · exact hholds.writesTo hwrites hne
  · obtain ⟨hended, hrows⟩ := hholds.ends hends
    exact ⟨hrows, fun saved hsome => nomatch hended.symm.trans hsome⟩

theorem holds_of_executeAll (h : server.Serves session)
    (hothers : ∀ statement ∈ statements, ∃ written, statement.target? = some written ∧
      table ≠ written)
    {state after : σ} {result : Except ServerError Unit} (hidle : (session state).Idle)
    (hexecute : executeAll server (.startTransaction :: statements) state = (result, after)) :
    (session after).Holds table ((session state).rows table) := by
  rw [executeAll, Call.bind_apply] at hexecute
  cases hbegin : server.execute .startTransaction state with
  | mk first begun =>
    have hbegun := h.holds_of_begin table hidle hbegin
    rw [hbegin] at hexecute
    cases first with
    | ok value =>
      have hkeeps : ∀ statement ∈ statements, (server.execute statement).Keeps
          (fun reached => (session reached).Holds table ((session state).rows table))
          fun _ => () := fun statement hmem => h.keeps_holds (hothers statement hmem)
      exact (keeps_executeAll hkeeps begun result after hbegun hexecute).1
    | error error =>
      cases hexecute
      exact hbegun

/-- A transaction leaves the tables alone that its statements do not write to. -/
theorem keeps_transaction (h : server.Serves session)
    (hothers : ∀ statement ∈ statements, ∃ written, statement.target? = some written ∧
      table ≠ written) :
    (transaction server statements).Keeps (fun state => (session state).Idle)
      fun state => (session state).rows table := by
  intro state result after hidle hrun
  rw [transaction] at hrun
  split at hrun
  next reached hexecute =>
    have hholds := h.holds_of_executeAll hothers hidle hexecute
    exact hholds.ends (h.commits reached result after hrun)
  next error reached hexecute =>
    cases hrun
    have hholds := h.holds_of_executeAll hothers hidle hexecute
    exact hholds.ends (h.rollsBack reached _ _ rfl)

end Server.Serves

/-! ### Statements of a run -/

/-- Whether a statement writes to a table that a reset drops. -/
def Statement.WritesData (statement : Statement) : Prop :=
  ∃ table ∈ dataTables, statement.target? = some table.name

theorem name_ne_resetCounts {table : TableSchema} (h : table ∈ dataTables) :
    resetCountsTable.name ≠ table.name := by
  revert table
  decide

theorem writesData_of_mem_insertAll {table : TableSchema} (h : table ∈ dataTables)
    {rows : List Row} {onConflict : OnConflict} {statement : Statement}
    (hmem : statement ∈ insertAll table rows onConflict) : statement.WritesData := by
  obtain ⟨piece, -, rfl⟩ := List.mem_map.1 hmem
  exact ⟨table, h, rfl⟩

theorem writesData_of_mem_insertEach {table : TableSchema} (h : table ∈ dataTables)
    {rows : List Row} {onConflict : OnConflict} {statement : Statement}
    (hmem : statement ∈ insertEach table rows onConflict) : statement.WritesData := by
  obtain ⟨row, -, rfl⟩ := List.mem_map.1 hmem
  exact ⟨table, h, rfl⟩

theorem writesData_of_mem_entityStatements {changes : List EntityChange} {statement : Statement}
    (hmem : statement ∈ entityStatements changes) : statement.WritesData := by
  rcases List.mem_append.1 hmem with hset | hdelete
  · exact writesData_of_mem_insertAll (by simp [dataTables]) hset
  · obtain ⟨deleted, -, rfl⟩ := List.mem_map.1 hdelete
    exact ⟨entitiesTable, by simp [dataTables], rfl⟩

theorem writesData_of_mem_checkpointStatements {checkpoints : List Checkpoint}
    {statement : Statement} (hmem : statement ∈ checkpointStatements checkpoints) :
    statement.WritesData :=
  writesData_of_mem_insertEach (by simp [dataTables]) hmem

theorem writesData_of_mem_commitStatements {unit : WriteUnit} {statement : Statement}
    (hmem : statement ∈ commitStatements unit) : statement.WritesData := by
  simp only [commitStatements, List.mem_append, or_assoc] at hmem
  rcases hmem with hmem | hmem | hmem | hmem | hmem | hmem
  · exact writesData_of_mem_insertAll (by simp [dataTables]) hmem
  · exact writesData_of_mem_entityStatements hmem
  · exact writesData_of_mem_insertEach (by simp [dataTables]) hmem
  · exact writesData_of_mem_insertEach (by simp [dataTables]) hmem
  · exact writesData_of_mem_checkpointStatements hmem
  · exact writesData_of_mem_insertEach (by simp [dataTables]) hmem

theorem writesData_of_mem_rollbackStatements {plan : RollbackPlan} {statement : Statement}
    (hmem : statement ∈ rollbackStatements plan) : statement.WritesData := by
  simp only [rollbackStatements, List.mem_append, or_assoc] at hmem
  rcases hmem with hscope | hmem | hmem | hrewind
  · obtain ⟨table, htable, rfl⟩ := List.mem_map.1 hscope
    refine ⟨table, ?_, rfl⟩
    revert table
    simp [dataTables]
  · exact writesData_of_mem_entityStatements hmem
  · exact writesData_of_mem_checkpointStatements hmem
  · obtain ⟨rewind, -, rfl⟩ := List.mem_map.1 hrewind
    exact ⟨blocksTable, by simp [dataTables], rfl⟩

theorem writesData_of_mem_pruneStatements {chain minBlock : Nat} {statement : Statement}
    (hmem : statement ∈ pruneStatements chain minBlock) : statement.WritesData := by
  simp only [pruneStatements, List.mem_cons, List.not_mem_nil, or_false] at hmem
  rcases hmem with rfl | rfl | rfl
  · exact ⟨rawEventsTable, by simp [dataTables], rfl⟩
  · exact ⟨blocksTable, by simp [dataTables], rfl⟩
  · exact ⟨historyTable, by simp [dataTables], rfl⟩

/-! ### Resets -/

namespace Server.Serves

variable {server : Server σ} {session : σ → Session ρ} {statement : Statement}

theorem keeps_fetch (h : server.Serves session) (query : Query) :
    (server.fetch query).Keeps (fun state => (session state).Idle) session :=
  keeps_of_eq (h.fetches query)

theorem keeps_create (h : server.Serves session) {script : String} (hmem : script ∈ migrations) :
    (server.execute (.script script)).Keeps (fun state => (session state).Idle) session :=
  keeps_of_eq (h.creates script hmem)

/-- The statements of a reset leave a table alone that is not dropped, and a dropped table empty. -/
theorem keeps_reset (h : server.Serves session) (rows : String → List ρ → Prop)
    (hempty : ∀ table ∈ dataTables, rows table.name [])
    (hmem : statement ∈ (resetMigrations ++ migrations).map .script) :
    (server.execute statement).Keeps
      (fun state => (session state).Idle ∧ ∀ table, rows table ((session state).rows table))
      fun _ => () := by
  intro state result after hready hrun
  refine ⟨?_, rfl⟩
  obtain ⟨script, hscript, rfl⟩ := List.mem_map.1 hmem
  rcases List.mem_append.1 hscript with hdrop | hcreate
  · obtain ⟨table, htable, rfl⟩ := List.mem_map.1 hdrop
    obtain ⟨hwrites, hrows⟩ := h.drops table htable state result after hready.1 hrun
    refine ⟨hwrites.saved.trans hready.1, fun other => ?_⟩
    by_cases hother : other = table.name
    · subst hother
      rcases hrows with hdropped | ⟨-, hsame⟩
      · exact hdropped ▸ hempty table htable
      · exact hsame ▸ hready.2 table.name
    · exact hwrites.others other hother ▸ hready.2 other
  · have hsame := h.creates script hcreate state result after hready.1 hrun
    exact hsame ▸ hready

/-- A reset leaves the count of resets alone, also if it stops on the way. -/
theorem keeps_resetMigrations (h : server.Serves session) :
    (runScripts server (resetMigrations ++ migrations)).Keeps (fun state => (session state).Idle)
      fun state => (session state).rows resetCountsTable.name := by
  refine keeps_onServer fun state result after hidle hrun => ?_
  let counted (table : String) (rows : List ρ) : Prop :=
    table = resetCountsTable.name → rows = (session state).rows resetCountsTable.name
  have hstart : (session state).Idle ∧ ∀ table, counted table ((session state).rows table) :=
    ⟨hidle, fun table hsame => congrArg _ hsame⟩
  have hkeeps := keeps_executeAll fun statement hmem => h.keeps_reset counted
    (fun table htable hsame => absurd hsame.symm (name_ne_resetCounts htable)) hmem
  obtain ⟨⟨hafter, hrows⟩, -⟩ := hkeeps state result after hstart hrun
  exact ⟨hafter, hrows _ rfl⟩

/-- After a reset the tables are empty. -/
theorem rows_of_reset (h : server.Serves session) {state after : σ} (hidle : (session state).Idle)
    (hrun : runScripts server (resetMigrations ++ migrations) state = (.ok (), after)) :
    (session after).data = dataTables.map fun _ => [] := by
  refine List.map_congr_left fun table htable => ?_
  have hexecute : executeAll server ((resetMigrations ++ migrations).map .script) state =
      (.ok (), after) := ok_of_onServer hrun
  let emptied (other : String) (rows : List ρ) : Prop := other = table.name → rows = []
  have hmem : .script table.drop ∈ (resetMigrations ++ migrations).map Statement.script :=
    List.mem_map_of_mem (List.mem_append_left _ (List.mem_map_of_mem htable))
  have hmade := made_of_executeAll hmem
    (fun statement hmem => h.keeps_reset (fun _ _ => True) (fun _ _ => trivial) hmem)
    (fun statement hmem => h.keeps_reset emptied (fun _ _ _ => rfl) hmem)
    (fun before dropped hready hdrop => ?_) ⟨hidle, fun _ => trivial⟩ hexecute
  · exact hmade.2 _ rfl
  · obtain ⟨hwrites, hrows⟩ := h.drops table htable before _ dropped hready.1 hdrop
    refine ⟨hwrites.saved.trans hready.1, fun other hsame => ?_⟩
    subst hsame
    exact hrows.resolve_right fun hfailed => hfailed.1 rfl

theorem keeps_resetCount (h : server.Serves session) :
    (Repo.onServer server).resetCount.Keeps (fun state => (session state).Idle) session := by
  refine (keeps_onServer (h.keeps_fetch Query.resetCount)).bind fun answer => ?_
  split
  · exact .pure _
  · intro state result after hready hrun
    cases hrun
    exact ⟨hready, rfl⟩

theorem resetCount_eq (h : server.Serves session) {state after : σ} {made : Nat}
    (hidle : (session state).Idle)
    (hrun : (Repo.onServer server).resetCount state = (.ok made, after)) :
    made = (session state).resets := by
  obtain ⟨answer, between, hfetch, hrest⟩ := Call.bind_eq_ok hrun
  obtain ⟨hlt, rfl⟩ := h.counted state answer between hidle (ok_of_onServer hfetch)
  generalize (session state).resets = counted at hlt hrest ⊢
  have hsigned : Json.asSigned? (.int counted) = some (counted : Int) := by
    have hlow : -(Word.half : Int) ≤ counted := by omega
    rw [Json.asSigned?, Json.asInt?, if_pos ⟨hlow, Int.ofNat_lt.2 hlt⟩]
  rw [Option.bind_some, hsigned] at hrest
  cases hrest
  have hword : counted < Word.count := Nat.lt_trans hlt (by decide)
  rw [Word.ofSigned, Int.emod_eq_of_lt (Int.natCast_nonneg _) (Int.ofNat_lt.2 hword),
    Int.toNat_natCast]

/-- To count a reset leaves all other tables alone. A count that fails may have been made. -/
theorem rows_of_countReset (h : server.Serves session) {state after : σ}
    {result : Except RepoError Unit} (hidle : (session state).Idle)
    (hrun : (Repo.onServer server).countReset state = (result, after)) :
    Session.WritesTo resetCountsTable.name (session state) (session after) ∧
      ((∃ row, (session after).rows resetCountsTable.name =
          (session state).rows resetCountsTable.name ++ [row]) ∨
        result ≠ .ok () ∧ (session after).rows resetCountsTable.name =
          (session state).rows resetCountsTable.name) := by
  obtain ⟨answer, hexecute, hanswer⟩ := execute_of_runScripts hrun
  obtain ⟨hwrites, hcounted⟩ := h.counts state answer after hidle hexecute
  refine ⟨hwrites, hcounted.imp_right fun ⟨hfailed, hsame⟩ => ?_⟩
  exact ⟨fun hok => hfailed (hanswer hok), hsame⟩

theorem keeps_count (h : server.Serves session) {statements : List Statement}
    (hdata : ∀ statement ∈ statements, statement.WritesData) :
    (onServer (transaction server statements)).Keeps (fun state => (session state).Idle)
      fun state => (session state).resets := by
  refine (keeps_onServer (h.keeps_transaction fun statement hmem => ?_)).map List.length
  obtain ⟨table, htable, htarget⟩ := hdata statement hmem
  exact ⟨table.name, htarget, name_ne_resetCounts htable⟩

/-- A store that a server keeps can be reset. -/
theorem resettable (h : server.Serves session) :
    (Repo.onServer server).Resettable (fun state => (session state).Idle)
      (fun state => (session state).resets) (fun state => (session state).data)
      (dataTables.map fun _ => []) where
  migrate := keeps_onServer (keeps_executeAll fun statement hmem => by
    obtain ⟨script, hscript, rfl⟩ := List.mem_map.1 hmem
    exact (h.keeps_create hscript).map fun session => (session.resets, session.data))
  reset := h.keeps_resetMigrations.map List.length
  wipes := fun state after => h.rows_of_reset
  resetCount := h.keeps_resetCount.map fun session => (session.resets, session.data)
  answers := fun state made after => h.resetCount_eq
  countReset := fun state result after hidle hrun => by
    obtain ⟨hwrites, -⟩ := h.rows_of_countReset hidle hrun
    refine ⟨hwrites.saved.trans hidle, List.map_congr_left fun table htable => ?_⟩
    exact hwrites.others table.name (name_ne_resetCounts htable).symm
  counts := fun state after hidle hrun => by
    obtain ⟨-, ⟨row, hcounted⟩ | ⟨hfailed, -⟩⟩ := h.rows_of_countReset hidle hrun
    · rw [Session.resets, hcounted, List.length_append, List.length_singleton, Session.resets]
    · exact absurd rfl hfailed
  countsOnce := fun state error after hidle hrun => by
    obtain ⟨-, ⟨row, hcounted⟩ | ⟨-, hsame⟩⟩ := h.rows_of_countReset hidle hrun
    · refine .inr ?_
      rw [Session.resets, hcounted, List.length_append, List.length_singleton, Session.resets]
    · exact .inl (congrArg List.length hsame)
  checkpoints := (keeps_load (h.keeps_fetch _)).map Session.data
  registrations := (keeps_load (h.keeps_fetch _)).map Session.data
  uses := fun huse => by
    cases huse with
    | commit unit => exact h.keeps_count fun _ => writesData_of_mem_commitStatements
    | entity key =>
      exact ((keeps_load (h.keeps_fetch _)).bind fun _ => .pure _).map Session.resets
    | checkpoints => exact (keeps_load (h.keeps_fetch _)).map Session.resets
    | registrations => exact (keeps_load (h.keeps_fetch _)).map Session.resets
    | recentBlocks chain limit =>
      exact ((keeps_load (h.keeps_fetch _)).bind fun _ => .pure _).map Session.resets
    | latestOrigins keys =>
      exact ((keeps_load (h.keeps_fetch _)).bind fun _ => .pure _).map Session.resets
    | historyIn scope => exact (keeps_loadRecords (h.keeps_fetch _)).map Session.resets
    | recordAt key origin =>
      exact ((keeps_loadRecords (h.keeps_fetch _)).bind fun _ => .pure _).map Session.resets
    | firstInvalidatedBlocks scope =>
      exact ((keeps_load (h.keeps_fetch _)).bind fun _ => .pure _).map Session.resets
    | applyRollback plan => exact h.keeps_count fun _ => writesData_of_mem_rollbackStatements
    | prune chain minBlock => exact h.keeps_count fun _ => writesData_of_mem_pruneStatements

end Server.Serves

/-! ### Samples -/

namespace Session

def setRows (session : Session ρ) (table : String) (rows : List ρ) : Session ρ :=
  { session with rows := fun other => if other = table then rows else session.rows other }

theorem writesTo_setRows (session : Session ρ) (table : String) (rows : List ρ) :
    WritesTo table session (session.setRows table rows) :=
  ⟨rfl, fun _ hother => if_neg hother⟩

theorem rows_setRows (session : Session ρ) (table : String) (rows : List ρ) :
    (session.setRows table rows).rows table = rows :=
  if_pos rfl

/-- What a statement does where only the number of rows counts, and none is found to delete. -/
def execute (session : Session Unit) : Statement → Session Unit
  | .startTransaction => { session with saved := some session.rows }
  | .commit => { session with saved := none }
  | .rollback => { rows := session.saved.getD session.rows, saved := none }
  | .insert rows =>
    session.setRows rows.table (session.rows rows.table ++ rows.rows.map fun _ => ())
  | .script text =>
    if text = countScript then
      session.setRows resetCountsTable.name (session.rows resetCountsTable.name ++ [()])
    else
      match dataTables.find? (·.drop = text) with
      | some table => session.setRows table.name []
      | none => session
  | _ => session

/-- A server that does so, and sends no rows. -/
def server : Server (Session Unit) where
  execute statement session := (.ok (), session.execute statement)
  fetch query session :=
    if query ≠ Query.resetCount then (.ok none, session)
    else if session.resets < Word.half then (.ok (some (.int session.resets)), session)
    else (.error .closed, session)

theorem execute_drop (session : Session Unit) {table : TableSchema} (h : table ∈ dataTables) :
    session.execute (.script table.drop) = session.setRows table.name [] := by
  have hfound : table.drop ≠ countScript ∧
      dataTables.find? (·.drop = table.drop) = some table := by
    revert table
    decide +kernel
  rw [execute, if_neg hfound.1, hfound.2]

theorem execute_create (session : Session Unit) {script : String} (h : script ∈ migrations) :
    session.execute (.script script) = session := by
  have hother : script ≠ countScript ∧ dataTables.find? (·.drop = script) = none := by
    revert script
    decide +kernel
  rw [execute, if_neg hother.1, hother.2]

theorem execute_writes (session : Session Unit) {statement : Statement} {table : String}
    (h : statement.target? = some table) : WritesTo table session (session.execute statement) := by
  cases statement with
  | insert rows =>
    cases h
    exact session.writesTo_setRows _ _
  | startTransaction | commit | rollback | script => cases h
  | deleteWhere | deleteEntities | deleteBlocksAbove | deleteBelow | deleteSuperseded =>
    exact ⟨rfl, fun _ _ => rfl⟩

theorem server_serves : server.Serves (fun session => session) where
  begins := fun state result after _ hrun => by
    cases hrun
    exact ⟨rfl, .inr rfl⟩
  commits := fun state result after hrun => by
    cases hrun
    exact ⟨rfl, .inl rfl⟩
  rollsBack := fun state result after hrun => by
    cases hrun
    refine ⟨rfl, ?_⟩
    cases hsaved : state.saved with
    | none => exact .inl (congrArg (·.getD state.rows) hsaved)
    | some rows => exact .inr (congrArg (fun saved => some (saved.getD state.rows)) hsaved.symm)
  writes := fun statement table state result after htarget hrun => by
    cases hrun
    exact .inl (state.execute_writes htarget)
  creates := fun script hscript state result after _ hrun => by
    cases hrun
    exact state.execute_create hscript
  drops := fun table htable state result after _ hrun => by
    cases hrun
    rw [execute_drop state htable]
    exact ⟨state.writesTo_setRows _ _, .inl (state.rows_setRows _ _)⟩
  counts := fun state result after _ hrun => by
    cases hrun
    exact ⟨state.writesTo_setRows _ _, .inl ⟨(), state.rows_setRows _ _⟩⟩
  fetches := fun query state result after _ hrun => by
    change ite _ _ _ = _ at hrun
    split at hrun
    · cases hrun
      rfl
    · split at hrun <;> cases hrun <;> rfl
  counted := fun state answer after _ hrun => by
    change ite _ _ _ = _ at hrun
    split at hrun
    next hlt =>
      cases hrun
      exact ⟨hlt, rfl⟩
    next => cases hrun

end Session

end ChainIndexer.Postgres
