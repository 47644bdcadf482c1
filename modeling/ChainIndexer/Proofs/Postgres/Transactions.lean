import ChainIndexer.Proofs.Postgres.Resets

/-!
# Writes are all or nothing

A commit, a rollback and pruning each run in one transaction, whatever the server turns down: what
is sent to the server starts a transaction, goes on with the statements of the write up to the first
that fails, and ends the transaction, with a commit exactly if none did.
-/

namespace ChainIndexer.Postgres

variable {σ : Type}

/-- A statement that a server was told to execute, and its answer. -/
structure Exchange where
  statement : Statement
  answer : Except ServerError Unit

/-- A statement that succeeded. -/
def Exchange.succeeded (statement : Statement) : Exchange := ⟨statement, .ok ()⟩

/-- Whether a statement failed with an error. A rollback only cleans up after one that did. -/
def FailedWith (exchanges : List Exchange) (error : ServerError) : Prop :=
  ∃ exchange ∈ exchanges, exchange.statement ≠ .rollback ∧ exchange.answer = .error error

/-- A server that notes what it is told to execute. -/
def Server.noting (server : Server σ) : Server (σ × List Exchange) where
  execute statement := fun (state, exchanges) =>
    let (answer, after) := server.execute statement state
    (answer, (after, exchanges ++ [⟨statement, answer⟩]))
  fetch query := fun (state, exchanges) =>
    let (answer, after) := server.fetch query state
    (answer, (after, exchanges))

/-- A write to a store that is a transaction on a server. -/
inductive Write where
  | commit (unit : WriteUnit)
  | rollback (plan : RollbackPlan)
  | prune (chain minBlock : Nat)

namespace Write

def statements : Write → List Statement
  | commit unit => commitStatements unit
  | rollback plan => rollbackStatements plan
  | prune chain minBlock => pruneStatements chain minBlock

def run (repo : Repo σ) : Write → Call σ RepoError Unit
  | commit unit => repo.commit unit
  | rollback plan => repo.applyRollback plan
  | prune chain minBlock => repo.prune chain minBlock

theorem run_onServer (server : Server σ) (write : Write) :
    write.run (Repo.onServer server) = onServer (transaction server write.statements) := by
  cases write <;> rfl

theorem isData_of_mem_statements {write : Write} {statement : Statement}
    (h : statement ∈ write.statements) : statement.isData = true := by
  have hwrites : statement.WritesData := by
    cases write with
    | commit unit => exact writesData_of_mem_commitStatements h
    | rollback plan => exact writesData_of_mem_rollbackStatements h
    | prune chain minBlock => exact writesData_of_mem_pruneStatements h
  obtain ⟨table, -, htarget⟩ := hwrites
  cases statement <;> first | rfl | cases htarget

end Write

/-! ### Transactions, exchange by exchange -/

section Transactions

variable (server : Server σ) (statements : List Statement)

/-- Either all statements succeed, or nothing comes after the first that fails. -/
theorem executeAll_noting_cases (state : σ) (exchanges : List Exchange) :
    (∃ after, executeAll server statements state = (.ok (), after) ∧
        executeAll server.noting statements (state, exchanges) =
          (.ok (), (after, exchanges ++ statements.map .succeeded))) ∨
      ∃ before failed rest error after, statements = before ++ failed :: rest ∧
        executeAll server statements state = (.error error, after) ∧
        executeAll server.noting statements (state, exchanges) =
          (.error error,
            (after, exchanges ++ (before.map .succeeded ++ [⟨failed, .error error⟩]))) := by
  induction statements generalizing state exchanges with
  | nil => exact .inl ⟨state, rfl, by rw [List.map_nil, List.append_nil]; rfl⟩
  | cons first others ih =>
    have hnoting : server.noting.execute first (state, exchanges) =
        ((server.execute first state).1,
          ((server.execute first state).2,
            exchanges ++ [⟨first, (server.execute first state).1⟩])) := rfl
    rw [executeAll, executeAll, Call.bind_apply, Call.bind_apply, hnoting]
    generalize server.execute first state = outcome
    obtain ⟨answer, between⟩ := outcome
    cases answer with
    | error error =>
      exact .inr ⟨[], first, others, error, between, rfl, rfl, rfl⟩
    | ok value =>
      rcases ih between (exchanges ++ [.succeeded first]) with
        ⟨after, hrun, hnoted⟩ | ⟨before, failed, rest, error, after, rfl, hrun, hnoted⟩
      · rw [List.append_assoc] at hnoted
        exact .inl ⟨after, hrun, hnoted⟩
      · rw [List.append_assoc] at hnoted
        exact .inr ⟨first :: before, failed, rest, error, after, rfl, hrun, hnoted⟩

/-- All that a transaction can do. -/
theorem transaction_noting_cases (state : σ) :
    (∃ answer after, transaction server statements state = (answer, after) ∧
        transaction server.noting statements (state, []) =
          (answer,
            (after, (.startTransaction :: statements).map .succeeded ++ [⟨.commit, answer⟩]))) ∨
      ∃ before failed rest error answer after,
        .startTransaction :: statements = before ++ failed :: rest ∧
        transaction server statements state = (.error error, after) ∧
        transaction server.noting statements (state, []) =
          (.error error,
            (after,
              before.map .succeeded ++ [⟨failed, .error error⟩, ⟨.rollback, answer⟩])) := by
  simp only [transaction]
  rcases executeAll_noting_cases server (.startTransaction :: statements) state [] with
    ⟨between, hrun, hnoted⟩ | ⟨before, failed, rest, error, between, hsplit, hrun, hnoted⟩
  · rw [hrun, hnoted]
    exact .inl ⟨_, _, rfl, rfl⟩
  · rw [hrun, hnoted]
    let cleanup := (server.execute .rollback between).1
    refine .inr ⟨before, failed, rest, error, cleanup, _, hsplit, rfl, ?_⟩
    rw [List.append_cons _ _ [Exchange.mk .rollback cleanup]]
    rfl

end Transactions

/-! ### All or nothing -/

/-- What is sent for a write, and how it is answered, if the write takes effect as a whole or not
at all. -/
structure AllOrNothing (statements : List Statement) (exchanges : List Exchange)
    (result : Except RepoError Unit) : Prop where
  data : ∀ statement ∈ statements, statement.isData = true
  /-- The statements of the write come between the start and the end of one transaction. -/
  framed : ∃ sent last, exchanges.map (·.statement) = .startTransaction :: sent ++ [last] ∧
    sent <+: statements ∧ (last = .commit ∨ last = .rollback)
  commits : (∃ answer, ⟨.commit, answer⟩ ∈ exchanges) ↔
    (.startTransaction :: statements).map .succeeded <+: exchanges
  /-- After the first failure there is only the rollback. -/
  stops : ∀ before failed after, exchanges = before ++ failed :: after → failed.answer ≠ .ok () →
    ∀ exchange ∈ after, exchange.statement = .rollback
  ok_iff : result = .ok () ↔ ⟨.commit, .ok ()⟩ ∈ exchanges
  conflict_iff : (∃ cause, result = .error (.conflict cause)) ↔
    FailedWith exchanges (.rejected uniqueViolation)
  notConnected_iff : result = .error .notConnected ↔ FailedWith exchanges .closed

theorem toRepoError_eq_conflict_iff {error : ServerError} :
    (∃ cause, error.toRepoError = .conflict cause) ↔ error = .rejected uniqueViolation := by
  cases error with
  | closed => simp [ServerError.toRepoError]
  | rejected code =>
    by_cases hcode : code = uniqueViolation <;> simp [ServerError.toRepoError, hcode]

theorem toRepoError_eq_notConnected_iff {error : ServerError} :
    error.toRepoError = .notConnected ↔ error = .closed := by
  cases error with
  | closed => simp [ServerError.toRepoError]
  | rejected code =>
    by_cases hcode : code = uniqueViolation <;> simp [ServerError.toRepoError, hcode]

section Cases

variable {statements before rest : List Statement} {failed : Statement} {ending : List Exchange}
  {error wanted : ServerError} {answer : Except ServerError Unit}

theorem ne_end_of_mem (hdata : ∀ statement ∈ statements, statement.isData = true) :
    ∀ statement ∈ .startTransaction :: statements,
      statement ≠ .commit ∧ statement ≠ .rollback := by
  intro statement hmem
  rcases List.mem_cons.1 hmem with rfl | hmem
  · exact ⟨nofun, nofun⟩
  · have hstatement := hdata statement hmem
    constructor <;> rintro rfl <;> cases hstatement

theorem map_statement_succeeded (statements : List Statement) :
    (statements.map Exchange.succeeded).map (·.statement) = statements := by
  rw [List.map_map]
  exact List.map_id' statements

/-- What fails comes after all that succeeded. -/
theorem exists_append_of_failed {exchanges earlier later : List Exchange} {failing : Exchange}
    (h : statements.map .succeeded ++ exchanges = earlier ++ failing :: later)
    (hanswer : failing.answer ≠ .ok ()) : ∃ between, exchanges = between ++ failing :: later := by
  rcases List.append_eq_append_iff.1 h with ⟨between, -, htail⟩ | ⟨between, hsucceeded, htail⟩
  · exact ⟨between, htail⟩
  · cases between with
    | nil => exact ⟨[], htail.symm⟩
    | cons first others =>
      obtain ⟨rfl, -⟩ := List.cons.inj htail
      have hmem : failing ∈ statements.map .succeeded :=
        hsucceeded ▸ List.mem_append_right _ List.mem_cons_self
      obtain ⟨statement, -, rfl⟩ := List.mem_map.1 hmem
      exact absurd rfl hanswer

theorem failedWith_append_iff :
    FailedWith (statements.map .succeeded ++ ending) wanted ↔ FailedWith ending wanted := by
  constructor
  · rintro ⟨exchange, hmem, hstatement, hanswer⟩
    rcases List.mem_append.1 hmem with hsucceeded | hending
    · obtain ⟨statement, -, rfl⟩ := List.mem_map.1 hsucceeded
      cases hanswer
    · exact ⟨exchange, hending, hstatement, hanswer⟩
  · rintro ⟨exchange, hending, hfailed⟩
    exact ⟨exchange, List.mem_append_right _ hending, hfailed⟩

theorem commit_mem_append_iff
    (hends : ∀ statement ∈ statements, statement ≠ .commit ∧ statement ≠ .rollback) :
    ⟨.commit, answer⟩ ∈ statements.map .succeeded ++ ending ↔ ⟨.commit, answer⟩ ∈ ending := by
  refine List.mem_append.trans (or_iff_right fun hsucceeded => ?_)
  obtain ⟨statement, hmem, heq⟩ := List.mem_map.1 hsucceeded
  exact (hends statement hmem).1 (congrArg (·.statement) heq)

theorem AllOrNothing.of_committed (hdata : ∀ statement ∈ statements, statement.isData = true)
    (answer : Except ServerError Unit) :
    AllOrNothing statements
      ((.startTransaction :: statements).map .succeeded ++ [⟨.commit, answer⟩])
      (answer.mapError ServerError.toRepoError) where
  data := hdata
  framed := by
    refine ⟨statements, .commit, ?_, List.prefix_rfl, .inl rfl⟩
    rw [List.map_append, map_statement_succeeded]
    rfl
  commits := iff_of_true ⟨answer, by simp⟩ (List.prefix_append ..)
  stops earlier failing later hexchanges hanswer := by
    obtain ⟨between, hlast⟩ := exists_append_of_failed hexchanges hanswer
    cases between with
    | nil =>
      obtain ⟨-, rfl⟩ := List.cons.inj hlast
      exact nofun
    | cons first others => simp at hlast
  ok_iff := by
    rw [commit_mem_append_iff (ne_end_of_mem hdata)]
    cases answer <;> simp [Except.mapError]
  conflict_iff := by
    rw [failedWith_append_iff]
    cases answer <;> simp [FailedWith, Except.mapError, toRepoError_eq_conflict_iff]
  notConnected_iff := by
    rw [failedWith_append_iff]
    cases answer <;> simp [FailedWith, Except.mapError, toRepoError_eq_notConnected_iff]

theorem AllOrNothing.of_failed (hdata : ∀ statement ∈ statements, statement.isData = true)
    (hsplit : .startTransaction :: statements = before ++ failed :: rest)
    (answer : Except ServerError Unit) :
    AllOrNothing statements
      (before.map .succeeded ++ [⟨failed, .error error⟩, ⟨.rollback, answer⟩])
      (.error error.toRepoError) := by
  have hends := ne_end_of_mem hdata
  rw [hsplit] at hends
  obtain ⟨hbefore, hends⟩ := List.forall_mem_append.1 hends
  obtain ⟨hcommit, hrollback⟩ := hends failed List.mem_cons_self
  have hnoCommit : ∀ ended, Exchange.mk .commit ended ∉
      before.map .succeeded ++ [⟨failed, .error error⟩, ⟨.rollback, answer⟩] := by
    intro ended
    rw [commit_mem_append_iff hbefore]
    simp [Ne.symm hcommit]
  constructor
  case data => exact hdata
  case framed =>
    cases before with
    | nil =>
      obtain ⟨rfl, -⟩ := List.cons.inj hsplit
      exact ⟨[], .rollback, rfl, List.nil_prefix, .inr rfl⟩
    | cons first others =>
      obtain ⟨rfl, rfl⟩ := List.cons.inj hsplit
      refine ⟨others ++ [failed], .rollback, ?_, ⟨rest, by simp⟩, .inr rfl⟩
      rw [List.map_append, map_statement_succeeded]
      simp
  case commits =>
    refine iff_of_false (fun hsome => hnoCommit _ hsome.choose_spec) ?_
    rintro ⟨others, hexchanges⟩
    rw [hsplit, List.map_append, List.append_assoc] at hexchanges
    have hsame := (List.cons.inj (List.append_cancel_left hexchanges)).1
    cases congrArg (·.answer) hsame
  case stops =>
    intro earlier failing later hexchanges hanswer
    obtain ⟨between, hlast⟩ := exists_append_of_failed hexchanges hanswer
    cases between with
    | nil =>
      obtain ⟨-, rfl⟩ := List.cons.inj hlast
      simp
    | cons first others =>
      obtain ⟨-, hlast⟩ := List.cons.inj hlast
      cases others with
      | nil =>
        obtain ⟨-, rfl⟩ := List.cons.inj hlast
        exact nofun
      | cons second others => simp at hlast
  case ok_iff => exact iff_of_false nofun (hnoCommit _)
  case conflict_iff =>
    rw [failedWith_append_iff]
    simp [FailedWith, hrollback, toRepoError_eq_conflict_iff]
  case notConnected_iff =>
    rw [failedWith_append_iff]
    simp [FailedWith, hrollback, toRepoError_eq_notConnected_iff]

end Cases

/-- Whatever the server answers, a write is all or nothing, and noting its statements is not what
makes it so. -/
theorem write_all_or_nothing (server : Server σ) (write : Write) (state : σ) :
    ∃ result after exchanges,
      write.run (Repo.onServer server) state = (result, after) ∧
      write.run (Repo.onServer server.noting) (state, []) = (result, (after, exchanges)) ∧
      AllOrNothing write.statements exchanges result := by
  have hdata : ∀ statement ∈ write.statements, statement.isData = true :=
    fun _ => Write.isData_of_mem_statements
  rw [Write.run_onServer, Write.run_onServer]
  simp only [onServer]
  rcases transaction_noting_cases server write.statements state with
    ⟨answer, after, hrun, hnoted⟩ |
    ⟨before, failed, rest, error, answer, after, hsplit, hrun, hnoted⟩
  · rw [hrun, hnoted]
    refine ⟨_, after, _, ?_, ?_, .of_committed hdata answer⟩
    · cases answer <;> rfl
    · cases answer <;> rfl
  · rw [hrun, hnoted]
    exact ⟨_, after, _, rfl, rfl, .of_failed hdata hsplit answer⟩

end ChainIndexer.Postgres
