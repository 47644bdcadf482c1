import ChainIndexer.Proofs.Integrity

/-!
# Rollbacks of a pruned store

A rollback follows one back-reference of each entity it touches: from the first stale record to the
last one that stays. Where nothing stale is old enough to be pruned, that record is either too young
to be pruned as well, or the last one of its entity that is old enough, which pruning keeps.
-/

namespace ChainIndexer

/-- Whether each reorg that makes a record stale makes a later one stale, too. -/
def Origin.Precedes (mode : Mode) (earlier later : Origin) : Prop :=
  match mode with
  | .unordered => earlier.chain = later.chain ∧ earlier.block ≤ later.block
  | .ordered => earlier.timestamp < later.timestamp ∨ earlier.timestamp = later.timestamp ∧
      (earlier.chain < later.chain ∨ earlier.chain = later.chain ∧ earlier.block ≤ later.block)

theorem Origin.Precedes.invalidated {mode : Mode} {earlier later : Origin}
    (h : earlier.Precedes mode later) (reorg : Reorg)
    (hstale : (RollbackScope.ofReorg mode reorg).invalidatesOrigin earlier = true) :
    (RollbackScope.ofReorg mode reorg).invalidatesOrigin later = true := by
  cases mode with
  | unordered =>
    obtain ⟨hchain, hblock⟩ := h
    have hearlier : earlier.chain = reorg.chain ∧ reorg.safeBlock.number < earlier.block :=
      of_decide_eq_true hstale
    apply decide_eq_true
    exact ⟨hchain.symm.trans hearlier.1, Nat.lt_of_lt_of_le hearlier.2 hblock⟩
  | ordered =>
    have hearlier : reorg.safeBlock.timestamp < earlier.timestamp ∨
        reorg.safeBlock.timestamp = earlier.timestamp ∧
          (reorg.chain < earlier.chain ∨
            reorg.chain = earlier.chain ∧ reorg.safeBlock.number < earlier.block) :=
      of_decide_eq_true hstale
    apply decide_eq_true
    unfold Precedes ChainId at h
    unfold ChainId at hearlier ⊢
    dsimp only at h
    omega

/-- Where the items that pass a test are the last ones, they follow those that fail it. -/
theorem filter_not_append_filter {α : Type} {items : List α} {p : α → Bool}
    (h : items.filter p <:+ items) :
    (items.filter fun item => !p item) ++ items.filter p = items := by
  induction items with
  | nil => rfl
  | cons first rest ih =>
    obtain ⟨hfirst, hrest⟩ := List.pairwise_cons.1 (filter_suffix_iff.1 h)
    by_cases hp : p first = true
    · have hall : ∀ item ∈ first :: rest, p item = true := by
        intro item hitem
        rcases List.mem_cons.1 hitem with rfl | hmem
        · exact hp
        · exact hfirst item hmem hp
      have hnone : (first :: rest).filter (fun item => !p item) = [] := by
        rw [List.filter_eq_nil_iff]
        intro item hitem
        simp [hall item hitem]
      rw [hnone, List.filter_eq_self.2 hall, List.nil_append]
    · rw [List.filter_cons_of_neg hp, List.filter_cons_of_pos (by simpa using hp), List.cons_append,
        ih (filter_suffix_iff.2 hrest)]

namespace Store

/-! ### Stores that can be rolled back -/

/-- Whether each record of an entity leads to the one before it, and the first one to none. -/
structure Referenced (store : Store) : Prop where
  first : ∀ key, ∀ record ∈ (store.recordsOf key).head?, record.previous.isGenesis = true
  later : ∀ key, (store.recordsOf key).IsChain fun earlier later =>
    store.recordAt key later.previous = some earlier

theorem Linked.referenced {store : Store} (h : store.Linked) : store.Referenced := by
  refine ⟨fun key record hrecord => ?_, fun key => (h.later key).imp fun _ _ hlink => hlink.2.2⟩
  rw [h.first key record hrecord]
  rfl

/-- Whether the records of each entity come in the order that reorgs of a mode go by. -/
def InOrder (store : Store) (mode : Mode) : Prop :=
  ∀ key, (store.recordsOf key).Pairwise fun a b => a.origin.Precedes mode b.origin

/-- Whether the first stale record of each entity leads to its last one that stays. -/
structure Restorable (store : Store) (scope : RollbackScope) : Prop where
  ends : store.EndsStale scope
  leads : ∀ key, ∀ record ∈ (store.historyIn scope).find? (·.key = key),
    record.previous.isGenesis = true ∨
      ∃ previous, store.recordAt key record.previous = some previous ∧
        ((store.recordsOf key).filter fun record =>
          !scope.invalidatesOrigin record.origin).getLast? = some previous

variable {store : Store} {scope : RollbackScope} {mode : Mode} {reorg : Reorg} {chain : ChainId}
  {minBlock : Nat}

theorem filter_historyIn (store : Store) (scope : RollbackScope) (key : EntityKey) :
    (store.historyIn scope).filter (·.key = key) =
      (store.recordsOf key).filter fun record => scope.invalidatesOrigin record.origin := by
  exact List.filter_comm ..

theorem InOrder.endsStale (h : store.InOrder mode) (reorg : Reorg) :
    store.EndsStale (.ofReorg mode reorg) := by
  intro key
  rw [filter_historyIn, filter_suffix_iff]
  exact (h key).imp fun hprecedes => hprecedes.invalidated reorg

/-- The records of an entity that stay come before its stale ones. -/
theorem EndsStale.recordsOf_eq (h : store.EndsStale scope) (key : EntityKey) :
    ((store.recordsOf key).filter fun record => !scope.invalidatesOrigin record.origin) ++
      (store.historyIn scope).filter (·.key = key) = store.recordsOf key := by
  have hsuffix := h key
  rw [filter_historyIn] at hsuffix ⊢
  exact filter_not_append_filter hsuffix

theorem Referenced.restorable (h : store.Referenced) (hends : store.EndsStale scope) :
    store.Restorable scope := by
  refine ⟨hends, fun key record hrecord => ?_⟩
  have hsplit := hends.recordsOf_eq key
  rw [← List.head?_filter] at hrecord
  obtain ⟨rest, hstale⟩ := List.head?_eq_some_iff.1 hrecord
  rw [hstale] at hsplit
  cases hlast : ((store.recordsOf key).filter fun record =>
      !scope.invalidatesOrigin record.origin).getLast? with
  | none =>
    rw [List.getLast?_eq_none_iff.1 hlast, List.nil_append] at hsplit
    refine .inl (h.first key record ?_)
    rw [← hsplit]
    rfl
  | some previous =>
    obtain ⟨front, hfront⟩ := List.getLast?_eq_some_iff.1 hlast
    have hchain := h.later key
    rw [← hsplit, hfront, List.append_assoc] at hchain
    have hlink := List.isChain_append.1 hchain
    exact .inr ⟨previous, (List.isChain_cons_cons.1 hlink.2.1).1, rfl⟩

/-! ### What pruning keeps -/

/-- Whether a scope makes nothing stale that pruning a chain below a block might drop. -/
structure Spares (store : Store) (scope : RollbackScope) (chain : ChainId) (minBlock : Nat) :
    Prop where
  history : ∀ record ∈ store.history, record.origin.chain = chain →
    record.origin.block < minBlock → scope.invalidatesOrigin record.origin = false
  rawEvents : ∀ event ∈ store.rawEvents, event.chain = chain → event.block < minBlock →
    scope.invalidatesEvent event = false

theorem Spares.not_prunable (h : store.Spares scope chain minBlock) {record : HistoryRecord}
    (hrecord : record ∈ store.history) (hstale : scope.invalidatesOrigin record.origin = true) :
    isPrunable chain minBlock record = false := by
  apply decide_eq_false
  rintro ⟨hchain, hblock⟩
  rw [h.history record hrecord hchain hblock] at hstale
  cases hstale

/-- Whether pruning keeps a record. -/
def outlasts (store : Store) (chain : ChainId) (minBlock : Nat) (record : HistoryRecord) : Bool :=
  !isPrunable chain minBlock record ||
    ((store.history.filter (isPrunable chain minBlock)).reverse.find? (·.key = record.key)).any
      (·.serial = record.serial)

theorem prune_history (store : Store) (chain : ChainId) (minBlock : Nat) :
    (store.prune chain minBlock).history = store.history.filter (store.outlasts chain minBlock) :=
  rfl

theorem recordsOf_prune (store : Store) (chain : ChainId) (minBlock : Nat) (key : EntityKey) :
    (store.prune chain minBlock).recordsOf key =
      (store.recordsOf key).filter (store.outlasts chain minBlock) := by
  exact List.filter_comm ..

theorem find?_prunable (store : Store) (chain : ChainId) (minBlock : Nat) (key : EntityKey) :
    (store.history.filter (isPrunable chain minBlock)).reverse.find? (·.key = key) =
      ((store.recordsOf key).filter (isPrunable chain minBlock)).getLast? := by
  rw [← List.head?_filter, List.filter_reverse, List.head?_reverse, recordsOf, List.filter_comm]

/-- A record that nothing old enough to be pruned comes after is kept. -/
theorem outlasts_of_last {key : EntityKey} {front rest : List HistoryRecord}
    {record : HistoryRecord} (h : store.recordsOf key = (front ++ [record]) ++ rest)
    (hrest : ∀ later ∈ rest, isPrunable chain minBlock later = false) :
    store.outlasts chain minBlock record = true := by
  have hmem : record ∈ store.recordsOf key := by simp [h]
  have hkey : record.key = key := of_decide_eq_true (List.mem_filter.1 hmem).2
  cases hprunable : isPrunable chain minBlock record with
  | false => simp [outlasts, hprunable]
  | true =>
    have hnone : rest.filter (isPrunable chain minBlock) = [] := by
      rw [List.filter_eq_nil_iff]
      intro later hlater
      simp [hrest later hlater]
    have hlast : ((store.recordsOf key).filter (isPrunable chain minBlock)).getLast? =
        some record := by
      rw [h, List.filter_append, hnone, List.append_nil, List.filter_append]
      simp [hprunable]
    rw [outlasts, hkey, find?_prunable, hlast]
    simp

theorem recordAt_prune {key : EntityKey} {origin : Origin} {record : HistoryRecord}
    (h : store.recordAt key origin = some record)
    (hkept : store.outlasts chain minBlock record = true) :
    (store.prune chain minBlock).recordAt key origin = some record := by
  rw [recordAt] at h ⊢
  rw [prune_history, ← List.filter_reverse, List.find?_filter]
  obtain ⟨hmatch, front, rest, hsplit, hfront⟩ := List.find?_eq_some_iff_append.1 h
  refine List.find?_eq_some_iff_append.2 ⟨?_, front, rest, hsplit, fun earlier hearlier => ?_⟩
  · exact decide_eq_true ⟨hkept, hmatch⟩
  · have hother := hfront earlier hearlier
    rw [Bool.not_eq_true'] at hother ⊢
    exact decide_eq_false fun hboth => Bool.false_ne_true (hother.symm.trans hboth.2)

theorem Spares.historyIn_prune (h : store.Spares scope chain minBlock) :
    (store.prune chain minBlock).historyIn scope = store.historyIn scope := by
  rw [historyIn, historyIn, prune_history, List.filter_filter]
  refine List.filter_congr fun record hrecord => ?_
  cases hstale : scope.invalidatesOrigin record.origin with
  | false => rfl
  | true => simp [outlasts, h.not_prunable hrecord hstale]

theorem Spares.firstInvalidatedBlocks_prune (h : store.Spares scope chain minBlock) :
    (store.prune chain minBlock).firstInvalidatedBlocks scope =
      store.firstInvalidatedBlocks scope := by
  have hevents : (store.prune chain minBlock).rawEvents.filter scope.invalidatesEvent =
      store.rawEvents.filter scope.invalidatesEvent := by
    rw [prune, List.filter_filter]
    refine List.filter_congr fun event hevent => ?_
    cases hstale : scope.invalidatesEvent event with
    | false => rfl
    | true =>
      have hkept : event.chain ≠ chain ∨ minBlock ≤ event.block := by
        by_contra hdropped
        rw [not_or, not_not, Nat.not_le] at hdropped
        rw [h.rawEvents event hevent hdropped.1 hdropped.2] at hstale
        cases hstale
      rw [decide_eq_true hkept, Bool.and_self]
  rw [firstInvalidatedBlocks, hevents, firstInvalidatedBlocks]

theorem Spares.rewinds_prune (h : store.Spares scope chain minBlock) (reorg : Reorg)
    (tracker : Tracker) :
    (store.prune chain minBlock).rewinds scope reorg tracker =
      store.rewinds scope reorg tracker := by
  cases scope with
  | chain => rfl
  | global => rw [rewinds, rewinds, h.firstInvalidatedBlocks_prune]

/-- The last record of an entity that stays is not one of those that pruning drops. -/
theorem Restorable.outlasts (h : store.Restorable scope)
    (hspares : store.Spares scope chain minBlock) {key : EntityKey} {previous : HistoryRecord}
    (hlast : ((store.recordsOf key).filter fun record =>
      !scope.invalidatesOrigin record.origin).getLast? = some previous) :
    store.outlasts chain minBlock previous = true := by
  obtain ⟨front, hfront⟩ := List.getLast?_eq_some_iff.1 hlast
  have hsplit := (h.ends.recordsOf_eq key).symm
  rw [hfront] at hsplit
  refine outlasts_of_last hsplit fun later hlater => ?_
  obtain ⟨hmem, hstale⟩ := List.mem_filter.1 (List.mem_filter.1 hlater).1
  exact hspares.not_prunable hmem hstale

theorem Restorable.prune (h : store.Restorable scope)
    (hspares : store.Spares scope chain minBlock) :
    (store.prune chain minBlock).Restorable scope := by
  refine ⟨endsStale_iff.2 ((endsStale_iff.1 h.ends).sublist List.filter_sublist),
    fun key record hrecord => ?_⟩
  rw [hspares.historyIn_prune] at hrecord
  obtain hgenesis | ⟨previous, hprevious, hlast⟩ := h.leads key record hrecord
  · exact .inl hgenesis
  · have hkept := h.outlasts hspares hlast
    refine .inr ⟨previous, recordAt_prune hprevious hkept, ?_⟩
    obtain ⟨front, hfront⟩ := List.getLast?_eq_some_iff.1 hlast
    rw [recordsOf_prune, List.filter_comm, hfront, List.filter_append]
    simp [hkept]

theorem Spares.prune (h : store.Spares scope chain minBlock) (other : ChainId) (bound : Nat) :
    (store.prune other bound).Spares scope chain minBlock := by
  refine ⟨fun record hrecord => h.history record ?_, fun event hevent => h.rawEvents event ?_⟩
  · exact (List.mem_filter.1 hrecord).1
  · exact (List.mem_filter.1 hevent).1

/-! ### Rollbacks -/

theorem Restorable.restore? (h : store.Restorable scope) {key : EntityKey} {record : HistoryRecord}
    (hrecord : (store.historyIn scope).find? (·.key = key) = some record) :
    ∃ change, store.restore? record = some change := by
  have hkey : record.key = key := by simpa using List.find?_some hrecord
  obtain hgenesis | ⟨previous, hprevious, _⟩ := h.leads key record hrecord
  · exact ⟨_, if_pos hgenesis⟩
  · rw [Store.restore?, hkey, hprevious]
    split
    · exact ⟨_, rfl⟩
    · exact ⟨_, rfl⟩

theorem Restorable.restore?_prune (h : store.Restorable scope)
    (hspares : store.Spares scope chain minBlock) {key : EntityKey} {record : HistoryRecord}
    (hrecord : (store.historyIn scope).find? (·.key = key) = some record) :
    (store.prune chain minBlock).restore? record = store.restore? record := by
  have hkey : record.key = key := by simpa using List.find?_some hrecord
  obtain hgenesis | ⟨previous, hprevious, hlast⟩ := h.leads key record hrecord
  · rw [Store.restore?, Store.restore?, if_pos hgenesis, if_pos hgenesis]
  · rw [Store.restore?, Store.restore?, hkey, hprevious,
      recordAt_prune hprevious (h.outlasts hspares hlast)]

theorem Restorable.make (h : store.Restorable (.ofReorg mode reorg)) (tracker : Tracker) :
    RollbackPlan.make Repo.inMemory mode reorg tracker store =
      (.ok
        { scope := .ofReorg mode reorg
          restores := (RollbackPlan.earliest (store.historyIn (.ofReorg mode reorg))).entries.map
            fun entry => (store.restore? entry.2).getD default
          rewinds := store.rewinds (.ofReorg mode reorg) reorg tracker
          checkpoints := tracker.rewound (store.rewinds (.ofReorg mode reorg) reorg tracker) },
        store) := by
  refine RollbackPlan.make_inMemory fun entry hentry => ?_
  have hfirst := Table.mem_entries_iff.1 hentry
  rw [RollbackPlan.get?_earliest] at hfirst
  obtain ⟨change, hchange⟩ := h.restore? hfirst
  exact ⟨by simpa using List.find?_some hfirst, by rw [hchange, Option.getD_some]⟩

/-- Planning comes to the same before and after pruning. -/
theorem Restorable.make_prune (h : store.Restorable (.ofReorg mode reorg))
    (hspares : store.Spares (.ofReorg mode reorg) chain minBlock) (tracker : Tracker) :
    ∃ plan, RollbackPlan.make Repo.inMemory mode reorg tracker store = (.ok plan, store) ∧
      RollbackPlan.make Repo.inMemory mode reorg tracker (store.prune chain minBlock) =
        (.ok plan, store.prune chain minBlock) := by
  refine ⟨_, h.make tracker, ?_⟩
  rw [(h.prune hspares).make tracker, hspares.historyIn_prune, hspares.rewinds_prune]
  congr 3
  refine List.map_congr_left fun entry hentry => ?_
  have hfirst := Table.mem_entries_iff.1 hentry
  rw [RollbackPlan.get?_earliest] at hfirst
  rw [h.restore?_prune hspares hfirst]

theorem filter_foldl_dropRewound (blocks : Table BlockKey Block) (keep : BlockKey → Block → Bool)
    (rewinds : List Rewind) :
    rewinds.foldl dropRewound (blocks.filter keep) =
      (rewinds.foldl dropRewound blocks).filter keep := by
  induction rewinds generalizing blocks with
  | nil => rfl
  | cons rewind rest ih =>
    have hcomm : dropRewound (blocks.filter keep) rewind =
        (dropRewound blocks rewind).filter keep := by
      refine Table.ext_get? fun key => ?_
      rw [dropRewound, dropRewound, Table.get?_filter, Table.get?_filter, Table.get?_filter,
        Table.get?_filter, Option.filter_filter, Option.filter_filter]
      exact congrArg (Option.filter · _) (funext fun _ => Bool.and_comm _ _)
    rw [List.foldl_cons, List.foldl_cons, hcomm, ih]

/-- Pruning before a rollback and pruning after it leave the same store. -/
theorem Spares.applyRollback_prune {plan : RollbackPlan}
    (h : store.Spares plan.scope chain minBlock) :
    (store.prune chain minBlock).applyRollback plan =
      (store.applyRollback plan).prune chain minBlock := by
  have hprunable : (store.applyRollback plan).history.filter (isPrunable chain minBlock) =
      store.history.filter (isPrunable chain minBlock) := by
    rw [applyRollback, List.filter_filter]
    refine List.filter_congr fun record hrecord => ?_
    cases hstale : plan.scope.invalidatesOrigin record.origin with
    | false => simp
    | true => rw [h.not_prunable hrecord hstale, Bool.false_and]
  have houtlasts : (store.applyRollback plan).outlasts chain minBlock =
      store.outlasts chain minBlock := by
    funext record
    rw [outlasts, hprunable, outlasts]
  have hhistory : ((store.prune chain minBlock).applyRollback plan).history =
      ((store.applyRollback plan).prune chain minBlock).history := by
    rw [prune_history, houtlasts]
    exact List.filter_comm ..
  have hevents : ((store.prune chain minBlock).applyRollback plan).rawEvents =
      ((store.applyRollback plan).prune chain minBlock).rawEvents :=
    List.filter_comm ..
  have hblocks : ((store.prune chain minBlock).applyRollback plan).blocks =
      ((store.applyRollback plan).prune chain minBlock).blocks :=
    filter_foldl_dropRewound store.blocks
      (fun key _ => key.chain ≠ chain ∨ minBlock ≤ key.number) plan.rewinds
  exact (Store.mk.injEq ..).mpr ⟨rfl, hhistory, rfl, hevents, rfl, rfl, hblocks, rfl⟩

/-! ### Pruning -/

/-- Pruning leaves all rollbacks alone that make nothing stale of what it might drop: they are
planned and restore the entities as if nothing had been pruned. -/
theorem rollback_eq_unpruned (hreferenced : store.Referenced) (horder : store.InOrder mode)
    (hspares : store.Spares (.ofReorg mode reorg) chain minBlock) (tracker : Tracker) :
    ∃ plan, RollbackPlan.make Repo.inMemory mode reorg tracker store = (.ok plan, store) ∧
      RollbackPlan.make Repo.inMemory mode reorg tracker (store.prune chain minBlock) =
        (.ok plan, store.prune chain minBlock) ∧
      ((store.prune chain minBlock).applyRollback plan).entities =
        (store.applyRollback plan).entities ∧
      (store.prune chain minBlock).applyRollback plan =
        (store.applyRollback plan).prune chain minBlock := by
  have hrestorable := hreferenced.restorable (horder.endsStale reorg)
  obtain ⟨plan, hplan, hpruned⟩ := hrestorable.make_prune hspares tracker
  have hscope := (RollbackPlan.make_eq_ok hplan).2.1
  rw [← hscope] at hspares
  exact ⟨plan, hplan, hpruned, rfl, hspares.applyRollback_prune⟩

/-- Prunes chains below blocks in turn. -/
def pruneAll (store : Store) (prunes : List (ChainId × Nat)) : Store :=
  prunes.foldl (fun store prune => store.prune prune.1 prune.2) store

/-- However often a store was pruned, its rollbacks are those of the whole store. -/
theorem Restorable.make_pruneAll (h : store.Restorable (.ofReorg mode reorg))
    {prunes : List (ChainId × Nat)}
    (hspares : ∀ prune ∈ prunes, store.Spares (.ofReorg mode reorg) prune.1 prune.2)
    (tracker : Tracker) :
    ∃ plan, RollbackPlan.make Repo.inMemory mode reorg tracker store = (.ok plan, store) ∧
      RollbackPlan.make Repo.inMemory mode reorg tracker (store.pruneAll prunes) =
        (.ok plan, store.pruneAll prunes) ∧
      (store.pruneAll prunes).applyRollback plan = (store.applyRollback plan).pruneAll prunes := by
  induction prunes generalizing store with
  | nil => exact ⟨_, h.make tracker, h.make tracker, rfl⟩
  | cons prune rest ih =>
    obtain ⟨hfirst, hrest⟩ := List.forall_mem_cons.1 hspares
    obtain ⟨plan, hplan, hpruned⟩ := h.make_prune hfirst tracker
    obtain ⟨plan', hplan', hpruned', hrolled⟩ :=
      ih (h.prune hfirst) fun other hother => (hrest other hother).prune prune.1 prune.2
    rw [hpruned] at hplan'
    cases hplan'
    rw [← (RollbackPlan.make_eq_ok hplan).2.1] at hfirst
    refine ⟨plan, hplan, hpruned', hrolled.trans ?_⟩
    rw [hfirst.applyRollback_prune]
    rfl

end Store

/-! ### Samples -/

instance (mode : Mode) (earlier later : Origin) : Decidable (earlier.Precedes mode later) :=
  match mode with
  | .unordered => inferInstanceAs (Decidable (_ ∧ _))
  | .ordered => inferInstanceAs (Decidable (_ ∨ _))

theorem Store.inOrder_iff {store : Store} {mode : Mode} : store.InOrder mode ↔
    store.history.Pairwise fun a b => a.key = b.key → a.origin.Precedes mode b.origin :=
  forall_pairwise_filter_iff

/-- What three events come to that set one entity. -/
def WriteUnit.threeMarks : WriteUnit where
  rawEvents := [.placed 1 40 0, .placed 1 45 0, .placed 1 50 0]
  changes := [.set ⟨"", ""⟩ default]
  history := [.ofChange (.set ⟨"", ""⟩ default) ⟨1, 40, 400, 0⟩ .genesis,
    .ofChange (.set ⟨"", ""⟩ default) ⟨1, 45, 450, 0⟩ ⟨1, 40, 400, 0⟩,
    .ofChange (.set ⟨"", ""⟩ default) ⟨1, 50, 500, 0⟩ ⟨1, 45, 450, 0⟩]
  registrations := []
  checkpoints := []
  blocks := []

theorem Store.Evolved.threeMarks : Evolved (Store.empty.write .threeMarks) := by
  have hprocess : (processEvents Repo.inMemory ⟨[("", .marking)]⟩ default
      WriteUnit.threeMarks.rawEvents .empty).result =
        .ok ⟨3, WriteUnit.threeMarks.changes, WriteUnit.threeMarks.history, []⟩ := rfl
  have hcommit : Store.empty.commit .threeMarks = .ok (Store.empty.write .threeMarks) := rfl
  exact .unit .empty (by decide) hprocess hcommit

/-- The third of three marks is rolled back to the second one, though the first one is gone. -/
theorem Store.rollback_of_pruned_marks :
    ((Store.empty.write .threeMarks).prune 1 46).history.map (·.origin.block) = [45, 50] ∧
      ∃ plan, plan.restores = [.set ⟨"", ""⟩ default] ∧
        RollbackPlan.make Repo.inMemory .unordered (.placed 1 47) ⟨.empty⟩
          ((Store.empty.write .threeMarks).prune 1 46) =
            (.ok plan, (Store.empty.write .threeMarks).prune 1 46) := by
  have horder : (Store.empty.write .threeMarks).InOrder .unordered := inOrder_iff.2 (by decide)
  have hspares : (Store.empty.write .threeMarks).Spares
      (.ofReorg .unordered (.placed 1 47)) 1 46 := ⟨by decide, by decide⟩
  obtain ⟨plan, hwhole, hpruned, _⟩ :=
    rollback_eq_unpruned Evolved.threeMarks.integrity.1.referenced horder hspares ⟨.empty⟩
  refine ⟨by decide, plan, ?_, hpruned⟩
  have hrestores : (RollbackPlan.make Repo.inMemory .unordered (.placed 1 47) ⟨.empty⟩
      (Store.empty.write .threeMarks)).1.toOption.map (·.restores) =
        some [.set ⟨"", ""⟩ default] := rfl
  rw [hwhole] at hrestores
  exact Option.some.inj hrestores

end ChainIndexer
