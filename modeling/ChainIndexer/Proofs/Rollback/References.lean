import ChainIndexer.Proofs.Rollback.Pruned

/-!
# Back-references in pruned histories

Pruning keeps one old record of each entity, the last one of the pruned chain, so that younger
records can refer back to it. That is enough as long as the record after the dropped ones is of the
same chain. An entity that several chains write loses more: when a chain wrote it before and after
another chain did, and both writes are old, the first one is dropped, though the write of the other
chain refers to it and stays.
-/

namespace ChainIndexer

/-- A prune, with the last serial that was given when it took place. -/
structure PastPrune where
  chain : ChainId
  minBlock : Nat
  lastSerial : Nat
deriving DecidableEq, Inhabited

/-- Whether a record is old enough for a prune. -/
def PastPrune.reaches (prune : PastPrune) (record : HistoryRecord) : Bool :=
  Store.isPrunable prune.chain prune.minBlock record

/-- Whether a record is the one of its entity before another one. -/
structure IsBefore (whole : List HistoryRecord) (earlier record : HistoryRecord) : Prop where
  mem : earlier ∈ whole
  key : earlier.key = record.key
  lt : earlier.serial < record.serial
  last : ∀ other ∈ whole, other.key = record.key → other.serial < record.serial →
    other.serial ≤ earlier.serial

/-- Whether each record refers back to none or to the one of its entity before it. -/
def LinksBack (whole : List HistoryRecord) : Prop :=
  ∀ record ∈ whole, record.previous.isGenesis = false →
    ∃ earlier ∈ whole, IsBefore whole earlier record ∧ earlier.origin = record.previous

/-- Whether a prune reached a record and a later one of its entity. -/
def Superseded (whole : List HistoryRecord) (prunes : List PastPrune) (record : HistoryRecord) :
    Prop :=
  ∃ prune ∈ prunes, prune.reaches record = true ∧
    ∃ later ∈ whole, later.key = record.key ∧ record.serial < later.serial ∧
      later.serial ≤ prune.lastSerial ∧ prune.reaches later = true

/-- Whether a prune reached what a record refers back to, and over the record a later one of its
entity. -/
def Overtaken (whole : List HistoryRecord) (prunes : List PastPrune) (record : HistoryRecord) :
    Prop :=
  ∃ prune ∈ prunes, record.previous.chain = prune.chain ∧ record.previous.block < prune.minBlock ∧
    ∃ later ∈ whole, later.key = record.key ∧ record.serial < later.serial ∧
      later.serial ≤ prune.lastSerial ∧ prune.reaches later = true

namespace Store

/-- What commits and prunes make of an empty store, with all records that were committed and all
prunes. -/
inductive Thinned : Store → List HistoryRecord → List PastPrune → Prop
  | empty : Thinned .empty [] []
  | commit {store after : Store} {whole : List HistoryRecord} {prunes : List PastPrune}
      {unit : WriteUnit} (before : Thinned store whole prunes)
      (hcommit : store.commit unit = .ok after) :
      Thinned after (whole ++ number store.lastSerial unit.history) prunes
  | prune {store : Store} {whole : List HistoryRecord} {prunes : List PastPrune}
      (before : Thinned store whole prunes) (chain : ChainId) (minBlock : Nat) :
      Thinned (store.prune chain minBlock) whole
        (prunes ++ [⟨chain, minBlock, store.lastSerial⟩])

variable {store after : Store} {whole : List HistoryRecord} {prunes : List PastPrune}
  {record earlier : HistoryRecord} {chain : ChainId} {minBlock : Nat}

/-! ### What prunes keep -/

/-- Of records in the order of serials that pass a test, one has the last serial. -/
theorem exists_last {records : List HistoryRecord}
    (hserials : records.Pairwise (·.serial < ·.serial))
    {p : HistoryRecord → Bool} (hmem : record ∈ records) (hp : p record = true) :
    ∃ last, (records.filter p).getLast? = some last ∧ last ∈ records ∧ p last = true ∧
      ∀ other ∈ records, p other = true → other.serial ≤ last.serial := by
  cases hlast : (records.filter p).getLast? with
  | none =>
    have hself := List.mem_filter.2 ⟨hmem, hp⟩
    rw [List.getLast?_eq_none_iff.1 hlast] at hself
    cases hself
  | some last =>
    obtain ⟨hlastMem, hlastPasses⟩ := List.mem_filter.1 (List.mem_of_getLast? hlast)
    refine ⟨last, rfl, hlastMem, hlastPasses, fun other hother hpasses => ?_⟩
    obtain ⟨front, hfront⟩ := List.getLast?_eq_some_iff.1 hlast
    have hsorted := hserials.sublist (List.filter_sublist (p := p))
    have hcandidate := List.mem_filter.2 ⟨hother, hpasses⟩
    rw [hfront] at hsorted hcandidate
    rcases List.mem_append.1 hcandidate with hbefore | hsame
    · exact Nat.le_of_lt ((List.pairwise_append.1 hsorted).2.2 other hbefore last
        List.mem_cons_self)
    · rw [List.mem_singleton.1 hsame]

/-- Of the records of an entity that are old enough, pruning keeps the one with the last serial. -/
theorem outlasts_iff (hserials : store.history.Pairwise (·.serial < ·.serial))
    (hmem : record ∈ store.history) (hprunable : isPrunable chain minBlock record = true) :
    store.outlasts chain minBlock record = true ↔
      ∀ later ∈ store.history, later.key = record.key → isPrunable chain minBlock later = true →
        later.serial ≤ record.serial := by
  have hself : record ∈ store.recordsOf record.key :=
    List.mem_filter.2 ⟨hmem, decide_eq_true rfl⟩
  have hsorted : (store.recordsOf record.key).Pairwise (·.serial < ·.serial) :=
    hserials.sublist List.filter_sublist
  obtain ⟨last, hlast, hlastMem, hlastOld, hmax⟩ := exists_last hsorted hself hprunable
  obtain ⟨hlastHistory, hlastKey⟩ := List.mem_filter.1 hlastMem
  rw [outlasts, hprunable, Bool.not_true, Bool.false_or, find?_prunable, hlast, Option.any_some,
    decide_eq_true_eq]
  constructor
  · intro hserial later hlater hkey hold
    exact hserial ▸ hmax later (List.mem_filter.2 ⟨hlater, decide_eq_true hkey⟩) hold
  · intro hall
    refine Nat.le_antisymm ?_ (hmax record hself hprunable)
    exact hall last hlastHistory (of_decide_eq_true hlastKey) hlastOld

/-- What is known of a store with all records that were committed and all prunes: the records that
are left are those that were not superseded. -/
structure Accounts (store : Store) (whole : List HistoryRecord) (prunes : List PastPrune) :
    Prop where
  serials : whole.Pairwise (·.serial < ·.serial)
  lastSerial : ∀ record ∈ whole, record.serial ≤ store.lastSerial
  lastPruned : ∀ prune ∈ prunes, prune.lastSerial ≤ store.lastSerial
  sublist : store.history.Sublist whole
  nodup : (store.history.map fun record => (record.key, record.origin)).Nodup
  left : ∀ record, record ∈ store.history ↔ record ∈ whole ∧ ¬ Superseded whole prunes record

theorem Accounts.empty : Store.empty.Accounts [] [] :=
  ⟨.nil, fun _ h => absurd h List.not_mem_nil, fun _ h => absurd h List.not_mem_nil, .slnil, .nil,
    fun _ => ⟨fun h => absurd h List.not_mem_nil, fun h => absurd h.1 List.not_mem_nil⟩⟩

/-- Records that come after all prunes supersede none. -/
theorem Accounts.superseded_append_iff (h : store.Accounts whole prunes)
    {added : List HistoryRecord}
    (hadded : ∀ record ∈ added, store.lastSerial < record.serial) :
    Superseded (whole ++ added) prunes record ↔ Superseded whole prunes record := by
  constructor
  · rintro ⟨prune, hprune, hreaches, later, hlater, hkey, hlt, hle, hlaterReached⟩
    refine ⟨prune, hprune, hreaches, later, ?_, hkey, hlt, hle, hlaterReached⟩
    refine (List.mem_append.1 hlater).resolve_right fun hnew => ?_
    have hserial := hadded later hnew
    have hpruned := h.lastPruned prune hprune
    omega
  · rintro ⟨prune, hprune, hreaches, later, hlater, hrest⟩
    exact ⟨prune, hprune, hreaches, later, List.mem_append_left _ hlater, hrest⟩

theorem Accounts.not_superseded_of_lt (h : store.Accounts whole prunes)
    (hlt : store.lastSerial < record.serial) : ¬ Superseded whole prunes record := by
  rintro ⟨-, -, -, later, hlater, -, hlaterLt, -⟩
  have hserial := h.lastSerial later hlater
  omega

theorem Accounts.commit (h : store.Accounts whole prunes) {unit : WriteUnit}
    (hcommit : store.commit unit = .ok after) :
    after.Accounts (whole ++ number store.lastSerial unit.history) prunes := by
  obtain ⟨hnone, rfl⟩ := commit_eq_ok hcommit
  obtain ⟨hordered, hgiven⟩ := number_continues h.serials h.lastSerial unit.history
  have hbounds := (number_serials store.lastSerial unit.history).2
  refine ⟨hordered, hgiven, fun prune hprune => ?_, ?_, ?_, fun record => ?_⟩
  · exact Nat.le_trans (h.lastPruned prune hprune) (Nat.le_add_right _ _)
  · exact h.sublist.append (List.Sublist.refl _)
  · have hkeys : (number store.lastSerial unit.history).map (fun record =>
        (record.key, record.origin)) =
          unit.history.map fun entry => (entry.key, entry.origin) := by
      conv_rhs => rw [← number_entries store.lastSerial unit.history, List.map_map]
      rfl
    rw [write, List.map_append, hkeys]
    exact (firstConflict_eq_none_iff_nodup h.nodup).1 hnone
  · rw [h.superseded_append_iff fun other hother => (hbounds other hother).1, write,
      List.mem_append, List.mem_append, h.left, or_and_right]
    refine or_congr_right (iff_self_and.2 fun hnew => ?_)
    exact h.not_superseded_of_lt (hbounds record hnew).1

/-- If a record that is left has a later one of its entity that is as old for a prune, it has one
that is left, too: a prune that reached beyond the last such record reached this one as well. -/
theorem Accounts.exists_left (h : store.Accounts whole prunes) (hmem : record ∈ store.history)
    (hold : isPrunable chain minBlock record = true)
    {later : HistoryRecord} (hlater : later ∈ whole)
    (hkey : later.key = record.key) (hlt : record.serial < later.serial)
    (hlaterOld : isPrunable chain minBlock later = true) :
    ∃ left ∈ store.history, left.key = record.key ∧ record.serial < left.serial ∧
      isPrunable chain minBlock left = true := by
  obtain ⟨last, -, hlastMem, hlast, hmax⟩ := exists_last h.serials
    (p := fun other => decide (other.key = record.key ∧ record.serial < other.serial ∧
      isPrunable chain minBlock other = true)) hlater (decide_eq_true ⟨hkey, hlt, hlaterOld⟩)
  obtain ⟨hlastKey, hlastLt, hlastOld⟩ := of_decide_eq_true hlast
  refine ⟨last, (h.left last).2 ⟨hlastMem, ?_⟩, hlastKey, hlastLt, hlastOld⟩
  rintro ⟨prune, hprune, hreaches, next, hnext, hnextKey, hnextLt, hnextLe, hnextReached⟩
  refine ((h.left record).1 hmem).2 ⟨prune, hprune, ?_, last, hlastMem, hlastKey, hlastLt,
    Nat.le_trans (Nat.le_of_lt hnextLt) hnextLe, hreaches⟩
  have hbeyond : ¬ isPrunable chain minBlock next = true := fun hnextOld => by
    have hle := hmax next hnext (decide_eq_true
      ⟨hnextKey.trans hlastKey, Nat.lt_trans hlastLt hnextLt, hnextOld⟩)
    omega
  simp only [PastPrune.reaches, isPrunable, decide_eq_true_eq] at *
  refine ⟨by rw [hold.1, ← hlastOld.1, hreaches.1], ?_⟩
  have hchain : next.origin.chain = chain := by rw [hnextReached.1, ← hreaches.1, hlastOld.1]
  have hyounger : minBlock ≤ next.origin.block := Nat.not_lt.1 fun hlt => hbeyond ⟨hchain, hlt⟩
  omega

theorem Accounts.prune (h : store.Accounts whole prunes) (chain : ChainId) (minBlock : Nat) :
    (store.prune chain minBlock).Accounts whole
      (prunes ++ [⟨chain, minBlock, store.lastSerial⟩]) := by
  have hsublist : (store.prune chain minBlock).history.Sublist store.history :=
    List.filter_sublist
  refine ⟨h.serials, h.lastSerial, List.forall_mem_append.2 ⟨h.lastPruned, ?_⟩,
    hsublist.trans h.sublist, h.nodup.sublist (hsublist.map _), fun record => ?_⟩
  · exact List.forall_mem_singleton.2 (Nat.le_refl _)
  · rw [prune_history, List.mem_filter]
    constructor
    · rintro ⟨hmem, houtlasts⟩
      obtain ⟨hwhole, hkept⟩ := (h.left record).1 hmem
      refine ⟨hwhole, ?_⟩
      rintro ⟨prune, hprune, hreaches, later, hlater, hkey, hlt, hle, hlaterReached⟩
      rcases List.mem_append.1 hprune with hearlier | hnow
      · exact hkept ⟨prune, hearlier, hreaches, later, hlater, hkey, hlt, hle, hlaterReached⟩
      · obtain rfl := List.mem_singleton.1 hnow
        obtain ⟨left, hleft, hleftKey, hleftLt, hleftOld⟩ :=
          h.exists_left hmem hreaches hlater hkey hlt hlaterReached
        have hle := (outlasts_iff (h.serials.sublist h.sublist) hmem hreaches).1 houtlasts left
          hleft hleftKey hleftOld
        omega
    · rintro ⟨hwhole, hkept⟩
      have hmem : record ∈ store.history := by
        refine (h.left record).2 ⟨hwhole, ?_⟩
        rintro ⟨prune, hprune, hrest⟩
        exact hkept ⟨prune, List.mem_append_left _ hprune, hrest⟩
      refine ⟨hmem, ?_⟩
      cases hold : isPrunable chain minBlock record with
      | false => simp [outlasts, hold]
      | true =>
        refine (outlasts_iff (h.serials.sublist h.sublist) hmem hold).2
          fun later hlater hkey hlaterOld => Nat.not_lt.1 fun hlt => hkept ?_
        have hlaterWhole := h.sublist.subset hlater
        exact ⟨_, List.mem_append_right _ List.mem_cons_self, hold, later, hlaterWhole, hkey, hlt,
          h.lastSerial later hlaterWhole, hlaterOld⟩

theorem Thinned.accounts (h : store.Thinned whole prunes) : store.Accounts whole prunes := by
  induction h with
  | empty => exact .empty
  | commit before hcommit ih => exact ih.commit hcommit
  | prune before chain minBlock ih => exact ih.prune chain minBlock

/-! ### Back-references -/

/-- The record before one that no prune reached is gone exactly if a prune reached over that one. -/
theorem superseded_iff_overtaken (hserials : whole.Pairwise (·.serial < ·.serial))
    (hmem : record ∈ whole) (hbefore : IsBefore whole earlier record)
    (horigin : earlier.origin = record.previous)
    (hyoung : ∀ prune ∈ prunes, prune.reaches record = false) :
    Superseded whole prunes earlier ↔ Overtaken whole prunes record := by
  constructor
  · rintro ⟨prune, hprune, hreaches, later, hlater, hkey, hlt, hle, hlaterReached⟩
    obtain ⟨hchain, hblock⟩ := of_decide_eq_true hreaches
    have hlaterKey := hkey.trans hbefore.key
    -- No record stands between the two, and `record` itself was not reached.
    have hbeyond : record.serial < later.serial := by
      refine Nat.not_le.1 fun hupTo => ?_
      rcases Nat.lt_or_eq_of_le hupTo with hbelow | hsame
      · exact absurd (hbefore.last later hlater hlaterKey hbelow) (Nat.not_le.2 hlt)
      · have hdistinct : (whole.map (·.serial)).Nodup := by
          rw [List.Nodup, List.pairwise_map]
          exact hserials.imp Nat.ne_of_lt
        obtain rfl := List.inj_on_of_nodup_map hdistinct hlater hmem hsame
        rw [hyoung prune hprune] at hlaterReached
        cases hlaterReached
    exact ⟨prune, hprune, horigin ▸ hchain, horigin ▸ hblock, later, hlater, hlaterKey, hbeyond,
      hle, hlaterReached⟩
  · rintro ⟨prune, hprune, hchain, hblock, later, hlater, hkey, hlt, hle, hreached⟩
    rw [← horigin] at hchain hblock
    exact ⟨prune, hprune, decide_eq_true ⟨hchain, hblock⟩, later, hlater,
      hkey.trans hbefore.key.symm, Nat.lt_trans hbefore.lt hlt, hle, hreached⟩

/-- No prune reaches over a record to later ones of its own chain without reaching the record. So an
entity that one chain writes keeps its back-references. -/
theorem not_overtaken_of_one_chain (hyoung : ∀ prune ∈ prunes, prune.reaches record = false)
    (hchain : ∀ later ∈ whole, later.key = record.key → record.serial < later.serial →
      record.origin.chain = later.origin.chain ∧ record.origin.block ≤ later.origin.block) :
    ¬ Overtaken whole prunes record := by
  rintro ⟨prune, hprune, -, -, later, hlater, hkey, hlt, -, hreached⟩
  obtain ⟨hsame, hle⟩ := hchain later hlater hkey hlt
  obtain ⟨hlaterChain, hlaterBlock⟩ := of_decide_eq_true hreached
  have hreaches : prune.reaches record = true :=
    decide_eq_true ⟨hsame.trans hlaterChain, Nat.lt_of_le_of_lt hle hlaterBlock⟩
  rw [hyoung prune hprune] at hreaches
  cases hreaches

/-- In a store that linked history was committed to and that was pruned, a record that no prune
reached refers back to none or leads to the record of its entity before it, unless a prune reached
that one and, over the record, a later one of the entity. Then it does not lead there. -/
theorem Thinned.leads_back_iff (h : store.Thinned whole prunes) (hlinks : LinksBack whole)
    (hmem : record ∈ store.history) (hyoung : ∀ prune ∈ prunes, prune.reaches record = false) :
    record.previous.isGenesis = true ∨
      ∃ earlier, IsBefore whole earlier record ∧
        (store.recordAt record.key record.previous = some earlier ↔
          ¬ Overtaken whole prunes record) := by
  have haccounts := h.accounts
  obtain ⟨hwhole, -⟩ := (haccounts.left record).1 hmem
  cases hgenesis : record.previous.isGenesis with
  | true => exact Or.inl rfl
  | false =>
    obtain ⟨earlier, -, hbefore, horigin⟩ := hlinks record hwhole hgenesis
    refine Or.inr ⟨earlier, hbefore, ?_⟩
    rw [recordAt_eq_some_iff haccounts.nodup, haccounts.left,
      superseded_iff_overtaken haccounts.serials hwhole hbefore horigin hyoung]
    exact ⟨fun hleads => hleads.1.2, fun hclear => ⟨⟨hbefore.mem, hclear⟩, hbefore.key, horigin⟩⟩

end Store

/-! ### Samples -/

instance {whole : List HistoryRecord} {earlier record : HistoryRecord} :
    Decidable (IsBefore whole earlier record) :=
  decidable_of_iff (earlier ∈ whole ∧ earlier.key = record.key ∧ earlier.serial < record.serial ∧
      ∀ other ∈ whole, other.key = record.key → other.serial < record.serial →
        other.serial ≤ earlier.serial)
    ⟨fun ⟨hmem, hkey, hlt, hlast⟩ => ⟨hmem, hkey, hlt, hlast⟩,
      fun ⟨hmem, hkey, hlt, hlast⟩ => ⟨hmem, hkey, hlt, hlast⟩⟩

instance (whole : List HistoryRecord) : Decidable (LinksBack whole) :=
  inferInstanceAs (Decidable (∀ record ∈ whole, _ → ∃ earlier ∈ whole, _ ∧ _))

instance (whole : List HistoryRecord) (prunes : List PastPrune) (record : HistoryRecord) :
    Decidable (Overtaken whole prunes record) :=
  inferInstanceAs (Decidable (∃ prune ∈ prunes, _ ∧ _ ∧ ∃ later ∈ whole, _))

/-- What three events come to that set one entity, of which the second one is of another chain. -/
def WriteUnit.threeWriters : WriteUnit where
  rawEvents := [.placed 1 10 0, .placed 2 11 0, .placed 1 12 0]
  changes := [.set ⟨"", ""⟩ default]
  history := [.ofChange (.set ⟨"", ""⟩ default) ⟨1, 10, 100, 0⟩ .genesis,
    .ofChange (.set ⟨"", ""⟩ default) ⟨2, 11, 110, 0⟩ ⟨1, 10, 100, 0⟩,
    .ofChange (.set ⟨"", ""⟩ default) ⟨1, 12, 120, 0⟩ ⟨2, 11, 110, 0⟩]
  registrations := []
  checkpoints := []
  blocks := []

/-- Once the first chain is pruned the record of the second one, which was never pruned, leads to
none. A reorg of the second chain cannot be planned any more. -/
theorem Store.record_of_other_chain_dangles :
    let store := (Store.empty.write .threeWriters).prune 1 13
    ∃ record ∈ store.history, record.origin.chain = 2 ∧ record.previous.isGenesis = false ∧
      (∃ earlier, IsBefore (number 0 WriteUnit.threeWriters.history) earlier record ∧
        store.recordAt record.key record.previous ≠ some earlier) ∧
      store.recordAt record.key record.previous = none ∧
      RollbackPlan.make Repo.inMemory .ordered (.placed 2 10) ⟨.empty⟩ store =
        (.error (.missingHistory record.key record.previous), store) := by
  intro store
  have hcommit : Store.empty.commit .threeWriters = .ok (Store.empty.write .threeWriters) := rfl
  have hthinned : store.Thinned (number 0 WriteUnit.threeWriters.history) [⟨1, 13, 3⟩] :=
    .prune (.commit .empty hcommit) 1 13
  let record : HistoryRecord :=
    ⟨.ofChange (.set ⟨"", ""⟩ default) ⟨2, 11, 110, 0⟩ ⟨1, 10, 100, 0⟩, 2⟩
  have hmem : record ∈ store.history := by decide
  have hovertaken : Overtaken (number 0 WriteUnit.threeWriters.history) [⟨1, 13, 3⟩] record := by
    decide
  obtain hgenesis | ⟨earlier, hbefore, hleads⟩ :=
    hthinned.leads_back_iff (by decide) hmem (by decide)
  · cases hgenesis
  · exact ⟨record, hmem, rfl, rfl, ⟨earlier, hbefore, fun hfound => hleads.1 hfound hovertaken⟩,
      rfl, rfl⟩

end ChainIndexer
