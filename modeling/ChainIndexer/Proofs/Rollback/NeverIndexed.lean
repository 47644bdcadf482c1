import ChainIndexer.Proofs.Coverage
import ChainIndexer.Proofs.Rollback.Restore
import ChainIndexer.Proofs.Survivors

/-!
# A rollback as if events had never been indexed

When no event that stays follows a stale one of its entities, planning a rollback succeeds, and
applying it leaves what the events that stay would have left alone.
-/

namespace ChainIndexer

theorem writesOf_apart {keep : Origin → Bool} {deeds : List Deed} (h : Apart keep deeds) :
    (writesOf deeds).Pairwise fun a b =>
      keep a.2 = false → keep b.2 = true → a.1.key ≠ b.1.key := by
  rw [writesOf, List.pairwise_flatMap]
  refine ⟨fun deed _ => ?_, h.imp fun {a b} hab write hwrite write' hwrite' hgone hkept heq => ?_⟩
  · -- the writes of one event stay or go together
    rw [Deed.writes, List.pairwise_map]
    refine List.pairwise_of_forall fun change change' hgone hkept => ?_
    rw [hkept] at hgone
    cases hgone
  · obtain ⟨change, hchange, rfl⟩ := List.mem_map.1 hwrite
    obtain ⟨change', hchange', rfl⟩ := List.mem_map.1 hwrite'
    have hkey : change.key ∈ b.keys := by
      refine List.mem_append_right _ (List.mem_map.2 ⟨change', hchange', ?_⟩)
      exact heq.symm
    exact (hab hgone hkept).2 change.key (List.mem_map_of_mem hchange) hkey

/-- Leaving items out does not bring up others, if no match that stays follows one that goes. -/
theorem find?_filter_of_apart {α : Type} {items : List α} {stays found : α → Bool}
    (h : items.Pairwise fun a b => stays a = false → stays b = true → found a = true →
      found b = false) :
    (items.filter stays).find? found = (items.find? found).filter stays := by
  induction items with
  | nil => rfl
  | cons first rest ih =>
    obtain ⟨hfirst, hrest⟩ := List.pairwise_cons.1 h
    rw [List.filter_cons, List.find?_cons]
    by_cases hstays : stays first = true
    · rw [if_pos hstays, List.find?_cons, ih hrest]
      cases hfound : found first with
      | true => exact (Option.filter_some_pos hstays).symm
      | false => rfl
    · rw [if_neg hstays, ih hrest]
      rw [Bool.not_eq_true] at hstays
      cases hfound : found first with
      | false => rfl
      | true =>
        refine Eq.trans ?_ (Option.filter_some_neg hstays).symm
        rw [Option.filter_eq_none_iff]
        intro item hitem hkept
        have hmem := List.mem_of_find?_eq_some hitem
        have hmatch := List.find?_some hitem
        rw [hfirst item hmem hstays hkept hfound] at hmatch
        cases hmatch

namespace Store.Records

variable {store : Store} {deeds : List Deed} {keep : Origin → Bool}

theorem kept_registrations (h : store.Records deeds) {stays : Registration → Bool}
    (hstays : ∀ deed ∈ deeds, ∀ registration ∈ deed.registrations,
      stays registration = keep deed.event.origin)
    (hfor : ∀ deed ∈ deeds, ∀ registration ∈ deed.registrations, registration.IsFor deed.event)
    (happart : Apart keep deeds) :
    (store.registrations.filter fun _ registration => stays registration) =
      (registrationsOf (surviving keep deeds)).foldl
        (fun table registration => table.insertNew registration.key registration) .empty := by
  have hpairwise : (registrationsOf deeds).Pairwise fun a b =>
      stays a = false → stays b = true → a.key ≠ b.key := by
    rw [registrationsOf, List.pairwise_flatMap]
    refine ⟨fun deed hdeed => List.pairwise_of_forall_mem_list fun a ha b hb hgone hkept => ?_,
      happart.imp_of_mem fun {first second} hfirst hsecond hapart a ha b hb hgone hkept heq => ?_⟩
    · -- the registrations of one event stay or go together
      rw [hstays deed hdeed a ha, ← hstays deed hdeed b hb, hkept] at hgone
      cases hgone
    · rw [hstays first hfirst a ha] at hgone
      rw [hstays second hsecond b hb] at hkept
      have hchain := congrArg ChainAddress.chain heq
      have ha := (hfor first hfirst a ha).chain
      have hb := (hfor second hsecond b hb).chain
      exact (hapart hgone hkept).1 (ha.symm.trans (hchain.trans hb))
  refine Table.ext_get? fun key => ?_
  have hall := Table.get?_foldl_insertNew (registrationsOf deeds) Registration.key id .empty key
  have hkept := Table.get?_foldl_insertNew (registrationsOf (surviving keep deeds))
    Registration.key id .empty key
  rw [Table.get?_empty, Option.none_or, Option.map_id_apply] at hall hkept
  have hfilter : registrationsOf (surviving keep deeds) = (registrationsOf deeds).filter stays :=
    flatMap_surviving hstays
  rw [Table.get?_filter, h.registrations]
  refine (congrArg (Option.filter stays) hall).trans (Eq.trans ?_ hkept.symm)
  rw [hfilter, find?_filter_of_apart]
  refine hpairwise.imp fun hne hgone hkept hmatch => ?_
  rw [decide_eq_false_iff_not]
  intro hother
  exact hne hgone hkept ((of_decide_eq_true hmatch).trans hother.symm)

end Store.Records

namespace RollbackPlan

variable {mode : Mode} {reorg : Reorg} {store : Store} {deeds : List Deed}

/-- Planning the rollback of a store succeeds, and applying it leaves what the events that stay
did. -/
theorem applyRollback_records (tracker : Tracker) (h : store.Records deeds)
    (hdistinct : (deeds.map (·.event.origin)).Nodup)
    (hsound : ∀ deed ∈ deeds, (deed.changes.map (·.key)).Nodup ∧
      ∀ registration ∈ deed.registrations, registration.IsFor deed.event)
    (hchains : ∀ deed ∈ deeds, deed.event.chain ≠ 0) (happart : Apart (keeps mode reorg) deeds) :
    ∃ plan, make Repo.inMemory mode reorg tracker store = (.ok plan, store) ∧
      (store.applyRollback plan).Records (surviving (keeps mode reorg) deeds) := by
  have hnodup := writesOf_nodup hdistinct fun deed hmem => (hsound deed hmem).1
  have hwriteChains : ∀ write ∈ writesOf deeds, write.2.chain ≠ 0 := by
    intro write hwrite
    obtain ⟨deed, hdeed, hwrites⟩ := List.mem_flatMap.1 hwrite
    obtain ⟨change, _, rfl⟩ := List.mem_map.1 hwrites
    exact hchains deed hdeed
  obtain ⟨plan, hmake, hscope, hholds⟩ :=
    applyRollback_holds tracker h.holds hnodup hwriteChains (writesOf_apart happart)
  rw [← writesOf_surviving] at hholds
  refine ⟨plan, hmake, hholds.entities, hholds.history, ?_, ?_⟩
  · rw [Store.applyRollback, h.rawEvents, hscope, surviving, List.filter_map]
    rfl
  · rw [Store.applyRollback, hscope]
    dsimp only
    refine h.kept_registrations (fun deed hdeed registration hmem => ?_)
      (fun deed hdeed => (hsound deed hdeed).2) happart
    have hfor := (hsound deed hdeed).2 registration hmem
    rw [hfor.chain, hfor.block, hfor.timestamp]
    rfl

end RollbackPlan

/-! ### Orders of events -/

/-- Whether events come in an order in which a rollback undoes them. Unordered, each chain has its
own entities and its events come by position; ordered, events come by time, chain and block. -/
def Mode.Admits (mode : Mode) (deeds : List Deed) : Prop :=
  match mode with
  | .unordered =>
    (∀ a ∈ deeds, ∀ b ∈ deeds, a.event.chain ≠ b.event.chain → ∀ key ∈ a.keys, key ∉ b.keys) ∧
      deeds.Pairwise fun a b => a.event.chain = b.event.chain → a.event.position ≤ b.event.position
  | .ordered =>
    deeds.Pairwise fun a b => a.event.timestamp < b.event.timestamp ∨
      a.event.timestamp = b.event.timestamp ∧ (a.event.chain < b.event.chain ∨
        a.event.chain = b.event.chain ∧ a.event.block ≤ b.event.block)

instance (mode : Mode) (deeds : List Deed) : Decidable (mode.Admits deeds) :=
  match mode with
  | .unordered => inferInstanceAs (Decidable (_ ∧ _))
  | .ordered => inferInstanceAs (Decidable (List.Pairwise _ _))

/-- In such an order a stale event is apart from the later ones that stay: there are none, or they
are of other chains. -/
theorem Mode.Admits.apart {mode : Mode} {deeds : List Deed} (h : mode.Admits deeds)
    (reorg : Reorg) : Apart (RollbackPlan.keeps mode reorg) deeds := by
  cases mode with
  | unordered =>
    obtain ⟨hkeys, horder⟩ := h
    refine horder.imp_of_mem fun {a b} ha hb hle hgone hkept => ?_
    have hstale : a.event.chain = reorg.chain ∧ reorg.safeBlock.number < a.event.block :=
      of_decide_eq_true (RollbackPlan.keeps_eq_false.1 hgone)
    have hvalid : ¬ (b.event.chain = reorg.chain ∧ reorg.safeBlock.number < b.event.block) :=
      of_decide_eq_false (RollbackPlan.keeps_eq_true.1 hkept)
    have hchain : a.event.chain ≠ b.event.chain := by
      intro hsame
      have hblock : a.event.block ≤ b.event.block := Position.block_le_of_le (hle hsame)
      exact hvalid ⟨hsame.symm.trans hstale.1, Nat.lt_of_lt_of_le hstale.2 hblock⟩
    exact ⟨hchain, fun key hkey => hkeys a ha b hb hchain key (List.mem_append_right _ hkey)⟩
  | ordered =>
    -- what comes after a stale event is stale, too
    refine List.Pairwise.imp (fun {a b} hle hgone hkept => ?_) h
    have hstale : reorg.safeBlock.timestamp < a.event.timestamp ∨
        reorg.safeBlock.timestamp = a.event.timestamp ∧
          (reorg.chain < a.event.chain ∨
            reorg.chain = a.event.chain ∧ reorg.safeBlock.number < a.event.block) :=
      of_decide_eq_true (RollbackPlan.keeps_eq_false.1 hgone)
    have hvalid : ¬ (reorg.safeBlock.timestamp < b.event.timestamp ∨
        reorg.safeBlock.timestamp = b.event.timestamp ∧
          (reorg.chain < b.event.chain ∨
            reorg.chain = b.event.chain ∧ reorg.safeBlock.number < b.event.block)) :=
      of_decide_eq_false (RollbackPlan.keeps_eq_true.1 hkept)
    unfold ChainId at hle hstale hvalid
    omega

/-- A rollback leaves a store as if the events that it makes stale had never been indexed. -/
theorem rollback_eq_never_indexed {handlers : HandlerTable} {start registry : Registry}
    {deeds : List Deed} {store : Store} (h : Indexed handlers start deeds store registry)
    (hdistinct : (deeds.map (·.event.origin)).Nodup)
    (hchains : ∀ deed ∈ deeds, deed.event.chain ≠ 0) {mode : Mode} (horder : mode.Admits deeds)
    (reorg : Reorg) (tracker : Tracker) :
    ∃ plan, RollbackPlan.make Repo.inMemory mode reorg tracker store = (.ok plan, store) ∧
      (∃ deeds' store' registry', Indexed handlers start deeds' store' registry' ∧
        deeds'.map (·.event) = (deeds.map (·.event)).filter fun event =>
          !(RollbackScope.ofReorg mode reorg).invalidatesEvent event) ∧
      ∀ deeds' store' registry', Indexed handlers start deeds' store' registry' →
        (deeds'.map (·.event) = (deeds.map (·.event)).filter fun event =>
          !(RollbackScope.ofReorg mode reorg).invalidatesEvent event) →
        (store.applyRollback plan).entities = store'.entities ∧
        (store.applyRollback plan).history.map (·.toHistoryEntry) =
          store'.history.map (·.toHistoryEntry) ∧
        (store.applyRollback plan).rawEvents = store'.rawEvents ∧
        (store.applyRollback plan).registrations = store'.registrations := by
  have happart := horder.apart reorg
  obtain ⟨plan, hmake, hrolled⟩ := RollbackPlan.applyRollback_records tracker h.records hdistinct
    h.replays.sound hchains happart
  obtain ⟨store', registry', hsurviving⟩ := h.surviving hdistinct happart
  have hevents : (surviving (RollbackPlan.keeps mode reorg) deeds).map (·.event) =
      (deeds.map (·.event)).filter fun event =>
        !(RollbackScope.ofReorg mode reorg).invalidatesEvent event := by
    rw [surviving, List.filter_map]
    rfl
  refine ⟨plan, hmake, ⟨_, store', registry', hsurviving, hevents⟩, ?_⟩
  intro deeds' store'' registry'' hother hotherEvents
  obtain ⟨hentities, hhistory, hraw, hregistrations⟩ := hrolled.same hsurviving.records
  obtain ⟨hentities', hhistory', hraw', hregistrations'⟩ :=
    hsurviving.unique hother (hevents.trans hotherEvents.symm)
  exact ⟨hentities.trans hentities', hhistory.trans hhistory', hraw.trans hraw',
    hregistrations.trans hregistrations'⟩

/-- A handler that reads and sets one entity. -/
def Handler.marking : Handler where
  event := ""
  load _ := .load ⟨"", ""⟩ fun _ => .done ()
  handle _ := .get ⟨"", ""⟩ fun _ => .change (.set ⟨"", ""⟩ default) (.done ())

/-- What two events under such a handler write. -/
def WriteUnit.marks : WriteUnit where
  rawEvents := [.placed 1 45 0, .placed 1 50 0]
  changes := [.set ⟨"", ""⟩ default]
  history := [.ofChange (.set ⟨"", ""⟩ default) ⟨1, 45, 450, 0⟩ .genesis,
    .ofChange (.set ⟨"", ""⟩ default) ⟨1, 50, 500, 0⟩ ⟨1, 45, 450, 0⟩]
  registrations := []
  checkpoints := []
  blocks := []

/-- What these events come to. -/
def Deed.marks : List Deed :=
  [⟨.placed 1 45 0, [⟨"", ""⟩], [⟨"", ""⟩], [.set ⟨"", ""⟩ default], []⟩,
    ⟨.placed 1 50 0, [⟨"", ""⟩], [⟨"", ""⟩], [.set ⟨"", ""⟩ default], []⟩]

theorem Indexed.marks :
    Indexed ⟨[("", .marking)]⟩ default Deed.marks (Store.empty.write .marks) default := by
  have hload : runLoaders Repo.inMemory ⟨[("", .marking)]⟩ WriteUnit.marks.rawEvents .empty .empty =
      (.ok (.ofList [(⟨"", ""⟩, none)]), .empty) := rfl
  have hprocess : (processEvents Repo.inMemory ⟨[("", .marking)]⟩ default
      WriteUnit.marks.rawEvents .empty).result =
        .ok ⟨2, WriteUnit.marks.changes, WriteUnit.marks.history, []⟩ := rfl
  have hcommit : Store.empty.commit .marks = .ok (Store.empty.write .marks) := rfl
  exact .unit .empty hload hprocess (by decide) hcommit

/-- Of two events the second one is undone as if it had never been indexed. -/
theorem rollback_of_second_event :
    ∃ plan, RollbackPlan.make Repo.inMemory .unordered (.placed 1 47) ⟨.empty⟩
        (Store.empty.write .marks) = (.ok plan, Store.empty.write .marks) ∧
      ((Store.empty.write .marks).applyRollback plan).rawEvents = [.placed 1 45 0] := by
  have horder : Mode.unordered.Admits Deed.marks := by decide
  obtain ⟨plan, hmake, ⟨deeds, store, registry, hothers, hevents⟩, hsame⟩ :=
    rollback_eq_never_indexed Indexed.marks (by decide) (by decide) horder (.placed 1 47) ⟨.empty⟩
  refine ⟨plan, hmake, ?_⟩
  rw [(hsame deeds store registry hothers hevents).2.2.1, hothers.records.rawEvents, hevents]
  rfl

end ChainIndexer
