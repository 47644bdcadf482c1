import ChainIndexer.Proofs.Indexed

/-!
# Leaving events out

When no event that stays has to do with an event before it that goes, the events that stay do the
same without the others: units cut at the same places come to the same deeds.
-/

namespace ChainIndexer

/-- Whether an event that goes is on another chain than every later one that stays, and changes no
entity that the later one has to do with. -/
def Apart (keep : Origin → Bool) (deeds : List Deed) : Prop :=
  deeds.Pairwise fun a b => keep a.event.origin = false → keep b.event.origin = true →
    a.event.chain ≠ b.event.chain ∧ ∀ key ∈ a.changes.map (·.key), key ∉ b.keys

/-- The deeds of the events that stay. -/
def surviving (keep : Origin → Bool) (deeds : List Deed) : List Deed :=
  deeds.filter fun deed => keep deed.event.origin

variable {keep : Origin → Bool} {handlers : HandlerTable}

theorem flatMap_surviving {α : Type} {deeds : List Deed} {leaves : Deed → List α}
    {stays : α → Bool}
    (h : ∀ deed ∈ deeds, ∀ item ∈ leaves deed, stays item = keep deed.event.origin) :
    (surviving keep deeds).flatMap leaves = (deeds.flatMap leaves).filter stays := by
  induction deeds with
  | nil => rfl
  | cons deed rest ih =>
    have hfirst := h deed List.mem_cons_self
    have hrest := ih fun other hmem => h other (List.mem_cons_of_mem _ hmem)
    rw [List.flatMap_cons, List.filter_append, ← hrest, surviving, List.filter_cons]
    by_cases hkeep : keep deed.event.origin = true
    · have hall : (leaves deed).filter stays = leaves deed :=
        List.filter_eq_self.2 fun item hitem => (hfirst item hitem).trans hkeep
      rw [if_pos hkeep, hall]
      rfl
    · have hnone : (leaves deed).filter stays = [] :=
        List.filter_eq_nil_iff.2 fun item hitem => hfirst item hitem ▸ hkeep
      rw [if_neg hkeep, hnone]
      rfl

theorem writesOf_surviving (keep : Origin → Bool) (deeds : List Deed) :
    writesOf (surviving keep deeds) = (writesOf deeds).filter fun write => keep write.2 := by
  refine flatMap_surviving fun deed _ write hwrite => ?_
  obtain ⟨change, _, rfl⟩ := List.mem_map.1 hwrite
  rfl

/-! ### One event -/

theorem handleEvent_congr {loaded loaded' : LoadedEntities} {handled handled' : HandledEvents}
    {event : Event} {changes : List EntityChange} {registrations : List Registration}
    (hanswer : ∀ key ∈ readsOf handlers loaded handled event,
      (HandlerContext.start event loaded handled.overlay).answer key =
        (HandlerContext.start event loaded' handled'.overlay).answer key)
    (hregistry : handled.registry.AgreeOn event.chain handled'.registry)
    (h : handleEvent handlers loaded handled event = .ok (changes, registrations)) :
    handleEvent handlers loaded' handled' event = .ok (changes, registrations) ∧
      readsOf handlers loaded' handled' event = readsOf handlers loaded handled event := by
  unfold readsOf at *
  rw [handleEvent]
  obtain ⟨hhandler, rfl, rfl⟩ | ⟨handler, context, left, hhandler, hrun, rfl, hregister⟩ :=
    handleEvent_eq_ok h
  · rw [hhandler]
    exact ⟨rfl, rfl⟩
  · rw [hhandler] at hanswer ⊢
    have halike : (HandlerContext.start event loaded handled.overlay).Alike
        (.start event loaded' handled'.overlay) := ⟨rfl, rfl⟩
    obtain ⟨hreads, hresult, hafter⟩ :=
      Script.run_congr (handler.handle event) halike fun key hkey _ => hanswer key hkey
    refine ⟨?_, hreads.symm⟩
    dsimp only
    generalize (handler.handle event).run (.start event loaded' handled'.overlay) = outcome
      at hresult hafter ⊢
    obtain ⟨result, context'⟩ := outcome
    rw [hrun] at hresult hafter
    obtain rfl : .ok () = result := hresult
    dsimp only at hafter ⊢
    rw [← hafter.requests, HandledEvents.registerFor_congr hregistry hregister, ← hafter.changes]
    rfl

theorem Registry.AgreeOn.extend_other {chain : ChainId} {a b : Registry} (h : a.AgreeOn chain b)
    {registrations : List Registration}
    (hother : ∀ registration ∈ registrations, registration.chain ≠ chain) :
    (a.extend registrations).AgreeOn chain b := by
  refine ⟨h.contracts, fun address => ?_⟩
  have hnone : registrations.find? (·.key = ⟨chain, address⟩) = none := by
    rw [List.find?_eq_none]
    intro registration hmem hkey
    exact hother registration hmem (congrArg ChainAddress.chain (of_decide_eq_true hkey))
  rw [Table.contains, Registry.get?_extend, hnone, Option.map_none, Option.or_none]
  exact h.watched address

/-! ### One unit -/

theorem deedsOf_loads {entities : Table EntityKey Json} {loaded : LoadedEntities}
    {events : List Event} {handled : HandledEvents} {deed : Deed}
    (h : deed ∈ deedsOf handlers entities loaded events handled) :
    deed.event ∈ events ∧ deed.loads = handlers.asks entities deed.event := by
  induction events generalizing handled with
  | nil => cases h
  | cons event rest ih =>
    rcases List.mem_cons.1 h with rfl | hrest
    · exact ⟨List.mem_cons_self, rfl⟩
    · exact (ih hrest).imp_left (List.mem_cons_of_mem _)

theorem exists_deed_of_mem {entities : Table EntityKey Json} {loaded : LoadedEntities}
    {events : List Event} {handled : HandledEvents} {event : Event} (h : event ∈ events) :
    ∃ deed ∈ deedsOf handlers entities loaded events handled, deed.event = event :=
  List.mem_map.1 ((deedsOf_events handlers entities loaded events handled).symm ▸ h)

/-- What two states of handling have in common for the events of some deeds that stay. -/
structure AgreeFor (keep : Origin → Bool) (deeds : List Deed) (handled handled' : HandledEvents) :
    Prop where
  overlay : ∀ deed ∈ deeds, keep deed.event.origin = true → ∀ key ∈ deed.keys,
    handled.overlay.get? key = handled'.overlay.get? key
  registry : ∀ deed ∈ deeds, keep deed.event.origin = true →
    handled.registry.AgreeOn deed.event.chain handled'.registry

theorem AgreeFor.both {deed : Deed} {deeds : List Deed}
    {handled handled' after after' : HandledEvents} {event : Event} {changes : List EntityChange}
    {registrations : List Registration}
    (h : AgreeFor keep (deed :: deeds) handled handled')
    (hadds : handled.Adds after event changes registrations)
    (hadds' : handled'.Adds after' event changes registrations) :
    AgreeFor keep deeds after after' := by
  refine ⟨fun other hmem hkeep key hkey => ?_, fun other hmem hkeep => ?_⟩
  · rw [hadds.overlay, hadds'.overlay, Table.get?_insertAll, Table.get?_insertAll,
      h.overlay other (List.mem_cons_of_mem _ hmem) hkeep key hkey]
  · rw [hadds.registry, hadds'.registry]
    exact (h.registry other (List.mem_cons_of_mem _ hmem) hkeep).extend registrations

theorem AgreeFor.one {deed : Deed} {deeds : List Deed} {handled handled' after : HandledEvents}
    (h : AgreeFor keep (deed :: deeds) handled handled')
    (hadds : handled.Adds after deed.event deed.changes deed.registrations)
    (hfor : ∀ registration ∈ deed.registrations, registration.IsFor deed.event)
    (hgone : keep deed.event.origin = false) (happart : Apart keep (deed :: deeds)) :
    AgreeFor keep deeds after handled' := by
  have hfirst := (List.pairwise_cons.1 happart).1
  refine ⟨fun other hmem hkeep key hkey => ?_, fun other hmem hkeep => ?_⟩
  · have hnew : key ∉ (deed.changes.map fun change => (change.key, change)).map (·.1) := by
      rw [List.map_map]
      exact fun hchanged => (hfirst other hmem hgone hkeep).2 key hchanged hkey
    rw [hadds.overlay, Table.get?_insertAll_of_not_mem hnew]
    exact h.overlay other (List.mem_cons_of_mem _ hmem) hkeep key hkey
  · rw [hadds.registry]
    refine (h.registry other (List.mem_cons_of_mem _ hmem) hkeep).extend_other ?_
    intro registration hregistration heq
    exact (hfirst other hmem hgone hkeep).1 ((hfor registration hregistration).chain.symm.trans heq)

/-- The events of a unit that stay come to the same deeds without the others. -/
theorem handlesAll_surviving {entities entities' : Table EntityKey Json}
    {loaded loaded' : LoadedEntities} {asked asked' : List EntityKey} {events : List Event}
    {handled handled' : HandledEvents} (hall : HandlesAll handlers loaded events handled)
    (hloaded : loaded.Holds entities asked) (hloaded' : loaded'.Holds entities' asked')
    (hasked : ∀ event ∈ events, ∀ key ∈ handlers.asks entities event, key ∈ asked)
    (hasked' : ∀ event ∈ events, keep event.origin = true →
      ∀ key ∈ handlers.asks entities' event, key ∈ asked')
    (hreads : ∀ deed ∈ deedsOf handlers entities loaded events handled,
      ∀ key ∈ deed.reads, key ∈ deed.loads)
    (happart : Apart keep (deedsOf handlers entities loaded events handled))
    (hentities : ∀ deed ∈ deedsOf handlers entities loaded events handled,
      keep deed.event.origin = true → ∀ key ∈ deed.keys, entities.get? key = entities'.get? key)
    (hagree : AgreeFor keep (deedsOf handlers entities loaded events handled) handled handled') :
    HandlesAll handlers loaded' (events.filter fun event => keep event.origin) handled' ∧
      deedsOf handlers entities' loaded' (events.filter fun event => keep event.origin) handled' =
        surviving keep (deedsOf handlers entities loaded events handled) := by
  induction events generalizing handled handled' with
  | nil => exact ⟨trivial, rfl⟩
  | cons event rest ih =>
    obtain ⟨changes, registrations, hresult, hlast, hrest⟩ := hall
    have hadds := handledThrough_adds hresult
    have hdeed : deedOf handlers entities loaded handled event =
        ⟨event, handlers.asks entities event, readsOf handlers loaded handled event, changes,
          registrations⟩ := by
      rw [deedOf, hresult]
      rfl
    have hlater := fun other : HandledEvents => @ih _ other hrest
      (fun other hother => hasked other (List.mem_cons_of_mem _ hother))
      (fun other hother => hasked' other (List.mem_cons_of_mem _ hother))
      (fun deed hmem => hreads deed (List.mem_cons_of_mem _ hmem))
      (List.pairwise_cons.1 happart).2
      (fun deed hmem => hentities deed (List.mem_cons_of_mem _ hmem))
    rw [deedsOf, hdeed] at hreads happart hentities hagree ⊢
    rw [surviving, List.filter_cons, List.filter_cons]
    dsimp only
    by_cases hkeep : keep event.origin = true
    · have hkeys : ∀ key ∈ handlers.asks entities event, entities.get? key = entities'.get? key :=
        fun key hkey => hentities _ List.mem_cons_self hkeep key
          (List.mem_append_left _ (List.mem_append_left _ hkey))
      have hasks := (handlers.asks_congr event hkeys).1
      have hanswer : ∀ key ∈ readsOf handlers loaded handled event,
          (HandlerContext.start event loaded handled.overlay).answer key =
            (HandlerContext.start event loaded' handled'.overlay).answer key := by
        intro key hkey
        have hload := hreads _ List.mem_cons_self key hkey
        have hstored := hloaded key
        have hstored' := hloaded' key
        rw [if_pos (hasked event List.mem_cons_self key hload)] at hstored
        rw [if_pos (hasked' event List.mem_cons_self hkeep key (hasks ▸ hload)),
          ← hkeys key hload] at hstored'
        have hoverlay := hagree.overlay _ List.mem_cons_self hkeep key
          (List.mem_append_left _ (List.mem_append_left _ hload))
        unfold HandlerContext.answer HandlerContext.start
        rw [hoverlay, hstored, hstored']
      obtain ⟨hresult', hreads'⟩ := handleEvent_congr hanswer
        (hagree.registry _ List.mem_cons_self hkeep) hresult
      have hdeed' : deedOf handlers entities' loaded' handled' event =
          ⟨event, handlers.asks entities event, readsOf handlers loaded handled event, changes,
            registrations⟩ := by
        rw [deedOf, hresult', hreads', hasks]
        rfl
      obtain ⟨hallRest, hdeedsRest⟩ := hlater _ (hagree.both hadds (handledThrough_adds hresult'))
      rw [if_pos hkeep, if_pos hkeep]
      refine ⟨⟨changes, registrations, hresult', hlast.imp_right ?_, hallRest⟩, ?_⟩
      · rintro rfl
        rfl
      · rw [deedsOf, hdeed', hdeedsRest]
        rfl
    · rw [if_neg hkeep, if_neg hkeep]
      have hfor := fun registration hmem => (handleEvent_registrations hresult registration hmem).1
      exact hlater handled' (hagree.one hadds hfor (Bool.eq_false_iff.2 hkeep) happart)

theorem loadOutcome_surviving {entities entities' : Table EntityKey Json}
    {loaded : LoadedEntities} {events : List Event} {handled : HandledEvents}
    (houtcome : ∀ event ∈ events, handlers.loadOutcome entities event = .ok ())
    (hentities : ∀ deed ∈ deedsOf handlers entities loaded events handled,
      keep deed.event.origin = true → ∀ key ∈ deed.keys, entities.get? key = entities'.get? key) :
    ∀ event ∈ events.filter (keep ·.origin), handlers.loadOutcome entities' event = .ok () := by
  intro event hevent
  obtain ⟨hmem, hkeep⟩ := List.mem_filter.1 hevent
  obtain ⟨deed, hdeed, rfl⟩ := exists_deed_of_mem hmem
  rw [← houtcome deed.event hmem]
  refine (handlers.asks_congr deed.event fun key hkey => ?_).2.symm
  refine hentities deed hdeed hkeep key (List.mem_append_left _ (List.mem_append_left _ ?_))
  rwa [(deedsOf_loads hdeed).2]

theorem unit_surviving {store store' : Store} {registry registry' : Registry} {events : List Event}
    {loaded : LoadedEntities} {processed : ProcessedUnit}
    (hload : runLoaders Repo.inMemory handlers events .empty store = (.ok loaded, store))
    (hprocess :
      (processEvents Repo.inMemory handlers registry events store).result = .ok processed)
    (hreads : ∀ deed ∈ deedsOf handlers store.entities loaded (events.take processed.applied)
      (.start registry), ∀ key ∈ deed.reads, key ∈ deed.loads)
    (happart : Apart keep (deedsOf handlers store.entities loaded (events.take processed.applied)
      (.start registry)))
    (hentities : ∀ deed ∈ deedsOf handlers store.entities loaded (events.take processed.applied)
      (.start registry), keep deed.event.origin = true →
        ∀ key ∈ deed.keys, store.entities.get? key = store'.entities.get? key)
    (hagree : AgreeFor keep (deedsOf handlers store.entities loaded
      (events.take processed.applied) (.start registry)) (.start registry) (.start registry')) :
    ∃ (kept : List Event) (loaded' : LoadedEntities) (handled' : HandledEvents),
      runLoaders Repo.inMemory handlers kept .empty store' = (.ok loaded', store') ∧
      (processEvents Repo.inMemory handlers registry' kept store').result =
        .ok (handled'.toUnit store') ∧
      kept.take (handled'.toUnit store').applied = kept ∧
      handled'.writes = writesOf (deedsOf handlers store'.entities loaded' kept
        (.start registry')) ∧
      deedsOf handlers store'.entities loaded' kept (.start registry') =
        surviving keep (deedsOf handlers store.entities loaded (events.take processed.applied)
          (.start registry)) := by
  obtain ⟨_, _, hall, _⟩ := unit_adds hload hprocess
  have hloaded := holds_of_runLoaders hload
  have hasked : ∀ event ∈ events.take processed.applied, ∀ key ∈ handlers.asks store.entities event,
      key ∈ events.flatMap (handlers.asks store.entities) := fun event hevent key hkey =>
    List.mem_flatMap.2 ⟨event, List.mem_of_mem_take hevent, hkey⟩
  have houtcome : ∀ event ∈ events.take processed.applied,
      handlers.loadOutcome store.entities event = .ok () := fun event hevent =>
    loadOutcome_of_runLoaders (LoadedEntities.empty_holds _) hload event
      (List.mem_of_mem_take hevent)
  obtain ⟨loaded', hload', hloaded'⟩ :=
    runLoaders_inMemory (LoadedEntities.empty_holds store'.entities)
      (loadOutcome_surviving houtcome hentities)
  have hasked' : ∀ event ∈ events.take processed.applied, keep event.origin = true →
      ∀ key ∈ handlers.asks store'.entities event,
        key ∈ [] ++ ((events.take processed.applied).filter (keep ·.origin)).flatMap
          (handlers.asks store'.entities) := fun event hevent hkeep key hkey =>
    List.mem_flatMap.2 ⟨event, List.mem_filter.2 ⟨hevent, hkeep⟩, hkey⟩
  obtain ⟨hall', hdeeds'⟩ := handlesAll_surviving hall hloaded hloaded' hasked hasked' hreads
    happart hentities hagree
  obtain ⟨handled', hrun'⟩ := runHandlers_of_handlesAll hall'
  obtain ⟨happlied', hwrites', _⟩ := handlesAll_adds store'.entities hrun' hall' rfl
  refine ⟨_, loaded', handled', hload', ?_, ?_, hwrites', hdeeds'⟩
  · rw [processEvents_inMemory hload' hrun']
  · refine List.take_of_length_le (Nat.le_of_eq ?_)
    exact (happlied'.trans (Nat.zero_add _)).symm

/-! ### Whole runs -/

theorem writesOf_nodup {deeds : List Deed} (hdistinct : (deeds.map (·.event.origin)).Nodup)
    (hkeys : ∀ deed ∈ deeds, (deed.changes.map (·.key)).Nodup) :
    ((writesOf deeds).map fun write => (write.1.key, write.2)).Nodup := by
  induction deeds with
  | nil => exact List.nodup_nil
  | cons deed rest ih =>
    obtain ⟨hfirst, hrest⟩ := List.nodup_cons.1 hdistinct
    rw [writesOf_cons, List.map_append, List.nodup_append]
    refine ⟨?_, ih hrest fun other hmem => hkeys other (List.mem_cons_of_mem _ hmem), ?_⟩
    · rw [Deed.writes, List.map_map]
      have hdeed := hkeys deed List.mem_cons_self
      rw [List.Nodup, List.pairwise_map] at hdeed ⊢
      exact hdeed.imp fun hne heq => hne (congrArg Prod.fst heq)
    · rintro pair hpair _ hother rfl
      obtain ⟨write, hwrite, rfl⟩ := List.mem_map.1 hpair
      obtain ⟨change, _, rfl⟩ := List.mem_map.1 hwrite
      obtain ⟨write', hwrite', heq⟩ := List.mem_map.1 hother
      obtain ⟨other, hmem, hwrites⟩ := List.mem_flatMap.1 hwrite'
      obtain ⟨change', _, rfl⟩ := List.mem_map.1 hwrites
      exact hfirst (List.mem_map.2 ⟨other, hmem, congrArg Prod.snd heq⟩)

theorem Store.Records.get?_surviving {store store' : Store} {deeds : List Deed}
    (h : store.Records deeds) (h' : store'.Records (surviving keep deeds)) {key : EntityKey}
    (hkept : ∀ deed ∈ deeds, key ∈ deed.changes.map (·.key) → keep deed.event.origin = true) :
    store.entities.get? key = store'.entities.get? key := by
  rw [h.entities, h'.entities, get?_applyChanges, get?_applyChanges, writesOf_surviving,
    lastWrite?_filter]
  intro write hwrite hkey
  obtain ⟨deed, hmem, hwrites⟩ := List.mem_flatMap.1 hwrite
  obtain ⟨change, hchange, rfl⟩ := List.mem_map.1 hwrites
  exact hkept deed hmem (List.mem_map.2 ⟨change, hchange, hkey⟩)

theorem Registry.AgreeOn.surviving {chain : ChainId} {a b : Registry} (h : a.AgreeOn chain b)
    {deeds : List Deed}
    (hfor : ∀ deed ∈ deeds, ∀ registration ∈ deed.registrations, registration.IsFor deed.event)
    (hkept : ∀ deed ∈ deeds, deed.event.chain = chain → keep deed.event.origin = true) :
    (a.extend (registrationsOf deeds)).AgreeOn chain
      (b.extend (registrationsOf (surviving keep deeds))) := by
  induction deeds generalizing a b with
  | nil => exact h
  | cons deed rest ih =>
    have hforRest := fun other hmem => hfor other (List.mem_cons_of_mem deed hmem)
    have hkeptRest := fun other hmem => hkept other (List.mem_cons_of_mem deed hmem)
    rw [registrationsOf_cons, extend_append, ChainIndexer.surviving, List.filter_cons]
    by_cases hkeep : keep deed.event.origin = true
    · rw [if_pos hkeep, registrationsOf_cons, extend_append]
      exact ih (h.extend deed.registrations) hforRest hkeptRest
    · rw [if_neg hkeep]
      refine ih (h.extend_other fun registration hmem heq => hkeep ?_) hforRest hkeptRest
      have hchain := (hfor deed List.mem_cons_self registration hmem).chain
      exact hkept deed List.mem_cons_self (hchain.symm.trans heq)

theorem surviving_append (keep : Origin → Bool) (first second : List Deed) :
    surviving keep (first ++ second) = surviving keep first ++ surviving keep second :=
  List.filter_append ..

/-- If the events that go are apart from those that stay, these could have been committed alone. -/
theorem Indexed.surviving {start registry : Registry} {deeds : List Deed} {store : Store}
    (h : Indexed handlers start deeds store registry)
    (hdistinct : (deeds.map (·.event.origin)).Nodup) (happart : Apart keep deeds) :
    ∃ store' registry', Indexed handlers start (surviving keep deeds) store' registry' := by
  induction h with
  | empty => exact ⟨.empty, start, .empty⟩
  | @unit deeds store after registry events loaded processed checkpoints blocks before hload
      hprocess hreads hcommit ih =>
    have hsound := (Indexed.unit before hload hprocess hreads hcommit).replays.sound
    have hnodup := writesOf_nodup hdistinct fun deed hmem => (hsound deed hmem).1
    obtain ⟨happartBefore, happartUnit, happartAcross⟩ := List.pairwise_append.1 happart
    have hdistinctBefore : (deeds.map (·.event.origin)).Nodup :=
      hdistinct.sublist ((List.sublist_append_left _ _).map _)
    obtain ⟨store', registry', h'⟩ := ih hdistinctBefore happartBefore
    have hentities : ∀ deed ∈ deedsOf handlers store.entities loaded
        (events.take processed.applied) (.start registry), keep deed.event.origin = true →
          ∀ key ∈ deed.keys, store.entities.get? key = store'.entities.get? key := by
      intro deed hmem hkeep key hkey
      refine before.records.get?_surviving h'.records fun earlier hearlier hchanged => ?_
      refine Bool.of_not_eq_false fun hgone => ?_
      exact (happartAcross earlier hearlier deed hmem hgone hkeep).2 key hchanged hkey
    have hagree : AgreeFor keep (deedsOf handlers store.entities loaded
        (events.take processed.applied) (.start registry)) (.start registry)
        (.start registry') := by
      refine ⟨fun _ _ _ _ _ => rfl, fun deed hmem hkeep => ?_⟩
      have hsame : start.AgreeOn deed.event.chain start := ⟨rfl, fun _ => rfl⟩
      rw [HandledEvents.start, HandledEvents.start, before.registry_eq, h'.registry_eq]
      refine hsame.surviving (fun earlier hearlier =>
        (before.replays.sound earlier hearlier).2) fun earlier hearlier hchain => ?_
      refine Bool.of_not_eq_false fun hgone => ?_
      exact (happartAcross earlier hearlier deed hmem hgone hkeep).1 hchain
    obtain ⟨kept, loaded', handled', hload', hprocess', hlength, hwrites', hdeeds'⟩ :=
      unit_surviving hload hprocess hreads happartUnit hentities hagree
    have hreads' : ∀ deed ∈ deedsOf handlers store'.entities loaded'
        (kept.take (handled'.toUnit store').applied) (.start registry'),
          ∀ key ∈ deed.reads, key ∈ deed.loads := by
      rw [hlength, hdeeds']
      exact fun deed hmem => hreads deed (List.mem_filter.1 hmem).1
    have hnodup' : ((writesOf (ChainIndexer.surviving keep deeds) ++ handled'.writes).map
        fun write => (write.1.key, write.2)).Nodup := by
      rw [hwrites', hdeeds', ← writesOf_append, ← surviving_append, writesOf_surviving]
      exact hnodup.sublist (List.filter_sublist.map _)
    have hcommit' : store'.commit _ = .ok (store'.write
        { rawEvents := kept.take (handled'.toUnit store').applied
          changes := (handled'.toUnit store').changes
          history := (handled'.toUnit store').history
          registrations := (handled'.toUnit store').registrations
          checkpoints := checkpoints
          blocks := blocks }) := h'.records.holds.commit_eq_ok hnodup' rfl
    have hafter := Indexed.unit h' hload' hprocess' hreads' hcommit'
    rw [hlength, hdeeds', ← surviving_append] at hafter
    exact ⟨_, _, hafter⟩

end ChainIndexer
