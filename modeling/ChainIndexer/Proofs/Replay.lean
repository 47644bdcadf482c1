import ChainIndexer.Proofs.Processing

/-!
# Replaying deeds

Cut into units or not, each event finds the entities and addresses that all events before it left,
as far as its handler reads only what it loads. So what a list of events does is determined by the
events.
-/

namespace ChainIndexer

/-- Whether an event did what its handler does on some entities and a registry. -/
def Deed.IsAt (deed : Deed) (handlers : HandlerTable) (entities : Table EntityKey Json)
    (registry : Registry) : Prop :=
  match handlers.forEvent? deed.event with
  | none => deed.changes = [] ∧ deed.registrations = []
  | some handler =>
    ∃ before after : HandlerContext, before.changes = [] ∧ before.requests = [] ∧
      (∀ key ∈ (handler.handle deed.event).reads before,
        before.answer key = .ok (entities.get? key)) ∧
      (handler.handle deed.event).run before = (.ok (), after) ∧ after.changes = deed.changes ∧
      ∃ left, HandledEvents.registerFor registry deed.event after.requests =
        .ok (deed.registrations, left)

/-- Whether each event did what its handler does on what the events before it left. -/
def Replays (handlers : HandlerTable) : Table EntityKey Json → Registry → List Deed → Prop
  | _, _, [] => True
  | entities, registry, deed :: rest =>
    deed.IsAt handlers entities registry ∧
      Replays handlers (Store.applyChanges entities deed.changes)
        (registry.extend deed.registrations) rest

theorem writesOf_changes (deeds : List Deed) :
    (writesOf deeds).map (·.1) = deeds.flatMap (·.changes) := by
  induction deeds with
  | nil => rfl
  | cons deed rest ih =>
    have hwrites : deed.writes.map (·.1) = deed.changes := by
      rw [Deed.writes, List.map_map]
      exact List.map_id _
    rw [writesOf, List.flatMap_cons, List.map_append, hwrites, List.flatMap_cons]
    exact congrArg (deed.changes ++ ·) ih

theorem writesOf_cons (deed : Deed) (rest : List Deed) :
    writesOf (deed :: rest) = deed.writes ++ writesOf rest := rfl

theorem registrationsOf_cons (deed : Deed) (rest : List Deed) :
    registrationsOf (deed :: rest) = deed.registrations ++ registrationsOf rest := rfl

theorem writesOf_append (first second : List Deed) :
    writesOf (first ++ second) = writesOf first ++ writesOf second := List.flatMap_append

theorem registrationsOf_append (first second : List Deed) :
    registrationsOf (first ++ second) = registrationsOf first ++ registrationsOf second :=
  List.flatMap_append

theorem replays_append {handlers : HandlerTable} {entities : Table EntityKey Json}
    {registry : Registry} {first second : List Deed} :
    Replays handlers entities registry (first ++ second) ↔
      Replays handlers entities registry first ∧
        Replays handlers (Store.applyChanges entities ((writesOf first).map (·.1)))
          (registry.extend (registrationsOf first)) second := by
  induction first generalizing entities registry with
  | nil => exact ⟨fun h => ⟨trivial, h⟩, fun h => h.2⟩
  | cons deed rest ih =>
    have hchanges : (writesOf (deed :: rest)).map (·.1) =
        deed.changes ++ (writesOf rest).map (·.1) := by
      rw [writesOf_changes, writesOf_changes, List.flatMap_cons]
    rw [List.cons_append, Replays, Replays, ih, hchanges, registrationsOf_cons,
      Store.applyChanges_append, Registry.extend_append, and_assoc]

theorem Deed.IsAt.unique {handlers : HandlerTable} {entities : Table EntityKey Json}
    {registry : Registry} {a b : Deed} (ha : a.IsAt handlers entities registry)
    (hb : b.IsAt handlers entities registry) (hevent : a.event = b.event) :
    a.changes = b.changes ∧ a.registrations = b.registrations := by
  unfold Deed.IsAt at ha hb
  rw [← hevent] at hb
  cases hhandler : handlers.forEvent? a.event with
  | none =>
    rw [hhandler] at ha hb
    exact ⟨ha.1.trans hb.1.symm, ha.2.trans hb.2.symm⟩
  | some handler =>
    rw [hhandler] at ha hb
    obtain ⟨before, after, hchanges, hrequests, hreads, hrun, hafter, left, hregister⟩ := ha
    obtain ⟨before', after', hchanges', hrequests', hreads', hrun', hafter', left', hregister'⟩ :=
      hb
    have halike : before.Alike before' :=
      ⟨hchanges.trans hchanges'.symm, hrequests.trans hrequests'.symm⟩
    obtain ⟨_, _, hsame⟩ := Script.run_congr (handler.handle a.event) halike
      fun key hkey hkey' => (hreads key hkey).trans (hreads' key hkey').symm
    rw [hrun, hrun'] at hsame
    rw [hsame.requests, hregister'] at hregister
    have hregistrations := (Prod.mk.inj (Except.ok.inj hregister)).1
    exact ⟨hafter.symm.trans (hsame.changes.trans hafter'), hregistrations.symm⟩

theorem Deed.IsAt.sound {handlers : HandlerTable} {entities : Table EntityKey Json}
    {registry : Registry} {deed : Deed} (h : deed.IsAt handlers entities registry) :
    (deed.changes.map (·.key)).Nodup ∧
      ∀ registration ∈ deed.registrations, registration.IsFor deed.event := by
  unfold Deed.IsAt at h
  cases hhandler : handlers.forEvent? deed.event with
  | none =>
    rw [hhandler] at h
    rw [h.1, h.2]
    exact ⟨List.nodup_nil, fun _ hmem => absurd hmem List.not_mem_nil⟩
  | some handler =>
    rw [hhandler] at h
    obtain ⟨before, after, hchanges, _, _, hrun, hafter, left, hregister⟩ := h
    refine ⟨?_, fun registration hmem =>
      ((HandledEvents.registerFor_eq_ok hregister).2 registration hmem).1⟩
    have hnone : (before.changes.map (·.key)).Nodup := by
      rw [hchanges]
      exact List.nodup_nil
    have hnodup := (handler.handle deed.event).run_changes_nodup hnone
    rw [hrun] at hnodup
    exact hafter ▸ hnodup

theorem Replays.sound {handlers : HandlerTable} {entities : Table EntityKey Json}
    {registry : Registry} {deeds : List Deed} (h : Replays handlers entities registry deeds) :
    ∀ deed ∈ deeds, (deed.changes.map (·.key)).Nodup ∧
      ∀ registration ∈ deed.registrations, registration.IsFor deed.event := by
  induction deeds generalizing entities registry with
  | nil => exact fun _ hmem => absurd hmem List.not_mem_nil
  | cons first rest ih =>
    intro deed hmem
    rcases List.mem_cons.1 hmem with rfl | hrest
    · exact h.1.sound
    · exact ih h.2 deed hrest

theorem Replays.unique {handlers : HandlerTable} {entities : Table EntityKey Json}
    {registry : Registry} {a b : List Deed} (ha : Replays handlers entities registry a)
    (hb : Replays handlers entities registry b) (hevents : a.map (·.event) = b.map (·.event)) :
    writesOf a = writesOf b ∧ registrationsOf a = registrationsOf b := by
  induction a generalizing b entities registry with
  | nil =>
    obtain rfl : b = [] := List.map_eq_nil_iff.1 hevents.symm
    exact ⟨rfl, rfl⟩
  | cons first rest ih =>
    cases b with
    | nil => cases hevents
    | cons first' rest' =>
      obtain ⟨hevent, hevents⟩ := List.cons.inj hevents
      obtain ⟨hfirst, hrest⟩ := ha
      obtain ⟨hfirst', hrest'⟩ := hb
      obtain ⟨hchanges, hregistrations⟩ := hfirst.unique hfirst' hevent
      rw [← hchanges, ← hregistrations] at hrest'
      obtain ⟨hwrites, hregistered⟩ := ih hrest hrest' hevents
      have hsame : first.event = first'.event := hevent
      have hhead : first.writes = first'.writes := by
        rw [Deed.writes, Deed.writes, hchanges, hsame]
      rw [writesOf_cons, writesOf_cons, registrationsOf_cons, registrationsOf_cons, hhead, hwrites,
        hregistrations, hregistered]
      exact ⟨rfl, rfl⟩

/-- The events of a unit replay on what was there before the unit, if their handlers read only what
they load. -/
theorem replays_of_handlesAll {handlers : HandlerTable} {entities present : Table EntityKey Json}
    {loaded : LoadedEntities} {asked : List EntityKey} {events : List Event}
    {handled : HandledEvents} (hloaded : loaded.Holds entities asked)
    (hasked : ∀ event ∈ events, ∀ key ∈ handlers.asks entities event, key ∈ asked)
    (hall : HandlesAll handlers loaded events handled)
    (hreads : ∀ deed ∈ deedsOf handlers entities loaded events handled,
      ∀ key ∈ deed.reads, key ∈ deed.loads)
    (hpresent : ∀ key, present.get? key =
      (handled.overlay.get? key).elim (entities.get? key) (·.fields?)) :
    Replays handlers present handled.registry
      (deedsOf handlers entities loaded events handled) := by
  induction events generalizing handled present with
  | nil => trivial
  | cons event rest ih =>
    obtain ⟨changes, registrations, hresult, _, hrest⟩ := hall
    have hadds := handledThrough_adds hresult
    have hdeed : deedOf handlers entities loaded handled event =
        ⟨event, handlers.asks entities event, readsOf handlers loaded handled event, changes,
          registrations⟩ := by
      rw [deedOf, hresult]
      rfl
    refine ⟨?_, ?_⟩
    · have hread := hreads _ List.mem_cons_self
      have hasks := hasked event List.mem_cons_self
      rw [hdeed] at hread ⊢
      unfold Deed.IsAt
      dsimp only at hread ⊢
      obtain ⟨hhandler, rfl, rfl⟩ | ⟨handler, context, left, hhandler, hrun, rfl, hregister⟩ :=
        handleEvent_eq_ok hresult
      · rw [hhandler]
        exact ⟨rfl, rfl⟩
      · rw [readsOf, hhandler, Option.elim_some] at hread
        rw [hhandler]
        refine ⟨_, context, rfl, rfl, fun key hkey => ?_, hrun, rfl, left, hregister⟩
        have hstored := hloaded key
        rw [if_pos (hasks key (hread key hkey))] at hstored
        rw [hpresent, HandlerContext.answer]
        cases hoverlay : handled.overlay.get? key with
        | some change =>
          rw [HandlerContext.start, hoverlay]
          rfl
        | none =>
          rw [HandlerContext.start, hoverlay, hstored]
          rfl
    · rw [hdeed, ← hadds.registry]
      refine ih (fun other hother => hasked other (List.mem_cons_of_mem _ hother)) hrest
        (fun deed hmem => hreads deed (List.mem_cons_of_mem _ hmem)) fun key => ?_
      have hoverlay : (handledThrough handlers loaded handled event).overlay =
          handled.overlay.insertAll
            ((changes.map fun change => (change, event.origin)).map fun write =>
              (write.1.key, write.1)) := by
        rw [hadds.overlay, List.map_map]
        rfl
      have hchanges : changes = (changes.map fun change => (change, event.origin)).map (·.1) := by
        rw [List.map_map]
        exact (List.map_id _).symm
      dsimp only
      rw [hoverlay, get?_insertAll_writes, hchanges, Store.get?_applyChanges, ← hchanges, hpresent]
      cases lastWrite? (changes.map fun change => (change, event.origin)) key <;> rfl

end ChainIndexer
