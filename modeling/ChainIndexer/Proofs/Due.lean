import ChainIndexer.Config
import ChainIndexer.Proofs.Log
import ChainIndexer.Proofs.Registry
import ChainIndexer.Repo.Store

/-!
# Due events

Which events of a chain a store has to hold: those with a handler whose address is known from the
start, or was registered by an event that the store holds. A registry that reflects the store wants
exactly these of the events that are not covered yet.
-/

namespace ChainIndexer

/-- Where an event comes from, as addresses are watched. -/
def Event.source (event : Event) : ChainAddress := ⟨event.chain, Text.lowercase event.address⟩

instance (registration : Registration) (event : Event) : Decidable (registration.IsFor event) :=
  decidable_of_iff
    (registration.chain = event.chain ∧ registration.block = event.block ∧
      registration.logIndex = event.logIndex ∧ registration.timestamp = event.timestamp)
    ⟨fun ⟨chain, block, logIndex, timestamp⟩ => ⟨chain, block, logIndex, timestamp⟩,
      fun ⟨chain, block, logIndex, timestamp⟩ => ⟨chain, block, logIndex, timestamp⟩⟩

theorem Registration.IsFor.position {registration : Registration} {event : Event}
    (h : registration.IsFor event) : registration.position = event.position := by
  rw [Registration.position, Event.position, h.block, h.logIndex]

/-- Whether one of some addresses is where an event comes from, from the block of the event on. -/
def ContractAddress.anyWatches (addresses : List ContractAddress) (event : Event) : Bool :=
  addresses.any fun address =>
    (⟨address.chain, address.address⟩ : ChainAddress) = event.source
      ∧ address.startBlock ≤ event.block

namespace Store

/-- Whether an event that the store holds, at a smaller position, registered the address of an
event. -/
def registeredBefore (store : Store) (event : Event) : Bool :=
  store.registrations.values.any fun registration =>
    registration.key = event.source ∧ registration.position < event.position ∧
      ∃ earlier ∈ store.rawEvents, registration.IsFor earlier

/-- Whether an event of a chain is to be indexed, once everything before it is. -/
def isDue (store : Store) (contracts : List Contract) (handlers : HandlerTable) (chain : Chain)
    (event : Event) : Bool :=
  decide (chain.startBlock ≤ event.block) && handlers.hasHandler event.contract event.name
    && (ContractAddress.anyWatches (contracts.flatMap (·.addresses)) event
      || store.registeredBefore event)

/-- The checkpoint of a chain, fresh unless one is stored. -/
def checkpointOf (store : Store) (chain : Chain) : Checkpoint :=
  (store.checkpoints.get? chain.id).getD (.fresh chain)

/-- The events that a store holds of a chain. -/
def eventsOf (store : Store) (chain : ChainId) : List Event :=
  store.rawEvents.filter (·.chain = chain)

/-- Whether a store holds, in order and each once, the due events of a chain that the checkpoint of
the chain covers, and counts them. -/
structure Accurate (store : Store) (contracts : List Contract) (handlers : HandlerTable)
    (chain : Chain) (log : ChainLog chain.id) : Prop where
  events : store.eventsOf chain.id = log.events.filter fun event =>
    store.isDue contracts handlers chain event && (store.checkpointOf chain).covers event.position
  count : (store.checkpointOf chain).events = (store.eventsOf chain.id).length

/-- Whether every registration was made for an event that the store holds, for an address that is
not known from the start. -/
def Registers (store : Store) (contracts : List Contract) : Prop :=
  ∀ key registration, store.registrations.get? key = some registration →
    registration.key = key ∧ (Registry.ofContracts contracts).fixed.get? key = none ∧
      ∃ event ∈ store.rawEvents, registration.IsFor event

variable {store : Store} {contracts : List Contract} {event : Event}

theorem Accurate.lt_of_not_covers {handlers : HandlerTable} {chain : Chain}
    {log : ChainLog chain.id} (h : store.Accurate contracts handlers chain log)
    {earlier : Event} (hearlier : earlier ∈ store.rawEvents) (hchain : earlier.chain = chain.id)
    (hcovers : (store.checkpointOf chain).covers event.position = false) :
    earlier.position < event.position := by
  have hheld : earlier ∈ store.eventsOf chain.id :=
    List.mem_filter.2 ⟨hearlier, decide_eq_true hchain⟩
  rw [h.events, List.mem_filter, Bool.and_eq_true] at hheld
  refine Decidable.byContradiction fun hle => ?_
  rw [Checkpoint.covers_of_le (Position.not_lt.1 hle) hheld.2.2] at hcovers
  cases hcovers

theorem registeredBefore_iff (h : store.Registers contracts) :
    store.registeredBefore event = true ↔
      ∃ registration, store.registrations.get? event.source = some registration ∧
        registration.position < event.position := by
  rw [registeredBefore, List.any_eq_true]
  constructor
  · rintro ⟨registration, hmem, hholds⟩
    obtain ⟨hkey, hlt, -⟩ := of_decide_eq_true hholds
    obtain ⟨key, hget⟩ := Table.mem_values_iff.1 hmem
    have hsource : key = event.source := (h key registration hget).1.symm.trans hkey
    exact ⟨registration, hsource ▸ hget, hlt⟩
  · rintro ⟨registration, hget, hlt⟩
    obtain ⟨hkey, -, hearlier⟩ := h _ registration hget
    exact ⟨registration, Table.mem_values_iff.2 ⟨_, hget⟩, decide_eq_true ⟨hkey, hlt, hearlier⟩⟩

end Store

namespace Registry

/-- Whether events of a kind and from an address are indexed. -/
def wants (registry : Registry) (handlers : HandlerTable) (event : Event) : Bool :=
  handlers.hasHandler event.contract event.name
    && (registry.watched.get? event.source).any fun watched =>
      decide (watched.startBlock ≤ event.block)

theorem wants_extend {registry : Registry} {registrations : List Registration} {event : Event}
    (h : ∀ registration ∈ registrations, registration.chain ≠ event.chain)
    (handlers : HandlerTable) :
    (registry.extend registrations).wants handlers event = registry.wants handlers event := by
  have hnone : registrations.find? (·.key = event.source) = none := by
    refine List.find?_eq_none.2 fun registration hmem hkey => h registration hmem ?_
    exact congrArg ChainAddress.chain (of_decide_eq_true hkey)
  rw [wants, wants, get?_extend, hnone, Option.map_none, Option.or_none]

theorem get?_addFixed (fixed : Table ChainAddress WatchedAddress) (address : ContractAddress)
    (event : Event) :
    ((addFixed fixed address).get? event.source).any (fun watched =>
        decide (watched.startBlock ≤ event.block)) =
      ((fixed.get? event.source).any (fun watched => decide (watched.startBlock ≤ event.block))
        || ContractAddress.anyWatches [address] event) := by
  rw [addFixed, ContractAddress.anyWatches, List.any_cons, List.any_nil, Bool.or_false]
  by_cases hkey : (⟨address.chain, address.address⟩ : ChainAddress) = event.source
  · rw [hkey]
    cases fixed.get? event.source with
    | none => simp
    | some watched => simp
  · cases fixed.get? (⟨address.chain, address.address⟩ : ChainAddress) <;>
      simp [hkey, Ne.symm hkey]

theorem get?_foldl_addFixed (addresses : List ContractAddress)
    (fixed : Table ChainAddress WatchedAddress) (event : Event) :
    ((addresses.foldl addFixed fixed).get? event.source).any (fun watched =>
        decide (watched.startBlock ≤ event.block)) =
      ((fixed.get? event.source).any (fun watched => decide (watched.startBlock ≤ event.block))
        || ContractAddress.anyWatches addresses event) := by
  induction addresses generalizing fixed with
  | nil => exact (Bool.or_false _).symm
  | cons address rest ih =>
    have hcons : ContractAddress.anyWatches (address :: rest) event =
        (ContractAddress.anyWatches [address] event || ContractAddress.anyWatches rest event) := by
      simp only [ContractAddress.anyWatches, List.any_cons, List.any_nil, Bool.or_false]
    rw [List.foldl_cons, ih, get?_addFixed, hcons, Bool.or_assoc]

theorem any_fixed (contracts : List Contract) (event : Event) :
    ((ofContracts contracts).fixed.get? event.source).any (fun watched =>
        decide (watched.startBlock ≤ event.block)) =
      ContractAddress.anyWatches (contracts.flatMap (·.addresses)) event :=
  get?_foldl_addFixed _ .empty event

/-- Whether a registry watches what is known from the start and what a store has registered. -/
def Reflects (registry : Registry) (contracts : List Contract) (store : Store) : Prop :=
  ∀ key, registry.watched.get? key =
    ((ofContracts contracts).fixed.get? key).or
      ((store.registrations.get? key).map (·.watchedAddress))

theorem addFixed_keyed {fixed : Table ChainAddress WatchedAddress}
    (hfixed : ∀ key watched, fixed.get? key = some watched → watched.address = key.address)
    (address : ContractAddress) :
    ∀ key watched, (addFixed fixed address).get? key = some watched →
      watched.address = key.address := by
  intro key watched hget
  rw [addFixed] at hget
  cases hold : fixed.get? (⟨address.chain, address.address⟩ : ChainAddress) with
  | none =>
    simp only [hold, Table.get?_insert] at hget
    split at hget
    next heq =>
      cases hget
      rw [heq]
    next => exact hfixed key watched hget
  | some old =>
    simp only [hold, Table.get?_insert] at hget
    split at hget
    next heq =>
      cases hget
      rw [heq]
      exact hfixed _ old hold
    next => exact hfixed key watched hget

theorem fixed_keyed (contracts : List Contract) :
    ∀ key watched, (ofContracts contracts).fixed.get? key = some watched →
      watched.address = key.address := by
  refine List.foldlRecOn (motive := fun fixed : Table ChainAddress WatchedAddress =>
    ∀ key watched, fixed.get? key = some watched → watched.address = key.address)
    (contracts.flatMap (·.addresses)) addFixed ?_ fun fixed hfixed address _ =>
      addFixed_keyed hfixed address
  rintro _ _ ⟨⟩

variable {registry : Registry} {contracts : List Contract} {handlers : HandlerTable}
  {store : Store} {chain : Chain} {log : ChainLog chain.id} {event : Event}

theorem Reflects.keyed (h : registry.Reflects contracts store)
    (hregisters : store.Registers contracts) : registry.Keyed := by
  intro key watched hget
  rw [h, Option.or_eq_some_iff] at hget
  rcases hget with hfixed | ⟨-, hregistered⟩
  · exact fixed_keyed contracts key watched hfixed
  · obtain ⟨registration, hregistration, rfl⟩ := Option.map_eq_some_iff.1 hregistered
    exact congrArg ChainAddress.address (hregisters key registration hregistration).1

/-- Of the events that are not covered the due ones are wanted. -/
theorem wants_eq_isDue (h : registry.Reflects contracts store)
    (hregisters : store.Registers contracts)
    (haccurate : store.Accurate contracts handlers chain log)
    (hstart : chain.startBlock ≤ event.block) (hevent : event ∈ log.events)
    (hcovers : (store.checkpointOf chain).covers event.position = false) :
    registry.wants handlers event = store.isDue contracts handlers chain event := by
  rw [wants, Store.isDue, decide_eq_true hstart, Bool.true_and, h, ← any_fixed]
  congr 1
  cases hfixed : (ofContracts contracts).fixed.get? event.source with
  | some watched =>
    have hnone : store.registeredBefore event = false := by
      rw [Bool.eq_false_iff]
      intro hbefore
      obtain ⟨registration, hget, -⟩ := (Store.registeredBefore_iff hregisters).1 hbefore
      have hnew := (hregisters _ registration hget).2.1
      rw [hfixed] at hnew
      cases hnew
    rw [Option.some_or, hnone, Bool.or_false]
  | none =>
    rw [Option.none_or, Option.any_none, Bool.false_or, Bool.eq_iff_iff,
      Store.registeredBefore_iff hregisters]
    cases hget : store.registrations.get? event.source with
    | none => simp
    | some registration =>
      obtain ⟨hkey, -, earlier, hearlier, hfor⟩ := hregisters _ registration hget
      have hchain : earlier.chain = chain.id := by
        rw [← hfor.chain, ← log.own event hevent]
        exact congrArg ChainAddress.chain hkey
      have hlt : registration.position < event.position :=
        hfor.position ▸ haccurate.lt_of_not_covers hearlier hchain hcovers
      have hblock : registration.block ≤ event.block :=
        Position.block_le_of_le (Position.le_of_lt hlt)
      simp [Registration.watchedAddress, hblock, hlt]

end Registry

/-! ### Commits -/

namespace Store

/-- The events of a chain that are wanted and not covered yet. -/
def left (store : Store) (registry : Registry) (handlers : HandlerTable) (chain : Chain)
    (log : ChainLog chain.id) : List Event :=
  log.events.filter fun event =>
    registry.wants handlers event && !(store.checkpointOf chain).covers event.position

variable {store : Store} {unit : WriteUnit} {registry : Registry} {contracts : List Contract}
  {handlers : HandlerTable} {chain : Chain} {log : ChainLog chain.id}

theorem get?_write_registrations (store : Store) (unit : WriteUnit) (key : ChainAddress) :
    (store.write unit).registrations.get? key =
      (store.registrations.get? key).or (unit.registrations.find? (·.key = key)) := by
  have hget := Table.get?_foldl_insertNew unit.registrations Registration.key id
    store.registrations key
  rwa [Option.map_id_fun, id] at hget

theorem Registers.write (h : store.Registers contracts)
    (hnew : ∀ registration ∈ unit.registrations,
      (Registry.ofContracts contracts).fixed.get? registration.key = none ∧
        ∃ event ∈ unit.rawEvents, registration.IsFor event) :
    (store.write unit).Registers contracts := by
  intro key registration hget
  rw [get?_write_registrations, Option.or_eq_some_iff] at hget
  rcases hget with hold | ⟨-, hfind⟩
  · obtain ⟨hkey, hfixed, event, hevent, hfor⟩ := h key registration hold
    exact ⟨hkey, hfixed, event, List.mem_append_left _ hevent, hfor⟩
  · obtain ⟨hfixed, event, hevent, hfor⟩ := hnew registration (List.mem_of_find?_eq_some hfind)
    have hkey : registration.key = key := by simpa using List.find?_some hfind
    exact ⟨hkey, hkey ▸ hfixed, event, List.mem_append_right _ hevent, hfor⟩

/-- Whether what a unit registers for a chain is not covered yet and not before what is reached
newly. -/
def RegistersLast (store : Store) (unit : WriteUnit) (chain : Chain) (newly : Position → Bool) :
    Prop :=
  ∀ registration ∈ unit.registrations, registration.chain = chain.id →
    (store.checkpointOf chain).covers registration.position = false ∧
      ∀ position, newly position = true → position ≤ registration.position

/-- A unit does not change whether events that are covered by then are due. -/
theorem isDue_write {newly : Position → Bool} {event : Event}
    (hregisters : store.Registers contracts) (hafter : (store.write unit).Registers contracts)
    (hlast : store.RegistersLast unit chain newly) (hchain : event.chain = chain.id)
    (hcovers : ((store.checkpointOf chain).covers event.position || newly event.position) = true) :
    (store.write unit).isDue contracts handlers chain event =
      store.isDue contracts handlers chain event := by
  have hlate : ∀ registration ∈ unit.registrations, registration.key = event.source →
      ¬ registration.position < event.position := by
    intro registration hmem hkey hlt
    obtain ⟨hopen, hreached⟩ :=
      hlast registration hmem ((congrArg ChainAddress.chain hkey).trans hchain)
    rcases Bool.or_eq_true_iff.1 hcovers with hcovered | hnewly
    · rw [Checkpoint.covers_of_le (Position.le_of_lt hlt) hcovered] at hopen
      cases hopen
    · exact Position.le_iff.1 (hreached _ hnewly) hlt
  have hbefore : (store.write unit).registeredBefore event = store.registeredBefore event := by
    rw [Bool.eq_iff_iff, registeredBefore_iff hregisters, registeredBefore_iff hafter]
    constructor
    · rintro ⟨registration, hget, hlt⟩
      rw [get?_write_registrations, Option.or_eq_some_iff] at hget
      rcases hget with hold | ⟨-, hfind⟩
      · exact ⟨registration, hold, hlt⟩
      · have hkey : registration.key = event.source := by simpa using List.find?_some hfind
        exact absurd hlt (hlate registration (List.mem_of_find?_eq_some hfind) hkey)
    · rintro ⟨registration, hget, hlt⟩
      refine ⟨registration, ?_, hlt⟩
      rw [get?_write_registrations, hget, Option.some_or]
  rw [isDue, isDue, hbefore]

/-- A unit that commits the events left of a chain that its progress reaches keeps the store
accurate. -/
theorem Accurate.write {newly : Position → Bool} (h : store.Accurate contracts handlers chain log)
    (hstart : ∀ position, (store.checkpointOf chain).covers position = false →
      chain.startBlock ≤ position.block)
    (hregisters : store.Registers contracts) (hreflects : registry.Reflects contracts store)
    (hafter : (store.write unit).Registers contracts)
    (hlast : store.RegistersLast unit chain newly)
    (hcovers : ∀ position, ((store.write unit).checkpointOf chain).covers position =
      ((store.checkpointOf chain).covers position || newly position))
    (hcommitted : unit.rawEvents.filter (·.chain = chain.id) =
      (store.left registry handlers chain log).filter fun event => newly event.position)
    (hcount : ((store.write unit).checkpointOf chain).events =
      (store.checkpointOf chain).events
        + (unit.rawEvents.filter (·.chain = chain.id)).length) :
    (store.write unit).Accurate contracts handlers chain log := by
  have hevents : (store.write unit).eventsOf chain.id =
      store.eventsOf chain.id ++ unit.rawEvents.filter (·.chain = chain.id) :=
    List.filter_append ..
  refine ⟨?_, by rw [hcount, h.count, hevents, List.length_append]⟩
  have hdue : ∀ event ∈ log.events,
      ((store.write unit).isDue contracts handlers chain event
        && ((store.write unit).checkpointOf chain).covers event.position) =
      (store.isDue contracts handlers chain event
        && ((store.checkpointOf chain).covers event.position || newly event.position)) := by
    intro event hevent
    rw [hcovers]
    cases hnow : (store.checkpointOf chain).covers event.position || newly event.position with
    | false => rw [Bool.and_false, Bool.and_false]
    | true => rw [isDue_write hregisters hafter hlast (log.own event hevent) hnow]
  have hwanted : ∀ event ∈ log.events,
      (store.checkpointOf chain).covers event.position = false →
        registry.wants handlers event = store.isDue contracts handlers chain event :=
    fun event hevent hopen =>
      Registry.wants_eq_isDue hreflects hregisters h (hstart _ hopen) hevent hopen
  have hcut := log.inOrder.filter_append
    (p := fun event => (store.checkpointOf chain).covers event.position)
    fun a b hlt hb => Checkpoint.covers_of_le (Position.le_of_lt hlt) hb
  rw [hevents, List.filter_congr hdue, hcommitted, h.events, left, List.filter_filter]
  conv_rhs => rw [← hcut, List.filter_append, List.filter_filter, List.filter_filter]
  congr 1
  · refine List.filter_congr fun event _ => ?_
    cases (store.checkpointOf chain).covers event.position <;> simp
  · refine List.filter_congr fun event hevent => ?_
    cases hopen : (store.checkpointOf chain).covers event.position with
    | true => simp
    | false => simp [hwanted event hevent hopen, Bool.and_comm]

theorem left_write {newly : Position → Bool} {registry' : Registry}
    (hcovers : ∀ position, ((store.write unit).checkpointOf chain).covers position =
      ((store.checkpointOf chain).covers position || newly position))
    (hwants : ∀ event ∈ log.events,
      registry'.wants handlers event = registry.wants handlers event) :
    (store.write unit).left registry' handlers chain log =
      (store.left registry handlers chain log).filter fun event => !newly event.position := by
  rw [left, left, List.filter_filter]
  refine List.filter_congr fun event hevent => ?_
  rw [hwants event hevent, hcovers, Bool.not_or]
  cases newly event.position <;> simp

end Store

theorem Registry.Reflects.write {registry : Registry} {contracts : List Contract} {store : Store}
    (h : registry.Reflects contracts store) (unit : WriteUnit) :
    (registry.extend unit.registrations).Reflects contracts (store.write unit) := by
  intro key
  rw [get?_extend, h, Store.get?_write_registrations, Option.map_or, Option.or_assoc]

end ChainIndexer
