import ChainIndexer.Processing
import ChainIndexer.Proofs.Table
import Mathlib.Data.List.Find

/-!
# What registering adds

Registering for an event only ever adds addresses, all on the chain of the event and from its
position on. What it adds depends on which addresses of that chain are watched already.
-/

namespace ChainIndexer

/-- Whether a registration was made for an event. -/
structure Registration.IsFor (registration : Registration) (event : Event) : Prop where
  chain : registration.chain = event.chain
  block : registration.block = event.block
  logIndex : registration.logIndex = event.logIndex
  timestamp : registration.timestamp = event.timestamp

namespace Registry

/-- The registry with some registrations added. -/
def extend (registry : Registry) (registrations : List Registration) : Registry :=
  { registry with
    watched := registrations.foldl
      (fun watched registration => watched.insertNew registration.key registration.watchedAddress)
      registry.watched }

theorem extend_append (registry : Registry) (first second : List Registration) :
    registry.extend (first ++ second) = (registry.extend first).extend second := by
  simp only [extend, List.foldl_append]

theorem get?_extend (registry : Registry) (registrations : List Registration)
    (key : ChainAddress) :
    (registry.extend registrations).watched.get? key =
      (registry.watched.get? key).or
        ((registrations.find? (·.key = key)).map (·.watchedAddress)) :=
  Table.get?_foldl_insertNew registrations Registration.key Registration.watchedAddress
    registry.watched key

theorem register_eq_ok {registry after : Registry} {chain : ChainId} {address contract : String}
    {event : Event} {found : Option Registration}
    (h : registry.register chain address contract event = .ok (found, after)) :
    after = registry.extend found.toList ∧
      ∀ registration ∈ found, registry.watched.get? registration.key = none ∧
        registration.chain = chain ∧ registration.block = event.block ∧
        registration.logIndex = event.logIndex ∧ registration.timestamp = event.timestamp := by
  rw [register] at h
  split at h
  next =>
    dsimp only at h
    split at h
    next =>
      cases h
      exact ⟨rfl, fun registration hmem => absurd hmem (Option.not_mem_none registration)⟩
    next hnew =>
      cases h
      refine ⟨?_, ?_⟩
      · rw [extend, Option.toList_some, List.foldl_cons, List.foldl_nil, Table.insertNew,
          if_neg hnew]
      · rintro registration ⟨⟩
        rw [Table.contains, Bool.not_eq_true, Option.isSome_eq_false_iff,
          Option.isNone_iff_eq_none] at hnew
        exact ⟨hnew, rfl, rfl, rfl, rfl⟩
  next => cases h

/-- Whether each watched address stands under its own key. -/
def Keyed (registry : Registry) : Prop :=
  ∀ key watched, registry.watched.get? key = some watched → watched.address = key.address

theorem find?_watchedOn {registry : Registry} (h : registry.Keyed) (chain : ChainId)
    (address : String) :
    (registry.watchedOn chain).find? (·.address = address) =
      registry.watched.get? ⟨chain, address⟩ := by
  rw [watchedOn, Table.get?, Table.lookup_eq_find?, List.find?_map, List.find?_filter]
  congr 1
  refine List.find?_congr fun entry hentry => ?_
  obtain ⟨⟨chain', address'⟩, watched⟩ := entry
  have haddress : watched.address = address' := h _ _ (Table.mem_entries_iff.1 hentry)
  simp [haddress]

/-- Whether two registries know the same contracts and the same addresses of a chain. -/
structure AgreeOn (chain : ChainId) (a b : Registry) : Prop where
  contracts : a.contracts = b.contracts
  watched : ∀ address, a.watched.contains ⟨chain, address⟩ = b.watched.contains ⟨chain, address⟩

theorem AgreeOn.extend {chain : ChainId} {a b : Registry} (h : a.AgreeOn chain b)
    (registrations : List Registration) :
    (a.extend registrations).AgreeOn chain (b.extend registrations) := by
  refine ⟨h.contracts, fun address => ?_⟩
  rw [Table.contains, Table.contains, get?_extend, get?_extend, Option.isSome_or, Option.isSome_or]
  exact congrArg (· || _) (h.watched address)

theorem register_congr {a b after : Registry} {chain : ChainId} (hagree : a.AgreeOn chain b)
    {address contract : String} {event : Event} {found : Option Registration}
    (h : a.register chain address contract event = .ok (found, after)) :
    b.register chain address contract event = .ok (found, b.extend found.toList) := by
  rw [register] at h ⊢
  have hknown : b.hasContract contract = a.hasContract contract := by
    rw [hasContract, hasContract, hagree.contracts]
  rw [hknown]
  split at h
  next hcontract =>
    rw [if_pos hcontract]
    dsimp only at h ⊢
    rw [Registration.key, ← hagree.watched]
    split at h
    next hold =>
      cases h
      exact if_pos hold
    next hnew =>
      cases h
      refine (if_neg hnew).trans ?_
      have hnewer : ¬ b.watched.contains ⟨chain, Text.lowercase address⟩ = true := by
        rwa [← hagree.watched]
      rw [extend, Option.toList_some, List.foldl_cons, List.foldl_nil, Table.insertNew]
      exact congrArg Except.ok (congrArg _ (congrArg _ (if_neg hnewer).symm))
  next => cases h

end Registry

namespace HandledEvents

variable {event : Event} {requests : List RegistrationRequest} {registry after : Registry}
  {registered registrations : List Registration}

theorem registerAll_eq_ok
    (h : registerAll event requests registry registered = .ok (registrations, after)) :
    ∃ added, registrations = registered ++ added ∧ after = registry.extend added ∧
      ∀ registration ∈ added, registration.IsFor event ∧
        registry.watched.get? registration.key = none := by
  induction requests generalizing registry registered with
  | nil =>
    cases h
    exact ⟨[], (List.append_nil _).symm, rfl, fun _ hmem => absurd hmem List.not_mem_nil⟩
  | cons request rest ih =>
    rw [registerAll] at h
    cases hregister : registry.register event.chain request.address request.contract event with
    | error error =>
      rw [hregister] at h
      cases h
    | ok answer =>
      obtain ⟨found, between⟩ := answer
      obtain ⟨hbetween, hfound⟩ := Registry.register_eq_ok hregister
      rw [hregister] at h
      cases found with
      | none =>
        obtain rfl : between = registry := hbetween
        exact ih h
      | some first =>
        obtain ⟨added, hregistrations, hafter, hadded⟩ := ih h
        refine ⟨first :: added, ?_, ?_, ?_⟩
        · rw [hregistrations, List.append_assoc, List.singleton_append]
        · rw [hafter, hbetween, ← Registry.extend_append]
          rfl
        · intro registration hmem
          rcases List.mem_cons.1 hmem with rfl | hlater
          · obtain ⟨hnew, hchain, hblock, hlog, htime⟩ := hfound registration rfl
            exact ⟨⟨hchain, hblock, hlog, htime⟩, hnew⟩
          · obtain ⟨hfor, hnew⟩ := hadded registration hlater
            rw [hbetween, Registry.get?_extend, Option.or_eq_none_iff] at hnew
            exact ⟨hfor, hnew.1⟩

theorem registerAll_congr {a b : Registry} (hagree : a.AgreeOn event.chain b)
    (h : registerAll event requests a registered = .ok (registrations, after)) :
    ∃ left, registerAll event requests b registered = .ok (registrations, left) := by
  induction requests generalizing a b registered with
  | nil =>
    cases h
    exact ⟨b, rfl⟩
  | cons request rest ih =>
    rw [registerAll] at h ⊢
    cases hregister : a.register event.chain request.address request.contract event with
    | error error =>
      rw [hregister] at h
      cases h
    | ok answer =>
      obtain ⟨found, between⟩ := answer
      obtain ⟨rfl, _⟩ := Registry.register_eq_ok hregister
      rw [Registry.register_congr hagree hregister]
      rw [hregister] at h
      cases found with
      | none => exact ih hagree h
      | some first => exact ih (hagree.extend [first]) h

/-- Registering for an event adds what it reports, all of it for that event and new. -/
theorem registerFor_eq_ok (h : registerFor registry event requests = .ok (registrations, after)) :
    after = registry.extend registrations ∧
      ∀ registration ∈ registrations, registration.IsFor event ∧
        registry.watched.get? registration.key = none := by
  rw [registerFor] at h
  split at h
  next => cases h
  next =>
    obtain ⟨added, hregistrations, hafter, hadded⟩ := registerAll_eq_ok h
    rw [List.nil_append] at hregistrations
    subst hregistrations
    exact ⟨hafter, hadded⟩

theorem registerFor_congr {a b : Registry} (hagree : a.AgreeOn event.chain b)
    (h : registerFor a event requests = .ok (registrations, after)) :
    registerFor b event requests = .ok (registrations, b.extend registrations) := by
  have hknown : (fun request : RegistrationRequest => !b.hasContract request.contract) =
      fun request => !a.hasContract request.contract := by
    funext request
    rw [Registry.hasContract, Registry.hasContract, hagree.contracts]
  have hok : ∃ left, registerFor b event requests = .ok (registrations, left) := by
    rw [registerFor] at h ⊢
    rw [hknown]
    split at h
    next => cases h
    next => exact registerAll_congr hagree h
  obtain ⟨left, hleft⟩ := hok
  rw [hleft, (registerFor_eq_ok hleft).1]

end HandledEvents

end ChainIndexer
