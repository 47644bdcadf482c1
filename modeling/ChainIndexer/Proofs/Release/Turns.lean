import ChainIndexer.Proofs.Release.Parking
import Mathlib.Data.Finset.Card
import Mathlib.Data.List.Chain

/-!
# Taking turns

Chains are served in a circle: each unit goes to the next chain with pending events after the one
served last. A chain that keeps waiting is passed by each other chain once at most, whatever becomes
of the other lanes in between, so it is served within as many units as there are chains.
-/

namespace ChainIndexer

/-- A unit with events, the lanes that it was taken from, and what is left of them. -/
structure Serving where
  lanes : Table ChainId Lane
  events : List Event
  left : Table ChainId Lane
deriving DecidableEq

/-- Whether a unit has events, all from the front of the lane of a chain, with the other lanes left as
they were. -/
structure Serving.Of (serving : Serving) (chain : ChainId) : Prop where
  events : serving.events ≠ []
  lane : ∃ lane rest, serving.lanes.get? chain = some lane ∧ lane.pending = serving.events ++ rest ∧
    serving.left.get? chain = some { lane with pending := rest }
  others : ∀ other, other ≠ chain → serving.left.get? other = serving.lanes.get? other

/-- Whether a chain had pending events when a unit was taken. -/
def Serving.Awaits (serving : Serving) (chain : ChainId) : Prop :=
  ∃ lane, serving.lanes.get? chain = some lane ∧ lane.pending ≠ []

/-- Whether one chain comes before another in the circle behind a chain, which itself comes last. -/
def Sooner (last chain other : Nat) : Prop :=
  last < chain ∧ (other ≤ last ∨ chain < other) ∨ chain ≤ last ∧ other ≤ last ∧ chain < other

/-- Whether a unit goes to the chain that comes first behind another, of those with events. -/
def Serving.Follows (serving : Serving) (chain last : ChainId) : Prop :=
  ∀ other, serving.Awaits other → other = chain ∨ Sooner last chain other

/-- What may happen to an orderer: a step, or any change of its lanes from outside, which may be put
in, taken out, filled and given events back. -/
inductive TurnMove where
  | change (lanes : Table ChainId Lane) (failures : List ChainFailure) (stopRequested : Bool)
  | step

namespace Orderer

/-- The unit that comes next, if it has events. -/
def serving? (orderer : Orderer) : Option Serving :=
  match orderer.nextStep with
  | (.unit (event :: events), after) => some ⟨orderer.drain.lanes, event :: events, after.lanes⟩
  | _ => none

/-- The units with events that are taken in the course of some moves. -/
def servings : Orderer → List TurnMove → List Serving
  | _, [] => []
  | orderer, .change lanes failures stopRequested :: moves =>
    servings { orderer with lanes, failures, stopRequested } moves
  | orderer, .step :: moves => orderer.serving?.toList ++ servings orderer.nextStep.2 moves

end Orderer

/-! ### The circle -/

section Circle

variable {first second third chain : Nat}

theorem Sooner.trans (h : Sooner chain first second) (h' : Sooner chain second third) :
    Sooner chain first third := by
  unfold Sooner at *
  omega

instance : Trans (Sooner chain) (Sooner chain) (Sooner chain) := ⟨Sooner.trans⟩

theorem Sooner.ne (h : Sooner chain first second) : first ≠ second := by
  unfold Sooner at h
  omega

/-- In the circle behind a chain that is passed, the chains that pass it come in their order. -/
theorem Sooner.rotate (h : Sooner first second chain) (hfirst : first ≠ chain)
    (hsecond : second ≠ chain) : Sooner chain first second := by
  unfold Sooner at *
  omega

/-- Chains that are served one after another, and pass a waiting chain, are all different. -/
theorem nodup_of_passing {chains : List Nat}
    (h : chains.IsChain fun last next => chain = next ∨ Sooner last next chain)
    (hmissing : chain ∉ chains) : chains.Nodup := by
  have hcircle : chains.IsChain (Sooner chain) := by
    refine h.imp_of_mem_imp fun last next hlast hnext hpasses => ?_
    have hne : ∀ other ∈ chains, other ≠ chain := fun other hmem heq => hmissing (heq ▸ hmem)
    rcases hpasses with heq | hsooner
    · exact absurd heq.symm (hne next hnext)
    · exact hsooner.rotate (hne last hlast) (hne next hnext)
  exact hcircle.pairwise.imp Sooner.ne

/-- So the waiting chain is among them if they are as many as there are chains. -/
theorem mem_of_passing {chains : List Nat}
    (h : chains.IsChain fun last next => chain = next ∨ Sooner last next chain)
    {configured : Finset Nat} (hchain : chain ∈ configured)
    (hchains : ∀ served ∈ chains, served ∈ configured)
    (hcard : configured.card ≤ chains.length) : chain ∈ chains := by
  by_contra hmissing
  have hothers : chains.toFinset ⊆ configured.erase chain := by
    intro served hserved
    have hmem := List.mem_toFinset.1 hserved
    exact Finset.mem_erase.2 ⟨fun heq => hmissing (heq ▸ hmem), hchains served hmem⟩
  have hlt : chains.length < configured.card :=
    calc chains.length = chains.toFinset.card :=
          (List.toFinset_card_of_nodup (nodup_of_passing h hmissing)).symm
      _ ≤ (configured.erase chain).card := Finset.card_le_card hothers
      _ < configured.card := Finset.card_erase_lt_of_mem hchain
  omega

end Circle

/-! ### Single units -/

namespace Serving

variable {serving : Serving} {chain other : ChainId}

theorem Of.awaits (h : serving.Of chain) : serving.Awaits chain := by
  obtain ⟨lane, rest, hget, hpending, -⟩ := h.lane
  refine ⟨lane, hget, fun hempty => h.events ?_⟩
  exact (List.append_eq_nil_iff.1 (hpending.symm.trans hempty)).1

theorem Of.unique (h : serving.Of chain) (h' : serving.Of other) : other = chain := by
  by_contra hne
  obtain ⟨lane, rest, hget, hpending, hleft⟩ := h'.lane
  rw [h.others other hne, hget] at hleft
  have hlane : lane.pending = rest := congrArg Lane.pending (Option.some.inj hleft)
  rw [hpending, List.append_left_eq_self] at hlane
  exact h.events hlane

end Serving

namespace Orderer

variable {orderer : Orderer} {chain : ChainId}

/-- The chain in turn comes before every other one with events. -/
theorem sooner_of_nextServed {last other : ChainId} {lane : Lane}
    (h : orderer.nextServed = some chain) (hlast : orderer.lastServed = some last)
    (hget : orderer.lanes.get? other = some lane) (hpending : lane.pending ≠ []) :
    other = chain ∨ Sooner last chain other := by
  have hready : other ∈ (orderer.lanes.entries.filter (·.2.hasPending)).map (·.1) := by
    refine List.mem_map.2 ⟨(other, lane), List.mem_filter.2 ⟨Table.mem_entries_iff.2 hget, ?_⟩, rfl⟩
    simpa [Lane.hasPending] using hpending
  have hsorted : ((orderer.lanes.entries.filter (·.2.hasPending)).map (·.1)).Pairwise (· < ·) := by
    rw [List.pairwise_map]
    exact (orderer.lanes.ordered.filter _).imp Nat.compare_eq_lt.1
  rw [nextServed, hlast, Option.or_eq_some_iff] at h
  generalize (orderer.lanes.entries.filter (·.2.hasPending)).map (·.1) = ready at h hready hsorted
  unfold Sooner
  rcases h with hfound | ⟨hnone, hfirst⟩
  · -- The chain stands behind the last one, and what stands before it does not.
    obtain ⟨hbehind, early, late, rfl, hearly⟩ := List.find?_eq_some_iff_append.1 hfound
    rw [Option.all_some, decide_eq_true_eq] at hbehind
    rcases List.mem_append.1 hready with hother | hother
    · have hle := hearly other hother
      rw [Option.all_some, Bool.not_eq_true', decide_eq_false_iff_not, Nat.not_lt] at hle
      exact Or.inr (Or.inl ⟨hbehind, Or.inl hle⟩)
    · rcases List.mem_cons.1 hother with rfl | hlate
      · exact Or.inl rfl
      · have hlt := List.rel_of_pairwise_cons (List.pairwise_append.1 hsorted).2.1 hlate
        exact Or.inr (Or.inl ⟨hbehind, Or.inr hlt⟩)
  · -- No chain stands behind the last one, and this is the first of all.
    have hle : ∀ chain ∈ ready, chain ≤ last := by
      intro chain hchain
      have hnot := List.find?_eq_none.1 hnone chain hchain
      rwa [Option.all_some, decide_eq_true_eq, Nat.not_lt] at hnot
    obtain ⟨rest, rfl⟩ := List.head?_eq_some_iff.1 hfirst
    rcases List.mem_cons.1 hready with rfl | hrest
    · exact Or.inl rfl
    · have hlt := List.rel_of_pairwise_cons hsorted hrest
      exact Or.inr (Or.inr ⟨hle chain List.mem_cons_self, hle other hready, hlt⟩)

theorem takeUnordered_of_some (hserved : orderer.nextServed = some chain) :
    ∃ lane, orderer.lanes.get? chain = some lane ∧ lane.pending ≠ [] ∧
      orderer.takeUnordered = (lane.pending.take orderer.maxEventsPerUnit, [],
        { orderer.changeLane chain fun lane => (lane.takeFront orderer.maxEventsPerUnit).2 with
          lastServed := some chain }) := by
  obtain ⟨lane, hget, hpending⟩ := pending_of_nextServed hserved
  refine ⟨lane, hget, hpending, ?_⟩
  rw [takeUnordered, hserved]
  dsimp only
  rw [hget]
  rfl

/-- What a unit takes from the chain in turn. -/
def servingOf (orderer : Orderer) (chain : ChainId) (lane : Lane) : Serving where
  lanes := orderer.lanes
  events := lane.pending.take orderer.maxEventsPerUnit
  left := (orderer.changeLane chain fun lane => (lane.takeFront orderer.maxEventsPerUnit).2).lanes

theorem servingOf_of {lane : Lane} (hroom : 1 ≤ orderer.maxEventsPerUnit)
    (hget : orderer.lanes.get? chain = some lane) (hpending : lane.pending ≠ []) :
    (orderer.servingOf chain lane).Of chain := by
  refine ⟨fun hnone => ?_, ⟨lane, lane.pending.drop orderer.maxEventsPerUnit, hget, ?_, ?_⟩,
    fun other hother => ?_⟩
  · rcases List.take_eq_nil_iff.1 hnone with hzero | hempty
    · omega
    · exact hpending hempty
  · exact (List.take_append_drop _ _).symm
  · rw [servingOf, changeLane, Table.get?_modify, if_pos rfl, hget]
    rfl
  · rw [servingOf, changeLane, Table.get?_modify, if_neg hother]

/-- A step without a unit of events leaves the chain served last as it is, and a unit goes to the
chain in turn. -/
theorem serving?_cases (hmode : orderer.mode = .unordered) (hroom : 1 ≤ orderer.maxEventsPerUnit) :
    orderer.nextStep.2.mode = .unordered ∧
      orderer.nextStep.2.maxEventsPerUnit = orderer.maxEventsPerUnit ∧
      (orderer.serving? = none ∧ orderer.nextStep.2.lastServed = orderer.lastServed ∨
        ∃ serving chain, orderer.serving? = some serving ∧ serving.Of chain ∧
          orderer.nextStep.2.lastServed = some chain ∧
          ∀ last, orderer.lastServed = some last → serving.Follows chain last) := by
  have hidle : orderer.drain.takeEvents.1 = [] → orderer.drain.takeEvents.2.2 = orderer.drain :=
    takeEvents_rest_of_nil (show 1 ≤ orderer.drain.maxEventsPerUnit from hroom)
  rw [serving?]
  generalize hnext : orderer.nextStep = next
  obtain ⟨step, after⟩ := next
  cases turn_of_nextStep hnext with
  | reorg | failure => exact ⟨hmode, rfl, Or.inl ⟨rfl, rfl⟩⟩
  | finished hnone | stopped hnone | blocked hnone =>
    rw [hidle hnone]
    exact ⟨hmode, rfl, Or.inl ⟨rfl, rfl⟩⟩
  | unit =>
    have htakes : orderer.drain.takeEvents = orderer.drain.takeUnordered := by
      rw [takeEvents, show orderer.drain.mode = .unordered from hmode]
    rw [htakes]
    cases hserved : orderer.drain.nextServed with
    | none =>
      rw [takeUnordered, hserved]
      exact ⟨hmode, rfl, Or.inl ⟨rfl, rfl⟩⟩
    | some chain =>
      obtain ⟨lane, hget, hpending, htaken⟩ := takeUnordered_of_some hserved
      have hof := servingOf_of (show 1 ≤ orderer.drain.maxEventsPerUnit from hroom) hget hpending
      rw [htaken]
      refine ⟨hmode, rfl, Or.inr ⟨orderer.drain.servingOf chain lane, chain, ?_, hof, rfl, ?_⟩⟩
      · have hevents : lane.pending.take orderer.drain.maxEventsPerUnit ≠ [] := hof.events
        obtain ⟨event, events, hcons⟩ := List.exists_cons_of_ne_nil hevents
        rw [servingOf, hcons]
      · rintro last hlast other ⟨waiting, hwaiting, hsome⟩
        exact sooner_of_nextServed hserved hlast hwaiting hsome

/-! ### Runs -/

/-- The units of a run go to one chain each, and each of them to the next one with events. -/
theorem exists_turns (hmode : orderer.mode = .unordered) (hroom : 1 ≤ orderer.maxEventsPerUnit)
    (moves : List TurnMove) :
    ∃ turns : List (Serving × ChainId), turns.map (·.1) = orderer.servings moves ∧
      (∀ turn ∈ turns, turn.1.Of turn.2) ∧
      turns.IsChain (fun last next => next.1.Follows next.2 last.2) ∧
      ∀ first ∈ turns.head?, ∀ last, orderer.lastServed = some last →
        first.1.Follows first.2 last := by
  induction moves generalizing orderer with
  | nil =>
    exact ⟨[], rfl, fun turn hturn => absurd hturn List.not_mem_nil, .nil,
      fun first hfirst => by cases hfirst⟩
  | cons move moves ih =>
    cases move with
    | change lanes failures stopRequested => exact ih hmode hroom
    | step =>
      obtain ⟨hmode', hroom', hcases⟩ := serving?_cases hmode hroom
      obtain ⟨turns, hservings, hof, hchain, hhead⟩ := ih hmode' (hroom' ▸ hroom)
      rcases hcases with ⟨hnone, hlast⟩ | ⟨serving, chain, hserving, hserved, hlast, hfollows⟩
      · refine ⟨turns, ?_, hof, hchain, hlast ▸ hhead⟩
        rw [servings, hnone, hservings]
        rfl
      · refine ⟨(serving, chain) :: turns, ?_, ?_, ?_, ?_⟩
        · rw [servings, hserving, List.map_cons, hservings]
          rfl
        · exact List.forall_mem_cons.2 ⟨hserved, hof⟩
        · exact List.isChain_cons.2 ⟨fun first hfirst => hhead first hfirst chain hlast, hchain⟩
        · rintro first hfirst last hbefore
          cases hfirst
          exact hfollows last hbefore

/-- No chain is served twice while another one waits. So over any run, in which lanes may be added,
removed, filled and given events back at any time, a chain that has events at each of as many units
as there are chains is served by one of them. -/
theorem takes_turns (maxEventsPerUnit : Nat) (moves : List TurnMove) :
    ∃ turns : List (Serving × ChainId),
      turns.map (·.1) = (start .unordered maxEventsPerUnit).servings moves ∧
      (∀ turn ∈ turns, turn.1.Of turn.2 ∧ ∀ other, turn.1.Of other → other = turn.2) ∧
      ∀ series, series <:+: turns → ∀ chain, (∀ turn ∈ series, turn.1.Awaits chain) →
        (∀ between, between <:+: series.map (·.2) → chain ∉ between → between.Nodup) ∧
        ∀ configured : Finset ChainId, chain ∈ configured →
          (∀ turn ∈ series, ∀ other lane, turn.1.lanes.get? other = some lane →
            other ∈ configured) →
          configured.card ≤ series.length → chain ∈ series.map (·.2) := by
  have hmode : (start .unordered maxEventsPerUnit).mode = .unordered := rfl
  obtain ⟨turns, hservings, hof, hchain, -⟩ := exists_turns hmode (Nat.le_max_right _ _) moves
  have hunique : ∀ turn ∈ turns, turn.1.Of turn.2 ∧ ∀ other, turn.1.Of other → other = turn.2 :=
    fun turn hturn => ⟨hof turn hturn, fun other => (hof turn hturn).unique⟩
  refine ⟨turns, hservings, hunique, fun series hseries chain hawaits => ?_⟩
  have hpassing : (series.map (·.2)).IsChain fun last next =>
      chain = next ∨ Sooner last next chain := by
    have hfollowing := List.IsChain.infix hchain hseries
    rw [List.isChain_map]
    refine hfollowing.imp_of_mem_imp fun last next _ hnext hfollows => ?_
    exact hfollows chain (hawaits next hnext)
  refine ⟨fun between hbetween => ?_, fun configured hmem hlanes hcard => ?_⟩
  · have hpasses := List.IsChain.infix hpassing hbetween
    exact nodup_of_passing hpasses
  · refine mem_of_passing hpassing hmem (fun served hserved => ?_) (by rwa [List.length_map])
    obtain ⟨turn, hturn, rfl⟩ := List.mem_map.1 hserved
    obtain ⟨lane, hget, -⟩ := (hof turn (hseries.subset hturn)).awaits
    exact hlanes turn hturn turn.2 lane hget

/-- With an event more on the first of two chains, the chains alternate all the same. -/
example :
    let event (chain : ChainId) : Event := { (default : Event) with chain }
    let lanes : Table ChainId Lane := .ofList
      [(1, { Lane.start 1 4 with pending := [event 1, event 1] }),
        (2, { Lane.start 2 4 with pending := [event 2] })]
    ((start .unordered 1).servings [.change lanes [] false, .step, .step, .step]).map
      (·.events.map (·.chain)) = [[1], [2], [1]] := by decide

end Orderer

end ChainIndexer
