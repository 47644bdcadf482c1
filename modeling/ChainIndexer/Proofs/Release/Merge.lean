import ChainIndexer.Proofs.Release.Reads
import Mathlib.Data.List.Sort

/-!
# The merge of all chains

Whatever batches the chains bring, whenever these arrive and however large the units are, an ordered
release stands before all later ones, except those of lanes that were live with nothing pending. So
if no lane goes on after it was live, what is released is the one merge of all chains.
-/

namespace ChainIndexer

namespace EventKey

theorem lt_irrefl (a : EventKey) : ¬ a < a := not_lt.2 (le_refl a)

theorem lt_of_le_of_ne {a b : EventKey} (h : a ≤ b) (hne : a ≠ b) : a < b := by
  obtain ⟨timestamp, chain, block, logIndex⟩ := a
  obtain ⟨timestamp', chain', block', logIndex'⟩ := b
  rw [le_iff, lt_iff] at *
  simp only [ne_eq, EventKey.mk.injEq] at *
  unfold ChainId at *
  omega

end EventKey

/-- Events with different keys can be sorted. -/
theorem exists_sorted {events : List Event} (h : events.Pairwise fun a b => a.key ≠ b.key) :
    ∃ sorted : List Event, (sorted.Pairwise fun a b => a.key < b.key) ∧
      ∀ event, event ∈ sorted ↔ event ∈ events := by
  refine ⟨events.mergeSort fun a b => decide (a.key ≤ b.key), ?_, fun event => List.mem_mergeSort⟩
  have htrans (a b c : Event) (hab : decide (a.key ≤ b.key)) (hbc : decide (b.key ≤ c.key)) :
      decide (a.key ≤ c.key) :=
    decide_eq_true (EventKey.le_trans (of_decide_eq_true hab) (of_decide_eq_true hbc))
  have htotal (a b : Event) : decide (a.key ≤ b.key) || decide (b.key ≤ a.key) := by
    simpa using EventKey.le_total a.key b.key
  have hsorted := List.pairwise_mergeSort htrans htotal events
  have hdifferent := ((List.mergeSort_perm events fun a b => decide (a.key ≤ b.key)).pairwise_iff
    (R := fun a b => a.key ≠ b.key) Ne.symm).2 h
  refine (hsorted.and hdifferent).imp fun {a b} ⟨hle, hne⟩ => ?_
  exact EventKey.lt_of_le_of_ne (of_decide_eq_true hle) hne

/-- Sorted lists with the same events are the same. -/
theorem eq_of_sorted {first second : List Event}
    (hfirst : first.Pairwise fun a b => a.key < b.key)
    (hsecond : second.Pairwise fun a b => a.key < b.key)
    (hmem : ∀ event, event ∈ first ↔ event ∈ second) : first = second := by
  have : Std.Irrefl fun a b : Event => a.key < b.key := ⟨fun a => EventKey.lt_irrefl a.key⟩
  have : Std.Antisymm fun a b : Event => a.key < b.key :=
    ⟨fun a b hab hba => absurd (EventKey.lt_of_lt_of_le hab (EventKey.le_of_lt hba))
      (EventKey.lt_irrefl a.key)⟩
  exact hfirst.eq_of_mem_iff hsecond hmem

namespace Released

/-- Whether no lane was passed. -/
def PassesNone (release : Released) : Prop :=
  ∀ entry ∈ release.orderer.lanes.entries, entry.2.isPassed = false

instance : DecidablePred PassesNone := fun release =>
  inferInstanceAs (Decidable (∀ entry ∈ release.orderer.lanes.entries, entry.2.isPassed = false))

theorem Precedes.lt {release : Released} {later : Event} (h : release.Precedes later)
    (hnone : release.PassesNone) : release.event.key < later.key := by
  refine h.resolve_right fun ⟨_, lane, hget, hpassed⟩ => ?_
  rw [hnone _ (Table.mem_entries_iff.2 hget)] at hpassed
  cases hpassed

end Released

namespace Orderer

variable {orderer : Orderer} {streams coming : ChainId → List QueueItem} {taken : List Event}

theorem Reads.nextStep (h : orderer.Reads streams coming taken)
    (hstreams : ∀ chain, ∀ event ∈ eventsOf (streams chain), event.chain = chain)
    (hother : ∀ events, orderer.nextStep.1 ≠ .unit events) :
    orderer.nextStep.2.Reads streams coming taken := by
  generalize hnext : orderer.nextStep = next at hother ⊢
  obtain ⟨step, after⟩ := next
  obtain ⟨-, hstep⟩ := nextStep_cases (h.drain.own hstreams) hnext
  have hnothing : orderer.drain.Gives after [] → after.Reads streams coming taken := fun hgives =>
    List.append_nil taken ▸ h.drain.gives hgives
  cases step with
  | unit events => exact absurd rfl (hother events)
  | reorg reorg =>
    obtain ⟨chain, lane, -, -, rfl⟩ := hstep
    have hchanged := h.drain.changeLane chain (coming chain) (f := fun lane => lane.takeReorg.2)
      fun _ _ hlane => hlane.of_lane rfl rfl rfl rfl rfl
    rwa [Function.update_eq_self] at hchanged
  | failure failure => exact hnothing hstep
  | stopped => exact hnothing hstep
  | finished => exact hnothing hstep
  | blocked awaited => exact hnothing hstep

/-- All lanes are done when the orderer says so. -/
theorem nextStep_finished (h : orderer.nextStep.1 = .finished) :
    ∀ lane ∈ orderer.nextStep.2.lanes.values, lane.isDone = true := by
  have hturn := nextStep_turn orderer
  rw [h] at hturn
  generalize orderer.nextStep.2 = after at hturn ⊢
  cases hturn with
  | finished _ hdone => exact hdone

/-- Then nothing is ahead. -/
theorem Reads.future_of_finished (h : orderer.Reads streams coming taken)
    (hstreams : ∀ chain, InStrictOrder chain (streams chain))
    (hfinished : orderer.nextStep.1 = .finished) (chain : ChainId) :
    taken.filter (·.chain = chain) = eventsOf (streams chain) := by
  have hafter := h.nextStep (fun chain => (hstreams chain).own) fun events hunit => by
    rw [hfinished] at hunit
    cases hunit
  have hnone : orderer.nextStep.2.future coming chain = [] := by
    rw [Orderer.future]
    cases hget : orderer.nextStep.2.lanes.get? chain with
    | none => rfl
    | some lane =>
      exact (hafter.lane chain lane hget).future_of_done (hstreams chain)
        (nextStep_finished hfinished lane (Table.mem_values_iff.2 ⟨chain, hget⟩))
  rw [← hafter.future chain, hnone, List.append_nil]

end Orderer

/-- An orderer with what still comes to its lanes, and what it has released without taking it
back. -/
structure MergeRun where
  coming : ChainId → List QueueItem
  orderer : Orderer
  released : List Released

/-- What may happen to an orderer. -/
inductive MergeMove where
  /-- The next item of a chain comes into its queue. -/
  | arrive (chain : ChainId)
  /-- The fetcher of a chain is gone. -/
  | close (chain : ChainId)
  /-- A lane takes an item, if there is one. -/
  | wait (chain : ChainId)
  | signal (failures : List ChainFailure) (stopRequested : Bool)
  /-- The lanes report what they did. -/
  | report (committed : List Event)
  /-- The next step. Of the events of a unit the first ones are kept, and the others go back. -/
  | next (kept : Nat)
deriving DecidableEq

namespace MergeRun

def arrive (run : MergeRun) (chain : ChainId) : MergeRun :=
  match run.coming chain with
  | [] => run
  | item :: rest =>
    { run with
      coming := Function.update run.coming chain rest
      orderer := run.orderer.changeLane chain fun lane =>
        { lane with queue := lane.queue.push item } }

def next (run : MergeRun) (kept : Nat) : MergeRun :=
  match run.orderer.nextStep.1 with
  | .unit events =>
    { run with
      orderer := run.orderer.nextStep.2.restore (events.drop kept)
      released := run.released ++
        (Orderer.releases run.orderer.maxEventsPerUnit run.orderer.drain).take kept }
  | _ => { run with orderer := run.orderer.nextStep.2 }

def move (run : MergeRun) : MergeMove → MergeRun
  | .arrive chain => run.arrive chain
  | .close chain =>
    { run with
      orderer := run.orderer.changeLane chain fun lane =>
        { lane with queue := lane.queue.close } }
  | .wait chain =>
    { run with orderer := run.orderer.changeLane chain fun lane => lane.waitItem.getD lane }
  | .signal failures stopRequested =>
    { run with
      orderer := { run.orderer with failures := failures, stopRequested := stopRequested } }
  | .report committed => { run with orderer := (run.orderer.progress committed).2.2 }
  | .next kept => run.next kept

def play (run : MergeRun) (moves : List MergeMove) : MergeRun := moves.foldl move run

/-- Whether a run starts in ordered mode with new lanes, one for each chain that brings anything,
and all chains bring their events in order. -/
structure Starts (run : MergeRun) : Prop where
  mode : run.orderer.mode = .ordered
  lanes : ∀ entry ∈ run.orderer.lanes.entries, entry.2 = .start entry.1 entry.2.queue.depth
  absent : ∀ chain, run.orderer.lanes.get? chain = none → run.coming chain = []
  streams : ∀ chain, InStrictOrder chain (run.coming chain)
  released : run.released = []

/-- Whether events are a merge of all that the chains bring. -/
def Merges (run : MergeRun) (events : List Event) : Prop :=
  (events.Pairwise fun a b => a.key < b.key) ∧
    ∀ event, event ∈ events ↔ ∃ chain, event ∈ eventsOf (run.coming chain)

/-- What holds all along a run. -/
structure Upholds (run : MergeRun) (streams : ChainId → List QueueItem) : Prop where
  mode : run.orderer.mode = .ordered
  reads : run.orderer.Reads streams run.coming (run.released.map (·.event))
  sequenced : Sequenced streams [] run.released

variable {run : MergeRun} {streams : ChainId → List QueueItem}

theorem Starts.upholds (h : run.Starts) : run.Upholds run.coming := by
  refine ⟨h.mode, ⟨fun chain lane hget => ?_, fun chain hnone => ?_⟩, ?_⟩
  · have hlane : lane = .start chain lane.queue.depth :=
      h.lanes _ (Table.mem_entries_iff.2 hget)
    rw [hlane, h.released]
    exact .start _ _
  · rw [h.released]
    exact ⟨h.absent chain hnone, rfl⟩
  · rw [h.released]
    exact True.intro

/-- A change of one lane keeps what held if the lane still reads the stream. -/
theorem Upholds.changeLane (h : run.Upholds streams) (chain : ChainId) {f : Lane → Lane}
    (hf : ∀ lane, ∀ taken : List Event,
      lane.Reads chain (streams chain) (run.coming chain) taken →
        (f lane).Reads chain (streams chain) (run.coming chain) taken) :
    { run with orderer := run.orderer.changeLane chain f }.Upholds streams := by
  have hreads := h.reads.changeLane chain (run.coming chain) fun lane _ => hf lane _
  rw [Function.update_eq_self] at hreads
  exact ⟨h.mode, hreads, h.sequenced⟩

theorem Upholds.arrive (h : run.Upholds streams) (chain : ChainId) :
    (run.arrive chain).Upholds streams := by
  rw [MergeRun.arrive]
  split
  next => exact h
  next item rest hcoming =>
    refine ⟨h.mode, h.reads.changeLane chain rest fun lane _ hlane => ?_, h.sequenced⟩
    rw [hcoming] at hlane
    exact hlane.push

/-- The events of a unit that are kept precede all that is ahead then. -/
theorem Upholds.next (h : run.Upholds streams)
    (hstreams : ∀ chain, InStrictOrder chain (streams chain)) (kept : Nat) :
    (run.next kept).Upholds streams := by
  have howns : ∀ chain, ∀ event ∈ eventsOf (streams chain), event.chain = chain :=
    fun chain => (hstreams chain).own
  have hown := h.reads.drain.own howns
  have hmode := (Orderer.nextStep_cases hown (Prod.eta run.orderer.nextStep).symm).1.trans h.mode
  rw [MergeRun.next]
  split
  next events hunit =>
    obtain ⟨hevents, hafter⟩ := Orderer.nextStep_unit h.mode hunit
    rw [Orderer.takeReleases_events, ← Orderer.releases_events] at hevents
    have hreads := h.reads.drain.gives
      (Orderer.takeOrdered_gives hown run.orderer.maxEventsPerUnit)
    rw [← hafter, ← Orderer.releases_events, ← hevents, ← List.take_append_drop kept events,
      ← List.append_assoc] at hreads
    refine ⟨hmode, ?_, ?_⟩
    · rw [List.map_append, List.map_take, ← hevents]
      exact hreads.restore
    · refine sequenced_append.2 ⟨h.sequenced, Sequenced.take ?_ kept⟩
      exact h.reads.drain.releases hstreams run.orderer.maxEventsPerUnit
  next hother => exact ⟨hmode, h.reads.nextStep howns hother, h.sequenced⟩

theorem Upholds.move (h : run.Upholds streams)
    (hstreams : ∀ chain, InStrictOrder chain (streams chain)) (move : MergeMove) :
    (run.move move).Upholds streams := by
  cases move with
  | arrive chain => exact h.arrive chain
  | close chain => exact h.changeLane chain fun _ _ hlane => hlane.of_lane rfl rfl rfl rfl rfl
  | wait chain =>
    refine h.changeLane chain fun lane taken hlane => ?_
    cases hwait : lane.waitItem with
    | none => exact hlane
    | some lane' => exact hlane.waitItem hwait
  | signal failures stopRequested => exact ⟨h.mode, ⟨h.reads.lane, h.reads.absent⟩, h.sequenced⟩
  | report committed => exact ⟨h.mode, h.reads.progress committed, h.sequenced⟩
  | next kept => exact h.next hstreams kept

theorem Upholds.play (h : run.Upholds streams)
    (hstreams : ∀ chain, InStrictOrder chain (streams chain)) (moves : List MergeMove) :
    (run.play moves).Upholds streams := by
  induction moves generalizing run with
  | nil => exact h
  | cons move rest ih => exact ih (h.move hstreams move)

/-- What was released and what is still ahead, put in order, is a merge, if no lane was passed. -/
theorem Upholds.exists_merge (h : run.Upholds streams)
    (hstreams : ∀ chain, InStrictOrder chain (streams chain))
    (hnone : ∀ release ∈ run.released, release.PassesNone) :
    ∃ ahead : List Event,
      ((run.released.map (·.event) ++ ahead).Pairwise fun a b => a.key < b.key) ∧
        ∀ event, event ∈ run.released.map (·.event) ++ ahead ↔
          ∃ chain, event ∈ eventsOf (streams chain) := by
  obtain ⟨hreleased, hlater⟩ := h.sequenced.precedes h.reads.future
  have hown : ∀ chain, ∀ later ∈ run.orderer.future run.coming chain, later.chain = chain :=
    fun chain later hmem => (hstreams chain).own later ((h.reads.sublist_future chain).subset hmem)
  have hdifferent : (run.orderer.lanes.keys.flatMap (run.orderer.future run.coming)).Pairwise
      fun a b => a.key ≠ b.key := by
    refine List.pairwise_flatMap.2 ⟨fun chain _ => ?_, ?_⟩
    · refine ((hstreams chain).sorted.sublist (h.reads.sublist_future chain)).imp ?_
      exact fun hlt heq => EventKey.lt_irrefl _ (heq ▸ hlt)
    · refine (Table.keys_nodup _).imp fun {a b} hne x hx y hy heq => hne ?_
      rw [← hown a x hx, ← hown b y hy]
      exact congrArg EventKey.chain heq
  obtain ⟨ahead, hahead, hmem⟩ := exists_sorted hdifferent
  have hmemAhead : ∀ event, event ∈ ahead ↔
      ∃ chain, event ∈ run.orderer.future run.coming chain := fun event => by
    rw [hmem, List.mem_flatMap]
    refine ⟨fun ⟨chain, _, hevent⟩ => ⟨chain, hevent⟩, fun ⟨chain, hevent⟩ => ⟨chain, ?_, hevent⟩⟩
    obtain ⟨lane, hget, _⟩ := Orderer.mem_future.1 hevent
    exact List.mem_map.2 ⟨(chain, lane), Table.mem_entries_iff.2 hget, rfl⟩
  refine ⟨ahead, List.pairwise_append.2 ⟨?_, hahead, fun a ha b hb => ?_⟩, fun event => ?_⟩
  · rw [List.pairwise_map]
    exact hreleased.imp_of_mem fun ha _ hprecedes => hprecedes.lt (hnone _ ha)
  · obtain ⟨release, hrelease, rfl⟩ := List.mem_map.1 ha
    obtain ⟨chain, hchain⟩ := (hmemAhead b).1 hb
    exact (hlater release hrelease chain b hchain).lt (hnone release hrelease)
  · simp only [← h.reads.future, List.mem_append, hmemAhead, exists_or, List.mem_filter,
      decide_eq_true_eq, exists_and_left, exists_eq', and_true]

/-- A released event has a lower key than all that are released later, except those of other lanes
that were live, not finished, with nothing pending at its release. As long as there is no such lane,
what is released is the beginning of the one merge of all chains, and all of it once the orderer
says that it has finished or nothing is ahead. -/
theorem Starts.released_in_order (h : run.Starts) (moves : List MergeMove) :
    ((run.play moves).released.Pairwise fun a b => a.Precedes b.event) ∧
      ((∀ release ∈ (run.play moves).released, release.PassesNone) →
        ∃ merged, run.Merges merged ∧ (∀ other, run.Merges other → other = merged) ∧
          (run.play moves).released.map (·.event) <+: merged ∧
          ((run.play moves).orderer.nextStep.1 = .finished ∨
              (∀ chain, (run.play moves).orderer.future (run.play moves).coming chain = []) →
            (run.play moves).released.map (·.event) = merged)) := by
  have hupholds := h.upholds.play h.streams moves
  refine ⟨(hupholds.sequenced.precedes hupholds.reads.future).1, fun hnone => ?_⟩
  obtain ⟨ahead, hsorted, hmem⟩ := hupholds.exists_merge h.streams hnone
  refine ⟨_, ⟨hsorted, hmem⟩, fun other hother => ?_, List.prefix_append _ ahead, fun hend => ?_⟩
  · exact eq_of_sorted hother.1 hsorted fun event => (hother.2 event).trans (hmem event).symm
  · have hall : ∀ chain, ((run.play moves).released.map (·.event)).filter (·.chain = chain) =
        eventsOf (run.coming chain) := by
      rcases hend with hfinished | hnothing
      · exact hupholds.reads.future_of_finished h.streams hfinished
      · intro chain
        rw [← hupholds.reads.future chain, hnothing chain, List.append_nil]
    refine eq_of_sorted (hsorted.sublist (List.sublist_append_left _ _)) hsorted fun event => ?_
    refine ⟨fun hevent => List.mem_append_left _ hevent, fun hevent => ?_⟩
    obtain ⟨chain, hchain⟩ := (hmem event).1 hevent
    rw [← hall chain] at hchain
    exact (List.mem_filter.1 hchain).1

/-- A batch below the head of its chain. -/
def batchBelowHead (chain : ChainId) (last : Nat) (events : List Event) : QueueItem :=
  .batch ⟨chain, 0, ⟨last, "", "", 10 * last⟩, last + 10, events, 1, []⟩

/-- Two chains with an end and no events after it. -/
def twoEnds : MergeRun where
  coming chain :=
    if chain = 1 then [batchBelowHead 1 12 [.placed 1 10 0, .placed 1 12 0], .finished]
    else if chain = 2 then [batchBelowHead 2 11 [.placed 2 11 0], batchBelowHead 2 14 [], .finished]
    else []
  orderer := ((Orderer.start .ordered 2).addLane (.start 1 2)).addLane (.start 2 2)
  released := []

theorem twoEnds_starts : twoEnds.Starts := by
  refine ⟨rfl, by decide, fun chain hnone => ?_, fun chain => ?_, rfl⟩
  · have hfirst : chain ≠ 1 := by
      rintro rfl
      cases hnone
    have hsecond : chain ≠ 2 := by
      rintro rfl
      cases hnone
    exact (if_neg hfirst).trans (if_neg hsecond)
  · rw [twoEnds]
    dsimp only
    split
    next hfirst =>
      subst hfirst
      exact ⟨by decide, by decide, by decide⟩
    next =>
      split
      next hsecond =>
        subst hsecond
        exact ⟨by decide, by decide, by decide⟩
      next => exact ⟨by simp, by simp, .nil⟩

/-- Of the first unit only one event is kept. The other one comes again, and in the end all three
are released in the order of keys. -/
theorem twoEnds_merged :
    let moves : List MergeMove :=
      [.arrive 1, .arrive 2, .next 1, .report [.placed 1 10 0], .arrive 1, .next 1, .arrive 2,
        .next 1, .arrive 2, .next 0, .report []]
    (twoEnds.play moves).orderer.nextStep.1 = .finished ∧
      (twoEnds.play moves).released.map (·.event) =
        [.placed 1 10 0, .placed 2 11 0, .placed 1 12 0] ∧
      twoEnds.Merges [.placed 1 10 0, .placed 2 11 0, .placed 1 12 0] := by
  intro moves
  have hfinished : (twoEnds.play moves).orderer.nextStep.1 = .finished := by decide +kernel
  have hreleased : (twoEnds.play moves).released.map (·.event) =
      [.placed 1 10 0, .placed 2 11 0, .placed 1 12 0] := by decide +kernel
  obtain ⟨merged, hmerges, -, -, hall⟩ :=
    (twoEnds_starts.released_in_order moves).2 (by decide +kernel)
  refine ⟨hfinished, hreleased, ?_⟩
  rwa [← hreleased, hall (Or.inl hfinished)]

end MergeRun

end ChainIndexer
