import ChainIndexer.Proofs.Coverage
import Mathlib.Data.List.Nodup

/-!
# Logs of chains

The events of a chain in the order of their positions, and its blocks. What holds of no later event
if it does not hold of an earlier one cuts such a log in two.
-/

namespace ChainIndexer

namespace Position

theorem not_lt {a b : Position} : ¬ a < b ↔ b ≤ a := by
  rw [le_iff]

theorem lt_irrefl (a : Position) : ¬ a < a := by
  rw [lt_iff]
  omega

theorem le_of_lt {a b : Position} (h : a < b) : a ≤ b := by
  rw [le_iff_logIndex]
  rw [lt_iff] at h
  omega

theorem le_total (a b : Position) : a ≤ b ∨ b ≤ a := by
  rw [le_iff_logIndex, le_iff_logIndex]
  omega

theorem le_antisymm {a b : Position} (hab : a ≤ b) (hba : b ≤ a) : a = b := by
  rw [le_iff_logIndex] at *
  obtain ⟨ablock, alog⟩ := a
  obtain ⟨bblock, blog⟩ := b
  simp only [mk.injEq] at *
  omega

end Position

namespace Event

theorem sortByPosition_pairwise (events : List Event) :
    (sortByPosition events).Pairwise fun a b => a.position ≤ b.position := by
  have hpairwise : (sortByPosition events).Pairwise fun a b =>
      decide (a.position ≤ b.position) = true :=
    List.pairwise_mergeSort
      (fun a b c hab hbc => by
        simp only [decide_eq_true_eq] at *
        exact Position.le_trans hab hbc)
      (fun a b => by simpa using Position.le_total a.position b.position) events
  exact hpairwise.imp of_decide_eq_true

theorem mem_sortByPosition {event : Event} {events : List Event} :
    event ∈ sortByPosition events ↔ event ∈ events := List.mem_mergeSort

end Event

/-- Whether events stand in the order of their positions, each at a place of its own. -/
def InOrder (events : List Event) : Prop := events.Pairwise fun a b => a.position < b.position

/-- What happened on a chain that is never forked. -/
structure ChainLog (chain : ChainId) where
  events : List Event
  inOrder : InOrder events
  own : ∀ event ∈ events, event.chain = chain
  block : Nat → Block
  numbered : ∀ number, (block number).number = number
  linked : ∀ number, (block (number + 1)).parentHash = (block number).hash

/-- Whether a block is one of the chain. -/
def ChainLog.Has {chain : ChainId} (log : ChainLog chain) (block : Block) : Prop :=
  block = log.block block.number

theorem ChainLog.has_block {chain : ChainId} (log : ChainLog chain) (number : Nat) :
    log.Has (log.block number) := by
  rw [Has, log.numbered]

namespace InOrder

variable {events : List Event}

theorem filter (h : InOrder events) (keep : Event → Bool) : InOrder (events.filter keep) :=
  List.Pairwise.filter keep h

theorem positions_nodup (h : InOrder events) : (events.map Event.position).Nodup := by
  rw [List.Nodup, List.pairwise_map]
  refine List.Pairwise.imp ?_ h
  intro a b hlt heq
  rw [heq] at hlt
  exact Position.lt_irrefl _ hlt

theorem nodup (h : InOrder events) : events.Nodup := List.Nodup.of_map _ h.positions_nodup

theorem lt_of_append {first second : List Event} (h : InOrder (first ++ second)) {a b : Event}
    (ha : a ∈ first) (hb : b ∈ second) : a.position < b.position :=
  (List.pairwise_append.1 h).2.2 a ha b hb

theorem head_le {first event : Event} {rest : List Event} (h : InOrder (first :: rest))
    (hevent : event ∈ first :: rest) : first.position ≤ event.position := by
  rcases List.mem_cons.1 hevent with rfl | hrest
  · exact (Position.le_total _ _).elim id id
  · exact Position.le_of_lt ((List.pairwise_cons.1 h).1 event hrest)

theorem le_getLast {event last : Event} (h : InOrder events) (hevent : event ∈ events)
    (hlast : events.getLast? = some last) : event.position ≤ last.position := by
  obtain ⟨before, rfl⟩ := List.getLast?_eq_some_iff.1 hlast
  rcases List.mem_append.1 hevent with hbefore | hsame
  · exact Position.le_of_lt (h.lt_of_append hbefore (List.mem_singleton_self last))
  · rw [List.mem_singleton.1 hsame]
    exact (Position.le_total _ _).elim id id

/-- What holds of everything before an event that it holds of picks the first events. -/
theorem filter_append (h : InOrder events) {p : Event → Bool}
    (hp : ∀ a b : Event, a.position < b.position → p b = true → p a = true) :
    events.filter p ++ events.filter (fun event => !p event) = events := by
  induction events with
  | nil => rfl
  | cons first rest ih =>
    obtain ⟨hfirst, hrest⟩ := List.pairwise_cons.1 h
    by_cases hp' : p first = true
    · have hkept := ih hrest
      simp only [List.filter_cons, hp', Bool.not_true, if_true, Bool.false_eq_true, if_false,
        List.cons_append]
      exact congrArg (first :: ·) hkept
    · have hnone : ∀ event ∈ rest, p event = false := fun event hevent =>
        Bool.eq_false_iff.2 fun heq => hp' (hp first event (hfirst event hevent) heq)
      have hdropped : rest.filter p = [] :=
        List.filter_eq_nil_iff.2 fun event hevent => by simp [hnone event hevent]
      have hkept : rest.filter (fun event => !p event) = rest :=
        List.filter_eq_self.2 fun event hevent => by simp [hnone event hevent]
      simp [hp', hdropped, hkept]

theorem filter_block (h : InOrder events) (next : Nat) :
    events.filter (·.block < next) ++ events.filter (next ≤ ·.block) = events := by
  have hcut := h.filter_append (p := fun event => decide (event.block < next)) fun a b hlt hb => by
    have hblock := Position.block_le_of_le (Position.le_of_lt hlt)
    simp only [decide_eq_true_eq] at hb ⊢
    exact Nat.lt_of_le_of_lt hblock hb
  simpa [← decide_not, Nat.not_lt] using hcut

/-- Sorting a page that holds some events once each gives them in order. -/
theorem sortByPosition_eq (h : InOrder events) {page : List Event} (hpage : page.Nodup)
    (hmem : ∀ event, event ∈ page ↔ event ∈ events) : Event.sortByPosition page = events := by
  have hperm : (Event.sortByPosition page).Perm events :=
    (List.mergeSort_perm ..).trans ((List.perm_ext_iff_of_nodup hpage h.nodup).2 hmem)
  refine hperm.eq_of_pairwise (fun a b ha hb hab hba => ?_) (Event.sortByPosition_pairwise page)
    (List.Pairwise.imp Position.le_of_lt h)
  exact List.inj_on_of_nodup_map h.positions_nodup (hperm.mem_iff.1 ha) hb
    (Position.le_antisymm hab hba)

end InOrder

end ChainIndexer
