import ChainIndexer.Evm.Source
import ChainIndexer.Proofs.Call

/-!
# What a node is asked

A page of events takes several requests to a node. What the node was asked and what it answered is
noted beside its state. Noting changes nothing, and what is noted are answers of the node.
-/

namespace ChainIndexer.Evm

variable {σ : Type}

/-- A request to a node, with its answer. -/
inductive Exchange where
  | head (answer : Except String Nat)
  | block (number : Nat) (answer : Except String (Option NodeBlock))
  | logs (filter : LogFilter) (answer : Except String (List Log))

/-- A node that notes what it is asked and what it answers. -/
def Node.noting (node : Node σ) : Node (σ × List Exchange) where
  head := fun (state, exchanges) =>
    let (answer, after) := node.head state
    (answer, (after, exchanges ++ [.head answer]))
  block number := fun (state, exchanges) =>
    let (answer, after) := node.block number state
    (answer, (after, exchanges ++ [.block number answer]))
  logs filter := fun (state, exchanges) =>
    let (answer, after) := node.logs filter state
    (answer, (after, exchanges ++ [.logs filter answer]))

/-- What a node is asked for a page, and what it answers. -/
def pageExchanges (abis : EventAbis) (node : Node σ) (chain : ChainId) (first last : Nat)
    (watched : List WatchedAddress) (state : σ) : List Exchange :=
  (fetchPage abis node.noting chain first last watched (state, [])).2.2

/-- Whether an answer is one that a node gives in some state. -/
def Node.Gives (node : Node σ) : Exchange → Prop
  | .head answer => ∃ state, (node.head state).1 = answer
  | .block number answer => ∃ state, (node.block number state).1 = answer
  | .logs filter answer => ∃ state, (node.logs filter state).1 = answer

/-- Whether a call does the same where it is noted, and the notes are answers of the node. -/
def Node.Notes {ε α : Type} (node : Node σ) (call : Call σ ε α)
    (noted : Call (σ × List Exchange) ε α) : Prop :=
  ∀ state exchanges, ∃ heard, (∀ exchange ∈ heard, node.Gives exchange) ∧
    noted (state, exchanges) = ((call state).1, ((call state).2, exchanges ++ heard))

namespace Node.Notes

variable {α β ε : Type} {node : Node σ}

theorem of_result (result : Except ε α) :
    node.Notes (ExceptT.mk (return result)) (ExceptT.mk (return result)) :=
  fun _ _ => ⟨[], nofun, by rw [List.append_nil]; rfl⟩

theorem bind {call : Call σ ε α} {noted : Call (σ × List Exchange) ε α} {next : α → Call σ ε β}
    {nextNoted : α → Call (σ × List Exchange) ε β} (h : node.Notes call noted)
    (hnext : ∀ value, node.Notes (next value) (nextNoted value)) :
    node.Notes (call >>= next) (noted >>= nextNoted) := by
  intro state exchanges
  obtain ⟨heard, hgives, hnoted⟩ := h state exchanges
  rw [Call.bind_apply, Call.bind_apply, hnoted]
  generalize call state = outcome
  obtain ⟨result, between⟩ := outcome
  cases result with
  | error error => exact ⟨heard, hgives, rfl⟩
  | ok value =>
    obtain ⟨later, hlater, hrest⟩ := hnext value between (exchanges ++ heard)
    refine ⟨heard ++ later, List.forall_mem_append.2 ⟨hgives, hlater⟩, ?_⟩
    rw [← List.append_assoc]
    exact hrest

theorem mem_of_mem {call : Call σ ε α} {noted : Call (σ × List Exchange) ε α}
    (h : node.Notes call noted) {state : σ} {exchanges : List Exchange} {exchange : Exchange}
    (hmem : exchange ∈ exchanges) : exchange ∈ (noted (state, exchanges)).2.2 := by
  obtain ⟨heard, -, hnoted⟩ := h state exchanges
  rw [hnoted]
  exact List.mem_append_left heard hmem

theorem onNode {call : Call σ String α} {noted : Call (σ × List Exchange) String α}
    (h : node.Notes call noted) : node.Notes (onNode call) (onNode noted) := by
  intro state exchanges
  obtain ⟨heard, hgives, hnoted⟩ := h state exchanges
  refine ⟨heard, hgives, ?_⟩
  rw [Evm.onNode, Evm.onNode, hnoted]
  generalize call state = outcome
  obtain ⟨result, after⟩ := outcome
  cases result <;> rfl

theorem block (number : Nat) : node.Notes (node.block number) (node.noting.block number) :=
  fun state _ => ⟨[.block number (node.block number state).1],
    List.forall_mem_singleton.2 ⟨state, rfl⟩, rfl⟩

theorem logs (filter : LogFilter) : node.Notes (node.logs filter) (node.noting.logs filter) :=
  fun state _ => ⟨[.logs filter (node.logs filter state).1],
    List.forall_mem_singleton.2 ⟨state, rfl⟩, rfl⟩

theorem fetchBlock (number : Nat) :
    node.Notes (fetchBlock node number) (fetchBlock node.noting number) := by
  refine (block number).onNode.bind fun answer => ?_
  cases answer with
  | none => exact of_result _
  | some answer => exact of_result _

theorem fetchBlocks (numbers : List Nat) :
    node.Notes (fetchBlocks node numbers) (fetchBlocks node.noting numbers) := by
  induction numbers with
  | nil => exact of_result _
  | cons number rest ih => exact (fetchBlock number).bind fun _ => ih.bind fun _ => of_result _

/-- A filter that fails does not keep the others from being sent. -/
theorem fetchLogs (filters : List (WatchedAddress × LogFilter)) :
    node.Notes (fetchLogs node filters) (fetchLogs node.noting filters) := by
  induction filters with
  | nil => exact of_result _
  | cons first rest ih =>
    obtain ⟨watched, filter⟩ := first
    intro state exchanges
    obtain ⟨heard, hgives, hnoted⟩ := (logs filter).onNode state exchanges
    obtain ⟨later, hlater, hrest⟩ := ih (Evm.onNode (node.logs filter) state).2
      (exchanges ++ heard)
    refine ⟨heard ++ later, List.forall_mem_append.2 ⟨hgives, hlater⟩, ?_⟩
    simp only [Evm.fetchLogs, hnoted, hrest, List.append_assoc]
    rfl

theorem fetchPage (abis : EventAbis) (chain : ChainId) (first last : Nat)
    (watched : List WatchedAddress) :
    node.Notes (fetchPage abis node chain first last watched)
      (fetchPage abis node.noting chain first last watched) :=
  (fetchBlock first).bind fun _ => (fetchBlock last).bind fun _ => (of_result _).bind fun _ =>
    (fetchLogs _).bind fun _ => (fetchBlocks _).bind fun _ => (of_result _).bind fun _ =>
      of_result _

end Node.Notes

/-- Noting changes nothing: a page is asked for and answered as it is without notes. -/
theorem fetchPage_noting (abis : EventAbis) (node : Node σ) (chain : ChainId) (first last : Nat)
    (watched : List WatchedAddress) (state : σ) :
    fetchPage abis node.noting chain first last watched (state, []) =
      ((fetchPage abis node chain first last watched state).1,
        ((fetchPage abis node chain first last watched state).2,
          pageExchanges abis node chain first last watched state)) := by
  obtain ⟨heard, -, hnoted⟩ := Node.Notes.fetchPage abis chain first last watched state []
  rw [pageExchanges, hnoted]

theorem gives_of_mem_pageExchanges {abis : EventAbis} {node : Node σ} {chain first last : Nat}
    {watched : List WatchedAddress} {state : σ} {exchange : Exchange}
    (h : exchange ∈ pageExchanges abis node chain first last watched state) :
    node.Gives exchange := by
  obtain ⟨heard, hgives, hnoted⟩ := Node.Notes.fetchPage abis chain first last watched state []
  rw [pageExchanges, hnoted] at h
  exact hgives exchange h

end ChainIndexer.Evm
