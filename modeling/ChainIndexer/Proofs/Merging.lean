import ChainIndexer.Proofs.Rollback.Plan

/-!
# Merging progress

Progress of one chain can be merged before it is applied: what is merged takes a checkpoint to where
its parts take it in turn. So it makes no difference into how many reports the work on a chain is
cut, as long as they come in order.
-/

namespace ChainIndexer

theorem Position.max_assoc (a b c : Position) : max (max a b) c = max a (max b c) := by
  have hmax : ∀ a b : Position, max a b = if a < b then b else a := fun _ _ => rfl
  simp only [hmax, lt_iff]
  grind

/-- Nothing is below everything, so the highest of what there is can be found in any grouping. -/
theorem max_option_assoc {α : Type} [Max α] (h : ∀ a b c : α, max (max a b) c = max a (max b c))
    (a b c : Option α) : max (max a b) c = max a (max b c) := by
  cases a <;> cases b <;> cases c <;> simp [h]

namespace Progress

theorem merge_assoc (a b c : Progress) : (a.merge b).merge c = a.merge (b.merge c) := by
  simp only [merge, max_option_assoc Nat.max_assoc, max_option_assoc Position.max_assoc,
    Nat.max_assoc, Nat.add_assoc, Option.or_assoc, Bool.or_assoc]

theorem none_merge (progress : Progress) : (none progress.chain).merge progress = progress := by
  simp [merge, none]

theorem merge_none (progress : Progress) (chain : ChainId) :
    progress.merge (none chain) = progress := by
  simp [merge, none]

end Progress

namespace Checkpoint

/-- A flag that was up earlier has set the time, and one clock reading sets the same time again. -/
theorem caughtUpAt_or (caughtUpAt : Option Int) (now : Int) (live finished live' finished' : Bool) :
    (caughtUpAt.or (if live || finished then some now else none)).or
        (if live || live' || (finished || finished') then some now else none) =
      caughtUpAt.or (if live || live' || (finished || finished') then some now else none) := by
  rw [Option.or_assoc]
  cases live <;> cases finished <;> simp

theorem update_merge (checkpoint : Checkpoint) (a b : Progress) (now : Int) :
    checkpoint.update (a.merge b) now = (checkpoint.update a now).update b now := by
  unfold update
  dsimp only
  rw [caughtUpAt_or]
  simp only [Progress.merge, max_option_assoc Nat.max_assoc, max_option_assoc Position.max_assoc,
    Nat.max_assoc, Nat.add_assoc, Option.or_assoc, Bool.or_assoc]

end Checkpoint

namespace Tracker

/-- The tracker once some progress of a chain is applied. -/
def advance (tracker : Tracker) (progress : Progress) (now : Int) : Tracker :=
  tracker.replace (tracker.updated [progress] now)

theorem updated_singleton (tracker : Tracker) (progress : Progress) (now : Int) :
    tracker.updated [progress] now =
      ((tracker.get? progress.chain).map (·.update progress now)).toList := by
  rw [updated, List.filterMap_cons]
  cases tracker.get? progress.chain <;> rfl

theorem ext_get? {a b : Tracker} (h : ∀ chain, a.get? chain = b.get? chain) : a = b :=
  congrArg Tracker.mk (Table.ext_get? h)

namespace Keyed

variable {tracker : Tracker}

theorem advance (h : tracker.Keyed) (progress : Progress) (now : Int) :
    (tracker.advance progress now).Keyed := h.replace _

theorem get?_advance (h : tracker.Keyed) (progress : Progress) (now : Int) (chain : ChainId) :
    (tracker.advance progress now).get? chain =
      if chain = progress.chain then (tracker.get? chain).map (·.update progress now)
      else tracker.get? chain := by
  rw [Tracker.advance, updated_singleton]
  by_cases heq : chain = progress.chain
  · rw [if_pos heq, heq]
    cases hget : tracker.get? progress.chain with
    | none => exact hget
    | some checkpoint =>
      have hchain : (checkpoint.update progress now).chain = progress.chain :=
        h progress.chain checkpoint hget
      exact (Table.get?_insert ..).trans (if_pos hchain.symm)
  · rw [if_neg heq]
    cases hget : tracker.get? progress.chain with
    | none => rfl
    | some checkpoint =>
      have hchain : (checkpoint.update progress now).chain = progress.chain :=
        h progress.chain checkpoint hget
      exact (Table.get?_insert ..).trans (if_neg fun hsame => heq (hsame.trans hchain))

theorem updated_merge (h : tracker.Keyed) {a b : Progress} (hchain : b.chain = a.chain)
    (now : Int) :
    (tracker.advance a now).updated [b] now = tracker.updated [a.merge b] now := by
  have hmerged : (a.merge b).chain = a.chain := rfl
  rw [updated_singleton, updated_singleton, h.get?_advance, hchain, if_pos rfl, hmerged]
  cases tracker.get? a.chain with
  | none => rfl
  | some checkpoint =>
    rw [Option.map_some, Option.map_some, Option.map_some, Checkpoint.update_merge]

theorem advance_merge (h : tracker.Keyed) {a b : Progress} (hchain : b.chain = a.chain)
    (now : Int) :
    (tracker.advance a now).advance b now = tracker.advance (a.merge b) now := by
  refine ext_get? fun chain => ?_
  have hmerged : (a.merge b).chain = a.chain := rfl
  rw [(h.advance a now).get?_advance, h.get?_advance, h.get?_advance, hmerged, hchain]
  split
  next =>
    cases tracker.get? chain with
    | none => rfl
    | some checkpoint =>
      rw [Option.map_some, Option.map_some, Option.map_some, Checkpoint.update_merge]
  next => rfl

/-- All reports of one chain can be merged before they are applied. -/
theorem foldl_advance (h : tracker.Keyed) (first : Progress) {rest : List Progress}
    (hchain : ∀ progress ∈ rest, progress.chain = first.chain) (now : Int) :
    rest.foldl (fun reached progress => reached.advance progress now) (tracker.advance first now) =
      tracker.advance (rest.foldl Progress.merge first) now := by
  induction rest generalizing first with
  | nil => rfl
  | cons next rest ih =>
    have hnext := hchain next List.mem_cons_self
    rw [List.foldl_cons, h.advance_merge hnext, List.foldl_cons]
    exact ih (first.merge next) fun progress hmem => hchain progress (List.mem_cons_of_mem _ hmem)

/-- Merging progress of a chain and applying it is the same as applying it in turn, at one time: for
a checkpoint, for what a tracker hands out to be stored, and for the tracker itself. Merging needs no
brackets, and progress without anything in it is neutral. -/
theorem merging_laws (h : tracker.Keyed) (checkpoint : Checkpoint) (a b c : Progress)
    (hchain : b.chain = a.chain) (now : Int) :
    (checkpoint.update a now).update b now = checkpoint.update (a.merge b) now ∧
      (tracker.advance a now).updated [b] now = tracker.updated [a.merge b] now ∧
      (tracker.advance a now).advance b now = tracker.advance (a.merge b) now ∧
      (a.merge b).merge c = a.merge (b.merge c) ∧
      (Progress.none a.chain).merge a = a ∧ a.merge (.none a.chain) = a :=
  ⟨(checkpoint.update_merge a b now).symm, h.updated_merge hchain now, h.advance_merge hchain now,
    a.merge_assoc b c, a.none_merge, a.merge_none a.chain⟩

end Keyed

/-- A chain of which nothing is indexed yet, on which two reports follow. -/
def untouched : Tracker := start [⟨1, 5, none⟩] []

end Tracker

namespace Progress

/-- Blocks up to 8 are processed, with two events, the first of them in block 6. -/
def early : Progress :=
  { none 1 with
    fetched := some 20
    processed := some 8
    position := some ⟨8, 3⟩
    events := 2
    batches := 1
    firstEventBlock := some 6 }

/-- Blocks up to 12 are processed, with three more events, and the chain is live. -/
def later : Progress :=
  { none 1 with
    fetched := some 20
    processed := some 12
    position := some ⟨11, 0⟩
    events := 3
    batches := 2
    firstEventBlock := some 9
    isLive := true }

end Progress

theorem Tracker.merging_laws_untouched :
    untouched.Keyed ∧ Progress.later.chain = Progress.early.chain ∧
      (untouched.advance .early 60).advance .later 60 =
        untouched.advance (Progress.early.merge .later) 60 ∧
      (untouched.advance (Progress.early.merge .later) 60).get? 1 =
        some
          { Checkpoint.fresh ⟨1, 5, none⟩ with
            fetched := some 20
            processed := some 12
            position := some ⟨11, 0⟩
            events := 5
            batches := 2
            firstEventBlock := some 6
            caughtUpAt := some 60
            isLive := true } := by
  have hkeyed : untouched.Keyed := start_keyed [⟨1, 5, none⟩] []
  have hlaws := hkeyed.merging_laws (.fresh ⟨1, 5, none⟩) .early .later .early rfl 60
  exact ⟨hkeyed, rfl, hlaws.2.2.1, by decide⟩

end ChainIndexer
