import ChainIndexer.Proofs.Table
import ChainIndexer.Proofs.Words
import ChainIndexer.Pruning
import Mathlib.Data.List.Induction
import Mathlib.Data.List.Pairwise

/-!
# When a chain is due

Each time that progress of a chain is reported, its schedule is looked at: if the chain is due it is
pruned, and the schedule remembers when that ended. So a schedule knows the latest prune of each
chain, and whether a chain is due depends on its earlier prunes alone. The interval is a word, but
it is compared as a signed number: an interval with a sign bit is negative, and never waited for.
-/

namespace ChainIndexer

/-- A look at whether a chain is due, once its progress is reported. -/
structure Look where
  chain : ChainId
  /-- The block through which the chain is processed. -/
  processed : Nat
  /-- When the schedule is looked at, in seconds. -/
  time : Int
  /-- When the prune has ended if the chain is due, in seconds. -/
  ended : Int
deriving DecidableEq, Repr

/-- Whether the clock never goes back. -/
structure Timely (looks : List Look) : Prop where
  lasts : ∀ look ∈ looks, look.time ≤ look.ended
  follows : looks.Pairwise fun earlier later => earlier.ended ≤ later.time

/-- Whether some seconds have passed since every prune of the chain that is looked at. -/
def Waited (interval : Int) (prunes : List Look) (look : Look) : Prop :=
  ∀ prune ∈ prunes, prune.chain = look.chain → interval ≤ look.time - prune.ended

/-- Whether the prunes of each chain are some seconds apart. -/
def Spaced (interval : Int) (prunes : List Look) : Prop :=
  prunes.Pairwise fun earlier later =>
    earlier.chain = later.chain → interval ≤ later.time - earlier.ended

namespace Timely

variable {looks rest : List Look} {look : Look}

theorem nil : Timely [] := ⟨nofun, .nil⟩

theorem append_iff : Timely (looks ++ rest) ↔
    Timely looks ∧ Timely rest ∧ ∀ earlier ∈ looks, ∀ later ∈ rest, earlier.ended ≤ later.time := by
  constructor
  · rintro ⟨hlasts, hfollows⟩
    obtain ⟨hfirst, hrest, hbetween⟩ := List.pairwise_append.1 hfollows
    obtain ⟨hlasts, hlast⟩ := List.forall_mem_append.1 hlasts
    exact ⟨⟨hlasts, hfirst⟩, ⟨hlast, hrest⟩, hbetween⟩
  · rintro ⟨hlooks, hrest, hbetween⟩
    exact ⟨List.forall_mem_append.2 ⟨hlooks.lasts, hrest.lasts⟩,
      List.pairwise_append.2 ⟨hlooks.follows, hrest.follows, hbetween⟩⟩

/-- Looks at one time are no trouble. -/
theorem of_forall_eq {now : Int} (h : ∀ look ∈ looks, look.time = now ∧ look.ended = now) :
    Timely looks where
  lasts look hmem := Int.le_of_eq ((h look hmem).1.trans (h look hmem).2.symm)
  follows := List.pairwise_of_forall_mem_list fun earlier hearlier later hlater =>
    Int.le_of_eq ((h earlier hearlier).2.trans (h later hlater).1.symm)

end Timely

theorem Spaced.concat_iff {interval : Int} {prunes : List Look} {look : Look} :
    Spaced interval (prunes ++ [look]) ↔ Spaced interval prunes ∧ Waited interval prunes look := by
  rw [Spaced, List.pairwise_append]
  simp [Spaced, Waited]

namespace PruningSchedule

variable {config : PruningConfig} {schedule : PruningSchedule} {prunes looks rest : List Look}
  {look : Look}

/-- The schedule after a look, and after the prune that follows if the chain is due. -/
def after (config : PruningConfig) (schedule : PruningSchedule) (look : Look) : PruningSchedule :=
  if schedule.isDue config look.chain look.time then schedule.markPruned look.chain look.ended
  else schedule

def afterAll (config : PruningConfig) (schedule : PruningSchedule) (looks : List Look) :
    PruningSchedule :=
  looks.foldl (after config) schedule

/-- The looks that find their chain due. -/
def pruned (config : PruningConfig) : PruningSchedule → List Look → List Look
  | _, [] => []
  | schedule, look :: rest =>
    let later := pruned config (schedule.after config look) rest
    if schedule.isDue config look.chain look.time then look :: later else later

theorem afterAll_append (config : PruningConfig) (schedule : PruningSchedule)
    (looks rest : List Look) :
    schedule.afterAll config (looks ++ rest) =
      (schedule.afterAll config looks).afterAll config rest :=
  List.foldl_append

theorem pruned_append (config : PruningConfig) (schedule : PruningSchedule)
    (looks rest : List Look) :
    schedule.pruned config (looks ++ rest) =
      schedule.pruned config looks ++ (schedule.afterAll config looks).pruned config rest := by
  induction looks generalizing schedule with
  | nil => rfl
  | cons look looks ih =>
    rw [List.cons_append, pruned, pruned, ih]
    split <;> rfl

theorem pruned_concat (schedule : PruningSchedule) (looks : List Look) (look : Look) :
    schedule.pruned config (looks ++ [look]) =
      if (schedule.afterAll config looks).isDue config look.chain look.time then
        schedule.pruned config looks ++ [look]
      else schedule.pruned config looks := by
  rw [pruned_append, pruned]
  split
  next => rfl
  next => exact List.append_nil _

theorem pruned_sublist (schedule : PruningSchedule) (looks : List Look) :
    (schedule.pruned config looks).Sublist looks := by
  induction looks generalizing schedule with
  | nil => exact .slnil
  | cons look looks ih =>
    rw [pruned]
    split
    next => exact (ih _).cons_cons look
    next => exact (ih _).cons look

/-! ### What is remembered -/

/-- Whether a schedule knows the latest of some prunes of each chain. -/
structure Remembers (schedule : PruningSchedule) (prunes : List Look) : Prop where
  none : ∀ chain, schedule.lastPruned.get? chain = .none → ∀ prune ∈ prunes, prune.chain ≠ chain
  some : ∀ chain last, schedule.lastPruned.get? chain = .some last →
    (∃ prune ∈ prunes, prune.chain = chain ∧ prune.ended = last) ∧
      ∀ prune ∈ prunes, prune.chain = chain → prune.ended ≤ last

theorem remembers_empty : Remembers ⟨.empty⟩ [] := ⟨fun _ _ => nofun, nofun⟩

theorem Remembers.markPruned (h : schedule.Remembers prunes)
    (hlate : ∀ prune ∈ prunes, prune.ended ≤ look.ended) :
    (schedule.markPruned look.chain look.ended).Remembers (prunes ++ [look]) := by
  have hget : ∀ chain, (schedule.markPruned look.chain look.ended).lastPruned.get? chain =
      if chain = look.chain then .some look.ended else schedule.lastPruned.get? chain :=
    fun chain => Table.get?_insert ..
  refine ⟨fun chain hnone => ?_, fun chain last hlast => ?_⟩
  · rw [hget] at hnone
    split at hnone
    next => cases hnone
    next hne =>
      refine List.forall_mem_append.2 ⟨h.none chain hnone, fun prune hmem => ?_⟩
      rw [List.mem_singleton.1 hmem]
      exact Ne.symm hne
  · rw [hget] at hlast
    split at hlast
    next heq =>
      cases hlast
      refine ⟨⟨look, List.mem_append_right _ List.mem_cons_self, heq.symm, rfl⟩,
        List.forall_mem_append.2 ⟨fun prune hmem _ => hlate prune hmem, fun prune hmem _ => ?_⟩⟩
      exact Int.le_of_eq (congrArg Look.ended (List.mem_singleton.1 hmem))
    next hne =>
      obtain ⟨⟨prune, hmem, hprune⟩, hall⟩ := h.some chain last hlast
      refine ⟨⟨prune, List.mem_append_left _ hmem, hprune⟩,
        List.forall_mem_append.2 ⟨hall, fun prune hmem heq => ?_⟩⟩
      rw [List.mem_singleton.1 hmem] at heq
      exact absurd heq.symm hne

/-- Whether a chain is due depends on its earlier prunes. -/
theorem Remembers.isDue_iff (h : schedule.Remembers prunes) (look : Look) :
    schedule.isDue config look.chain look.time = true ↔
      Waited (Word.toSigned config.interval) prunes look := by
  rw [isDue]
  cases hget : schedule.lastPruned.get? look.chain with
  | none =>
    have hnone := h.none look.chain hget
    exact iff_of_true rfl fun prune hmem heq => absurd heq (hnone prune hmem)
  | some last =>
    obtain ⟨⟨latest, hmem, hchain, hended⟩, hall⟩ := h.some look.chain last hget
    rw [decide_eq_true_eq]
    constructor
    · intro hdue prune hprune heq
      have hle := hall prune hprune heq
      omega
    · intro hwaited
      rw [← hended]
      exact hwaited latest hmem hchain

/-- A schedule remembers what it led to. -/
theorem remembers_afterAll (h : Timely looks) :
    (afterAll config ⟨.empty⟩ looks).Remembers (pruned config ⟨.empty⟩ looks) := by
  induction looks using List.reverseRecOn with
  | nil => exact remembers_empty
  | append_singleton looks look ih =>
    obtain ⟨hlooks, hlook, hbetween⟩ := Timely.append_iff.1 h
    rw [pruned_concat, afterAll_append]
    change (after config _ look).Remembers _
    rw [after]
    split
    next =>
      refine (ih hlooks).markPruned fun prune hprune => ?_
      have hmem := (pruned_sublist _ _).subset hprune
      exact Int.le_trans (hbetween prune hmem look List.mem_cons_self)
        (hlook.lasts look List.mem_cons_self)
    next => exact ih hlooks

/-- A chain is pruned exactly if the interval, read as a signed number, has passed since each of its
earlier prunes. -/
theorem pruned_concat_of_waited (h : Timely looks)
    (hwaited : Waited (Word.toSigned config.interval) (pruned config ⟨.empty⟩ looks) look) :
    pruned config ⟨.empty⟩ (looks ++ [look]) = pruned config ⟨.empty⟩ looks ++ [look] := by
  rw [pruned_concat, if_pos ((remembers_afterAll h).isDue_iff look |>.2 hwaited)]

theorem pruned_concat_of_not_waited (h : Timely looks)
    (hwaited : ¬ Waited (Word.toSigned config.interval) (pruned config ⟨.empty⟩ looks) look) :
    pruned config ⟨.empty⟩ (looks ++ [look]) = pruned config ⟨.empty⟩ looks := by
  rw [pruned_concat, if_neg (mt ((remembers_afterAll h).isDue_iff look).1 hwaited)]

/-- Prunes of a chain are as far apart as the interval says when it is read as a signed number. -/
theorem spaced_pruned (h : Timely looks) :
    Spaced (Word.toSigned config.interval) (pruned config ⟨.empty⟩ looks) := by
  induction looks using List.reverseRecOn with
  | nil => exact .nil
  | append_singleton looks look ih =>
    obtain ⟨hlooks, -⟩ := Timely.append_iff.1 h
    by_cases hwaited : Waited (Word.toSigned config.interval) (pruned config ⟨.empty⟩ looks) look
    · rw [pruned_concat_of_waited hlooks hwaited]
      exact Spaced.concat_iff.2 ⟨ih hlooks, hwaited⟩
    · rw [pruned_concat_of_not_waited hlooks hwaited]
      exact ih hlooks

/-! ### The interval -/

/-- A chain is pruned whenever the interval has passed since each of its earlier prunes, as it has
when there is none. -/
theorem prefix_pruned_of_waited (hcount : config.interval < Word.count) (h : Timely looks)
    (hwaited : Waited config.interval (pruned config ⟨.empty⟩ looks) look) (rest : List Look) :
    pruned config ⟨.empty⟩ looks ++ [look] <+: pruned config ⟨.empty⟩ (looks ++ look :: rest) := by
  have hsigned : Waited (Word.toSigned config.interval) (pruned config ⟨.empty⟩ looks) look :=
    fun prune hprune heq => Int.le_trans (Word.toSigned_le hcount) (hwaited prune hprune heq)
  have hpruned : pruned config ⟨.empty⟩ (looks ++ [look] ++ rest) = _ := pruned_append ..
  rw [pruned_concat_of_waited h hsigned, List.append_assoc] at hpruned
  exact ⟨_, hpruned.symm⟩

/-- An interval with a sign bit is never waited for. -/
theorem pruned_eq_self (hhalf : Word.half ≤ config.interval) (hcount : config.interval < Word.count)
    (h : Timely looks) : pruned config ⟨.empty⟩ looks = looks := by
  induction looks using List.reverseRecOn with
  | nil => rfl
  | append_singleton looks look ih =>
    obtain ⟨hlooks, hlook, hbetween⟩ := Timely.append_iff.1 h
    rw [pruned_concat_of_waited hlooks, ih hlooks]
    rw [ih hlooks]
    intro earlier hmem _
    have hlate := hbetween earlier hmem look List.mem_cons_self
    have hsigned := Word.toSigned_nonpos hhalf hcount
    omega

/-- Prunes of a chain are always an interval apart if and only if the interval has no sign bit. -/
theorem spaced_pruned_iff (hcount : config.interval < Word.count) :
    (∀ looks, Timely looks → Spaced config.interval (pruned config ⟨.empty⟩ looks)) ↔
      config.interval < Word.half := by
  constructor
  · intro hspaced
    by_contra hhalf
    rw [Nat.not_lt] at hhalf
    -- Two reports of a chain at one time.
    let look : Look := ⟨1, 0, 0, 0⟩
    have hnow : ∀ seen ∈ [look, look], seen.time = 0 ∧ seen.ended = 0 := by simp [look]
    have htimely := Timely.of_forall_eq hnow
    have hboth := hspaced _ htimely
    rw [pruned_eq_self hhalf hcount htimely, Spaced] at hboth
    have happart := List.rel_of_pairwise_cons hboth List.mem_cons_self rfl
    have hpositive : 0 < config.interval := Nat.lt_of_lt_of_le (by decide) hhalf
    dsimp only [look] at happart
    omega
  · intro hhalf looks h
    rw [← Word.toSigned_of_lt_half hhalf]
    exact spaced_pruned h

end PruningSchedule

end ChainIndexer
