import ChainIndexer.Proofs.Pipeline.Boot
import ChainIndexer.Proofs.Retries

/-!
# Batch sizes and ranges as words

A batch size stays within its bounds and grows until it is at the upper one. The next larger size
and the number behind a range are computed before they are held to any bound, so both are words only
if the settings leave room for them, and no setting is checked for that.
-/

namespace ChainIndexer

namespace BatchSize

/-- A call that may change a batch size. -/
inductive Change where
  | shrink
  | grow
  | adjust (micros events : Nat)
deriving DecidableEq, Repr

/-- A call, unless a sum in it is no word. -/
def change? (size : BatchSize) : Change → Option BatchSize
  | .shrink => some size.shrink
  | .grow => size.grow?
  | .adjust micros events => size.adjust? micros events

/-- Calls in turn, unless a sum in one of them is no word. -/
def play? (size : BatchSize) : List Change → Option BatchSize
  | [] => some size
  | change :: rest => (size.change? change).bind fun next => next.play? rest

/-- Whether a batch size is another one but for its value, which is within the bounds. -/
structure Resized (start size : BatchSize) : Prop where
  settings : size = { start with value := size.value }
  lower : start.min ≤ size.value
  upper : size.value ≤ start.max

/-- Whether the bounds leave room for a next larger size, and for twice the events of any answer
that is not too crowded. -/
structure LeavesRoom (size : BatchSize) : Prop where
  value : size.max + Nat.max (size.max / 2) 1 ≤ Word.max
  events : size.maxEvents + size.maxEvents ≤ Word.max

variable {initial size next : BatchSize}

theorem grow?_eq (size : BatchSize) :
    size.grow? = if size.grown ≤ Word.max then some size.grow else none := by
  rw [grow?, Word.checkedAdd, grown]
  split <;> rfl

theorem grow?_eq_some (h : size.grow? = some next) : next = size.grow := by
  rw [grow?_eq, Option.ite_none_right_eq_some] at h
  exact (Option.some.inj h.2).symm

/-- An adjustment is one of the other calls, or none. -/
theorem adjust?_eq_some {micros events : Nat} (h : size.adjust? micros events = some next) :
    next = size.shrink ∨ next = size.grow ∨ next = size := by
  rw [adjust?] at h
  split at h
  next => exact Or.inl (Option.some.inj h).symm
  next =>
    split at h
    next => exact Or.inr (Or.inr (Option.some.inj h).symm)
    next =>
      obtain ⟨doubled, -, h⟩ := Option.bind_eq_some_iff.1 h
      split at h
      next => exact Or.inr (Or.inl (grow?_eq_some h))
      next => exact Or.inr (Or.inr (Option.some.inj h).symm)

/-- With room for its sums, an adjustment is what it is without regard to words. -/
theorem adjust?_eq (micros events : Nat) (hvalue : size.grown ≤ Word.max)
    (hevents : size.maxEvents + size.maxEvents ≤ Word.max) :
    size.adjust? micros events = some (size.adjust micros events) := by
  rw [adjust?, adjust]
  by_cases hcrowded : 1000 * size.targetMillis < micros ∨ size.maxEvents < events
  · rw [if_pos hcrowded, if_pos hcrowded]
  · have hword : events + events ≤ Word.max := by omega
    rw [if_neg hcrowded, if_neg hcrowded, Word.checkedAdd, if_pos hword, Option.bind_eq_bind,
      Option.bind_some, grow?_eq, if_pos hvalue]
    by_cases hslow : 1000 * size.targetMillis < 2 * micros
    · rw [if_pos hslow, if_neg (by omega)]
    · by_cases hsparse : events + events ≤ size.maxEvents
      · rw [if_neg hslow, if_pos hsparse, if_pos (by omega)]
      · rw [if_neg hslow, if_neg hsparse, if_neg (by omega)]
        rfl

namespace Resized

theorem clamp (hbounds : initial.min ≤ initial.max) (h : initial.Resized size) (value : Nat) :
    initial.Resized { size with value := size.clamp value } := by
  rw [h.settings]
  exact ⟨rfl, Nat.le_max_left _ _, Nat.max_le.2 ⟨hbounds, Nat.min_le_right _ _⟩⟩

/-- One call keeps the bounds. -/
theorem change (hbounds : initial.min ≤ initial.max) (h : initial.Resized size) {change : Change}
    (hchange : size.change? change = some next) : initial.Resized next := by
  cases change with
  | shrink =>
    obtain rfl := Option.some.inj hchange
    exact h.clamp hbounds _
  | grow =>
    rw [grow?_eq_some hchange]
    exact h.clamp hbounds _
  | adjust micros events =>
    rcases adjust?_eq_some hchange with rfl | rfl | rfl
    · exact h.clamp hbounds _
    · exact h.clamp hbounds _
    · exact h

/-- So do any calls in turn. -/
theorem play (hbounds : initial.min ≤ initial.max) (h : initial.Resized size)
    {changes : List Change} {last : BatchSize} (hplay : size.play? changes = some last) :
    initial.Resized last := by
  induction changes generalizing size with
  | nil =>
    obtain rfl := Option.some.inj hplay
    exact h
  | cons first rest ih =>
    obtain ⟨between, hfirst, hrest⟩ := Option.bind_eq_some_iff.1 hplay
    exact ih (h.change hbounds hfirst) hrest

theorem halve (hbounds : initial.min ≤ initial.max) (h : initial.Resized size) (times : Nat) :
    initial.Resized (shrink^[times] size) := by
  induction times with
  | zero => exact h
  | succ times ih =>
    rw [Function.iterate_succ_apply']
    exact ih.clamp hbounds _

theorem shrink_le (h : initial.Resized size) : size.shrink.value ≤ size.value := by
  have hmin : size.min = initial.min := by rw [h.settings]
  have hlower := h.lower
  exact Nat.max_le.2 ⟨by omega, Nat.le_trans (Nat.min_le_left _ _) (Nat.div_le_self _ _)⟩

theorem halve_le (hbounds : initial.min ≤ initial.max) (h : initial.Resized size) (times : Nat) :
    (shrink^[times] size).value ≤ size.value := by
  induction times with
  | zero => exact Nat.le_refl _
  | succ times ih =>
    rw [Function.iterate_succ_apply']
    exact Nat.le_trans (h.halve hbounds times).shrink_le ih

/-- Below the upper bound there is always a larger size to grow to. -/
theorem lt_grow (h : initial.Resized size) (hlt : size.value < initial.max) :
    size.value < size.grow.value := by
  have hgrown : size.value < size.grown := Nat.lt_add_of_pos_right (Nat.le_max_right _ _)
  have hmax : size.max = initial.max := by rw [h.settings]
  exact Nat.lt_of_lt_of_le (Nat.lt_min.2 ⟨hgrown, hmax ▸ hlt⟩) (Nat.le_max_right _ _)

/-- The next larger size is largest at the upper bound. -/
theorem grown_le (h : initial.Resized size) :
    size.grown ≤ initial.max + Nat.max (initial.max / 2) 1 := by
  have hupper := h.upper
  have hhalf : Nat.max (size.value / 2) 1 ≤ Nat.max (initial.max / 2) 1 :=
    Nat.max_le.2 ⟨Nat.le_trans (Nat.div_le_div_right hupper) (Nat.le_max_left _ _),
      Nat.le_max_right _ _⟩
  exact Nat.add_le_add hupper hhalf

/-- With room for its sums, a call is never out of words. -/
theorem change_isSome (h : initial.Resized size) (hroom : initial.LeavesRoom) (change : Change) :
    ∃ next, size.change? change = some next := by
  have hgrown : size.grown ≤ Word.max := Nat.le_trans h.grown_le hroom.value
  have hevents : size.maxEvents + size.maxEvents ≤ Word.max := by
    rw [h.settings]
    exact hroom.events
  cases change with
  | shrink => exact ⟨size.shrink, rfl⟩
  | grow => exact ⟨size.grow, by rw [change?, grow?_eq, if_pos hgrown]⟩
  | adjust micros events => exact ⟨_, adjust?_eq micros events hgrown hevents⟩

theorem play_isSome (hbounds : initial.min ≤ initial.max) (hroom : initial.LeavesRoom)
    (h : initial.Resized size) (changes : List Change) : (size.play? changes).isSome := by
  induction changes generalizing size with
  | nil => rfl
  | cons first rest ih =>
    obtain ⟨next, hfirst⟩ := h.change_isSome hroom first
    rw [play?, hfirst]
    exact ih (h.change hbounds hfirst)

/-- Without room for the last size, growing again and again runs out of words. -/
theorem exists_grow_eq_none (hbounds : initial.min ≤ initial.max)
    (hfull : Word.max < initial.max + Nat.max (initial.max / 2) 1) (h : initial.Resized size) :
    ∃ times, size.play? (List.replicate times .grow) = none := by
  -- Each call brings the size closer to the upper bound, where the next one fails at the latest.
  induction hleft : initial.max - size.value using Nat.strong_induction_on generalizing size with
  | _ left ih =>
    by_cases hgrown : size.grown ≤ Word.max
    · have hupper := h.upper
      have hlt : size.value < initial.max := by
        refine Nat.lt_of_le_of_ne hupper fun heq => ?_
        rw [grown, heq] at hgrown
        omega
      have hlarger := h.lt_grow hlt
      have hgrow : size.change? .grow = some size.grow := by
        rw [change?, grow?_eq, if_pos hgrown]
      obtain ⟨times, hnone⟩ := ih _ (by omega) (h.change hbounds hgrow) rfl
      exact ⟨times + 1, by rw [List.replicate_succ, play?, hgrow, Option.bind_some, hnone]⟩
    · exact ⟨1, by rw [List.replicate_one, play?, change?, grow?_eq, if_neg hgrown]; rfl⟩

/-- Without room for twice the events, an answer that comes at once may hold too many to count. -/
theorem adjust_eq_none (h : initial.Resized size)
    (hfull : Word.max < initial.maxEvents + initial.maxEvents) :
    size.adjust? 0 initial.maxEvents = none := by
  have hevents : size.maxEvents = initial.maxEvents := by rw [h.settings]
  rw [adjust?, if_neg (by omega), if_neg (by omega), Word.checkedAdd,
    if_neg (Nat.not_le_of_lt hfull)]
  rfl

/-- Exactly the settings that leave room are good for all calls. -/
theorem forall_isSome_iff (hbounds : initial.min ≤ initial.max) (h : initial.Resized size) :
    (∀ changes, (size.play? changes).isSome) ↔ initial.LeavesRoom := by
  refine ⟨fun hall => ⟨?_, ?_⟩, fun hroom changes => h.play_isSome hbounds hroom changes⟩
  · refine Nat.le_of_not_lt fun hfull => ?_
    obtain ⟨times, hnone⟩ := h.exists_grow_eq_none hbounds hfull
    have hsome := hall (List.replicate times .grow)
    rw [hnone] at hsome
    cases hsome
  · refine Nat.le_of_not_lt fun hfull => ?_
    have hsome := hall [.adjust 0 initial.maxEvents]
    rw [play?, change?, h.adjust_eq_none hfull] at hsome
    cases hsome

end Resized

/-- Whether a batch size is within its bounds, and these allow no empty batch. -/
structure Bounded (size : BatchSize) : Prop where
  positive : 1 ≤ size.min
  lower : size.min ≤ size.value
  upper : size.value ≤ size.max

theorem Bounded.resized (h : size.Bounded) : size.Resized size := ⟨rfl, h.lower, h.upper⟩

theorem Bounded.ordered (h : size.Bounded) : size.min ≤ size.max := Nat.le_trans h.lower h.upper

end BatchSize

namespace Fetcher

variable {τ : Type} {fetcher : Fetcher} {head : Nat}

theorem lastRequested?_eq (hsize : 1 ≤ fetcher.batchSize.value) :
    fetcher.lastRequested? head =
      if fetcher.nextBlock + fetcher.batchSize.value ≤ Word.max then
        some (min (min (fetcher.nextBlock + fetcher.batchSize.value - 1) head)
          (fetcher.endBlock.getD Word.max))
      else none := by
  rw [lastRequested?, Word.checkedAdd]
  split
  next =>
    rw [Option.bind_eq_bind, Option.bind_some, Word.checkedSub, if_pos (by omega)]
    rfl
  next => rfl

/-- The range is what it is without regard to words, if the number behind a batch is one. -/
theorem lastRequested?_eq_some (hsize : 1 ≤ fetcher.batchSize.value) (hhead : head ≤ Word.max)
    (last : Nat) :
    fetcher.lastRequested? head = some last ↔
      fetcher.nextBlock + fetcher.batchSize.value ≤ Word.max ∧
        last = min (min (fetcher.nextBlock + fetcher.batchSize.value - 1) head)
          (fetcher.endBlock.getD head) := by
  have hend : min (min (fetcher.nextBlock + fetcher.batchSize.value - 1) head)
      (fetcher.endBlock.getD Word.max) =
      min (min (fetcher.nextBlock + fetcher.batchSize.value - 1) head)
        (fetcher.endBlock.getD head) := by
    cases fetcher.endBlock with
    | none => simp only [Option.getD_none]; omega
    | some last => rfl
  rw [lastRequested?_eq hsize, hend, Option.ite_none_right_eq_some, Option.some_inj, eq_comm]

/-- Once the range of the first attempt comes from words, those of later attempts do so, too. -/
theorem lastRequested?_halved (h : fetcher.batchSize.Bounded) (hhead : head ≤ Word.max)
    (hword : fetcher.nextBlock + fetcher.batchSize.value ≤ Word.max) (halvings : Nat) :
    (fetcher.halved halvings).lastRequested? head = some (fetcher.lastAfter head halvings) := by
  have hsize : 1 ≤ (fetcher.halved halvings).batchSize.value :=
    Nat.le_trans h.positive (h.resized.halve h.ordered halvings).lower
  have hshorter : (fetcher.halved halvings).batchSize.value ≤ fetcher.batchSize.value :=
    h.resized.halve_le h.ordered halvings
  exact (lastRequested?_eq_some hsize hhead _).2
    ⟨Nat.le_trans (Nat.add_le_add_left hshorter _) hword, rfl⟩

theorem le_range (hsize : 1 ≤ fetcher.batchSize.value) (hhead : fetcher.nextBlock ≤ head)
    (hend : ∀ last ∈ fetcher.endBlock, fetcher.nextBlock ≤ last) :
    fetcher.nextBlock ≤ min (min (fetcher.nextBlock + fetcher.batchSize.value - 1) head)
      (fetcher.endBlock.getD head) := by
  refine Nat.le_min.2 ⟨Nat.le_min.2 ⟨by omega, hhead⟩, ?_⟩
  cases hlast : fetcher.endBlock with
  | none => exact hhead
  | some last => exact hend last hlast

end Fetcher

namespace Config

variable {config : Config}

/-- Under a valid configuration batch sizes stay within their bounds and grow below the upper one,
and ranges start at the next block and end where they should, as far as all sums are words. Those for
batch sizes are, exactly if there is room for one more step at the upper bound and for twice the
events of an answer, and that for a range is, exactly if a batch fits in behind the next block. -/
theorem batch_sizes_are_words (hvalid : config.validate = .ok ()) :
    let initial := (FetchSettings.ofConfig config).batchSize
    ((∀ changes, (initial.play? changes).isSome) ↔
      config.maxBlocksPerBatch + Nat.max (config.maxBlocksPerBatch / 2) 1 ≤ Word.max ∧
        config.maxEventsPerResponse + config.maxEventsPerResponse ≤ Word.max) ∧
    ∀ changes size, initial.play? changes = some size →
      config.minBlocksPerBatch ≤ size.value ∧ size.value ≤ config.maxBlocksPerBatch ∧
      (size.value < config.maxBlocksPerBatch →
        ∀ larger, size.grow? = some larger → size.value < larger.value) ∧
      ∀ (fetcher : Fetcher) (head : Nat), fetcher.batchSize = size → head ≤ Word.max →
        fetcher.nextBlock ≤ head → (∀ last ∈ fetcher.endBlock, fetcher.nextBlock ≤ last) →
        (∀ last, fetcher.lastRequested? head = some last ↔
          fetcher.nextBlock + size.value ≤ Word.max ∧
            last = min (min (fetcher.nextBlock + size.value - 1) head)
              (fetcher.endBlock.getD head)) ∧
        fetcher.nextBlock ≤ min (min (fetcher.nextBlock + size.value - 1) head)
          (fetcher.endBlock.getD head) := by
  intro initial
  have hbounds : initial.min ≤ initial.max := (checks_of_validate hvalid).2.2
  have hinitial : initial.Resized initial :=
    ⟨rfl, Nat.le_max_left _ _, Nat.max_le.2 ⟨hbounds, Nat.min_le_right _ _⟩⟩
  have hroom : initial.LeavesRoom ↔
      config.maxBlocksPerBatch + Nat.max (config.maxBlocksPerBatch / 2) 1 ≤ Word.max ∧
        config.maxEventsPerResponse + config.maxEventsPerResponse ≤ Word.max :=
    ⟨fun h => ⟨h.value, h.events⟩, fun h => ⟨h.1, h.2⟩⟩
  refine ⟨(hinitial.forall_isSome_iff hbounds).trans hroom, fun changes size hplay => ?_⟩
  have hsize := hinitial.play hbounds hplay
  refine ⟨hsize.lower, hsize.upper, fun hlt larger hlarger => ?_, ?_⟩
  · rw [BatchSize.grow?_eq_some hlarger]
    exact hsize.lt_grow hlt
  · rintro fetcher head rfl hword hhead hend
    have hpositive : 1 ≤ fetcher.batchSize.value :=
      Nat.le_trans (validate_eq_ok hvalid).2 hsize.lower
    exact ⟨Fetcher.lastRequested?_eq_some hpositive hword, Fetcher.le_range hpositive hhead hend⟩

end Config

namespace Testing

/-- Two retries, with a second pause that is cut off. -/
def twoRetries : RetryPolicy := ⟨2, 20000⟩

def retryingFetcher : Fetcher where
  chain := 1
  settings := ⟨⟨10, 3, 100, 1000, 50⟩, twoRetries, 1000, 50, 8⟩
  nextBlock := 5
  endBlock := some 12
  head := none
  batchSize := ⟨10, 3, 100, 1000, 50⟩
  batches := 0
  window := .start 50 []
  skipThrough := none

/-- Up to as many blocks at once as there are words, and three quarters of them at first. -/
def widestConfig : Config :=
  { Config.base with
    chains := [⟨1, 0, none⟩]
    blocksPerBatch := 0xC000000000000000
    maxBlocksPerBatch := Word.max }

/-- The widest batch size, halved once. -/
def halvedWidest : BatchSize :=
  { (FetchSettings.ofConfig widestConfig).batchSize with value := 0x6000000000000000 }

/-- Valid, but too wide to grow at first; once it is halved, ranges are words again. -/
theorem widest_config_leaves_words :
    widestConfig.validate = .ok () ∧
      (FetchSettings.ofConfig widestConfig).batchSize.play? [.grow] = none ∧
      (¬ ∀ changes, ((FetchSettings.ofConfig widestConfig).batchSize.play? changes).isSome) ∧
      { retryingFetcher with batchSize := halvedWidest }.lastRequested? 40 = some 12 := by
  have hvalid : widestConfig.validate = .ok () := by decide
  obtain ⟨hroom, hsizes⟩ := Config.batch_sizes_are_words hvalid
  refine ⟨hvalid, by decide, fun hall => absurd (hroom.1 hall) (by decide), ?_⟩
  obtain ⟨-, -, -, hrange⟩ := hsizes [.shrink] halvedWidest (by decide)
  exact ((hrange { retryingFetcher with batchSize := halvedWidest } 40 rfl (by decide) (by decide)
    (by decide)).1 12).2 (by decide)

end Testing

end ChainIndexer
