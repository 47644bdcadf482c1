import ChainIndexer.Checkpoint

/-!
# What a checkpoint covers

A checkpoint covers the positions that indexing does not come back to: those before the block at
which it resumes, and those up to the position through which it skips. Progress only ever adds to
what is covered, and a rewind keeps nothing above its block.
-/

namespace ChainIndexer

namespace Position

theorem le_iff_logIndex {a b : Position} :
    a ≤ b ↔ a.block < b.block ∨ a.block = b.block ∧ a.logIndex ≤ b.logIndex := by
  rw [le_iff, lt_iff]
  omega

theorem block_le_of_le {a b : Position} (h : a ≤ b) : a.block ≤ b.block := by
  rw [le_iff_logIndex] at h
  omega

theorem le_of_block_lt {a b : Position} (h : a.block < b.block) : a ≤ b := by
  rw [le_iff_logIndex]
  exact Or.inl h

theorem le_trans {a b c : Position} (hab : a ≤ b) (hbc : b ≤ c) : a ≤ c := by
  rw [le_iff_logIndex] at *
  omega

theorem le_max_iff {a b c : Position} : a ≤ max b c ↔ a ≤ b ∨ a ≤ c := by
  have hmax : max b c = if b < c then c else b := rfl
  rw [hmax]
  split
  next hlt =>
    refine ⟨Or.inr, fun h => h.elim (fun hb => le_trans hb ?_) id⟩
    rw [lt_iff] at hlt
    rw [le_iff_logIndex]
    omega
  next hle =>
    exact ⟨Or.inl, fun h => h.elim id fun hc => le_trans hc (le_iff.2 hle)⟩

end Position

namespace Checkpoint

/-- Whether everything at a position is done with, so that indexing does not come back to it. -/
def covers (checkpoint : Checkpoint) (position : Position) : Bool :=
  decide (position.block < checkpoint.resumeBlock)
    || checkpoint.skipThrough.any fun through => decide (position ≤ through)

theorem skipThrough_eq_some_iff {checkpoint : Checkpoint} {through : Position} :
    checkpoint.skipThrough = some through ↔
      checkpoint.position = some through ∧
        ∀ processed, checkpoint.processed = some processed → processed < through.block := by
  rw [skipThrough, Option.filter_eq_some_iff]
  refine and_congr_right fun _ => ?_
  cases checkpoint.processed <;> simp

theorem skipThrough_eq_none_iff {checkpoint : Checkpoint} :
    checkpoint.skipThrough = none ↔
      ∀ through, checkpoint.position = some through →
        ∃ processed, checkpoint.processed = some processed ∧ through.block ≤ processed := by
  rw [skipThrough, Option.filter_eq_none_iff]
  refine forall₂_congr fun through _ => ?_
  cases checkpoint.processed <;> simp

theorem covers_of_skipThrough_eq_some {checkpoint : Checkpoint} {through : Position}
    (h : checkpoint.skipThrough = some through) (position : Position) :
    checkpoint.covers position = true ↔ position ≤ through := by
  simp only [covers, resumeBlock, h, Option.any_some, Bool.or_eq_true, decide_eq_true_eq]
  exact ⟨fun hor => hor.elim Position.le_of_block_lt id, Or.inr⟩

theorem covers_of_skipThrough_eq_none {checkpoint : Checkpoint}
    (h : checkpoint.skipThrough = none) (position : Position) :
    checkpoint.covers position = true ↔
      position.block < checkpoint.startBlock ∨
        ∃ processed, checkpoint.processed = some processed ∧ position.block ≤ processed := by
  simp only [covers, resumeBlock, h, Option.any_none, Bool.or_false, decide_eq_true_eq]
  cases checkpoint.processed with
  | none => simp
  | some processed =>
    simp only [Option.some.injEq, exists_eq_left']
    omega

/-- What a checkpoint covers, if its last position is not before its start: the blocks below the
start, those processed, and the positions up to the last one. -/
theorem covers_iff {checkpoint : Checkpoint}
    (hstart : ∀ last, checkpoint.position = some last → checkpoint.startBlock ≤ last.block)
    (position : Position) :
    checkpoint.covers position = true ↔
      position.block < checkpoint.startBlock
        ∨ (∃ processed, checkpoint.processed = some processed ∧ position.block ≤ processed)
        ∨ ∃ last, checkpoint.position = some last ∧ position ≤ last := by
  cases hskip : checkpoint.skipThrough with
  | some through =>
    rw [covers_of_skipThrough_eq_some hskip]
    obtain ⟨hposition, hprocessed⟩ := skipThrough_eq_some_iff.1 hskip
    constructor
    · exact fun hle => Or.inr (Or.inr ⟨through, hposition, hle⟩)
    · rintro (hlt | ⟨processed, heq, hle⟩ | ⟨last, heq, hle⟩)
      · exact Position.le_of_block_lt (Nat.lt_of_lt_of_le hlt (hstart through hposition))
      · exact Position.le_of_block_lt (Nat.lt_of_le_of_lt hle (hprocessed processed heq))
      · rw [hposition, Option.some.injEq] at heq
        exact heq ▸ hle
  | none =>
    rw [covers_of_skipThrough_eq_none hskip]
    refine or_congr_right ⟨Or.inl, ?_⟩
    rintro (hprocessed | ⟨last, heq, hle⟩)
    · exact hprocessed
    · obtain ⟨processed, hprocessed, hlast⟩ := skipThrough_eq_none_iff.1 hskip last heq
      exact ⟨processed, hprocessed, Nat.le_trans (Position.block_le_of_le hle) hlast⟩

theorem covers_of_le {checkpoint : Checkpoint} {a b : Position} (hle : a ≤ b)
    (h : checkpoint.covers b = true) : checkpoint.covers a = true := by
  cases hskip : checkpoint.skipThrough with
  | some through =>
    rw [covers_of_skipThrough_eq_some hskip] at h ⊢
    exact Position.le_trans hle h
  | none =>
    rw [covers_of_skipThrough_eq_none hskip] at h ⊢
    have hblock := Position.block_le_of_le hle
    refine h.imp (Nat.lt_of_le_of_lt hblock) ?_
    rintro ⟨processed, hprocessed, hb⟩
    exact ⟨processed, hprocessed, Nat.le_trans hblock hb⟩

/-- Nothing that is not covered stands before the block at which indexing resumes. -/
theorem resumeBlock_le_of_not_covers {checkpoint : Checkpoint} {position : Position}
    (h : checkpoint.covers position = false) : checkpoint.resumeBlock ≤ position.block := by
  simp only [covers, Bool.or_eq_false_iff, decide_eq_false_iff_not] at h
  omega

theorem skipThrough_all_lt {checkpoint : Checkpoint} {position : Position}
    (h : checkpoint.resumeBlock ≤ position.block) :
    checkpoint.skipThrough.all (fun through => decide (through < position)) =
      !checkpoint.covers position := by
  have hblock : ¬ position.block < checkpoint.resumeBlock := by omega
  rw [covers, decide_eq_false hblock, Bool.false_or]
  cases checkpoint.skipThrough with
  | none => rfl
  | some through => simp [Position.le_iff]

theorem covers_of_block_lt_start {checkpoint : Checkpoint} {position : Position}
    (hstart : ∀ last, checkpoint.position = some last → checkpoint.startBlock ≤ last.block)
    (h : position.block < checkpoint.startBlock) : checkpoint.covers position = true :=
  (covers_iff hstart position).2 (Or.inl h)

theorem max_position_eq_some {a b : Option Position} {last : Position} (h : max a b = some last) :
    a = some last ∨ b = some last := by
  cases a with
  | none =>
    cases b with
    | none => cases h
    | some second => exact Or.inr h
  | some first =>
    cases b with
    | none => exact Or.inl h
    | some second =>
      have hmax : (if first < second then second else first) = last := Option.some.inj h
      split at hmax
      · exact Or.inr (congrArg some hmax)
      · exact Or.inl (congrArg some hmax)

end Checkpoint

/-- Whether a position is done with after some progress. -/
def Progress.reaches (progress : Progress) (position : Position) : Bool :=
  progress.processed.any (fun processed => decide (position.block ≤ processed))
    || progress.position.any fun last => decide (position ≤ last)

/-- What is below the larger of two values, if there are any, is below one of them. -/
theorem exists_max_iff {α : Type} [Max α] [LE α] {bound : α}
    (hmax : ∀ a b : α, bound ≤ max a b ↔ bound ≤ a ∨ bound ≤ b) (first second : Option α) :
    (∃ largest, max first second = some largest ∧ bound ≤ largest) ↔
      (∃ value, first = some value ∧ bound ≤ value) ∨
        ∃ value, second = some value ∧ bound ≤ value := by
  cases first <;> cases second <;> simp [hmax]

namespace Checkpoint

/-- Progress adds what it reaches. -/
theorem covers_update {checkpoint : Checkpoint} {progress : Progress} (now : Int)
    (hstart : ∀ last, checkpoint.position = some last → checkpoint.startBlock ≤ last.block)
    (hposition : ∀ last, progress.position = some last → checkpoint.startBlock ≤ last.block)
    (position : Position) :
    (checkpoint.update progress now).covers position =
      (checkpoint.covers position || progress.reaches position) := by
  have hlast : ∀ last, (checkpoint.update progress now).position = some last →
      checkpoint.startBlock ≤ last.block := fun last h =>
    (max_position_eq_some h).elim (hstart last) (hposition last)
  rw [Bool.eq_iff_iff, Bool.or_eq_true, covers_iff hstart]
  refine (covers_iff hlast position).trans ?_
  change position.block < checkpoint.startBlock ∨
    (∃ processed, max checkpoint.processed progress.processed = some processed ∧ _) ∨
    (∃ last, max checkpoint.position progress.position = some last ∧ _) ↔ _
  rw [exists_max_iff fun _ _ => Std.le_max, exists_max_iff fun _ _ => Position.le_max_iff,
    or_or_or_comm, ← or_assoc]
  simp only [Progress.reaches, Bool.or_eq_true, Option.any_eq_true, decide_eq_true_eq]

/-- Whether two checkpoints stand at the same place of a chain. -/
structure AgreesWith (a b : Checkpoint) : Prop where
  chain : a.chain = b.chain
  startBlock : a.startBlock = b.startBlock
  processed : a.processed = b.processed
  position : a.position = b.position
  events : a.events = b.events

theorem AgreesWith.covers {a b : Checkpoint} (h : a.AgreesWith b) : a.covers = b.covers := by
  have hskip : a.skipThrough = b.skipThrough := by
    rw [skipThrough, skipThrough, h.position, h.processed]
  have hresume : a.resumeBlock = b.resumeBlock := by
    rw [resumeBlock, resumeBlock, hskip, h.processed, h.startBlock]
  funext position
  rw [Checkpoint.covers, Checkpoint.covers, hskip, hresume]

theorem resume_agreesWith (stored : Checkpoint) (chain : Chain) :
    (stored.resume chain).AgreesWith stored := ⟨rfl, rfl, rfl, rfl, rfl⟩

theorem skipThrough_rewind {checkpoint : Checkpoint} {block : Option Nat}
    (h : min checkpoint.processed block = block) :
    (checkpoint.rewind block).skipThrough = none := by
  rw [skipThrough_eq_none_iff]
  intro through hthrough
  rw [rewind, Option.filter_eq_some_iff] at hthrough
  cases block with
  | none => exact absurd hthrough.2 (by simp)
  | some block => exact ⟨block, h, by simpa using hthrough.2⟩

theorem covers_rewind {checkpoint : Checkpoint} {block : Option Nat}
    (h : min checkpoint.processed block = block) (position : Position) :
    (checkpoint.rewind block).covers position = true ↔
      position.block < checkpoint.startBlock ∨
        ∃ target, block = some target ∧ position.block ≤ target := by
  have hprocessed : (checkpoint.rewind block).processed = block := h
  rw [covers_of_skipThrough_eq_none (skipThrough_rewind h), hprocessed]
  exact Iff.rfl

end Checkpoint

end ChainIndexer
