import ChainIndexer.Text.Lowercase
import Mathlib.Data.List.Basic

/-!
# Lowercase text

Text in lowercase stays as it is when it is put in lowercase again. No run of the table leads to a
character that a run leads further on, and the two special cases give small letters.
-/

namespace ChainIndexer.Text

/-- The first character that a run leads to. -/
def CaseRun.firstImage (run : CaseRun) : Nat := (run.first + run.offset).toNat

/-- The last one. -/
def CaseRun.lastImage (run : CaseRun) : Nat := (run.last + run.offset).toNat

/-- Whether the characters that a run leads to lie outside another one: below it, above it, or
between its characters. -/
def CaseRun.misses (run other : CaseRun) : Bool :=
  run.lastImage.blt other.first || other.last.blt run.firstImage ||
    (other.stride == 2 && (run.firstImage + other.first) % 2 == 1 &&
      (run.stride == 2 || run.first == run.last))

theorem CaseRun.image?_of_misses {run other : CaseRun} (hpositive : 0 ≤ run.first + run.offset)
    (h : run.misses other = true) {code image : Nat} (himage : run.image? code = some image) :
    other.image? image = none := by
  rw [image?, Option.ite_none_right_eq_some, Option.some.injEq] at himage
  obtain ⟨⟨hfirst, hlast, hstride⟩, himage⟩ := himage
  simp only [misses, Bool.or_eq_true, Bool.and_eq_true, Nat.blt_eq, beq_iff_eq, firstImage,
    lastImage] at h
  refine if_neg ?_
  rintro ⟨hfirst', hlast', hstride'⟩
  rcases h with (hbelow | habove) | ⟨⟨htwo, hodd⟩, hsteps⟩
  · omega
  · omega
  · rw [htwo] at hstride'
    rcases hsteps with hstep | hsingle
    · rw [hstep] at hstride
      omega
    · omega

/-- The capital I with a dot, which the runs leave out. -/
def dottedRun : CaseRun := ⟨0x130, 0x130, 1, 0⟩

theorem lowercaseRuns_miss :
    (lowercaseRuns.all fun run => decide (0 ≤ run.first + run.offset) &&
      (dottedRun :: lowercaseRuns).all run.misses) = true := by
  decide +kernel

/-- Whether lowercasing leaves a character alone, whatever stands around it. -/
structure Settled (c : Char) : Prop where
  ascii : c.toNat < 0x80 → c.toLower = c
  sigma : c ≠ 'Σ'
  dotted : c ≠ 'İ'
  other : ¬ c.toNat < 0x80 → lowerChar c = c

theorem settled_of_large {c : Char} (hlarge : ¬ c.toNat < 0x80) (hsigma : c ≠ 'Σ')
    (hdotted : c ≠ 'İ') (hlower : lowerChar c = c) : Settled c :=
  ⟨fun hsmall => absurd hsmall hlarge, hsigma, hdotted, fun _ => hlower⟩

theorem toLower_ascii : ∀ code < 0x80, (Char.ofNat code).toLower.toNat < 0x80 ∧
    (Char.ofNat code).toLower.toLower = (Char.ofNat code).toLower ∧
      (¬ (0x41 ≤ code ∧ code ≤ 0x5a) → (Char.ofNat code).toLower = Char.ofNat code) := by
  decide

theorem settled_toLower {c : Char} (hsmall : c.toNat < 0x80) : Settled c.toLower := by
  obtain ⟨hlower, htwice, -⟩ := toLower_ascii c.toNat hsmall
  rw [Char.ofNat_toNat] at hlower htwice
  refine ⟨fun _ => htwice, fun heq => ?_, fun heq => ?_, fun hlarge => absurd hlower hlarge⟩
  · rw [heq] at hlower
    exact absurd hlower (by decide)
  · rw [heq] at hlower
    exact absurd hlower (by decide)

theorem settled_lowerChar {c : Char} (hlarge : ¬ c.toNat < 0x80) (hsigma : c ≠ 'Σ')
    (hdotted : c ≠ 'İ') : Settled (lowerChar c) := by
  have hlower : lowerChar c =
      ((lowercaseRuns.findSome? (·.image? c.toNat)).map Char.ofNat).getD c := by
    rw [lowerChar]
    cases lowercaseRuns.findSome? (·.image? c.toNat) <;> rfl
  cases hfound : lowercaseRuns.findSome? (·.image? c.toNat) with
  | none =>
    rw [hfound, Option.map_none, Option.getD_none] at hlower
    rw [hlower]
    exact settled_of_large hlarge hsigma hdotted hlower
  | some image =>
    rw [hfound, Option.map_some, Option.getD_some] at hlower
    rw [hlower]
    by_cases hvalid : image.isValidChar
    · have hnat : (Char.ofNat image).toNat = image := by
        rw [Char.ofNat, dif_pos hvalid]
        rfl
      obtain ⟨run, hrun, himage⟩ := List.exists_of_findSome?_eq_some hfound
      have hmisses : ∀ other ∈ dottedRun :: lowercaseRuns, other.image? image = none := by
        intro other hother
        have hall := List.all_eq_true.1 lowercaseRuns_miss run hrun
        rw [Bool.and_eq_true, decide_eq_true_eq] at hall
        exact CaseRun.image?_of_misses hall.1 (List.all_eq_true.1 hall.2 other hother) himage
      have hnone : lowercaseRuns.findSome? (·.image? image) = none :=
        List.findSome?_eq_none_iff.2 fun other hother =>
          hmisses other (List.mem_cons_of_mem _ hother)
      have hnot : ∀ code : Nat, image = code →
          (dottedRun :: lowercaseRuns).findSome? (·.image? code) = none := by
        rintro code rfl
        exact List.findSome?_eq_none_iff.2 hmisses
      refine ⟨fun hsmall => ?_, fun heq => ?_, fun heq => ?_, fun _ => ?_⟩
      · rw [hnat] at hsmall
        refine (toLower_ascii image hsmall).2.2 fun hcapital => ?_
        have hfirst : (⟨0x41, 0x5a, 1, 32⟩ : CaseRun) ∈ lowercaseRuns := List.mem_cons_self
        have hmissed := hmisses _ (List.mem_cons_of_mem _ hfirst)
        rw [CaseRun.image?, if_pos ⟨hcapital.1, hcapital.2, Nat.mod_one _⟩] at hmissed
        cases hmissed
      · rw [heq] at hnat
        exact absurd (hnot _ hnat.symm) (by decide +kernel)
      · rw [heq] at hnat
        exact absurd (hnot _ hnat.symm) (by decide +kernel)
      · rw [lowerChar, hnat, hnone]
    · have hzero : Char.ofNat image = '\u0000' := by
        rw [Char.ofNat, dif_neg hvalid]
        rfl
      rw [hzero]
      exact ⟨fun _ => by decide, by decide, by decide, fun hlarge => absurd (by decide) hlarge⟩

theorem settled_of_mem_lowerAfter {chars before : List Char} {c : Char}
    (h : c ∈ lowerAfter before chars) : Settled c := by
  induction chars generalizing before with
  | nil => cases h
  | cons first rest ih =>
    rw [lowerAfter] at h
    rcases List.mem_append.1 h with hfirst | hrest
    · split at hfirst
      next hsmall =>
        rw [List.mem_singleton.1 hfirst]
        exact settled_toLower hsmall
      next hlarge =>
        split at hfirst
        next =>
          split at hfirst <;> rw [List.mem_singleton.1 hfirst]
          next => exact settled_of_large (by decide) (by decide) (by decide) (by decide +kernel)
          next => exact settled_of_large (by decide) (by decide) (by decide) (by decide +kernel)
        next hsigma =>
          split at hfirst
          next =>
            rw [List.mem_cons, List.mem_singleton] at hfirst
            rcases hfirst with rfl | rfl
            · exact settled_toLower (by decide : 'i'.toNat < 0x80)
            · exact settled_of_large (by decide) (by decide) (by decide) (by decide +kernel)
          next hdotted =>
            rw [List.mem_singleton.1 hfirst]
            exact settled_lowerChar hlarge hsigma hdotted
    · exact ih hrest

theorem lowerAfter_of_settled {chars : List Char} (h : ∀ c ∈ chars, Settled c)
    (before : List Char) : lowerAfter before chars = chars := by
  induction chars generalizing before with
  | nil => rfl
  | cons c rest ih =>
    obtain ⟨hascii, hsigma, hdotted, hother⟩ := h c List.mem_cons_self
    have hrest := ih (fun other hmem => h other (List.mem_cons_of_mem _ hmem)) (c :: before)
    rw [lowerAfter, hrest]
    by_cases hsmall : c.toNat < 0x80
    · simp only [if_pos hsmall, hascii hsmall, List.singleton_append]
    · simp only [if_neg hsmall, if_neg hsigma, if_neg hdotted, hother hsmall,
        List.singleton_append]

theorem lowercase_lowercase (text : String) : lowercase (lowercase text) = lowercase text := by
  rw [lowercase, lowercase, String.toList_ofList]
  exact congrArg String.ofList
    (lowerAfter_of_settled (fun _ hmem => settled_of_mem_lowerAfter hmem) [])

end ChainIndexer.Text
