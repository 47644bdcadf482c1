import ChainIndexer.Source.Basic

/-!
# Calls, applied

A call is a computation on a state that answers or fails. These laws take a call apart at a state,
so that later proofs need not know how calls are built.
-/

namespace ChainIndexer

variable {σ ε α β : Type}

theorem except_bind_eq_ok {result : Except ε α} {f : α → Except ε β} {value : β}
    (h : result.bind f = .ok value) : ∃ between, result = .ok between ∧ f between = .ok value := by
  cases result with
  | error error => cases h
  | ok between => exact ⟨between, rfl, h⟩

namespace Call

theorem bind_apply (call : Call σ ε α) (next : α → Call σ ε β) (state : σ) :
    (call >>= next) state =
      match call state with
      | (.ok value, state) => next value state
      | (.error error, state) => (.error error, state) := by
  change ExceptT.bindCont next (call state).1 (call state).2 = _
  generalize call state = outcome
  obtain ⟨result, after⟩ := outcome
  cases result <;> rfl

theorem bind_of_ok {call : Call σ ε α} {before between : σ} {value : α}
    (h : call before = (.ok value, between)) (next : α → Call σ ε β) :
    (call >>= next) before = next value between := by
  rw [bind_apply, h]

theorem get_apply (state : σ) : (get : Call σ ε σ) state = (.ok state, state) := rfl

theorem set_bind_apply (value : σ) (next : PUnit → Call σ ε β) (state : σ) :
    (set value >>= next) state = next ⟨⟩ value := bind_of_ok rfl next

/-- A sequence answers if both of its parts do. -/
theorem bind_eq_ok {call : Call σ ε α} {next : α → Call σ ε β} {before after : σ} {result : β}
    (h : (call >>= next) before = (.ok result, after)) :
    ∃ value between, call before = (.ok value, between) ∧
      next value between = (.ok result, after) := by
  rw [bind_apply] at h
  generalize call before = outcome at h ⊢
  obtain ⟨first, between⟩ := outcome
  cases first with
  | ok value => exact ⟨value, between, rfl, h⟩
  | error error => cases h

/-- A sequence ends with its first part if that fails. -/
theorem bind_cases {call : Call σ ε α} {next : α → Call σ ε β} {before after : σ}
    {result : Except ε β} (h : (call >>= next) before = (result, after)) :
    (∃ error, result = .error error ∧ call before = (.error error, after)) ∨
      ∃ value between, call before = (.ok value, between) ∧
        next value between = (result, after) := by
  rw [bind_apply] at h
  generalize call before = outcome at h ⊢
  obtain ⟨first, between⟩ := outcome
  cases first with
  | ok value => exact Or.inr ⟨value, between, rfl, h⟩
  | error error =>
    cases h
    exact Or.inl ⟨error, rfl, rfl⟩

/-- Calls that answer and leave the state alone, one for each item, do so together. -/
theorem mapM_apply {items : List α} (call : α → Call σ ε β) {answer : α → β} (state : σ)
    (h : ∀ item ∈ items, call item state = (.ok (answer item), state)) :
    items.mapM call state = (.ok (items.map answer), state) := by
  induction items with
  | nil => rfl
  | cons first rest ih =>
    have hrest := ih fun item hitem => h item (List.mem_cons_of_mem _ hitem)
    rw [List.mapM_cons, bind_apply, h first List.mem_cons_self]
    change (rest.mapM call >>= fun answers => pure (answer first :: answers)) state = _
    rw [bind_apply, hrest]
    rfl

theorem mapM_state {items : List α} (call : α → Call σ ε β) (state : σ)
    (h : ∀ item ∈ items, (call item state).2 = state) : (items.mapM call state).2 = state := by
  induction items with
  | nil => rfl
  | cons first rest ih =>
    have hfirst := h first List.mem_cons_self
    have hrest := ih fun item hitem => h item (List.mem_cons_of_mem _ hitem)
    rw [List.mapM_cons, bind_apply]
    generalize call first state = outcome at hfirst ⊢
    obtain ⟨result, after⟩ := outcome
    obtain rfl : after = state := hfirst
    cases result with
    | error error => rfl
    | ok value =>
      change ((rest.mapM call >>= fun answers => pure (value :: answers)) after).2 = _
      rw [bind_apply]
      generalize rest.mapM call after = outcome at hrest ⊢
      obtain ⟨result, last⟩ := outcome
      obtain rfl : last = after := hrest
      cases result <;> rfl

end Call

end ChainIndexer
