import ChainIndexer.Handler.Context
import ChainIndexer.Proofs.Table

/-!
# What a handler depends on

A handler sees entities through its reads alone: where two contexts answer these alike, it does the
same. Of each entity it leaves at most one change.
-/

namespace ChainIndexer

namespace HandlerContext

/-- What a read finds behind the handler's own changes. -/
def answer (context : HandlerContext) (key : EntityKey) : Except HandlerError (Option Json) :=
  match context.overlay.get? key with
  | some change => .ok change.fields?
  | none =>
    match context.loaded.get? key with
    | some fields => .ok fields
    | none => .error (.notLoaded key)

/-- Whether a handler did the same in two contexts. -/
structure Alike (a b : HandlerContext) : Prop where
  changes : a.changes = b.changes
  requests : a.requests = b.requests

theorem get_eq (context : HandlerContext) (key : EntityKey) :
    context.get key =
      match context.changes.find? (·.key = key) with
      | some change => .ok change.fields?
      | none => context.answer key := rfl

theorem request_eq (context : HandlerContext) (contract address : String) :
    context.request contract address =
      if ⟨contract, Text.lowercase address⟩ ∈ context.requests then context
      else
        { context with
          requests := context.requests ++ [⟨contract, Text.lowercase address⟩] } := rfl

theorem Alike.put {a b : HandlerContext} (h : a.Alike b) (change : EntityChange) :
    (a.put change).Alike (b.put change) :=
  ⟨congrArg (putChange change) h.changes, h.requests⟩

theorem Alike.request {a b : HandlerContext} (h : a.Alike b) (contract address : String) :
    (a.request contract address).Alike (b.request contract address) := by
  rw [request_eq, request_eq, h.requests]
  split
  · exact h
  · exact ⟨h.changes, rfl⟩

theorem Alike.leave {a b : HandlerContext} (h : a.Alike b) (text : Json) :
    (a.leave text).Alike (b.leave text) := ⟨h.changes, h.requests⟩

@[simp]
theorem answer_request (context : HandlerContext) (contract address : String) (key : EntityKey) :
    (context.request contract address).answer key = context.answer key := by
  rw [request_eq]
  split <;> rfl

end HandlerContext

/-! ### Reads -/

namespace Script

variable {α : Type}

/-- The entities that a script reads and has not changed before. -/
def reads : Script α → HandlerContext → List EntityKey
  | .done _, _ => []
  | .fail _, _ => []
  | .get key next, context =>
    let later := (next (context.get key)).reads context
    if context.changes.any (·.key = key) then later else key :: later
  | .change c next, context => next.reads (context.put c)
  | .register contract address next, context => next.reads (context.request contract address)
  | .note text next, context => next.reads (context.leave text)

/-- A script does the same in contexts that give the same answers to what it reads in both. -/
theorem run_congr (script : Script α) {a b : HandlerContext} (halike : a.Alike b)
    (h : ∀ key ∈ script.reads a, key ∈ script.reads b → a.answer key = b.answer key) :
    script.reads a = script.reads b ∧ (script.run a).1 = (script.run b).1 ∧
      (script.run a).2.Alike (script.run b).2 := by
  induction script generalizing a b with
  | done value => exact ⟨rfl, rfl, halike⟩
  | fail error => exact ⟨rfl, rfl, halike⟩
  | change c next ih => exact ih (halike.put c) h
  | register contract address next ih =>
    refine ih (halike.request contract address) fun key ha hb => ?_
    rw [HandlerContext.answer_request, HandlerContext.answer_request]
    exact h key ha hb
  | note text next ih => exact ih (halike.leave text) h
  | get key next ih =>
    have hown : (a.changes.any (·.key = key)) = b.changes.any (·.key = key) := by
      rw [halike.changes]
    have hget : a.get key = b.get key := by
      rw [HandlerContext.get_eq, HandlerContext.get_eq, ← halike.changes]
      cases hfind : a.changes.find? (·.key = key) with
      | some change => rfl
      | none =>
        have hnot : (a.changes.any (·.key = key)) = false := by
          rw [List.find?_eq_none] at hfind
          exact List.any_eq_false.2 hfind
        refine h key ?_ ?_
        · rw [reads, hnot]
          exact List.mem_cons_self
        · rw [reads, ← hown, hnot]
          exact List.mem_cons_self
    have hlater : ∀ other ∈ (next (a.get key)).reads a, other ∈ (next (a.get key)).reads b →
        a.answer other = b.answer other := by
      intro other ha hb
      refine h other ?_ ?_
      · rw [reads]
        split
        · exact ha
        · exact List.mem_cons_of_mem _ ha
      · rw [reads, ← hget]
        split
        · exact hb
        · exact List.mem_cons_of_mem _ hb
    obtain ⟨hreads, hresult, hafter⟩ := ih (a.get key) halike hlater
    refine ⟨?_, ?_, ?_⟩
    · rw [reads, reads, hown, ← hget, hreads]
    · rw [run, run, ← hget]
      exact hresult
    · rw [run, run, ← hget]
      exact hafter

end Script

/-! ### Changes -/

theorem putChange_keys (change : EntityChange) (changes : List EntityChange) :
    (putChange change changes).map (·.key) =
      if change.key ∈ changes.map (·.key) then changes.map (·.key)
      else changes.map (·.key) ++ [change.key] := by
  induction changes with
  | nil => rfl
  | cons first rest ih =>
    rw [putChange]
    by_cases hfirst : first.key = change.key
    · rw [if_pos hfirst, List.map_cons, List.map_cons, hfirst, if_pos List.mem_cons_self]
    · rw [if_neg hfirst, List.map_cons, ih, List.map_cons]
      by_cases hrest : change.key ∈ rest.map (·.key)
      · rw [if_pos hrest, if_pos (List.mem_cons_of_mem _ hrest)]
      · have hnew : change.key ∉ first.key :: rest.map (·.key) := by
          rw [List.mem_cons]
          exact not_or.2 ⟨Ne.symm hfirst, hrest⟩
        rw [if_neg hrest, if_neg hnew, List.cons_append]

theorem Script.run_changes_nodup {α : Type} (script : Script α) {context : HandlerContext}
    (h : (context.changes.map (·.key)).Nodup) :
    ((script.run context).2.changes.map (·.key)).Nodup := by
  induction script generalizing context with
  | done value => exact h
  | fail error => exact h
  | get key next ih => exact ih (context.get key) h
  | change c next ih =>
    refine ih ?_
    rw [HandlerContext.put, putChange_keys]
    split
    next => exact h
    next hnew =>
      rw [List.nodup_append]
      refine ⟨h, List.nodup_cons.2 ⟨List.not_mem_nil, List.nodup_nil⟩, ?_⟩
      rintro key hkey _ hother rfl
      exact hnew (List.mem_singleton.1 hother ▸ hkey)
  | register contract address next ih =>
    refine ih ?_
    rw [HandlerContext.request_eq]
    split <;> exact h
  | note text next ih => exact ih h

end ChainIndexer
