import QueryCache.Engine.Within
import QueryCache.Proofs.Similarity

/-!
# Backends that act alike

A cache knows of its backend only how calls end. Where two backends, on states that are related, end
every call alike and leave related states, a read through the one ends as it does through the other.
So it is with a backend that acts on a part of a larger state.
-/

namespace QueryCache

open QueryCache.Action

variable {σ τ ι ε : Type} {related : σ → τ → Prop}

/-- Two backends end every call of a read alike on related states, and leave related states. -/
structure Backend.Alike (related : σ → τ → Prop) (left : Backend σ ι ε) (right : Backend τ ι ε) :
    Prop where
  schema : left.schema = right.schema
  perform : ∀ ctx request,
    Simulates related (left.stores.perform ctx request) (right.stores.perform ctx request)
  check : ∀ ctx, Simulates related (left.check ctx) (right.check ctx)
  now : Simulates related left.now right.now
  record : ∀ event, Simulates related (left.record event) (right.record event)
  findById : ∀ ctx id,
    Simulates related (left.source.findById ctx id) (right.source.findById ctx id)
  findAll : (left.source.findAll = none ∧ right.source.findAll = none) ∨
    ∃ all all', left.source.findAll = some all ∧ right.source.findAll = some all' ∧
      ∀ ctx, Simulates related (all ctx) (all' ctx)
  nesting : ∀ s t, related s t → left.nesting s = right.nesting t

namespace Backend.Alike

variable {left : Backend σ ι ε} {right : Backend τ ι ε} (alike : Alike related left right)
  {ctx : Context}
include alike

/-- What holds of a request holds of the call that it names. -/
theorem call (request : Request ι ε) {α : Type} {call : Action σ α} {call' : Action τ α}
    {form : α → Answer ι ε} (injective : ∀ first second, form first = form second → first = second)
    (made : left.stores.perform ctx request = call.map form)
    (made' : right.stores.perform ctx request = call'.map form) : Simulates related call call' := by
  have simulates := alike.perform ctx request
  rw [made, made'] at simulates
  exact simulates.of_map injective

theorem transact {work : Context → Action σ Unit} {work' : Context → Action τ Unit}
    (works : ∀ inner, Simulates related (work inner) (work' inner)) :
    Simulates related (left.transact ctx work) (right.transact ctx work') := by
  have begins : Simulates related (left.begin ctx) (right.begin ctx) :=
    alike.call .begin (fun _ _ same => Answer.context.inj same) rfl rfl
  refine begins.bind fun inner => (works inner).attempt.bind fun outcome => ?_
  cases outcome with
  | ok _ => exact alike.call .commit (fun _ _ _ => rfl) rfl rfl
  | error e =>
      have ends : Simulates related (left.rollback inner) (right.rollback inner) :=
        alike.call .rollback (fun _ _ _ => rfl) rfl rfl
      exact ends.attempt.bind fun _ => simulates_fail e

variable [DecidableEq ι]

/-- Backends that act alike are similar, each context being its own counterpart. -/
theorem similar : Backend.Similar (fun _ : Context => related) id id left right where
  schema := alike.schema
  perform ctx request _ _ := alike.perform ctx request
  check := alike.check
  record _ := alike.record
  transact _ _ _ works := alike.transact works
  findHits _ := alike.call .findHits (fun _ _ same => Answer.hits.inj same) rfl rfl
  depth ctx s t relation := by
    refine ⟨left.nesting s, left.nestsWithin_nesting ctx s, ?_⟩
    rw [alike.nesting s t relation]
    exact right.nestsWithin_nesting ctx t

theorem kindred (ctx : Context) : Backend.Kindred related related ctx ctx left right :=
  alike.similar.kindred (k := ctx) alike.now

theorem invalidateQuery (queryId : String) :
    Simulates related (left.invalidateQuery ctx queryId) (right.invalidateQuery ctx queryId) :=
  (alike.kindred ctx).invalidateQuery queryId

theorem invalidate (ctx : Context) (start : Node ι) :
    Simulates related (left.invalidate ctx start) (right.invalidate ctx start) :=
  alike.similar.invalidate (k := ctx) start

theorem queryMany {query : Action σ (List ε)} {query' : Action τ (List ε)}
    (queries : Simulates related query query') (key : String) :
    Simulates related (left.queryMany ctx key query) (right.queryMany ctx key query') :=
  (alike.kindred ctx).queryMany queries key

theorem queryOne {query : Action σ (Option ε)} {query' : Action τ (Option ε)}
    (queries : Simulates related query query') (key : String) :
    Simulates related (left.queryOne ctx key query) (right.queryOne ctx key query') :=
  (alike.kindred ctx).queryOne queries key

theorem cachedFindById (id : ι) :
    Simulates related (left.findById ctx id) (right.findById ctx id) :=
  (alike.kindred ctx).findById (alike.findById ctx id)

theorem cachedFindAll : Simulates related (left.findAll ctx) (right.findAll ctx) := by
  apply (alike.kindred ctx).findAll
  rcases alike.findAll with ⟨none, none'⟩ | ⟨all, all', some, some', alikeAll⟩
  · rw [none, none']
    exact .none
  · rw [some, some']
    exact .some (alikeAll ctx)

end Backend.Alike

section Within

variable {part : τ → σ} {put : σ → τ → τ}

theorem simulates_within (part_put : ∀ s t, part (put s t) = s) {α : Type} (action : Action σ α) :
    Simulates (fun t s => part t = s) (Action.within part put action) action := by
  rintro t _ rfl
  exact ⟨rfl, part_put _ t⟩

theorem Backend.within_perform (backend : Backend σ ι ε) (ctx : Context) (request : Request ι ε) :
    (backend.within part put).stores.perform ctx request =
      Action.within part put (backend.stores.perform ctx request) := by
  cases request <;> rfl

/-- On a larger state a backend acts as it acts on its part. -/
theorem Backend.alike_within (backend : Backend σ ι ε) (part_put : ∀ s t, part (put s t) = s) :
    Backend.Alike (fun t s => part t = s) (backend.within part put) backend where
  schema := rfl
  perform ctx request := backend.within_perform ctx request ▸ simulates_within part_put _
  check ctx := simulates_within part_put _
  now := simulates_within part_put _
  record event := simulates_within part_put _
  findById ctx id := simulates_within part_put _
  findAll := by
    have mapped : (backend.within part put).source.findAll =
        backend.source.findAll.map fun findAll ctx => Action.within part put (findAll ctx) := rfl
    rw [mapped]
    cases backend.source.findAll with
    | none => exact .inl ⟨rfl, rfl⟩
    | some findAll => exact .inr ⟨_, findAll, rfl, rfl, fun ctx => simulates_within part_put _⟩
  nesting := by
    rintro t _ rfl
    rfl

end Within

end QueryCache
