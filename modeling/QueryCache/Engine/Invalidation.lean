import QueryCache.Engine.Backend

/-!
# Invalidation

An entity goes together with the answers that hold it, and an answer together with its entities.
Removing one of them therefore spreads: from an entity to the hit of its own query and to every
hit that lists it, and from a hit to every entity that it lists. Each removal runs in a
transaction of its own within that of the removal that caused it, so a removal that fails leaves
no trace.

Every step down removes a hit, so that the depth is bounded by the number of hits; the bound is
taken from the backend. Beyond it a removal would fail.
-/

namespace QueryCache

variable {σ ι ε : Type} [DecidableEq ι]

namespace Invalidation

/-- The answer of a removal that nests deeper than the bound. -/
def tooDeep : Error := .other "invalidation nests too deeply"

/-- Removes, inside a transaction, an entity and what goes with it, given how to remove a hit. -/
def dropEntity (backend : Backend σ ι ε) (dropHit : Context → String → Action σ Unit)
    (id : ι) (ctx : Context) : Action σ Unit := do
  backend.check ctx
  let key ← backend.schema.findByIdKey id
  dropHit ctx key
  backend.check ctx
  let hits ← backend.hits.findAll ctx
  Action.each (fun queryId => do
    backend.check ctx
    dropHit ctx queryId) ((hits.filter fun hit => hit.references id).map Hit.queryId)
  backend.check ctx
  if (← backend.entities.findById ctx id).isSome then
    backend.entities.deleteById ctx id

/-- Removes, inside a transaction, a hit and what goes with it, given how to remove an entity. -/
def dropHit (backend : Backend σ ι ε) (dropEntity : Context → ι → Action σ Unit)
    (queryId : String) (ctx : Context) : Action σ Unit := do
  backend.check ctx
  match ← backend.hits.findById ctx queryId with
  | none => return ()
  | some hit => do
      backend.hits.deleteById ctx queryId
      backend.record (.invalidation queryId)
      Action.each (fun id => do
        backend.check ctx
        dropEntity ctx id) hit.entityIds

/-- Removes a hit and what goes with it, nesting as deeply as given. -/
def hitWithin (backend : Backend σ ι ε) : Nat → Context → String → Action σ Unit
  | 0, _, _ => Action.fail tooDeep
  | depth + 1, ctx, queryId =>
      backend.transact ctx
        (dropHit backend
          (fun ctx id => backend.transact ctx (dropEntity backend (hitWithin backend depth) id))
          queryId)

/-- Removes an entity and what goes with it, nesting as deeply as given. -/
def entityWithin (backend : Backend σ ι ε) (depth : Nat) (ctx : Context) (id : ι) :
    Action σ Unit :=
  backend.transact ctx (dropEntity backend (hitWithin backend depth) id)

end Invalidation

namespace Backend

/-- Removes the hit of a query, every entity that it lists, and what goes with those. -/
def invalidateQuery (backend : Backend σ ι ε) (ctx : Context) (queryId : String) :
    Action σ Unit := fun s =>
  Invalidation.hitWithin backend (backend.nesting s) ctx queryId s

/-- Removes an entity, every hit that lists it, and what goes with those. -/
def invalidateEntity (backend : Backend σ ι ε) (ctx : Context) (id : ι) : Action σ Unit :=
  fun s => Invalidation.entityWithin backend (backend.nesting s) ctx id s

end Backend

end QueryCache
