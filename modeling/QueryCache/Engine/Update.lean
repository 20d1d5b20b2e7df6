import QueryCache.Engine.Invalidation

/-!
# Changes through the cache

A change is made in the source first, and only if that succeeds in the stores: a new or changed
entity is copied, what a deleted one leaves behind is invalidated. A store that fails does not
undo the change; where it could leave an old copy behind, the entity is invalidated.
-/

namespace QueryCache.Backend

variable {σ ι ε : Type} [DecidableEq ι]

/-- Copies a new entity; a store that fails is worked around. -/
def copyNew (backend : Backend σ ι ε) (ctx : Context) (entity : ε) : Action σ Unit := do
  match ← Action.attempt (backend.entities.create ctx entity) with
  | .ok () => return ()
  | .error e => backend.tolerate backend.schema.label e

/-- Creates an entity and copies it. The entity comes back as the source left it. -/
def create (backend : Backend σ ι ε) : Creator σ ε := fun ctx entity s =>
  let offer : Action σ (Creator σ ε) := do
    backend.check ctx
    require .create backend.source.create
  match offer s with
  | (.error e, s) => ((.error e, entity), s)
  | (.ok creator, s) =>
      match creator ctx entity s with
      | ((.error e, entity), s) => ((.error e, entity), s)
      | ((.ok (), entity), s) =>
          let (outcome, s) := backend.copyNew ctx entity s
          ((outcome, entity), s)

/-- Replaces an entity and its copy. -/
def update (backend : Backend σ ι ε) (ctx : Context) (entity : ε) : Action σ Unit := do
  backend.check ctx
  let update ← require .update backend.source.update
  update ctx entity
  match ← Action.attempt (backend.entities.update ctx entity) with
  | .ok () => return ()
  | .error e => do
      backend.tolerate backend.schema.label e
      backend.invalidateEntity ctx (backend.schema.idOf entity)

/-- Deletes an entity and invalidates it. -/
def deleteById (backend : Backend σ ι ε) (ctx : Context) (id : ι) : Action σ Unit := do
  backend.check ctx
  let delete ← require .deleteById backend.source.deleteById
  delete ctx id
  backend.invalidateEntity ctx id

/-- Removes all hits and all copies. -/
def dropAll (backend : Backend σ ι ε) (ctx : Context) : Action σ Unit := do
  backend.check ctx
  backend.transact ctx fun tx => do
    backend.hits.deleteAll tx
    backend.entities.deleteAll tx

/-- Deletes all entities and removes all hits and copies. -/
def deleteAll (backend : Backend σ ι ε) (ctx : Context) : Action σ Unit := do
  backend.check ctx
  let delete ← require .deleteAll backend.source.deleteAll
  delete ctx
  backend.dropAll ctx

end QueryCache.Backend
