import QueryCache.Engine.Backend

/-!
# Backends on larger states

A backend that acts on a state acts as well on any larger state of which that state is a part,
and leaves the rest of it alone.
-/

namespace QueryCache.Backend

variable {σ τ ι ε : Type}

/-- The same backend on a larger state, given how its part is taken out and put back. -/
def within (backend : Backend σ ι ε) (part : τ → σ) (put : σ → τ → τ) : Backend τ ι ε where
  schema := backend.schema
  entities :=
    { create := fun ctx entity => lift (backend.entities.create ctx entity)
      update := fun ctx entity => lift (backend.entities.update ctx entity)
      findById := fun ctx id => lift (backend.entities.findById ctx id)
      findByIds := fun ctx ids => lift (backend.entities.findByIds ctx ids)
      upsert := fun ctx entities => lift (backend.entities.upsert ctx entities)
      deleteById := fun ctx id => lift (backend.entities.deleteById ctx id)
      deleteAll := fun ctx => lift (backend.entities.deleteAll ctx) }
  hits :=
    { create := fun ctx hit => lift (backend.hits.create ctx hit)
      update := fun ctx hit => lift (backend.hits.update ctx hit)
      findById := fun ctx queryId => lift (backend.hits.findById ctx queryId)
      findAll := fun ctx => lift (backend.hits.findAll ctx)
      deleteById := fun ctx queryId => lift (backend.hits.deleteById ctx queryId)
      deleteAll := fun ctx => lift (backend.hits.deleteAll ctx) }
  begin ctx := lift (backend.begin ctx)
  commit ctx := lift (backend.commit ctx)
  rollback ctx := lift (backend.rollback ctx)
  source :=
    { findById := fun ctx id => lift (backend.source.findById ctx id)
      create := backend.source.create.map fun creator ctx entity whole =>
        let (outcome, inner) := creator ctx entity (part whole)
        (outcome, put inner whole)
      update := backend.source.update.map fun update ctx entity => lift (update ctx entity)
      deleteById := backend.source.deleteById.map fun delete ctx id => lift (delete ctx id)
      deleteAll := backend.source.deleteAll.map fun delete ctx => lift (delete ctx)
      findAll := backend.source.findAll.map fun findAll ctx => lift (findAll ctx) }
  check ctx := lift (backend.check ctx)
  now := lift backend.now
  record event := lift (backend.record event)
  nesting whole := backend.nesting (part whole)
where
  /-- An action on the part. -/
  lift {α : Type} (action : Action σ α) : Action τ α := Action.within part put action

end QueryCache.Backend
