import QueryCache.Engine.Invalidation

/-!
# Cached queries

A query is answered from its hit and the copies of the entities that the hit lists. Without a
hit, the source is asked and its answer is remembered. A hit some of whose copies are gone is
invalidated first. Where a store fails, the source is asked and nothing is remembered; only the
failure of the caller's context ends the query.
-/

namespace QueryCache.Backend

variable {σ ι ε α : Type} [DecidableEq ι]

/-- Asks the source after a store has failed. -/
def bypass (backend : Backend σ ι ε) (label : String) (e : Error) (query : Action σ α) :
    Action σ α := do
  backend.tolerate label e
  query

/-- Stores the copies of an answer, and then its hit. -/
def remember (backend : Backend σ ι ε) (ctx : Context) (key : String) (entities : List ε) :
    Action σ Unit := do
  match ← Action.attempt (backend.entities.upsert ctx entities) with
  | .error e => backend.tolerate key e
  | .ok () => do
      let timestamp ← backend.now
      let hit : Hit ι := ⟨key, entities.map backend.schema.idOf, timestamp⟩
      match ← Action.attempt (backend.hits.create ctx hit) with
      | .error e => backend.tolerate key e
      | .ok () => return ()

/-- Asks the source and remembers its answer. -/
def ask (backend : Backend σ ι ε) (ctx : Context) (key : String) (query : Action σ (List ε)) :
    Action σ (List ε) := do
  let entities ← query
  backend.record (.miss key)
  backend.remember ctx key entities
  return entities

/-- The answer of a query whose hit is known: its copies, unless one is missing. -/
def replay (backend : Backend σ ι ε) (ctx : Context) (key : String) (hit : Hit ι)
    (query : Action σ (List ε)) : Action σ (List ε) := do
  match ← Action.attempt (backend.entities.findByIds ctx hit.entityIds) with
  | .ok entities => do
      backend.record (.hit key)
      return entities
  | .error (.notFound _) => do
      match ← Action.attempt (backend.invalidateQuery ctx key) with
      | .ok () => backend.ask ctx key query
      | .error e => backend.bypass key e query
  | .error e => backend.bypass key e query

/-- The answer of a query for any number of entities. -/
def queryMany (backend : Backend σ ι ε) (ctx : Context) (key : String)
    (query : Action σ (List ε)) : Action σ (List ε) := do
  backend.check ctx
  match ← Action.attempt (backend.hits.findById ctx key) with
  | .ok (some hit) => backend.replay ctx key hit query
  | .ok none => backend.ask ctx key query
  | .error e => backend.bypass key e query

/-- The answer of a query for at most one entity. -/
def queryOne (backend : Backend σ ι ε) (ctx : Context) (key : String)
    (query : Action σ (Option ε)) : Action σ (Option ε) := do
  let entities ← backend.queryMany ctx key (do return (← query).toList)
  return entities.head?

/-- The entity of an identifier: its copy, or else the answer of the query for it. -/
def findById (backend : Backend σ ι ε) (ctx : Context) (id : ι) : Action σ (Option ε) := do
  backend.check ctx
  match ← Action.attempt (backend.entities.findById ctx id) with
  | .ok (some entity) => return some entity
  | .ok none => do
      let key ← backend.schema.findByIdKey id
      backend.queryOne ctx key (backend.source.findById ctx id)
  | .error e => backend.bypass backend.schema.label e (backend.source.findById ctx id)

/-- All entities, if the source can list them. -/
def findAll (backend : Backend σ ι ε) (ctx : Context) : Action σ (List ε) := do
  backend.check ctx
  let findAll ← require .findAll backend.source.findAll
  backend.queryMany ctx QueryKey.findAll.encode (findAll ctx)

end QueryCache.Backend
