import QueryCache.Action
import QueryCache.Context
import QueryCache.Schema

/-!
# A source in memory

The place where entities come from: a list of rows in the order of their creation. A row keeps
its place when it is replaced. The source counts how often it was asked for one entity and for
all, whether or not it could answer.
-/

namespace QueryCache

/-- The rows, a failure that all calls meet while it is set, and the two counts. -/
structure Source (ε : Type) where
  rows : List ε
  failure : Option Error
  findByIdCalls : Nat
  findAllCalls : Nat

namespace Source

variable {ι ε : Type} [DecidableEq ι] (schema : Schema ι ε) (signals : Signals)

/-- A source of the given rows. -/
def ofRows (rows : List ε) : Source ε := ⟨rows, none, 0, 0⟩

/-- The check that every call makes first. -/
def precheck (ctx : Context) : Action (Source ε) Unit := do
  ctx.check signals
  match (← Action.state).failure with
  | some e => Action.fail e
  | none => return ()

/-- The row of an identifier. -/
def rowOf (id : ι) (rows : List ε) : Option ε :=
  rows.find? fun row => schema.idOf row = id

/-- The rows with the first one of the entity's identifier replaced, if there is one. -/
def replace (entity : ε) : List ε → Option (List ε)
  | [] => none
  | row :: rows =>
      if schema.idOf row = schema.idOf entity then some (entity :: rows)
      else (replace entity rows).map (row :: ·)

/-- Puts an entity into its place, or behind all rows. -/
def insert (entity : ε) (source : Source ε) : Source ε :=
  { source with rows := (replace schema entity source.rows).getD (source.rows ++ [entity]) }

/-- The entity of an identifier. -/
def findById (ctx : Context) (id : ι) : Action (Source ε) (Option ε) := do
  Action.modify fun source => { source with findByIdCalls := source.findByIdCalls + 1 }
  precheck signals ctx
  return rowOf schema id (← Action.state).rows

/-- Adds an entity of a new identifier. -/
def create (ctx : Context) (entity : ε) : Action (Source ε) Unit := do
  precheck signals ctx
  let source ← Action.state
  if (rowOf schema (schema.idOf entity) source.rows).isSome then
    Action.fail (.source
      (schema.label ++ " already exists with id " ++ schema.idText (schema.idOf entity)))
  else Action.modify fun source => { source with rows := source.rows ++ [entity] }

/-- Replaces the entity of an identifier. -/
def update (ctx : Context) (entity : ε) : Action (Source ε) Unit := do
  precheck signals ctx
  let source ← Action.state
  match replace schema entity source.rows with
  | some rows => Action.modify fun source => { source with rows := rows }
  | none => Action.fail (.notFound (schema.named (schema.idOf entity)))

/-- Removes the entity of an identifier. -/
def deleteById (ctx : Context) (id : ι) : Action (Source ε) Unit := do
  precheck signals ctx
  let source ← Action.state
  if (rowOf schema id source.rows).isSome then
    Action.modify fun source =>
      { source with rows := source.rows.filter fun row => schema.idOf row ≠ id }
  else Action.fail (.notFound (schema.named id))

/-- Removes all entities. -/
def deleteAll (ctx : Context) : Action (Source ε) Unit := do
  precheck signals ctx
  Action.modify fun source => { source with rows := [] }

/-- All entities. -/
def findAll (ctx : Context) : Action (Source ε) (List ε) := do
  Action.modify fun source => { source with findAllCalls := source.findAllCalls + 1 }
  precheck signals ctx
  return (← Action.state).rows

end Source

end QueryCache
