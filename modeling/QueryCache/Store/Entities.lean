import QueryCache.Schema
import QueryCache.Store.Table

/-!
# The store of entities

Copies of entities, each in the row of its identifier. Every call first checks its context and
the failure that is set for the table; a call that fails has changed nothing, except that
`upsert` keeps the copies it wrote before it failed.
-/

namespace QueryCache.Entities

variable {ι ε : Type} (schema : Schema ι ε) (signals : Signals)

/-- The table as an action. -/
def precheck (ctx : Context) : Action Table Unit := do
  let table ← Action.state
  table.precheck signals ctx

/-- The row of a key, as it is seen in a context. -/
def row (ctx : Context) (key : String) : Action Table (Option Wire.Bytes) := do
  let table ← Action.state
  table.get ctx.tx key

/-- The copy of a key. -/
def copy (ctx : Context) (key : String) : Action Table (Option ε) := do
  match ← row ctx key with
  | some bytes => return some (← schema.decode bytes)
  | none => return none

/-- Stores a copy where none is. -/
def create (ctx : Context) (entity : ε) : Action Table Unit := do
  precheck signals ctx
  let key ← schema.entityKey (schema.idOf entity)
  if (← row ctx key).isSome then
    Action.fail (.backend (key ++ " already exists"))
  else
    let bytes ← schema.encode entity
    Table.put ctx.tx key bytes

/-- Replaces a copy. -/
def update (ctx : Context) (entity : ε) : Action Table Unit := do
  precheck signals ctx
  let key ← schema.entityKey (schema.idOf entity)
  if (← row ctx key).isNone then
    Action.fail (.notFound key)
  else
    let bytes ← schema.encode entity
    Table.put ctx.tx key bytes

/-- The copy of an identifier. -/
def findById (ctx : Context) (id : ι) : Action Table (Option ε) := do
  precheck signals ctx
  let key ← schema.entityKey id
  copy schema ctx key

/-- The copies of identifiers, in their order. -/
def copies (ctx : Context) : List ι → Action Table (List ε)
  | [] => return []
  | id :: ids => do
      let key ← schema.entityKey id
      match ← copy schema ctx key with
      | some entity => return entity :: (← copies ctx ids)
      | none => Action.fail (.notFound key)

/-- The copies of identifiers, none of which may be missing. -/
def findByIds (ctx : Context) (ids : List ι) : Action Table (List ε) := do
  precheck signals ctx
  copies schema ctx ids

/-- Stores a copy, whether or not there is one. -/
def store (ctx : Context) (entity : ε) : Action Table Unit := do
  let key ← schema.entityKey (schema.idOf entity)
  let bytes ← schema.encode entity
  Table.put ctx.tx key bytes

/-- Stores copies one after the other. -/
def upsert (ctx : Context) (entities : List ε) : Action Table Unit := do
  precheck signals ctx
  Action.each (store schema ctx) entities

/-- Removes the copy of an identifier. -/
def deleteById (ctx : Context) (id : ι) : Action Table Unit := do
  precheck signals ctx
  let key ← schema.entityKey id
  if (← row ctx key).isNone then
    Action.fail (.notFound key)
  else
    Table.remove ctx.tx key

/-- Removes all copies. -/
def deleteAll (ctx : Context) : Action Table Unit := do
  precheck signals ctx
  Table.clear ctx.tx

/-- A committed copy is stored for an identifier that can be a key. -/
def contains (table : Table) (id : ι) : Bool :=
  match schema.entityKey id with
  | .ok key => table.rows.contains key
  | .error _ => false

end QueryCache.Entities
