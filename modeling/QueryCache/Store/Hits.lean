import QueryCache.Store.Entities

/-!
# The store of hits

Records of answered queries, each in the row of its query. The calls check their context and
fail as those of the store of entities do. A scan lists hits in an order of its own (`Listing`).
-/

namespace QueryCache

/-- An order in which a scan goes through rows. -/
structure Listing where
  arrange : List (String × Wire.Bytes) → List (String × Wire.Bytes)
  perm : ∀ rows, (arrange rows).Perm rows

/-- Rows are gone through as they are given. -/
def Listing.ascending : Listing := ⟨id, fun _ => .refl _⟩

end QueryCache

namespace QueryCache.Hits

variable {ι ε : Type} (schema : Schema ι ε) (signals : Signals)

open Entities (precheck row)

/-- Stores a hit, in the place of an older one of its query. -/
def create (ctx : Context) (hit : Hit ι) : Action Table Unit := do
  precheck signals ctx
  let bytes ← schema.encodeHit hit
  Table.put ctx.tx hit.queryId bytes

/-- Replaces a hit. -/
def update (ctx : Context) (hit : Hit ι) : Action Table Unit := do
  precheck signals ctx
  if (← row ctx hit.queryId).isNone then
    Action.fail (.notFound hit.queryId)
  else
    let bytes ← schema.encodeHit hit
    Table.put ctx.tx hit.queryId bytes

/-- The hit of a query. -/
def findById (ctx : Context) (queryId : String) : Action Table (Option (Hit ι)) := do
  precheck signals ctx
  match ← row ctx queryId with
  | some bytes => return some (← schema.decodeHit bytes)
  | none => return none

/-- The hits of rows in an order. -/
def ofRowsIn (listing : Listing) (rows : Rows) : Except Error (List (Hit ι)) :=
  (listing.arrange rows.toList).mapM fun row => schema.decodeHit row.2

/-- The hits of rows in the order of their keys. -/
def ofRows (rows : Rows) : Except Error (List (Hit ι)) :=
  ofRowsIn schema .ascending rows

/-- All hits, in an order. -/
def findAllIn (listing : Listing) (ctx : Context) : Action Table (List (Hit ι)) := do
  precheck signals ctx
  let table ← Action.state
  ofRowsIn schema listing (← table.view ctx.tx)

/-- All hits. Nothing is promised about their order; here it is the one of their keys, which is one
of those in which they may be listed. -/
def findAll (ctx : Context) : Action Table (List (Hit ι)) :=
  findAllIn schema signals .ascending ctx

/-- Removes the hit of a query. -/
def deleteById (ctx : Context) (queryId : String) : Action Table Unit := do
  precheck signals ctx
  if (← row ctx queryId).isNone then
    Action.fail (.notFound queryId)
  else
    Table.remove ctx.tx queryId

/-- Removes all hits. -/
def deleteAll (ctx : Context) : Action Table Unit := do
  precheck signals ctx
  Table.clear ctx.tx

/-- The committed hit of a query, if there is one that can be read. -/
def get (table : Table) (queryId : String) : Option (Hit ι) :=
  match table.rows[queryId]? with
  | some bytes => (schema.decodeHit bytes).toOption
  | none => none

end QueryCache.Hits
