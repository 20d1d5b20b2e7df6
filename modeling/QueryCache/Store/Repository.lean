import QueryCache.Store.Hits

/-!
# The repository

The two tables of a cache, and the transactions that they share. Transactions are numbered from
1 in the order in which they are begun, whether or not that succeeds. A transaction is opened
and closed in both tables.
-/

namespace QueryCache

/-- The table of entities, the table of hits, and the number of the last transaction. -/
structure Repository where
  entities : Table
  hits : Table
  lastTx : TxId

namespace Repository

variable {α : Type}

/-- A repository without rows. -/
def empty : Repository := ⟨.empty, .empty, 0⟩

/-- An action on the table of entities. -/
def onEntities (action : Action Table α) : Action Repository α :=
  Action.within entities (fun table repository => { repository with entities := table }) action

/-- An action on the table of hits. -/
def onHits (action : Action Table α) : Action Repository α :=
  Action.within hits (fun table repository => { repository with hits := table }) action

/-- The number of the next transaction. -/
def nextTx : Action Repository TxId := fun repository =>
  (.ok (repository.lastTx + 1), { repository with lastTx := repository.lastTx + 1 })

/-- Opens a transaction within that of the context and gives the context of the new one. -/
def begin (signals : Signals) (ctx : Context) : Action Repository Context := do
  ctx.check signals
  let tx ← nextTx
  onEntities (Table.begin tx ctx.tx)
  match ← Action.attempt (onHits (Table.begin tx ctx.tx)) with
  | .ok () => return ctx.withTx tx
  | .error e => do
      let _ ← Action.attempt (onEntities (Table.rollback tx))
      Action.fail e

/-- The transaction of a context, which must have one. -/
def requireTx (ctx : Context) : Except Error TxId :=
  match ctx.tx with
  | some tx => .ok tx
  | none => .error (.transaction "context is not bound to a transaction")

/-- Runs an action on both tables; the failure of the first counts before that of the second. -/
def onBoth (action : Action Table Unit) : Action Repository Unit := do
  let first ← Action.attempt (onEntities action)
  let second ← Action.attempt (onHits action)
  match first with
  | .ok () => second
  | .error e => Action.fail e

/-- Closes the transaction of a context and publishes its changes. -/
def commit (ctx : Context) : Action Repository Unit := do
  let tx ← requireTx ctx
  onBoth (Table.commit tx)

/-- Closes the transaction of a context and drops its changes. -/
def rollback (ctx : Context) : Action Repository Unit := do
  let tx ← requireTx ctx
  onBoth (Table.rollback tx)

end Repository

end QueryCache
