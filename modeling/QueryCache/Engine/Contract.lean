import QueryCache.Engine.Backend

/-!
# The contract of a repository

What a cache relies on in its stores and transactions, as checks that can be run against any
backend. A check fails with the rule that does not hold, or with the failure of a call that had
to succeed. Each is to be run on a fresh repository.
-/

namespace QueryCache.Contract

variable {σ ι ε : Type} [DecidableEq ι] (backend : Backend σ ι ε) (make : Nat → ε)

/-- A rule has to hold. -/
def ensure (holds : Bool) (rule : String) : Except Error Unit :=
  if holds then .ok () else .error (.other ("repository contract violated: " ++ rule))

/-- A call has to fail. -/
def refuses {α : Type} (call : Action σ α) (rule : String) : Action σ Unit := do
  let outcome ← Action.attempt call
  ensure (!outcome.isOk) rule

/-- A call has to fail because of its transaction. -/
def refusesTx {α : Type} (call : Action σ α) (rule : String) : Action σ Unit := do
  match ← Action.attempt call with
  | .error (.transaction _) => return ()
  | _ => ensure false rule

/-- A hit of the given entities. -/
def hitOf (queryId : String) (entities : List ε) : Action σ (Hit ι) := do
  return ⟨queryId, entities.map backend.schema.idOf, ← backend.now⟩

/-- The store of entities tells stored identifiers from absent ones. -/
def entityStore : Action σ Unit := do
  let ctx := Context.root
  let store := backend.entities
  let idOf := backend.schema.idOf
  let first := make 1
  let second := make 2
  let absent := make 3
  store.create ctx first
  refuses (store.create ctx first) "create of a stored ID fails"
  refuses (store.update ctx second) "update of an absent ID fails"
  store.upsert ctx [first, second]
  let found ← store.findByIds ctx [idOf second, idOf first]
  ensure (found.map idOf = [idOf second, idOf first])
    "find_by_ids keeps the order of the requested IDs"
  refuses (store.findByIds ctx [idOf first, idOf absent])
    "find_by_ids fails when an ID is absent"
  ensure (← store.findById ctx (idOf absent)).isNone "find_by_id of an absent ID is None"
  store.update ctx first
  store.deleteById ctx (idOf first)
  refuses (store.deleteById ctx (idOf first)) "delete_by_id of an absent ID fails"
  ensure (← store.findById ctx (idOf first)).isNone "a deleted entity is gone"
  store.deleteAll ctx
  ensure (← store.findById ctx (idOf second)).isNone "delete_all removes every entity"

/-- The store of hits keeps one hit for each query. -/
def hitStore : Action σ Unit := do
  let ctx := Context.root
  let store := backend.hits
  let first := make 1
  let second := make 2
  store.create ctx (← hitOf backend "q" [first])
  store.create ctx (← hitOf backend "q" [second])
  let stored ← store.findById ctx "q"
  ensure (stored.map Hit.entityIds = some [backend.schema.idOf second])
    "create replaces a hit with the same query ID"
  store.create ctx (← hitOf backend "empty" [])
  ensure ((← store.findById ctx "empty").any fun hit => hit.entityIds.isEmpty)
    "a hit with no entities is stored"
  ensure ((← store.findAll ctx).length = 2) "find_all returns every hit"
  store.deleteById ctx "q"
  refuses (store.deleteById ctx "q") "delete_by_id of an absent hit fails"
  store.deleteAll ctx
  ensure (← store.findAll ctx).isEmpty "delete_all removes every hit"

/-- What is written in a transaction is seen in it at once and elsewhere after the commit. -/
def commitPublishes : Action σ Unit := do
  let ctx := Context.root
  let entity := make 1
  let tx ← backend.begin ctx
  backend.entities.create tx entity
  backend.hits.create tx (← hitOf backend "staged" [entity])
  ensure (← backend.hits.findById tx "staged").isSome
    "a staged hit is visible inside its transaction"
  ensure (← backend.hits.findById ctx "staged").isNone
    "a staged hit is invisible outside its transaction"
  backend.commit tx
  ensure (← backend.hits.findById ctx "staged").isSome "a committed hit is visible"
  ensure (← backend.entities.findById ctx (backend.schema.idOf entity)).isSome
    "a committed entity is visible"

/-- A rollback leaves everything as it was before the transaction. -/
def rollbackDiscards : Action σ Unit := do
  let ctx := Context.root
  let idOf := backend.schema.idOf
  let kept := make 1
  let staged := make 2
  backend.entities.create ctx kept
  backend.hits.create ctx (← hitOf backend "kept" [kept])
  let tx ← backend.begin ctx
  backend.entities.deleteById tx (idOf kept)
  backend.entities.create tx staged
  backend.hits.deleteAll tx
  backend.rollback tx
  ensure (← backend.entities.findById ctx (idOf kept)).isSome
    "rollback restores a deleted entity"
  ensure (← backend.entities.findById ctx (idOf staged)).isNone
    "rollback discards a created entity"
  ensure (← backend.hits.findById ctx "kept").isSome "rollback discards a clear"

/-- A nested transaction ends in its parent, and with the parent everywhere. -/
def nestedCommitFolds : Action σ Unit := do
  let ctx := Context.root
  let entity := make 1
  backend.hits.create ctx (← hitOf backend "a" [entity])
  backend.hits.create ctx (← hitOf backend "b" [entity])
  let outer ← backend.begin ctx
  let inner ← backend.begin outer
  backend.hits.deleteById inner "a"
  backend.commit inner
  let discarded ← backend.begin outer
  backend.hits.deleteById discarded "b"
  backend.rollback discarded
  ensure ((← backend.hits.findAll outer).length = 1)
    "a committed child is visible to its parent"
  ensure ((← backend.hits.findAll ctx).length = 2)
    "a committed child stays invisible until the parent commits"
  backend.commit outer
  let remaining ← backend.hits.findAll ctx
  ensure (remaining.map Hit.queryId = ["b"]) "the parent commit publishes the folded child"

/-- A transaction that has ended takes no further calls. -/
def finishedTransaction : Action σ Unit := do
  let ctx := Context.root
  let committed ← backend.begin ctx
  backend.commit committed
  refusesTx (backend.commit committed) "a second commit fails with TransactionError"
  refusesTx (backend.entities.upsert committed [make 1])
    "a write on a committed transaction fails with TransactionError"
  let rolledBack ← backend.begin ctx
  backend.rollback rolledBack
  refusesTx (backend.rollback rolledBack) "a second rollback fails with TransactionError"
  refuses (backend.begin rolledBack) "a finished transaction cannot parent a new one"

/-- All checks in the order in which they are run. -/
def checks : List (Action σ Unit) :=
  [entityStore backend make, hitStore backend make, commitPublishes backend make,
    rollbackDiscards backend make, nestedCommitFolds backend make,
    finishedTransaction backend make]

/-- Runs checks, each from the same fresh state, until one fails. -/
def runEach (fresh : σ) : List (Action σ Unit) → Except Error Unit
  | [] => .ok ()
  | check :: checks =>
      match (check fresh).1 with
      | .ok () => runEach fresh checks
      | .error e => .error e

/-- The whole contract. -/
def verify (fresh : σ) : Except Error Unit :=
  runEach fresh (checks backend make)

end QueryCache.Contract
