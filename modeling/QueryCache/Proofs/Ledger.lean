import QueryCache.Proofs.Requests

/-!
# A repository that keeps journals

The repository as one would describe it without thinking of its speed. Every open transaction
keeps a journal of what was done in it, in the order in which it was done, and nothing in a journal
is ever merged. What a reader sees is computed anew each time: the journals of all transactions
around the reader are replayed on the committed rows, from the outermost to the innermost.

The stores on top of the journals check, encode and decode as the stores in memory do. That both
answer every run alike is the matter of `QueryCache.Proofs.LedgerRefinement`.
-/

namespace QueryCache

open Wire

namespace Ledger

/-- The two kinds of rows. -/
inductive Side
  | entities
  | hits
  deriving DecidableEq, Repr

/-- The other kind of rows. -/
def Side.other : Side → Side
  | .entities => .hits
  | .hits => .entities

theorem Side.other_ne (side : Side) : side.other ≠ side := by
  cases side <;> decide

/-- What can be done to rows. -/
inductive Step
  | put (key : String) (bytes : Bytes)
  | delete (key : String)
  | clear

/-- The rows after a step. -/
def Step.run : Step → Rows → Rows
  | .put key bytes, rows => rows.insert key bytes
  | .delete key, rows => rows.erase key
  | .clear, _ => ∅

/-- A step, and the kind of rows to which it is done. -/
structure Entry where
  side : Side
  step : Step

/-- What an open transaction remembers: the transactions around it, its parent first, and
what was done in it, in order. -/
structure Journal where
  ancestors : List TxId
  entries : List Entry

/-- The rows of one kind after entries, the first of which comes first. -/
def replay (side : Side) (entries : List Entry) (rows : Rows) : Rows :=
  entries.foldl (fun rows entry => if entry.side = side then entry.step.run rows else rows) rows

end Ledger

/-- The committed rows, the journals of the open transactions, a failure for either kind of rows
that all calls meet while it is set, and the number of the last transaction. -/
structure Ledger where
  committed : Ledger.Side → Rows
  journals : Std.ExtTreeMap TxId Ledger.Journal
  failure : Ledger.Side → Option Error
  lastTx : TxId

namespace Ledger

/-- A ledger without rows. -/
def empty : Ledger := ⟨fun _ => ∅, ∅, fun _ => none, 0⟩

/-- The transactions around an open transaction, its parent first. -/
def around (ledger : Ledger) (tx : TxId) : Option (List TxId) :=
  ledger.journals[tx]?.map Journal.ancestors

/-- The transactions through which a reader looks, from the innermost outwards. -/
def path (ledger : Ledger) : Option TxId → List TxId
  | none => []
  | some tx => tx :: (ledger.around tx).getD []

/-- The committed rows after the journals of transactions, the last of which is the outermost. All
of them must be open. -/
def through (ledger : Ledger) (side : Side) : List TxId → Except Error Rows
  | [] => .ok (ledger.committed side)
  | tx :: outer =>
      match ledger.journals[tx]? with
      | none => .error (Table.finished tx)
      | some journal => (ledger.through side outer).map (replay side journal.entries)

/-- The rows, as they are seen in a transaction. -/
def view (ledger : Ledger) (side : Side) (tx : Option TxId) : Except Error Rows :=
  ledger.through side (ledger.path tx)

/-- The check that every call of a store makes first. -/
def precheck (side : Side) (signals : Signals) (ctx : Context) : Action Ledger Unit :=
  fun ledger =>
    match ctx.check signals, ledger.failure side with
    | .error e, _ => (.error e, ledger)
    | .ok (), some e => (.error e, ledger)
    | .ok (), none => (.ok (), ledger)

/-- Reads all rows. -/
def scan (side : Side) (ctx : Context) : Action Ledger Rows := fun ledger =>
  (ledger.view side ctx.tx, ledger)

/-- Reads one row. -/
def read (side : Side) (ctx : Context) (key : String) : Action Ledger (Option Bytes) :=
  fun ledger => ((ledger.view side ctx.tx).map fun rows => rows[key]?, ledger)

/-- Does a step: outside of transactions to the committed rows, in a transaction by writing it
down. Only the transaction itself has to be open. -/
def write (side : Side) (ctx : Context) (step : Step) : Action Ledger Unit := fun ledger =>
  match ctx.tx with
  | none =>
      (.ok (), { ledger with committed := fun other =>
        if other = side then step.run (ledger.committed side) else ledger.committed other })
  | some tx =>
      match ledger.journals[tx]? with
      | none => (.error (Table.finished tx), ledger)
      | some journal =>
          let longer := { journal with entries := journal.entries ++ [⟨side, step⟩] }
          (.ok (), { ledger with journals := ledger.journals.insert tx longer })

/-- Begins a transaction. Its number is used up even if its parent is no longer open. -/
def begin (signals : Signals) (ctx : Context) : Action Ledger Context := fun ledger =>
  match ctx.check signals with
  | .error e => (.error e, ledger)
  | .ok () =>
      let tx := ledger.lastTx + 1
      let numbered := { ledger with lastTx := tx }
      let started (ancestors : List TxId) : Ledger :=
        { numbered with journals := ledger.journals.insert tx ⟨ancestors, []⟩ }
      match ctx.tx with
      | none => (.ok (ctx.withTx tx), started [])
      | some parent =>
          match ledger.journals[parent]? with
          | none => (.error (Table.finished parent), numbered)
          | some journal => (.ok (ctx.withTx tx), started (parent :: journal.ancestors))

/-- Ends a transaction. Its journal goes behind that of its parent, or is replayed on the committed
rows if there is no parent. If the parent is no longer open, the journal is lost. -/
def commit (ctx : Context) : Action Ledger Unit := fun ledger =>
  match ctx.tx with
  | none => (.error (.transaction "context is not bound to a transaction"), ledger)
  | some tx =>
      match ledger.journals[tx]? with
      | none => (.error (Table.finished tx), ledger)
      | some journal =>
          let closed := { ledger with journals := ledger.journals.erase tx }
          match journal.ancestors with
          | [] =>
              let published side := replay side journal.entries (ledger.committed side)
              (.ok (), { closed with committed := published })
          | parent :: _ =>
              match ledger.journals[parent]? with
              | none => (.error (Table.finished parent), closed)
              | some outer =>
                  let longer := { outer with entries := outer.entries ++ journal.entries }
                  (.ok (), { closed with journals := closed.journals.insert parent longer })

/-- Ends a transaction and drops its journal. -/
def rollback (ctx : Context) : Action Ledger Unit := fun ledger =>
  match ctx.tx with
  | none => (.error (.transaction "context is not bound to a transaction"), ledger)
  | some tx =>
      match ledger.journals[tx]? with
      | none => (.error (Table.finished tx), ledger)
      | some _ => (.ok (), { ledger with journals := ledger.journals.erase tx })

variable {ι ε : Type} (schema : Schema ι ε) (signals : Signals)

section Entities

/-- The copy of a key. -/
def copy (ctx : Context) (key : String) : Action Ledger (Option ε) := do
  match ← read .entities ctx key with
  | some bytes => return some (← schema.decode bytes)
  | none => return none

/-- The copies of identifiers, in their order. -/
def copies (ctx : Context) : List ι → Action Ledger (List ε)
  | [] => return []
  | id :: ids => do
      let key ← schema.entityKey id
      match ← copy schema ctx key with
      | some entity => return entity :: (← copies ctx ids)
      | none => Action.fail (.notFound key)

/-- Stores a copy, whether or not there is one. -/
def store (ctx : Context) (entity : ε) : Action Ledger Unit := do
  let key ← schema.entityKey (schema.idOf entity)
  let bytes ← schema.encode entity
  write .entities ctx (.put key bytes)

/-- The store of entities on top of the journals. -/
def entityStore : EntityStore Ledger ι ε where
  create ctx entity := do
    precheck .entities signals ctx
    let key ← schema.entityKey (schema.idOf entity)
    if (← read .entities ctx key).isSome then
      Action.fail (.backend (key ++ " already exists"))
    else
      let bytes ← schema.encode entity
      write .entities ctx (.put key bytes)
  update ctx entity := do
    precheck .entities signals ctx
    let key ← schema.entityKey (schema.idOf entity)
    if (← read .entities ctx key).isNone then
      Action.fail (.notFound key)
    else
      let bytes ← schema.encode entity
      write .entities ctx (.put key bytes)
  findById ctx id := do
    precheck .entities signals ctx
    let key ← schema.entityKey id
    copy schema ctx key
  findByIds ctx ids := do
    precheck .entities signals ctx
    copies schema ctx ids
  upsert ctx entities := do
    precheck .entities signals ctx
    Action.each (store schema ctx) entities
  deleteById ctx id := do
    precheck .entities signals ctx
    let key ← schema.entityKey id
    if (← read .entities ctx key).isNone then
      Action.fail (.notFound key)
    else
      write .entities ctx (.delete key)
  deleteAll ctx := do
    precheck .entities signals ctx
    write .entities ctx .clear

end Entities

/-- The store of hits on top of the journals. -/
def hitStore : HitStore Ledger ι where
  create ctx hit := do
    precheck .hits signals ctx
    let bytes ← schema.encodeHit hit
    write .hits ctx (.put hit.queryId bytes)
  update ctx hit := do
    precheck .hits signals ctx
    if (← read .hits ctx hit.queryId).isNone then
      Action.fail (.notFound hit.queryId)
    else
      let bytes ← schema.encodeHit hit
      write .hits ctx (.put hit.queryId bytes)
  findById ctx queryId := do
    precheck .hits signals ctx
    match ← read .hits ctx queryId with
    | some bytes => return some (← schema.decodeHit bytes)
    | none => return none
  findAll ctx := do
    precheck .hits signals ctx
    Hits.ofRows schema (← scan .hits ctx)
  deleteById ctx queryId := do
    precheck .hits signals ctx
    if (← read .hits ctx queryId).isNone then
      Action.fail (.notFound queryId)
    else
      write .hits ctx (.delete queryId)
  deleteAll ctx := do
    precheck .hits signals ctx
    write .hits ctx .clear

/-- The stores on top of the journals, for contexts that observe the given signals. -/
def stores : Stores Ledger ι ε where
  entities := entityStore schema signals
  hits := hitStore schema signals
  begin := begin signals
  commit := commit
  rollback := rollback

/-- The ledger with a failure set for a kind of rows, or taken from it. -/
def setFailure (side : Side) (failure : Option Error) (ledger : Ledger) : Ledger :=
  { ledger with failure := fun other => if other = side then failure else ledger.failure other }

/-- Takes a turn. -/
def take : Turn ι ε → Action Ledger (Answer ι ε)
  | .request signals ctx request => (stores schema signals).perform ctx request
  | .failEntities failure => fun ledger => (.ok .done, ledger.setFailure .entities failure)
  | .failHits failure => fun ledger => (.ok .done, ledger.setFailure .hits failure)

end Ledger

/-- The answers of a run, turn by turn, given how a turn is taken. -/
def answers {σ ι ε : Type} (take : Turn ι ε → Action σ (Answer ι ε)) :
    List (Turn ι ε) → σ → List (Except Error (Answer ι ε))
  | [], _ => []
  | turn :: run, s => (take turn s).1 :: answers take run (take turn s).2

end QueryCache
