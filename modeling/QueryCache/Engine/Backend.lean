import QueryCache.Action
import QueryCache.Context
import QueryCache.Schema

/-!
# What a cache stands on

A cache uses two stores with common transactions, a source, a clock and a recorder of events.
All of them act on one state, whose type the cache does not know. Nothing is assumed of them
here: a store may fail at any call, and a context may end between any two calls.
-/

namespace QueryCache

/-- What a cache reports while it works. -/
inductive Event
  /-- A query was answered from the stores. -/
  | hit (key : String)
  /-- A query was answered by the source. -/
  | miss (key : String)
  /-- A hit was removed. -/
  | invalidation (key : String)
  /-- A store failed and was worked around. -/
  | error (label text : String)
  deriving DecidableEq, Repr

/-- A store of copies of entities. -/
structure EntityStore (σ ι ε : Type) where
  create : Context → ε → Action σ Unit
  update : Context → ε → Action σ Unit
  findById : Context → ι → Action σ (Option ε)
  findByIds : Context → List ι → Action σ (List ε)
  upsert : Context → List ε → Action σ Unit
  deleteById : Context → ι → Action σ Unit
  deleteAll : Context → Action σ Unit

/-- A store of hits. -/
structure HitStore (σ ι : Type) where
  create : Context → Hit ι → Action σ Unit
  update : Context → Hit ι → Action σ Unit
  findById : Context → String → Action σ (Option (Hit ι))
  findAll : Context → Action σ (List (Hit ι))
  deleteById : Context → String → Action σ Unit
  deleteAll : Context → Action σ Unit

/-- Creation of an entity. The creator may change the entity, and the caller sees the change even
where the creation fails. -/
abbrev Creator (σ ε : Type) := Context → ε → σ → (Except Error Unit × ε) × σ

/-- Where entities come from. A source can always find one entity; what else it can do, it
offers. -/
structure Origin (σ ι ε : Type) where
  findById : Context → ι → Action σ (Option ε)
  create : Option (Creator σ ε)
  update : Option (Context → ε → Action σ Unit)
  deleteById : Option (Context → ι → Action σ Unit)
  deleteAll : Option (Context → Action σ Unit)
  findAll : Option (Context → Action σ (List ε))

/-- Everything that a cache uses. -/
structure Backend (σ ι ε : Type) where
  schema : Schema ι ε
  entities : EntityStore σ ι ε
  hits : HitStore σ ι
  begin : Context → Action σ Context
  commit : Context → Action σ Unit
  rollback : Context → Action σ Unit
  source : Origin σ ι ε
  /-- Whether a call may go on. -/
  check : Context → Action σ Unit
  /-- The moment with which hits are stamped. -/
  now : Action σ Time.Timestamp
  record : Event → Action σ Unit
  /-- How deeply invalidations that start in a state can nest, at most. -/
  nesting : σ → Nat

namespace Backend

variable {σ ι ε α : Type}

/-- What the source offers for a capability, or the failure that it does not. -/
def require (capability : Capability) : Option α → Except Error α
  | some offer => .ok offer
  | none => .error (.capabilityMissing capability)

/-- Records a failure that is worked around; the failure of a context is passed on instead. -/
def tolerate (backend : Backend σ ι ε) (label : String) (e : Error) : Action σ Unit :=
  if e.isContext then Action.fail e else backend.record (.error label e.message)

/-- Ends a transaction: it is committed if the work in it succeeded. Otherwise it is rolled back,
and the failure of the work is the answer even if rolling back fails too. -/
def finish (backend : Backend σ ι ε) (ctx : Context) (outcome : Except Error Unit) :
    Action σ Unit :=
  match outcome with
  | .ok () => backend.commit ctx
  | .error e => do
      let _ ← Action.attempt (backend.rollback ctx)
      Action.fail e

/-- Does work in a transaction of its own within that of the context. -/
def transact (backend : Backend σ ι ε) (ctx : Context) (work : Context → Action σ Unit) :
    Action σ Unit := do
  let tx ← backend.begin ctx
  backend.finish tx (← Action.attempt (work tx))

end Backend

end QueryCache
