import QueryCache.Engine.Backend
import QueryCache.Simulation.Fault
import QueryCache.Source
import QueryCache.Store.Repository

/-!
# A world around a cache

Everything that a cache can act on, as one state: the repository and the source in memory, the
signals that contexts observe, the clock, the recorded events, and the state of the gate before
the repository. A setting holds what does not change: the schema, the gate, and what kind of
source the cache is to see.

`Setting.backend` is the backend that a cache in this world has.
-/

namespace QueryCache.Simulation

open Time (Timestamp)

/-- The state of a world. -/
structure World (γ ε : Type) where
  signals : Signals
  clock : Timestamp
  repository : Repository
  source : Source ε
  /-- The place of the next identifier that the source assigns. -/
  nextPlace : Nat
  events : List Event
  gate : γ

/-- How the source shows itself: what it offers, whether it assigns identifiers, where a list of
all entities breaks off, and whether it takes notice of contexts. -/
structure Outlet (ε : Type) where
  offers : List Capability
  assign : Option (Nat → ε → ε)
  cut : Option (Nat × Error)
  oblivious : Bool

/-- What does not change in a world. -/
structure Setting (γ ι ε : Type) where
  schema : Schema ι ε
  gate : Gate γ ι
  outlet : Outlet ε
  records : Bool

namespace World

variable {γ ι ε α : Type}

/-- The world at its beginning. -/
def initial (gate : γ) (rows : List ε) (firstPlace : Nat) : World γ ε :=
  ⟨.initial, ⟨0, 0⟩, .empty, .ofRows rows, firstPlace, [], gate⟩

/-- Changes the signals. -/
def signal (change : Signals → Signals) : Action (World γ ε) Unit :=
  Action.modify fun world => { world with signals := change world.signals }

/-- An action on the repository that observes the signals. -/
def onRepository (action : Signals → Action Repository α) : Action (World γ ε) α := fun world =>
  Action.within repository (fun repository world => { world with repository })
    (action world.signals) world

/-- An action on the source that observes the signals. -/
def onSource (action : Signals → Action (Source ε) α) : Action (World γ ε) α := fun world =>
  Action.within source (fun source world => { world with source }) (action world.signals) world

/-- An action on the table of entities. -/
def onEntities (action : Signals → Action Table α) : Action (World γ ε) α :=
  onRepository fun signals => Repository.onEntities (action signals)

/-- An action on the table of hits. -/
def onHits (action : Signals → Action Table α) : Action (World γ ε) α :=
  onRepository fun signals => Repository.onHits (action signals)

/-- The decision of the gate on a call. -/
def ask (gate : Gate γ ι) (method : Method) (queryId : Option String) :
    Action (World γ ε) (Decision ι) := fun world =>
  let (decision, state) := gate.decide ⟨method, queryId⟩ world.gate
  (.ok decision, { world with gate := state })

/-- A call whose fate is decided, given what it succeeds with when it is skipped. -/
def carryOut (decision : Decision ι) (ctx : Context) (nothing : α)
    (call : Context → Action (World γ ε) α) : Action (World γ ε) α :=
  match decision with
  | .fail e => Action.fail e
  | .cancelBefore => do
      signal (·.cancel ctx)
      call ctx
  | .cancelAfter => do
      let outcome ← Action.attempt (call ctx)
      signal (·.cancel ctx)
      outcome
  | .delayBefore milliseconds => do
      signal (·.advance milliseconds)
      call ctx
  | .delayAfter milliseconds => do
      let outcome ← Action.attempt (call ctx)
      signal (·.advance milliseconds)
      outcome
  | .skip => return nothing
  | .detach => call ctx.detached
  | .swallow => do
      match ← Action.attempt (call ctx) with
      | .ok value => return value
      | .error _ => return nothing
  | _ => call ctx

/-- A call of a store through the gate. -/
def gated (gate : Gate γ ι) (method : Method) (queryId : Option String) (ctx : Context)
    (nothing : α) (call : Context → Action (World γ ε) α) : Action (World γ ε) α := do
  carryOut (← ask gate method queryId) ctx nothing call

/-- The lookup of an entity through the gate, which may redirect it. -/
def gatedFindById (gate : Gate γ ι) (ctx : Context) (id : ι)
    (call : ι → Context → Action (World γ ε) (Option ε)) : Action (World γ ε) (Option ε) := do
  match ← ask gate .entitiesFindById none with
  | .redirect other => call other ctx
  | decision => carryOut decision ctx none (call id)

/-- The lookup of entities through the gate, which may reverse them. -/
def gatedFindByIds (gate : Gate γ ι) (ctx : Context)
    (call : Context → Action (World γ ε) (List ε)) : Action (World γ ε) (List ε) := do
  match ← ask gate .entitiesFindByIds none with
  | .reverse => return (← call ctx).reverse
  | decision => carryOut decision ctx [] call

/-- The beginning of a transaction through the gate. Where nothing comes of it, the context
stays without a new transaction; it loses its own if the beginning was made and failed. -/
def gatedBegin (gate : Gate γ ι) (ctx : Context)
    (call : Context → Action (World γ ε) Context) : Action (World γ ε) Context := do
  match ← ask gate .begin none with
  | .swallow => carryOut (.swallow : Decision ι) ctx ctx.detached call
  | decision => carryOut decision ctx ctx call

/-- The end of a transaction through the gate, which may turn it into the other end. -/
def gatedEnd (gate : Gate γ ι) (method : Method) (ctx : Context)
    (call other : Context → Action (World γ ε) Unit) : Action (World γ ε) Unit := do
  match ← ask gate method none with
  | .swap => other ctx
  | .cancelAfter => call ctx
  | decision => carryOut decision ctx () call

/-- The number of hits, committed or staged in any open transaction. -/
def hitCount (world : World γ ε) : Nat :=
  let table := world.repository.hits
  table.overlays.foldl (fun count _ overlay => count + overlay.changes.size) table.rows.size

end World

namespace Setting

variable {γ ι ε : Type} [DecidableEq ι] (setting : Setting γ ι ε)

open World

/-- The store of entities behind the gate. -/
def entities : EntityStore (World γ ε) ι ε where
  create ctx entity := gated setting.gate .entitiesCreate none ctx () fun ctx =>
    onEntities fun signals => Entities.create setting.schema signals ctx entity
  update ctx entity := gated setting.gate .entitiesUpdate none ctx () fun ctx =>
    onEntities fun signals => Entities.update setting.schema signals ctx entity
  findById ctx id := gatedFindById setting.gate ctx id fun id ctx =>
    onEntities fun signals => Entities.findById setting.schema signals ctx id
  findByIds ctx ids := gatedFindByIds setting.gate ctx fun ctx =>
    onEntities fun signals => Entities.findByIds setting.schema signals ctx ids
  upsert ctx entities := gated setting.gate .entitiesUpsert none ctx () fun ctx =>
    onEntities fun signals => Entities.upsert setting.schema signals ctx entities
  deleteById ctx id := gated setting.gate .entitiesDeleteById none ctx () fun ctx =>
    onEntities fun signals => Entities.deleteById setting.schema signals ctx id
  deleteAll ctx := gated setting.gate .entitiesDeleteAll none ctx () fun ctx =>
    onEntities fun signals => Entities.deleteAll signals ctx

/-- The store of hits behind the gate. -/
def hits : HitStore (World γ ε) ι where
  create ctx hit := gated setting.gate .hitsCreate (some hit.queryId) ctx () fun ctx =>
    onHits fun signals => Hits.create setting.schema signals ctx hit
  update ctx hit := gated setting.gate .hitsUpdate (some hit.queryId) ctx () fun ctx =>
    onHits fun signals => Hits.update setting.schema signals ctx hit
  findById ctx queryId := gated setting.gate .hitsFindById (some queryId) ctx none fun ctx =>
    onHits fun signals => Hits.findById setting.schema signals ctx queryId
  findAll ctx := gated setting.gate .hitsFindAll none ctx [] fun ctx =>
    onHits fun signals => Hits.findAll setting.schema signals ctx
  deleteById ctx queryId := gated setting.gate .hitsDeleteById (some queryId) ctx () fun ctx =>
    onHits fun signals => Hits.deleteById signals ctx queryId
  deleteAll ctx := gated setting.gate .hitsDeleteAll none ctx () fun ctx =>
    onHits fun signals => Hits.deleteAll signals ctx

/-- The context that the source sees. -/
def sourceContext (signals : Signals) (ctx : Context) : Context :=
  if setting.outlet.oblivious then signals.fresh else ctx

/-- The entity that the source takes for a new one. -/
def assigned (entity : ε) : World γ ε → ε × World γ ε := fun world =>
  match setting.outlet.assign with
  | some assign =>
      (assign world.nextPlace entity, { world with nextPlace := world.nextPlace + 1 })
  | none => (entity, world)

/-- Creation in the source. -/
def sourceCreate : Creator (World γ ε) ε := fun ctx entity world =>
  let (entity, world) := setting.assigned entity world
  let create : Action (World γ ε) Unit := onSource fun signals =>
    Source.create setting.schema signals (setting.sourceContext signals ctx) entity
  let (outcome, world) := create world
  ((outcome, entity), world)

/-- All entities of the source. A list that breaks off fails behind its last entity, unless it
fails before. -/
def sourceFindAll (ctx : Context) : Action (World γ ε) (List ε) := do
  let found ← Action.attempt (onSource fun signals =>
    Source.findAll signals (setting.sourceContext signals ctx))
  match setting.outlet.cut, found with
  | some (0, e), _ => Action.fail e
  | some (_, e), .ok _ => Action.fail e
  | _, _ => found

/-- The source as it shows itself. -/
def source : Origin (World γ ε) ι ε where
  findById ctx id := onSource fun signals =>
    Source.findById setting.schema signals (setting.sourceContext signals ctx) id
  create := offered .create setting.sourceCreate
  update := offered .update fun ctx entity => onSource fun signals =>
    Source.update setting.schema signals (setting.sourceContext signals ctx) entity
  deleteById := offered .deleteById fun ctx id => onSource fun signals =>
    Source.deleteById setting.schema signals (setting.sourceContext signals ctx) id
  deleteAll := offered .deleteAll fun ctx => onSource fun signals =>
    Source.deleteAll signals (setting.sourceContext signals ctx)
  findAll := offered .findAll setting.sourceFindAll
where
  /-- A capability, if the source offers it. -/
  offered {α : Type} (capability : Capability) (able : α) : Option α :=
    if setting.outlet.offers.contains capability then some able else none

/-- The backend of a cache in the world. Every level of nested invalidations removes a hit, and
each time that removed hits are found again, all of them can be gone through once more. -/
def backend : Backend (World γ ε) ι ε where
  schema := setting.schema
  entities := setting.entities
  hits := setting.hits
  begin ctx := gatedBegin setting.gate ctx fun ctx =>
    onRepository fun signals => Repository.begin signals ctx
  commit ctx := gatedEnd setting.gate .commit ctx
    (fun ctx => onRepository fun _ => Repository.commit ctx)
    (fun ctx => onRepository fun _ => Repository.rollback ctx)
  rollback ctx := gatedEnd setting.gate .rollback ctx
    (fun ctx => onRepository fun _ => Repository.rollback ctx)
    (fun ctx => onRepository fun _ => Repository.commit ctx)
  source := setting.source
  check ctx := fun world => (ctx.check world.signals, world)
  now := fun world => (.ok world.clock, world)
  record event := Action.modify fun world =>
    if setting.records then { world with events := world.events ++ [event] } else world
  nesting world := (world.hitCount + 1) * (setting.gate.revivals world.gate + 1)

end Setting

end QueryCache.Simulation
