import QueryCache.Engine.Query
import QueryCache.Engine.Update
import QueryCache.Engine.Within
import QueryCache.Simulation.World

/-!
# Scenarios

A scenario is a sequence of steps around one cache: calls of the cache, of its stores, of its
source and of its transactions, changes of contexts and clocks, and changes of the fault plan.
Steps can also stand inside a query, where they run while the cache waits for the answer of the
source.

A step takes place in a context, which it knows by name. Its report tells how it ended, how much
the stores and the source hold and how often the source was asked, and which events were recorded
since the report before.
-/

namespace QueryCache.Simulation

open Time (Timestamp)

/-- A key of a query, or why it could not be built. -/
abbrev KeyText := Except Error String

/-- Calls of the cache other than queries. -/
inductive CacheCall (ι ε : Type)
  | create (entity : ε)
  | findById (id : ι)
  | findAll
  | update (entity : ε)
  | deleteById (id : ι)
  | deleteAll
  | dropAll
  | invalidateEntity (id : ι)
  | invalidateQuery (key : KeyText)

/-- Calls of the store of entities. The last two do not pass the gate. -/
inductive EntityCall (ι ε : Type)
  | create (entity : ε)
  | update (entity : ε)
  | findById (id : ι)
  | findByIds (ids : List ι)
  | upsert (entities : List ε)
  | deleteById (id : ι)
  | deleteAll
  | contains (id : ι)
  | setFailure (failure : Option Error)

/-- Calls of the store of hits. The last two do not pass the gate. -/
inductive HitCall (ι : Type)
  | create (key : KeyText) (ids : List ι)
  | update (key : KeyText) (ids : List ι)
  | findById (key : KeyText)
  | findAll
  | deleteById (key : KeyText)
  | deleteAll
  | get (key : KeyText)
  | setFailure (failure : Option Error)

/-- Calls of the source. Creating and listing go the way of the cache, the others go to the rows
directly. -/
inductive SourceCall (ι ε : Type)
  | insert (entity : ε)
  | setFailure (failure : Option Error)
  | create (entity : ε)
  | findAll
  | update (entity : ε)
  | deleteById (id : ι)
  | deleteAll
  | findById (id : ι)

/-- Transactions of the repository. -/
inductive TransactionCall
  | begin (name : String)
  | commit
  | rollback

/-- Where a new context comes from. -/
inductive ContextOrigin
  /-- A new token. -/
  | fresh
  /-- The context of the step. -/
  | copy
  /-- The token of the context of the step. -/
  | token

/-- Contexts, time and clock. -/
inductive ContextCall
  | bind (name : String) (origin : ContextOrigin) (timeout deadline : Option Nat)
      (tx : Option TxId)
  | cancel
  | check
  | advance (milliseconds : Nat)
  | setClock (moment : Timestamp)

/-- The fault plan and its counts. -/
inductive PlanCall (ι : Type)
  | setFaults (faults : List (Fault ι))
  | calls
  | removals

mutual

/-- What a step does. -/
inductive Command (ι ε : Type)
  | cache (call : CacheCall ι ε)
  /-- A query, for all entities of its answer or for the first. While it runs, steps are taken,
  and then its context is cancelled if so wished. -/
  | query (first : Bool) (key : KeyText) (during : List (Step ι ε)) (cancels : Bool)
      (answer : Except Error (List ε))
  | entities (call : EntityCall ι ε)
  | hits (call : HitCall ι)
  | source (call : SourceCall ι ε)
  | transaction (call : TransactionCall)
  | context (call : ContextCall)
  | plan (call : PlanCall ι)

/-- A command in a context. The events of a quiet step are not reported. -/
inductive Step (ι ε : Type)
  | mk (context : String) (quiet : Bool) (command : Command ι ε)

end

/-- How much the stores and the source hold, and how often the source was asked. -/
structure Census where
  entities : Nat
  hits : Nat
  rows : Nat
  findByIdCalls : Nat
  findAllCalls : Nat
  deriving DecidableEq, Repr

mutual

/-- How a step ended. -/
inductive Outcome (ι ε : Type)
  | done
  /-- The step has no context. -/
  | noContext
  | failed (e : Error)
  | entity (found : Option ε)
  | entities (found : List ε)
  | hit (found : Option (Hit ι))
  | hits (found : List (Hit ι))
  /-- A creation, and the entity as it came back. -/
  | created (outcome : Except Error Unit) (entity : ε)
  /-- A query, how often it ran, and the reports of the steps in it. -/
  | answered (answer : Except Error (List ε)) (runs : Nat) (during : List (Report ι ε))
  | answeredFirst (answer : Except Error (Option ε)) (runs : Nat) (during : List (Report ι ε))
  | truth (value : Bool)
  /-- Whether a record is committed, and whether its table is empty. -/
  | presence (contains isEmpty : Bool)
  | hitPresence (contains isEmpty : Bool) (found : Option (Hit ι))
  | transaction (tx : Option TxId)
  | context (outcome : Except Error Unit) (cancelled : Bool) (tx : Option TxId)
      (deadline : Option Nat)
  | counts (counts : Counts)

/-- What is told of a step. -/
inductive Report (ι ε : Type)
  | mk (outcome : Outcome ι ε) (census : Census) (events : List Event)

end

/-- A world in which faults are planned, the contexts by name, and what the query that is under
way has told so far. -/
structure Stage (ι ε : Type) where
  world : World (FaultPlan ι) ε
  contexts : List (String × Context)
  runs : Nat
  during : List (Report ι ε)

namespace Stage

variable {ι ε α : Type}

/-- The stage at its beginning, with one context. -/
def initial (world : World (FaultPlan ι) ε) : Stage ι ε :=
  ⟨world, [("root", .root)], 0, []⟩

/-- Puts a world on the stage. -/
def putWorld (world : World (FaultPlan ι) ε) (stage : Stage ι ε) : Stage ι ε :=
  { stage with world }

/-- An action on the world. -/
def onWorld (action : Action (World (FaultPlan ι) ε) α) : Action (Stage ι ε) α :=
  Action.within world putWorld action

/-- Gives a context a name. -/
def bindContext (name : String) (ctx : Context) : Action (Stage ι ε) Unit :=
  Action.modify fun stage => { stage with contexts := (name, ctx) :: stage.contexts }

/-- What the stores and the source hold. -/
def census (stage : Stage ι ε) : Census :=
  ⟨stage.world.repository.entities.rows.size, stage.world.repository.hits.rows.size,
    stage.world.source.rows.length, stage.world.source.findByIdCalls,
    stage.world.source.findAllCalls⟩

/-- Splits off the invalidations at the front. -/
def spanInvalidations : List Event → List String × List Event
  | .invalidation key :: events =>
      let (keys, rest) := spanInvalidations events
      (key :: keys, rest)
  | events => ([], events)

/-- Events with each run of invalidations sorted by key, given a bound of their number. -/
def sortInvalidations : Nat → List Event → List Event
  | 0, events => events
  | steps + 1, events =>
      let (keys, rest) := spanInvalidations events
      (keys.mergeSort fun a b => a ≤ b).map .invalidation ++
        match rest with
        | [] => []
        | event :: rest => event :: sortInvalidations steps rest

/-- The report of a step that ended; the events it tells are taken off the stage. -/
def report (quiet : Bool) (outcome : Outcome ι ε) (stage : Stage ι ε) :
    Report ι ε × Stage ι ε :=
  let events := stage.world.events
  (.mk outcome stage.census (if quiet then [] else sortInvalidations events.length events),
    { stage with world := { stage.world with events := [] } })

/-- How an action ended, given how its value is told. -/
def settle (tell : α → Outcome ι ε) (action : Action (Stage ι ε) α) (stage : Stage ι ε) :
    Outcome ι ε × Stage ι ε :=
  match action stage with
  | (.ok value, stage) => (tell value, stage)
  | (.error e, stage) => (.failed e, stage)

/-- How an action without a value ended. -/
def settleDone : Action (Stage ι ε) Unit → Stage ι ε → Outcome ι ε × Stage ι ε :=
  settle fun () => .done

/-- Hits in the order of their queries. -/
def sortHits (hits : List (Hit ι)) : List (Hit ι) :=
  hits.mergeSort fun a b => a.queryId ≤ b.queryId

end Stage

section Calls

variable {ι ε : Type} [DecidableEq ι] (setting : Setting (FaultPlan ι) ι ε)

open Stage

/-- The backend of the cache on the stage. -/
def Setting.onStage : Backend (Stage ι ε) ι ε :=
  setting.backend.within Stage.world Stage.putWorld

/-- A call of the cache. -/
def CacheCall.run (ctx : Context) : CacheCall ι ε → Stage ι ε → Outcome ι ε × Stage ι ε
  | .create entity, stage =>
      let ((outcome, entity), stage) := setting.onStage.create ctx entity stage
      (.created outcome entity, stage)
  | .findById id, stage => settle .entity (setting.onStage.findById ctx id) stage
  | .findAll, stage => settle .entities (setting.onStage.findAll ctx) stage
  | .update entity, stage => settleDone (setting.onStage.update ctx entity) stage
  | .deleteById id, stage => settleDone (setting.onStage.deleteById ctx id) stage
  | .deleteAll, stage => settleDone (setting.onStage.deleteAll ctx) stage
  | .dropAll, stage => settleDone (setting.onStage.dropAll ctx) stage
  | .invalidateEntity id, stage => settleDone (setting.onStage.invalidateEntity ctx id) stage
  | .invalidateQuery key, stage =>
      settleDone (do setting.onStage.invalidateQuery ctx (← key)) stage

/-- Changes the table of entities. -/
def changeEntities (change : Table → Table) : Action (Stage ι ε) Unit :=
  onWorld (World.onEntities fun _ => Action.modify change)

/-- Changes the table of hits. -/
def changeHits (change : Table → Table) : Action (Stage ι ε) Unit :=
  onWorld (World.onHits fun _ => Action.modify change)

/-- A call of the store of entities. -/
def EntityCall.run (ctx : Context) : EntityCall ι ε → Stage ι ε → Outcome ι ε × Stage ι ε
  | .create entity, stage => settleDone (setting.onStage.entities.create ctx entity) stage
  | .update entity, stage => settleDone (setting.onStage.entities.update ctx entity) stage
  | .findById id, stage => settle .entity (setting.onStage.entities.findById ctx id) stage
  | .findByIds ids, stage => settle .entities (setting.onStage.entities.findByIds ctx ids) stage
  | .upsert entities, stage =>
      settleDone (setting.onStage.entities.upsert ctx entities) stage
  | .deleteById id, stage => settleDone (setting.onStage.entities.deleteById ctx id) stage
  | .deleteAll, stage => settleDone (setting.onStage.entities.deleteAll ctx) stage
  | .contains id, stage =>
      let table := stage.world.repository.entities
      (.presence (Entities.contains setting.schema table id) table.rows.isEmpty, stage)
  | .setFailure failure, stage =>
      settleDone (changeEntities fun table => { table with failure }) stage

/-- A hit of the given key and identifiers, stamped by the clock. -/
def stampedHit (key : KeyText) (ids : List ι) (stage : Stage ι ε) : Except Error (Hit ι) := do
  return ⟨← key, ids, stage.world.clock⟩

/-- A call of the store of hits. -/
def HitCall.run (ctx : Context) : HitCall ι → Stage ι ε → Outcome ι ε × Stage ι ε
  | .create key ids, stage =>
      settleDone (do setting.onStage.hits.create ctx (← stampedHit key ids stage)) stage
  | .update key ids, stage =>
      settleDone (do setting.onStage.hits.update ctx (← stampedHit key ids stage)) stage
  | .findById key, stage =>
      settle .hit (do setting.onStage.hits.findById ctx (← key)) stage
  | .findAll, stage =>
      settle (fun hits => .hits (sortHits hits)) (setting.onStage.hits.findAll ctx) stage
  | .deleteById key, stage =>
      settleDone (do setting.onStage.hits.deleteById ctx (← key)) stage
  | .deleteAll, stage => settleDone (setting.onStage.hits.deleteAll ctx) stage
  | .get key, stage =>
      let table := stage.world.repository.hits
      match key with
      | .ok key =>
          (.hitPresence (table.rows.contains key) table.rows.isEmpty
            (Hits.get setting.schema table key), stage)
      | .error e => (.failed e, stage)
  | .setFailure failure, stage =>
      settleDone (changeHits fun table => { table with failure }) stage

/-- A call of the source. -/
def SourceCall.run (ctx : Context) : SourceCall ι ε → Stage ι ε → Outcome ι ε × Stage ι ε
  | .insert entity, stage =>
      let source := stage.world.source.insert setting.schema entity
      (.truth source.rows.isEmpty, { stage with world := { stage.world with source } })
  | .setFailure failure, stage =>
      settleDone (direct fun _ => Action.modify fun source => { source with failure }) stage
  | .create entity, stage =>
      let ((outcome, entity), world) := setting.sourceCreate ctx entity stage.world
      (.created outcome entity, { stage with world })
  | .findAll, stage => settle .entities (onWorld (setting.sourceFindAll ctx)) stage
  | .update entity, stage =>
      settleDone (direct fun signals => Source.update setting.schema signals ctx entity) stage
  | .deleteById id, stage =>
      settleDone (direct fun signals => Source.deleteById setting.schema signals ctx id) stage
  | .deleteAll, stage => settleDone (direct fun signals => Source.deleteAll signals ctx) stage
  | .findById id, stage =>
      settle .entity (direct fun signals => Source.findById setting.schema signals ctx id) stage
where
  /-- An action on the rows themselves. -/
  direct {α : Type} (action : Signals → Action (Source ε) α) : Action (Stage ι ε) α :=
    onWorld (World.onSource action)

/-- A transaction of the repository. -/
def TransactionCall.run (ctx : Context) : TransactionCall → Stage ι ε → Outcome ι ε × Stage ι ε
  | .begin name, stage =>
      settle (fun begun => .transaction (Context.tx begun)) (do
        let begun ← setting.onStage.begin ctx
        bindContext name begun
        return begun) stage
  | .commit, stage => settleDone (setting.onStage.commit ctx) stage
  | .rollback, stage => settleDone (setting.onStage.rollback ctx) stage

/-- A context of the given origin. -/
def ContextOrigin.make (ctx : Context) : ContextOrigin → Action (Stage ι ε) Context
  | .fresh => fun stage =>
      (.ok stage.world.signals.fresh,
        putWorld { stage.world with signals := stage.world.signals.issue } stage)
  | .copy => return ctx
  | .token => return ctx.detached

/-- A change of contexts, time or clock. -/
def ContextCall.run (ctx : Context) : ContextCall → Stage ι ε → Outcome ι ε × Stage ι ε
  | .bind name origin timeout deadline tx, stage =>
      let now := stage.world.signals.now
      settleDone (do
        let made ← origin.make ctx
        let until_ := deadline.or ((timeout.map (now + ·)).or made.deadline)
        bindContext name { made with deadline := until_, tx := tx.or made.tx }) stage
  | .cancel, stage => settleDone (onWorld (World.signal (·.cancel ctx))) stage
  | .check, stage =>
      let signals := stage.world.signals
      (.context (ctx.check signals) (ctx.isCancelled signals) ctx.tx ctx.deadline, stage)
  | .advance milliseconds, stage =>
      settleDone (onWorld (World.signal (·.advance milliseconds))) stage
  | .setClock moment, stage =>
      settleDone (onWorld (Action.modify fun world => { world with clock := moment })) stage

/-- A change of the fault plan, or a look at its counts. -/
def PlanCall.run : PlanCall ι → Stage ι ε → Outcome ι ε × Stage ι ε
  | .setFaults faults, stage =>
      settleDone (onWorld (Action.modify fun world =>
        { world with gate := world.gate.replaceFaults faults })) stage
  | .calls, stage => (.counts stage.world.gate.calls, stage)
  | .removals, stage => (.counts stage.world.gate.removals, stage)

end Calls

section Run

variable {ι ε : Type} [DecidableEq ι] (setting : Setting (FaultPlan ι) ι ε)

open Stage

/-- The source answers a query: it is counted, the steps in it are taken, then its context is
cancelled if so wished, and its answer is given. -/
def replyAfter (steps : Stage ι ε → List (Report ι ε) × Stage ι ε) (cancels : Bool)
    (ctx : Context) (answer : Except Error (List ε)) : Action (Stage ι ε) (List ε) :=
  fun stage =>
    let (reports, stage) := steps { stage with runs := stage.runs + 1 }
    let signals := stage.world.signals
    let world := { stage.world with signals := if cancels then signals.cancel ctx else signals }
    (answer, { stage with world, during := stage.during ++ reports })

/-- Runs a query, whose counts are its own. -/
def runQuery {α : Type} (query : Action (Stage ι ε) α) (stage : Stage ι ε)
    (tell : Except Error α → Nat → List (Report ι ε) → Outcome ι ε) :
    Outcome ι ε × Stage ι ε :=
  let (answer, after) := query { stage with runs := 0, during := [] }
  (tell answer after.runs after.during,
    { after with runs := stage.runs, during := stage.during })

mutual

/-- Runs a command. -/
def Command.run (ctx : Context) : Command ι ε → Stage ι ε → Outcome ι ε × Stage ι ε
  | .cache call, stage => call.run setting ctx stage
  | .query first key during cancels answer, stage =>
      match key with
      | .error e => (.failed e, stage)
      | .ok key =>
          let reply := replyAfter (Step.runAll during) cancels ctx answer
          if first then
            runQuery (setting.onStage.queryOne ctx key (do return (← reply).head?)) stage
              .answeredFirst
          else runQuery (setting.onStage.queryMany ctx key reply) stage .answered
  | .entities call, stage => call.run setting ctx stage
  | .hits call, stage => call.run setting ctx stage
  | .source call, stage => call.run setting ctx stage
  | .transaction call, stage => call.run setting ctx stage
  | .context call, stage => call.run ctx stage
  | .plan call, stage => call.run stage

/-- Runs a step and reports it. -/
def Step.run : Step ι ε → Stage ι ε → Report ι ε × Stage ι ε
  | .mk name quiet command, stage =>
      match stage.contexts.lookup name with
      | none => stage.report quiet .noContext
      | some ctx =>
          let (outcome, stage) := Command.run ctx command stage
          stage.report quiet outcome

/-- Runs steps one after the other. -/
def Step.runAll : List (Step ι ε) → Stage ι ε → List (Report ι ε) × Stage ι ε
  | [], stage => ([], stage)
  | step :: steps, stage =>
      let (report, stage) := Step.run step stage
      let (reports, stage) := Step.runAll steps stage
      (report :: reports, stage)

end

/-- What is left at the end of a scenario: the hits in the order of their queries, for every
probed identifier whether a copy is committed and which, and the rows that the source gives. -/
structure Ending (ι ε : Type) where
  hits : Except Error (List (Hit ι))
  probes : List (ι × Bool × Except Error (Option ε))
  rows : Except Error (List ε)

/-- Looks at a world past its gate, in a context that nobody can end. The stores are healed of
their failures, the source is not. -/
def ending (probes : List ι) (stage : Stage ι ε) : Ending ι ε :=
  let signals := stage.world.signals
  let ctx := signals.fresh
  let healed (table : Table) : Table := { table with failure := none }
  let entities := healed stage.world.repository.entities
  let hits := healed stage.world.repository.hits
  { hits := (Hits.findAll setting.schema signals ctx hits).1.map sortHits
    probes := probes.map fun id =>
      (id, Entities.contains setting.schema entities id,
        (Entities.findById setting.schema signals ctx id entities).1)
    rows := (Source.findAll signals ctx stage.world.source).1 }

/-- Runs a scenario from the beginning of its world. -/
def runScenario (world : World (FaultPlan ι) ε) (steps : List (Step ι ε)) (probes : List ι) :
    List (Report ι ε) × Ending ι ε :=
  let (reports, stage) := Step.runAll setting steps (.initial world)
  (reports, ending setting probes stage)

end Run

end QueryCache.Simulation
