import QueryCache.Engine.Backend
import QueryCache.Proofs.Actions
import QueryCache.Store.Repository

/-!
# Runs of a repository

All calls that can be made of two stores with common transactions, as data: a `Request` names a
call, and `Stores.perform` makes it and gives its answer. `Repository.stores` are the stores in
memory.

A run is a list of turns. A turn makes a request in any context, under signals of its own, so
that contexts may end and time may pass between any two requests; or it sets the failure of a
table. A repository is reachable if some run leads to it from the empty one.
-/

namespace QueryCache

/-- The two stores of a cache, with their transactions. -/
structure Stores (σ ι ε : Type) where
  entities : EntityStore σ ι ε
  hits : HitStore σ ι
  begin : Context → Action σ Context
  commit : Context → Action σ Unit
  rollback : Context → Action σ Unit

/-- A call of the stores or of their transactions. -/
inductive Request (ι ε : Type)
  | begin
  | commit
  | rollback
  | createEntity (entity : ε)
  | updateEntity (entity : ε)
  | findEntity (id : ι)
  | findEntities (ids : List ι)
  | upsertEntities (entities : List ε)
  | deleteEntity (id : ι)
  | deleteEntities
  | createHit (hit : Hit ι)
  | updateHit (hit : Hit ι)
  | findHit (queryId : String)
  | findHits
  | deleteHit (queryId : String)
  | deleteHits

/-- A request is a call of one of the stores rather than of their transactions. -/
def Request.isCall {ι ε : Type} : Request ι ε → Bool
  | .begin | .commit | .rollback => false
  | _ => true

/-- A request rolls a transaction back. -/
def Request.isRollback {ι ε : Type} : Request ι ε → Bool
  | .rollback => true
  | _ => false

/-- A request only looks something up. -/
def Request.reads {ι ε : Type} : Request ι ε → Bool
  | .findEntity _ | .findEntities _ | .findHit _ | .findHits => true
  | _ => false

theorem Request.isCall_of_reads {ι ε : Type} {request : Request ι ε} (reads : request.reads) :
    request.isCall := by
  cases request <;> first | rfl | cases reads

/-- A request goes through all hits. -/
def Request.scans {ι ε : Type} : Request ι ε → Bool
  | .findHits => true
  | _ => false

/-- A request stores a copy or a hit. -/
def Request.writes {ι ε : Type} : Request ι ε → Bool
  | .createEntity _ | .updateEntity _ | .upsertEntities _ | .createHit _ | .updateHit _ => true
  | _ => false

/-- The entities that a request is to store. -/
def Request.storedEntities {ι ε : Type} : Request ι ε → List ε
  | .createEntity entity | .updateEntity entity => [entity]
  | .upsertEntities entities => entities
  | _ => []

/-- The hits that a request is to store. -/
def Request.storedHits {ι ε : Type} : Request ι ε → List (Hit ι)
  | .createHit hit | .updateHit hit => [hit]
  | _ => []

/-- What a request succeeds with. -/
inductive Answer (ι ε : Type)
  | done
  | context (ctx : Context)
  | entity (found : Option ε)
  | entities (found : List ε)
  | hit (found : Option (Hit ι))
  | hits (found : List (Hit ι))

namespace Stores

variable {σ ι ε : Type}

/-- Makes the call that a request names. -/
def perform (stores : Stores σ ι ε) (ctx : Context) : Request ι ε → Action σ (Answer ι ε)
  | .begin => (stores.begin ctx).map .context
  | .commit => (stores.commit ctx).map fun () => .done
  | .rollback => (stores.rollback ctx).map fun () => .done
  | .createEntity entity => (stores.entities.create ctx entity).map fun () => .done
  | .updateEntity entity => (stores.entities.update ctx entity).map fun () => .done
  | .findEntity id => (stores.entities.findById ctx id).map .entity
  | .findEntities ids => (stores.entities.findByIds ctx ids).map .entities
  | .upsertEntities entities => (stores.entities.upsert ctx entities).map fun () => .done
  | .deleteEntity id => (stores.entities.deleteById ctx id).map fun () => .done
  | .deleteEntities => (stores.entities.deleteAll ctx).map fun () => .done
  | .createHit hit => (stores.hits.create ctx hit).map fun () => .done
  | .updateHit hit => (stores.hits.update ctx hit).map fun () => .done
  | .findHit queryId => (stores.hits.findById ctx queryId).map .hit
  | .findHits => (stores.hits.findAll ctx).map .hits
  | .deleteHit queryId => (stores.hits.deleteById ctx queryId).map fun () => .done
  | .deleteHits => (stores.hits.deleteAll ctx).map fun () => .done

end Stores

/-- The stores that a cache uses, with their transactions. -/
def Backend.stores {σ ι ε : Type} (backend : Backend σ ι ε) : Stores σ ι ε where
  entities := backend.entities
  hits := backend.hits
  begin := backend.begin
  commit := backend.commit
  rollback := backend.rollback

namespace Repository

variable {ι ε : Type} (schema : Schema ι ε)

/-- The stores in memory, for contexts that observe the given signals, with the order in which a
scan lists hits. -/
def storesIn (listing : Listing) (signals : Signals) : Stores Repository ι ε where
  entities :=
    { create := fun ctx entity => onEntities (Entities.create schema signals ctx entity)
      update := fun ctx entity => onEntities (Entities.update schema signals ctx entity)
      findById := fun ctx id => onEntities (Entities.findById schema signals ctx id)
      findByIds := fun ctx ids => onEntities (Entities.findByIds schema signals ctx ids)
      upsert := fun ctx entities => onEntities (Entities.upsert schema signals ctx entities)
      deleteById := fun ctx id => onEntities (Entities.deleteById schema signals ctx id)
      deleteAll := fun ctx => onEntities (Entities.deleteAll signals ctx) }
  hits :=
    { create := fun ctx hit => onHits (Hits.create schema signals ctx hit)
      update := fun ctx hit => onHits (Hits.update schema signals ctx hit)
      findById := fun ctx queryId => onHits (Hits.findById schema signals ctx queryId)
      findAll := fun ctx => onHits (Hits.findAllIn schema signals listing ctx)
      deleteById := fun ctx queryId => onHits (Hits.deleteById signals ctx queryId)
      deleteAll := fun ctx => onHits (Hits.deleteAll signals ctx) }
  begin := begin signals
  commit := commit
  rollback := rollback

/-- The stores in memory, which list hits in the order of their queries. -/
abbrev stores (signals : Signals) : Stores Repository ι ε :=
  storesIn schema .ascending signals

end Repository

/-- What can happen to a repository: a request under the signals of its moment, or a failure
that is set for a table or taken from it. -/
inductive Turn (ι ε : Type)
  | request (signals : Signals) (ctx : Context) (request : Request ι ε)
  | failEntities (failure : Option Error)
  | failHits (failure : Option Error)

namespace Repository

variable {ι ε : Type} (schema : Schema ι ε)

/-- Takes a turn. -/
def take : Turn ι ε → Action Repository (Answer ι ε)
  | .request signals ctx request => (stores schema signals).perform ctx request
  | .failEntities failure => fun repository =>
      (.ok .done, { repository with entities := { repository.entities with failure } })
  | .failHits failure => fun repository =>
      (.ok .done, { repository with hits := { repository.hits with failure } })

/-- The repository after a run. -/
def after (run : List (Turn ι ε)) (repository : Repository) : Repository :=
  run.foldl (fun repository turn => (take schema turn repository).2) repository

/-- Some run leads from the empty repository to this one. -/
def Reachable (repository : Repository) : Prop :=
  ∃ run : List (Turn ι ε), after schema run .empty = repository

variable {schema}

/-- What a turn leaves of a reachable repository is reachable. -/
theorem Reachable.take {repository : Repository} (reachable : repository.Reachable schema)
    (turn : Turn ι ε) : (take schema turn repository).2.Reachable schema := by
  obtain ⟨run, rfl⟩ := reachable
  exact ⟨run ++ [turn], by simp [after]⟩

/-- A property of the empty repository that every turn keeps is one of all reachable
repositories. -/
theorem Reachable.induction {property : Repository → Prop} (initial : property .empty)
    (kept : ∀ turn repository, property repository →
      property (Repository.take schema turn repository).2)
    {repository : Repository} (reachable : repository.Reachable schema) : property repository := by
  obtain ⟨run, rfl⟩ := reachable
  have fromAny : ∀ start, property start → property (after schema run start) := by
    induction run with
    | nil => exact fun _ holds => holds
    | cons turn run inductionHypothesis =>
        exact fun start holds => inductionHypothesis _ (kept turn start holds)
  exact fromAny _ initial

/-- What a run leaves of a reachable repository is reachable. -/
theorem Reachable.after {repository : Repository} (reachable : repository.Reachable schema)
    (run : List (Turn ι ε)) : (after schema run repository).Reachable schema := by
  obtain ⟨earlier, rfl⟩ := reachable
  exact ⟨earlier ++ run, List.foldl_append⟩

end Repository

end QueryCache
