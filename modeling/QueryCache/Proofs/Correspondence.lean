import QueryCache.Proofs.Soundness

/-!
# Calls in contexts that correspond

The same call can be made in two contexts, of two tables. All that calls do to a table is to check
it, to look at the rows that are seen, and to change rows. Where two contexts correspond in these
steps (`Table.Corresponds`), every call of either store ends alike in both and leaves tables that
are related again.
-/

namespace QueryCache

open QueryCache.Action Wire

/-- In related tables, a call may be made in both contexts or in neither, both see the same rows,
and what changes rows is answered alike and leaves related tables. -/
structure Table.Corresponds (related : Table → Table → Prop) (signals : Signals)
    (ctx ctx' : Context) : Prop where
  precheck : ∀ left right, related left right →
    left.precheck signals ctx = right.precheck signals ctx'
  view : ∀ left right, related left right → left.view ctx.tx = right.view ctx'.tx
  set : ∀ key change, Simulates related (Table.set ctx.tx key change) (Table.set ctx'.tx key change)
  clear : Simulates related (Table.clear ctx.tx) (Table.clear ctx'.tx)

section Calls

variable {ι ε : Type} (schema : Schema ι ε) {related : Table → Table → Prop} {signals : Signals}
  {ctx ctx' : Context}

namespace Entities

variable (corresponds : Table.Corresponds related signals ctx ctx')
include corresponds

theorem simulates_precheck : Simulates related (precheck signals ctx) (precheck signals ctx') :=
  fun left right relation => ⟨corresponds.precheck left right relation, relation⟩

theorem simulates_row (key : String) : Simulates related (row ctx key) (row ctx' key) := by
  intro left right relation
  refine ⟨?_, relation⟩
  change left.get ctx.tx key = right.get ctx'.tx key
  rw [Table.get_eq, Table.get_eq, corresponds.view left right relation]

theorem simulates_copy (key : String) :
    Simulates related (copy schema ctx key) (copy schema ctx' key) := by
  refine (simulates_row corresponds key).bind fun found => ?_
  cases found with
  | none => exact simulates_pure none
  | some bytes => exact (simulates_liftM _).bind fun entity => simulates_pure (some entity)

theorem simulates_copies (ids : List ι) :
    Simulates related (copies schema ctx ids) (copies schema ctx' ids) := by
  induction ids with
  | nil => exact simulates_pure []
  | cons id ids inductionHypothesis =>
      refine (simulates_liftM _).bind fun key => ?_
      refine (simulates_copy schema corresponds key).bind fun found => ?_
      cases found with
      | none => exact simulates_fail _
      | some entity => exact inductionHypothesis.bind fun others => simulates_pure _

theorem simulates_create (entity : ε) :
    Simulates related (create schema signals ctx entity) (create schema signals ctx' entity) := by
  refine (simulates_precheck corresponds).bind fun _ => (simulates_liftM _).bind fun key => ?_
  refine (simulates_row corresponds key).bind fun found => ?_
  split
  · exact simulates_fail _
  · exact (simulates_liftM _).bind fun bytes => corresponds.set key (some bytes)

theorem simulates_update (entity : ε) :
    Simulates related (update schema signals ctx entity) (update schema signals ctx' entity) := by
  refine (simulates_precheck corresponds).bind fun _ => (simulates_liftM _).bind fun key => ?_
  refine (simulates_row corresponds key).bind fun found => ?_
  split
  · exact simulates_fail _
  · exact (simulates_liftM _).bind fun bytes => corresponds.set key (some bytes)

theorem simulates_findById (id : ι) :
    Simulates related (findById schema signals ctx id) (findById schema signals ctx' id) :=
  (simulates_precheck corresponds).bind fun _ => (simulates_liftM _).bind fun key =>
    simulates_copy schema corresponds key

theorem simulates_findByIds (ids : List ι) :
    Simulates related (findByIds schema signals ctx ids) (findByIds schema signals ctx' ids) :=
  (simulates_precheck corresponds).bind fun _ => simulates_copies schema corresponds ids

theorem simulates_upsert (entities : List ε) :
    Simulates related (upsert schema signals ctx entities)
      (upsert schema signals ctx' entities) := by
  refine (simulates_precheck corresponds).bind fun _ => Simulates.each (fun entity => ?_) entities
  exact (simulates_liftM _).bind fun key => (simulates_liftM _).bind fun bytes =>
    corresponds.set key (some bytes)

theorem simulates_deleteById (id : ι) :
    Simulates related (deleteById schema signals ctx id) (deleteById schema signals ctx' id) := by
  refine (simulates_precheck corresponds).bind fun _ => (simulates_liftM _).bind fun key => ?_
  refine (simulates_row corresponds key).bind fun found => ?_
  split
  · exact simulates_fail _
  · exact corresponds.set key none

theorem simulates_deleteAll :
    Simulates related (deleteAll signals ctx) (deleteAll signals ctx') :=
  (simulates_precheck corresponds).bind fun _ => corresponds.clear

end Entities

namespace Hits

open Entities (simulates_precheck simulates_row)

variable (corresponds : Table.Corresponds related signals ctx ctx')
include corresponds

theorem simulates_create (hit : Hit ι) :
    Simulates related (create schema signals ctx hit) (create schema signals ctx' hit) :=
  (simulates_precheck corresponds).bind fun _ => (simulates_liftM _).bind fun bytes =>
    corresponds.set hit.queryId (some bytes)

theorem simulates_update (hit : Hit ι) :
    Simulates related (update schema signals ctx hit) (update schema signals ctx' hit) := by
  refine (simulates_precheck corresponds).bind fun _ => ?_
  refine (simulates_row corresponds _).bind fun found => ?_
  split
  · exact simulates_fail _
  · exact (simulates_liftM _).bind fun bytes => corresponds.set hit.queryId (some bytes)

theorem simulates_findById (queryId : String) :
    Simulates related (findById schema signals ctx queryId)
      (findById schema signals ctx' queryId) := by
  refine (simulates_precheck corresponds).bind fun _ => ?_
  refine (simulates_row corresponds _).bind fun found => ?_
  cases found with
  | none => exact simulates_pure none
  | some bytes => exact (simulates_liftM _).bind fun hit => simulates_pure (some hit)

theorem simulates_findAllIn (listing : Listing) :
    Simulates related (findAllIn schema signals listing ctx)
      (findAllIn schema signals listing ctx') := by
  refine (simulates_precheck corresponds).bind fun _ => ?_
  intro left right relation
  simp only [bind_apply, Action.state, liftM_apply, corresponds.view left right relation]
  cases right.view ctx'.tx with
  | error e => exact ⟨rfl, relation⟩
  | ok rows => exact ⟨rfl, relation⟩

theorem simulates_deleteById (queryId : String) :
    Simulates related (deleteById signals ctx queryId) (deleteById signals ctx' queryId) := by
  refine (simulates_precheck corresponds).bind fun _ => ?_
  refine (simulates_row corresponds _).bind fun found => ?_
  split
  · exact simulates_fail _
  · exact corresponds.set queryId none

theorem simulates_deleteAll :
    Simulates related (deleteAll signals ctx) (deleteAll signals ctx') :=
  (simulates_precheck corresponds).bind fun _ => corresponds.clear

end Hits

end Calls

namespace Repository

variable {ι ε α : Type} {schema : Schema ι ε} {listing : Listing} {signals : Signals}
  {ctx ctx' : Context} {entities hits : Table → Table → Prop} {numbers : TxId → TxId → Prop}

/-- Two repositories whose tables of entities, tables of hits, and last numbers are related. -/
structure Related (entities hits : Table → Table → Prop) (numbers : TxId → TxId → Prop)
    (left right : Repository) : Prop where
  entities : entities left.entities right.entities
  hits : hits left.hits right.hits
  numbers : numbers left.lastTx right.lastTx

theorem simulates_onEntities {action action' : Action Table α}
    (simulates : Simulates entities action action') :
    Simulates (Related entities hits numbers) (onEntities action) (onEntities action') := by
  intro left right related
  obtain ⟨same, relation⟩ := simulates left.entities right.entities related.entities
  exact ⟨same, relation, related.hits, related.numbers⟩

theorem simulates_onHits {action action' : Action Table α}
    (simulates : Simulates hits action action') :
    Simulates (Related entities hits numbers) (onHits action) (onHits action') := by
  intro left right related
  obtain ⟨same, relation⟩ := simulates left.hits right.hits related.hits
  exact ⟨same, related.entities, relation, related.numbers⟩

/-- Where two contexts correspond in both tables, they are given the same answers to all calls. -/
theorem simulates_call (inEntities : Table.Corresponds entities signals ctx ctx')
    (inHits : Table.Corresponds hits signals ctx ctx') {request : Request ι ε}
    (call : request.isCall) :
    Simulates (Related entities hits numbers)
      ((storesIn schema listing signals).perform ctx request)
      ((storesIn schema listing signals).perform ctx' request) := by
  cases request with
  | begin | commit | rollback => cases call
  | createEntity entity =>
      exact (simulates_onEntities (Entities.simulates_create schema inEntities entity)).map _
  | updateEntity entity =>
      exact (simulates_onEntities (Entities.simulates_update schema inEntities entity)).map _
  | findEntity id =>
      exact (simulates_onEntities (Entities.simulates_findById schema inEntities id)).map _
  | findEntities ids =>
      exact (simulates_onEntities (Entities.simulates_findByIds schema inEntities ids)).map _
  | upsertEntities entities =>
      exact (simulates_onEntities (Entities.simulates_upsert schema inEntities entities)).map _
  | deleteEntity id =>
      exact (simulates_onEntities (Entities.simulates_deleteById schema inEntities id)).map _
  | deleteEntities => exact (simulates_onEntities (Entities.simulates_deleteAll inEntities)).map _
  | createHit hit => exact (simulates_onHits (Hits.simulates_create schema inHits hit)).map _
  | updateHit hit => exact (simulates_onHits (Hits.simulates_update schema inHits hit)).map _
  | findHit queryId =>
      exact (simulates_onHits (Hits.simulates_findById schema inHits queryId)).map _
  | findHits => exact (simulates_onHits (Hits.simulates_findAllIn schema inHits listing)).map _
  | deleteHit queryId => exact (simulates_onHits (Hits.simulates_deleteById inHits queryId)).map _
  | deleteHits => exact (simulates_onHits (Hits.simulates_deleteAll inHits)).map _

end Repository

end QueryCache
