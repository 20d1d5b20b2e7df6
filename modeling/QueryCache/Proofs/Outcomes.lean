import QueryCache.Proofs.Calls

/-!
# What successful calls did

A call that succeeded was not called off, met no failure, and found what it needed. Its success
alone therefore tells what it did to the rows that its context sees, whatever might have become of
it otherwise: `Table.Yields`. Most calls that failed did nothing at all.
-/

namespace QueryCache

open QueryCache.Action Wire

namespace Table

/-- Where a context sees some rows and the action succeeds, it does so as stated. -/
def Yields {α : Type} (ctx : Context) (seen : Rows) (action : Action Table α)
    (post : α → Rows → Prop) : Prop :=
  ∀ table value, table.Ordered → table.view ctx.tx = .ok seen → (action table).1 = .ok value →
    (action table).2.Ordered ∧ ∃ later, (action table).2.view ctx.tx = .ok later ∧ post value later

section Rules

variable {α β : Type} {ctx : Context} {seen : Rows}

theorem Yields.weaken {action : Action Table α} {post weaker : α → Rows → Prop}
    (yields : Yields ctx seen action post)
    (weaken : ∀ value later, post value later → weaker value later) :
    Yields ctx seen action weaker := by
  intro table value ordered shown succeeds
  obtain ⟨orderedLater, later, shownLater, holds⟩ := yields table value ordered shown succeeds
  exact ⟨orderedLater, later, shownLater, weaken value later holds⟩

theorem yields_pure {value : α} {post : α → Rows → Prop} (holds : post value seen) :
    Yields ctx seen (Pure.pure value) post := by
  rintro table _ ordered shown ⟨⟩
  exact ⟨ordered, seen, shown, holds⟩

theorem yields_fail (e : Error) (post : α → Rows → Prop) :
    Yields ctx seen (fail e : Action Table α) post := by
  rintro table value - - ⟨⟩

theorem yields_liftM (result : Except Error α) :
    Yields ctx seen (liftM result) fun value later => result = .ok value ∧ later = seen :=
  fun _ _ ordered shown succeeds => ⟨ordered, seen, shown, succeeds, rfl⟩

theorem Yields.bind {first : Action Table α} {second : α → Action Table β}
    {middle : α → Rows → Prop} {post : β → Rows → Prop}
    (atFirst : Yields ctx seen first middle)
    (atSecond : ∀ value between, middle value between → Yields ctx between (second value) post) :
    Yields ctx seen (first >>= second) post := by
  intro table value ordered shown succeeds
  obtain ⟨found, foundFirst, succeedsSecond, same⟩ := exists_of_bind_apply_eq_ok succeeds
  obtain ⟨orderedBetween, between, shownBetween, holds⟩ :=
    atFirst table found ordered shown foundFirst
  rw [same]
  exact atSecond found between holds _ value orderedBetween shownBetween succeedsSecond

/-- What follows an action that only reads starts from the same rows. -/
theorem Yields.read {first : Action Table α} {second : α → Action Table β}
    {told : α → Prop} {post : β → Rows → Prop}
    (atFirst : Yields ctx seen first fun value later => told value ∧ later = seen)
    (atSecond : ∀ value, told value → Yields ctx seen (second value) post) :
    Yields ctx seen (first >>= second) post := by
  apply atFirst.bind
  rintro value _ ⟨isTold, rfl⟩
  exact atSecond value isTold

theorem yields_precheck (signals : Signals) :
    Yields ctx seen (Entities.precheck signals ctx) fun _ later => True ∧ later = seen := by
  intro table value ordered shown succeeds
  exact ⟨ordered, seen, shown, trivial, rfl⟩

theorem yields_row (key : String) :
    Yields ctx seen (Entities.row ctx key)
      fun found later => found = seen[key]? ∧ later = seen := by
  intro table value ordered shown succeeds
  change table.get ctx.tx key = _ at succeeds
  rw [get_eq, shown] at succeeds
  cases succeeds
  exact ⟨ordered, seen, shown, rfl, rfl⟩

/-- Where a row was read, something is seen. -/
theorem exists_view_of_row {table : Table} {key : String} {found : Option Bytes}
    (read : (Entities.row ctx key table).1 = .ok found) : ∃ rows, table.view ctx.tx = .ok rows := by
  change table.get ctx.tx key = _ at read
  rw [get_eq] at read
  cases shown : table.view ctx.tx with
  | error e => rw [shown] at read; cases read
  | ok rows => exact ⟨rows, rfl⟩

/-- Edits keep transactions in order. -/
theorem Edits.ordered {legal : String → Option Bytes → Prop} {place : Option TxId}
    {before after : Table} (edits : Edits legal place before after) (ordered : before.Ordered) :
    after.Ordered := by
  intro tx parent isOpen
  rw [(edits.frame tx).opened tx (Nat.le_refl tx)] at isOpen
  exact ordered tx parent isOpen

theorem yields_set (key : String) (change : Option Bytes) :
    Yields ctx seen (Table.set ctx.tx key change)
      fun _ later => later = seen.change key change := by
  intro table value ordered shown _
  have edits : Edits (fun _ _ => True) ctx.tx table (Table.set ctx.tx key change table).2 :=
    .set (.refl table) trivial
  exact ⟨edits.ordered ordered, _, (view_set ordered shown key change).2, rfl⟩

theorem yields_clear :
    Yields ctx seen (Table.clear ctx.tx) fun _ later => later = ∅ := by
  intro table value ordered shown _
  have edits : Edits (fun _ _ => True) ctx.tx table (Table.clear ctx.tx table).2 :=
    .clear (.refl table)
  exact ⟨edits.ordered ordered, _, (view_clear ordered shown).2, rfl⟩

/-- A change of an overlay fails where its transaction is not open, and then changes nothing. -/
theorem failsClean_changeOverlay (tx : TxId) (change : Overlay → Overlay) :
    FailsClean (changeOverlay tx change) := by
  intro table e failed
  rw [changeOverlay] at failed ⊢
  split at failed
  · cases failed
  · rfl

theorem failsClean_set (place : Option TxId) (key : String) (change : Option Bytes) :
    FailsClean (Table.set place key change) := by
  cases place with
  | none => exact nofun
  | some tx => exact failsClean_changeOverlay tx _

theorem failsClean_clear (place : Option TxId) : FailsClean (Table.clear place) := by
  cases place with
  | none => exact nofun
  | some tx => exact failsClean_changeOverlay tx _

end Rules

end Table

section Calls

variable {ι ε : Type} (schema : Schema ι ε) (signals : Signals) {ctx : Context} {seen : Rows}

open Table

theorem yields_told {α : Type} (read : Bytes → Except Error α) (found : Option Bytes) :
    Yields ctx seen
      (match found with
        | some bytes => do return some (← read bytes)
        | none => return none)
      fun value later => told read found = .ok value ∧ later = seen := by
  cases found with
  | none => exact yields_pure ⟨rfl, rfl⟩
  | some bytes =>
      refine (yields_liftM (read bytes)).read fun value decoded => yields_pure ⟨?_, rfl⟩
      rw [told, decoded, Except.map]

namespace Entities

theorem yields_copy (key : String) :
    Yields ctx seen (copy schema ctx key)
      fun found later => told schema.decode seen[key]? = .ok found ∧ later = seen := by
  apply (yields_row key).read
  rintro _ rfl
  exact yields_told schema.decode seen[key]?

theorem yields_findById (id : ι) :
    Yields ctx seen (findById schema signals ctx id) fun found later =>
      (∃ key, schema.entityKey id = .ok key ∧ told schema.decode seen[key]? = .ok found) ∧
        later = seen := by
  refine (yields_precheck signals).read fun _ _ => (yields_liftM _).read fun key named => ?_
  refine (yields_copy schema key).weaken ?_
  rintro found later ⟨isTold, same⟩
  exact ⟨⟨key, named, isTold⟩, same⟩

theorem exists_view_of_findById {schema : Schema ι ε} {signals : Signals} {table : Table} {id : ι}
    {found : Option ε}
    (succeeds : (findById schema signals ctx id table).1 = .ok found) :
    ∃ rows, table.view ctx.tx = .ok rows := by
  obtain ⟨_, -, succeeds, -⟩ := exists_of_bind_apply_eq_ok succeeds
  obtain ⟨_, -, succeeds, -⟩ := exists_of_bind_apply_eq_ok succeeds
  obtain ⟨_, read, -⟩ := exists_of_bind_apply_eq_ok succeeds
  exact exists_view_of_row read

theorem yields_findByIds (ids : List ι) :
    Yields ctx seen (findByIds schema signals ctx ids) fun entities later =>
      gathered schema seen ids = .ok entities ∧ later = seen := by
  refine (yields_precheck signals).read fun _ _ => ?_
  induction ids with
  | nil => exact yields_pure ⟨rfl, rfl⟩
  | cons id ids inductionHypothesis =>
      refine (yields_liftM _).read fun key named => ?_
      refine (yields_copy schema key).read fun found copy => ?_
      rw [gathered, named]
      change Yields _ _ _ fun entities later =>
        (told schema.decode seen[key]? >>= _) = .ok entities ∧ later = seen
      rw [copy]
      cases found with
      | none => exact yields_fail _ _
      | some entity =>
          refine inductionHypothesis.read fun entities all => yields_pure ⟨?_, rfl⟩
          change (gathered schema seen ids >>= _) = _
          rw [all]
          rfl

/-- A new copy was stored where there was none. -/
theorem yields_create (entity : ε) :
    Yields ctx seen (create schema signals ctx entity) fun _ later =>
      ∃ key bytes, schema.entityKey (schema.idOf entity) = .ok key ∧ seen[key]? = none ∧
        schema.encode entity = .ok bytes ∧ later = seen.insert key bytes := by
  refine (yields_precheck signals).read fun _ _ => (yields_liftM _).read fun key named => ?_
  apply (yields_row key).read
  rintro _ rfl
  split
  · exact yields_fail _ _
  · rename_i absent
    refine (yields_liftM _).read fun bytes encoded => (yields_set key (some bytes)).weaken ?_
    rintro _ _ rfl
    exact ⟨key, bytes, named, Option.not_isSome_iff_eq_none.mp absent, encoded, rfl⟩

/-- A copy was stored where there was one. -/
theorem yields_update (entity : ε) :
    Yields ctx seen (update schema signals ctx entity) fun _ later =>
      ∃ key bytes, schema.entityKey (schema.idOf entity) = .ok key ∧ seen[key]? ≠ none ∧
        schema.encode entity = .ok bytes ∧ later = seen.insert key bytes := by
  refine (yields_precheck signals).read fun _ _ => (yields_liftM _).read fun key named => ?_
  apply (yields_row key).read
  rintro _ rfl
  split
  · exact yields_fail _ _
  · rename_i present
    refine (yields_liftM _).read fun bytes encoded => (yields_set key (some bytes)).weaken ?_
    rintro _ _ rfl
    exact ⟨key, bytes, named, by simpa using present, encoded, rfl⟩

theorem failsClean_create (ctx : Context) (entity : ε) :
    FailsClean (create schema signals ctx entity) := by
  refine .bind (along_precheck signals ctx) fun _ => .bind (along_liftM _) fun key => ?_
  refine .bind (along_row ctx key) fun found => ?_
  split
  · exact failsClean_fail _
  · exact .bind (along_liftM _) fun bytes => failsClean_set ctx.tx key (some bytes)

theorem failsClean_update (ctx : Context) (entity : ε) :
    FailsClean (update schema signals ctx entity) := by
  refine .bind (along_precheck signals ctx) fun _ => .bind (along_liftM _) fun key => ?_
  refine .bind (along_row ctx key) fun found => ?_
  split
  · exact failsClean_fail _
  · exact .bind (along_liftM _) fun bytes => failsClean_set ctx.tx key (some bytes)

theorem failsClean_deleteById (ctx : Context) (id : ι) :
    FailsClean (deleteById schema signals ctx id) := by
  refine .bind (along_precheck signals ctx) fun _ => .bind (along_liftM _) fun key => ?_
  refine .bind (along_row ctx key) fun found => ?_
  split
  · exact failsClean_fail _
  · exact failsClean_set ctx.tx key none

theorem failsClean_deleteAll (ctx : Context) : FailsClean (deleteAll signals ctx) :=
  .bind (along_precheck signals ctx) fun _ => failsClean_clear ctx.tx

/-- Copies were stored, and none was removed. -/
theorem yields_upsert (entities : List ε) :
    Yields ctx seen (upsert schema signals ctx entities) fun _ later =>
      (∀ key : String, seen[key]?.isSome → later[key]?.isSome) ∧
        (∀ entity ∈ entities, ∃ key,
          schema.entityKey (schema.idOf entity) = .ok key ∧ later[key]?.isSome) ∧
        ∀ (key : String) bytes, later[key]? = some bytes → seen[key]? = some bytes ∨
          ∃ entity ∈ entities, schema.entityKey (schema.idOf entity) = .ok key ∧
            schema.encode entity = .ok bytes := by
  refine (yields_precheck signals).read fun _ _ => ?_
  induction entities generalizing seen with
  | nil => exact yields_pure ⟨fun _ present => present, nofun, fun _ _ => .inl⟩
  | cons entity entities inductionHypothesis =>
      have stores : Yields ctx seen (store schema ctx entity) fun _ later =>
          ∃ key bytes, schema.entityKey (schema.idOf entity) = .ok key ∧
            schema.encode entity = .ok bytes ∧ later = seen.insert key bytes := by
        refine (yields_liftM _).read fun key named => (yields_liftM _).read fun bytes encoded => ?_
        refine (yields_set key (some bytes)).weaken ?_
        rintro _ _ rfl
        exact ⟨key, bytes, named, encoded, rfl⟩
      refine stores.bind ?_
      rintro _ _ ⟨key, bytes, named, encoded, rfl⟩
      refine inductionHypothesis.weaken ?_
      rintro _ later ⟨grows, copied, onto⟩
      refine ⟨fun other present => grows other ?_, fun stored member => ?_,
        fun other found present => ?_⟩
      · rw [Std.ExtTreeMap.getElem?_insert]
        split
        · rfl
        · exact present
      · rcases List.mem_cons.mp member with rfl | member
        · exact ⟨key, named, grows key (by simp)⟩
        · exact copied stored member
      · rcases onto other found present with before | ⟨stored, member, isStored⟩
        · rw [Std.ExtTreeMap.getElem?_insert] at before
          split at before
          · rename_i same
            cases Std.LawfulEqCmp.compare_eq_iff_eq.mp same
            cases before
            exact .inr ⟨entity, List.mem_cons_self, named, encoded⟩
          · exact .inl before
        · exact .inr ⟨stored, List.mem_cons_of_mem _ member, isStored⟩

theorem yields_deleteById (id : ι) :
    Yields ctx seen (deleteById schema signals ctx id) fun _ later =>
      ∃ key, schema.entityKey id = .ok key ∧ later = seen.erase key := by
  refine (yields_precheck signals).read fun _ _ => (yields_liftM _).read fun key named => ?_
  refine (yields_row key).read fun found _ => ?_
  split
  · exact yields_fail _ _
  · refine (yields_set key none).weaken ?_
    rintro _ _ rfl
    exact ⟨key, named, rfl⟩

theorem yields_deleteAll :
    Yields ctx seen (deleteAll signals ctx) fun _ later => later = ∅ :=
  (yields_precheck signals).read fun _ _ => yields_clear

end Entities

namespace Hits

theorem yields_findById (queryId : String) :
    Yields ctx seen (findById schema signals ctx queryId) fun found later =>
      told schema.decodeHit seen[queryId]? = .ok found ∧ later = seen := by
  refine (yields_precheck signals).read fun _ _ => (yields_row queryId).read ?_
  rintro _ rfl
  exact yields_told schema.decodeHit seen[queryId]?

theorem exists_view_of_findById {schema : Schema ι ε} {signals : Signals} {table : Table}
    {queryId : String} {found : Option (Hit ι)}
    (succeeds : (findById schema signals ctx queryId table).1 = .ok found) :
    ∃ rows, table.view ctx.tx = .ok rows := by
  obtain ⟨_, -, succeeds, -⟩ := exists_of_bind_apply_eq_ok succeeds
  obtain ⟨_, read, -⟩ := exists_of_bind_apply_eq_ok succeeds
  exact exists_view_of_row read

theorem yields_findAllIn (listing : Listing) :
    Yields ctx seen (findAllIn schema signals listing ctx) fun hits later =>
      ofRowsIn schema listing seen = .ok hits ∧ later = seen := by
  refine (yields_precheck signals).read fun _ _ => ?_
  intro table hits ordered shown
  simp only [Action.bind_apply, Action.state, Action.liftM_apply, shown]
  exact fun succeeds => ⟨ordered, seen, rfl, succeeds, rfl⟩

theorem yields_create (hit : Hit ι) :
    Yields ctx seen (create schema signals ctx hit) fun _ later =>
      ∃ bytes, schema.encodeHit hit = .ok bytes ∧ later = seen.insert hit.queryId bytes := by
  refine (yields_precheck signals).read fun _ _ => (yields_liftM _).read fun bytes encoded => ?_
  refine (yields_set hit.queryId (some bytes)).weaken ?_
  rintro _ _ rfl
  exact ⟨bytes, encoded, rfl⟩

theorem yields_deleteById (queryId : String) :
    Yields ctx seen (deleteById signals ctx queryId) fun _ later =>
      later = seen.erase queryId := by
  refine (yields_precheck signals).read fun _ _ => (yields_row queryId).read fun found _ => ?_
  split
  · exact yields_fail _ _
  · exact yields_set queryId none

theorem yields_deleteAll :
    Yields ctx seen (deleteAll signals ctx) fun _ later => later = ∅ :=
  (yields_precheck signals).read fun _ _ => yields_clear

theorem failsClean_create (ctx : Context) (hit : Hit ι) :
    FailsClean (create schema signals ctx hit) :=
  .bind (Entities.along_precheck signals ctx) fun _ => .bind (along_liftM _) fun bytes =>
    failsClean_set ctx.tx hit.queryId (some bytes)

theorem failsClean_update (ctx : Context) (hit : Hit ι) :
    FailsClean (update schema signals ctx hit) := by
  refine .bind (Entities.along_precheck signals ctx) fun _ => ?_
  refine .bind (Entities.along_row ctx hit.queryId) fun found => ?_
  split
  · exact failsClean_fail _
  · exact .bind (along_liftM _) fun bytes => failsClean_set ctx.tx hit.queryId (some bytes)

theorem failsClean_deleteById (ctx : Context) (queryId : String) :
    FailsClean (deleteById signals ctx queryId) := by
  refine .bind (Entities.along_precheck signals ctx) fun _ => ?_
  refine .bind (Entities.along_row ctx queryId) fun found => ?_
  split
  · exact failsClean_fail _
  · exact failsClean_set ctx.tx queryId none

theorem failsClean_deleteAll (ctx : Context) : FailsClean (deleteAll signals ctx) :=
  .bind (Entities.along_precheck signals ctx) fun _ => failsClean_clear ctx.tx

end Hits

end Calls

/-- A request stores any number of copies. -/
def Request.isUpsert {ι ε : Type} : Request ι ε → Bool
  | .upsertEntities _ => true
  | _ => false

namespace Repository

variable {ι ε : Type} {schema : Schema ι ε} {listing : Listing} {signals : Signals}
  {ctx : Context}

theorem failsClean_onEntities {α : Type} {action : Action Table α} (clean : action.FailsClean)
    (form : α → Answer ι ε) : ((onEntities action).map form).FailsClean :=
  (clean.within fun _ => rfl).map form

theorem failsClean_onHits {α : Type} {action : Action Table α} (clean : action.FailsClean)
    (form : α → Answer ι ε) : ((onHits action).map form).FailsClean :=
  (clean.within fun _ => rfl).map form

/-- A call that does not store any number of copies changes nothing if it fails. -/
theorem failsClean_perform {request : Request ι ε} (isCall : request.isCall = true)
    (single : request.isUpsert = false) :
    ((storesIn schema listing signals).perform ctx request).FailsClean := by
  have reads {α : Type} {action : Action Table α} (along : action.Along Eq) :
      action.FailsClean := fun table _ _ => (along table).symm
  cases request with
  | begin | commit | rollback => cases isCall
  | upsertEntities entities => cases single
  | createEntity entity =>
      exact failsClean_onEntities (Entities.failsClean_create schema signals ctx entity) _
  | updateEntity entity =>
      exact failsClean_onEntities (Entities.failsClean_update schema signals ctx entity) _
  | findEntity id =>
      exact failsClean_onEntities (reads (Entities.along_findById schema signals ctx id)) _
  | findEntities ids =>
      exact failsClean_onEntities (reads (Entities.along_findByIds schema signals ctx ids)) _
  | deleteEntity id =>
      exact failsClean_onEntities (Entities.failsClean_deleteById schema signals ctx id) _
  | deleteEntities => exact failsClean_onEntities (Entities.failsClean_deleteAll signals ctx) _
  | createHit hit => exact failsClean_onHits (Hits.failsClean_create schema signals ctx hit) _
  | updateHit hit => exact failsClean_onHits (Hits.failsClean_update schema signals ctx hit) _
  | findHit queryId =>
      exact failsClean_onHits (reads (Hits.along_findById schema signals ctx queryId)) _
  | findHits => exact failsClean_onHits (reads (Hits.along_findAllIn schema signals _ ctx)) _
  | deleteHit queryId => exact failsClean_onHits (Hits.failsClean_deleteById signals ctx queryId) _
  | deleteHits => exact failsClean_onHits (Hits.failsClean_deleteAll signals ctx) _

end Repository

end QueryCache
