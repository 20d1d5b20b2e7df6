import QueryCache.Engine.Query
import QueryCache.Proofs.Cascade
import QueryCache.Proofs.Creations
import QueryCache.Proofs.Requests

/-!
# Two backends, call by call

A cache knows of its backend only how calls end. Two backends are matched (`Backend.Matched`) if
every call but the scan for hits ends alike in both and leaves related states, and similar
(`Backend.Similar`) if the scan does so too. The contexts of the two calls may differ, and how
states are related may depend on them: an index stands for a pair of contexts and all that goes with
it. Work that is alike under every index is alike in transactions, and invalidations are to nest
equally deeply in effect. Then removals end alike in both.

Whatever else is done through a cache ends as it does through the other, so far as the sources
answer alike. This needs less (`Backend.Kindred`): the scan for hits is only made by removals, and
it may list them differently as long as removals come to the same. For this the states may have to
be related more closely, but only so long as nothing was written: after a call of a cache has
written something, it removes nothing.
-/

namespace QueryCache

open QueryCache.Action Invalidation

variable {κ σ τ ι ε α β : Type}

/-- From states that are related in one way both steps tell the same, and leave states that are
related in another. -/
def TellAlike (early late : σ → τ → Prop) (left : σ → α × σ) (right : τ → α × τ) : Prop :=
  ∀ s t, early s t → (left s).1 = (right t).1 ∧ late (left s).2 (right t).2

/-- Actions in a row tell alike if each of them does, and if the first leaves states that are
related as they are to be in the end. -/
theorem TellAlike.bind {early middle late : σ → τ → Prop} {first : Action σ α}
    {second : α → Action σ β} {first' : Action τ α} {second' : α → Action τ β}
    (atFirst : TellAlike early middle first first')
    (atSecond : ∀ value, TellAlike middle late (second value) (second' value))
    (loosens : ∀ s t, middle s t → late s t) :
    TellAlike early late (first >>= second) (first' >>= second') := by
  intro s t relation
  have step := atFirst s t relation
  rw [bind_apply, bind_apply]
  revert step
  rcases first s with ⟨e | value, s'⟩ <;> rcases first' t with ⟨e' | value', t'⟩ <;>
    rintro ⟨same, relation'⟩ <;> cases same
  · exact ⟨rfl, loosens s' t' relation'⟩
  · exact atSecond _ s' t' relation'

theorem TellAlike.attempt {early late : σ → τ → Prop} {action : Action σ α} {action' : Action τ α}
    (alike : TellAlike early late action action') :
    TellAlike early late action.attempt action'.attempt := by
  intro s t relation
  obtain ⟨same, relation'⟩ := alike s t relation
  exact ⟨congrArg Except.ok same, relation'⟩

/-- What is offered by both or by neither is made use of alike. -/
theorem tellAlike_require {early late : σ → τ → Prop} (loosens : ∀ s t, early s t → late s t)
    {alike : α → β → Prop} {offer : Option α} {offer' : Option β}
    (offers : Option.Rel alike offer offer') {use : α → Action σ ε} {use' : β → Action τ ε}
    (uses : ∀ able able', alike able able' → TellAlike early late (use able) (use' able'))
    (capability : Capability) :
    TellAlike early late (liftM (Backend.require capability offer) >>= use)
      (liftM (Backend.require capability offer') >>= use') := by
  cases offers with
  | none => exact fun s t relation => ⟨rfl, loosens s t relation⟩
  | some isAlike => exact uses _ _ isAlike

theorem exists_of_rel_some {alike : α → β → Prop} {able : α} {offer : Option β}
    (offers : Option.Rel alike (some able) offer) :
    ∃ able', offer = some able' ∧ alike able able' := by
  cases offers with
  | some isAlike => exact ⟨_, rfl, isAlike⟩

variable [DecidableEq ι]

/-- Invalidations from a state come out as if they were to nest at most as deeply as given. -/
structure Backend.NestsWithin (backend : Backend σ ι ε) (ctx : Context) (depth : Nat) (s : σ) :
    Prop where
  query : ∀ queryId,
    backend.invalidateQuery ctx queryId s = hitWithin backend depth ctx queryId s
  entity : ∀ id, backend.invalidateEntity ctx id s = entityWithin backend depth ctx id s

theorem Backend.nestsWithin_nesting (backend : Backend σ ι ε) (ctx : Context) (s : σ) :
    backend.NestsWithin ctx (backend.nesting s) s :=
  ⟨fun _ => rfl, fun _ => rfl⟩

/-- Two backends end all calls of stores and transactions alike, but for the scan for hits, in
contexts that belong together, and leave related states. -/
structure Backend.Matched (related : κ → σ → τ → Prop) (here there : κ → Context)
    (left : Backend σ ι ε) (right : Backend τ ι ε) : Prop where
  schema : left.schema = right.schema
  perform : ∀ k request, request.isCall → request.scans = false → Simulates (related k)
    (left.stores.perform (here k) request) (right.stores.perform (there k) request)
  check : ∀ k, Simulates (related k) (left.check (here k)) (right.check (there k))
  record : ∀ k event, Simulates (related k) (left.record event) (right.record event)
  transact : ∀ k work work', (∀ inner, Simulates (related inner) (work (here inner))
      (work' (there inner))) →
    Simulates (related k) (left.transact (here k) work) (right.transact (there k) work')

/-- Two backends end the calls of a removal alike in contexts that belong together, and leave
related states. -/
structure Backend.Similar (related : κ → σ → τ → Prop) (here there : κ → Context)
    (left : Backend σ ι ε) (right : Backend τ ι ε) : Prop
    extends Backend.Matched related here there left right where
  findHits : ∀ k,
    Simulates (related k) (left.hits.findAll (here k)) (right.hits.findAll (there k))
  depth : ∀ k s t, related k s t →
    ∃ depth, left.NestsWithin (here k) depth s ∧ right.NestsWithin (there k) depth t

/-- Two backends end the calls of a cache alike in contexts that belong together, where each removal
counts as one call. Of the two ways in which states are related, the closer one is that in which
removals start, and it is kept up until something is written. -/
structure Backend.Kindred (early late : σ → τ → Prop) (here there : Context)
    (left : Backend σ ι ε) (right : Backend τ ι ε) : Prop where
  schema : left.schema = right.schema
  loosens : ∀ s t, early s t → late s t
  read : ∀ request, request.reads → request.scans = false → Simulates early
    (left.stores.perform here request) (right.stores.perform there request)
  perform : ∀ request, request.isCall → request.scans = false → Simulates late
    (left.stores.perform here request) (right.stores.perform there request)
  /-- A copy that was not replaced was not touched. -/
  refused : ∀ entity s t e, early s t → (left.entities.update here entity s).1 = .error e →
    early (left.entities.update here entity s).2 (right.entities.update there entity t).2
  check : Simulates early (left.check here) (right.check there)
  record : ∀ event, Simulates early (left.record event) (right.record event)
  recordLate : ∀ event, Simulates late (left.record event) (right.record event)
  now : Simulates late left.now right.now
  invalidateQuery : ∀ queryId, TellAlike early late (left.invalidateQuery here queryId)
    (right.invalidateQuery there queryId)
  invalidateEntity : ∀ id,
    TellAlike early late (left.invalidateEntity here id) (right.invalidateEntity there id)
  dropAll : TellAlike early late (left.dropAll here) (right.dropAll there)

namespace Backend.Matched

variable {related : κ → σ → τ → Prop} {here there : κ → Context} {left : Backend σ ι ε}
  {right : Backend τ ι ε} (matched : Matched related here there left right) {k : κ}
include matched

omit [DecidableEq ι]

/-- What holds of a request holds of the call that it names. -/
theorem call (request : Request ι ε) (isCall : request.isCall) (unlisting : request.scans = false)
    {call : Action σ α} {call' : Action τ α} {form : α → Answer ι ε}
    (injective : ∀ first second, form first = form second → first = second)
    (made : left.stores.perform (here k) request = call.map form)
    (made' : right.stores.perform (there k) request = call'.map form) :
    Simulates (related k) call call' := by
  have simulates := matched.perform k request isCall unlisting
  rw [made, made'] at simulates
  exact simulates.of_map injective

theorem findEntity (id : ι) :
    Simulates (related k) (left.entities.findById (here k) id)
      (right.entities.findById (there k) id) :=
  matched.call (.findEntity id) rfl rfl (fun _ _ same => Answer.entity.inj same) rfl rfl

theorem findHit (queryId : String) :
    Simulates (related k) (left.hits.findById (here k) queryId)
      (right.hits.findById (there k) queryId) :=
  matched.call (.findHit queryId) rfl rfl (fun _ _ same => Answer.hit.inj same) rfl rfl

theorem dropHit {removeEntity : Context → ι → Action σ Unit}
    {removeEntity' : Context → ι → Action τ Unit}
    (removes : ∀ id,
      Simulates (related k) (removeEntity (here k) id) (removeEntity' (there k) id))
    (queryId : String) :
    Simulates (related k) (dropHit left removeEntity queryId (here k))
      (dropHit right removeEntity' queryId (there k)) := by
  have delete : Simulates (related k) (left.hits.deleteById (here k) queryId)
      (right.hits.deleteById (there k) queryId) :=
    matched.call (.deleteHit queryId) rfl rfl (fun _ _ _ => rfl) rfl rfl
  refine (matched.check k).bind fun _ => (matched.findHit queryId).bind fun found => ?_
  cases found with
  | none => exact simulates_pure ()
  | some hit =>
      refine delete.bind fun _ => (matched.record k _).bind fun _ => .each (fun id => ?_) _
      exact (matched.check k).bind fun _ => removes id

theorem dropAll :
    Simulates (related k) (left.dropAll (here k)) (right.dropAll (there k)) := by
  refine (matched.check k).bind fun _ => matched.transact k _ _ fun inner => ?_
  have deleteHits : Simulates (related inner) (left.hits.deleteAll (here inner))
      (right.hits.deleteAll (there inner)) :=
    matched.call .deleteHits rfl rfl (fun _ _ _ => rfl) rfl rfl
  have deleteEntities : Simulates (related inner) (left.entities.deleteAll (here inner))
      (right.entities.deleteAll (there inner)) :=
    matched.call .deleteEntities rfl rfl (fun _ _ _ => rfl) rfl rfl
  exact deleteHits.bind fun _ => deleteEntities

/-- Entities for which there is no query are not removed, in either of the backends. -/
theorem invalidateEntity_of_unnamed [DecidableEq ι] {id : ι} {e : Error}
    (unnamed : left.schema.findByIdKey id = .error e) :
    Simulates (related k) (left.invalidateEntity (here k) id)
      (right.invalidateEntity (there k) id) := by
  intro s t relation
  refine matched.transact k _ _ (fun inner => ?_) s t relation
  unfold Invalidation.dropEntity
  rw [← matched.schema, unnamed]
  exact (matched.check inner).bind fun _ => simulates_fail e

end Backend.Matched

namespace Backend.Similar

variable {related : κ → σ → τ → Prop} {here there : κ → Context} {left : Backend σ ι ε}
  {right : Backend τ ι ε} (similar : Similar related here there left right) {k : κ}
include similar

theorem dropEntity {removeHit : Context → String → Action σ Unit}
    {removeHit' : Context → String → Action τ Unit}
    (removes : ∀ key, Simulates (related k) (removeHit (here k) key) (removeHit' (there k) key))
    (id : ι) :
    Simulates (related k) (dropEntity left removeHit id (here k))
      (dropEntity right removeHit' id (there k)) := by
  have delete : Simulates (related k) (left.entities.deleteById (here k) id)
      (right.entities.deleteById (there k) id) :=
    similar.call (.deleteEntity id) rfl rfl (fun _ _ _ => rfl) rfl rfl
  unfold Invalidation.dropEntity
  rw [similar.schema]
  refine (similar.check k).bind fun _ => (simulates_liftM _).bind fun key => ?_
  refine (removes key).bind fun _ => (similar.check k).bind fun _ => ?_
  refine (similar.findHits k).bind fun hits => ?_
  refine Simulates.bind (.each (fun queryId => ?_) _) fun _ => ?_
  · exact (similar.check k).bind fun _ => removes queryId
  · refine (similar.check k).bind fun _ => (similar.findEntity id).bind fun found => ?_
    split
    · exact delete
    · exact simulates_pure ()

theorem hitWithin (depth : Nat) (k : κ) (queryId : String) :
    Simulates (related k) (hitWithin left depth (here k) queryId)
      (hitWithin right depth (there k) queryId) := by
  induction depth generalizing k queryId with
  | zero => exact simulates_fail _
  | succ depth inductionHypothesis =>
      refine similar.transact k _ _ fun inner => similar.dropHit (fun id => ?_) queryId
      refine similar.transact inner _ _ fun innermost => similar.dropEntity (fun key => ?_) id
      exact inductionHypothesis innermost key

theorem entityWithin (depth : Nat) (id : ι) :
    Simulates (related k) (entityWithin left depth (here k) id)
      (entityWithin right depth (there k) id) :=
  similar.transact k _ _ fun inner => similar.dropEntity (similar.hitWithin depth inner) id

theorem invalidateQuery (queryId : String) :
    Simulates (related k) (left.invalidateQuery (here k) queryId)
      (right.invalidateQuery (there k) queryId) := by
  intro s t relation
  obtain ⟨depth, within, within'⟩ := similar.depth k s t relation
  rw [within.query, within'.query]
  exact similar.hitWithin depth k queryId s t relation

theorem invalidateEntity (id : ι) :
    Simulates (related k) (left.invalidateEntity (here k) id)
      (right.invalidateEntity (there k) id) := by
  intro s t relation
  obtain ⟨depth, within, within'⟩ := similar.depth k s t relation
  rw [within.entity, within'.entity]
  exact similar.entityWithin depth id s t relation

theorem invalidate (start : Node ι) :
    Simulates (related k) (left.invalidate (here k) start) (right.invalidate (there k) start) := by
  cases start with
  | entity id => exact similar.invalidateEntity id
  | hit queryId => exact similar.invalidateQuery queryId

/-- Similar backends are kindred under every index, if their clocks go alike. -/
theorem kindred (now : Simulates (related k) left.now right.now) :
    Kindred (related k) (related k) (here k) (there k) left right where
  schema := similar.schema
  loosens _ _ relation := relation
  read request reads := similar.perform k request (request.isCall_of_reads reads)
  perform := similar.perform k
  refused entity s t _ relation _ :=
    (similar.perform k (.updateEntity entity) rfl rfl s t relation).2
  check := similar.check k
  record := similar.record k
  recordLate := similar.record k
  now := now
  invalidateQuery := similar.invalidateQuery
  invalidateEntity := similar.invalidateEntity
  dropAll := similar.dropAll

end Backend.Similar

namespace Backend.Kindred

variable {early late : σ → τ → Prop} {here there : Context} {left : Backend σ ι ε}
  {right : Backend τ ι ε} (kindred : Kindred early late here there left right)
include kindred

/-- What is related as it is to be in the end stays so. -/
theorem call (request : Request ι ε) (isCall : request.isCall) (unlisting : request.scans = false)
    {call : Action σ α} {call' : Action τ α} {form : α → Answer ι ε}
    (injective : ∀ first second, form first = form second → first = second)
    (made : left.stores.perform here request = call.map form)
    (made' : right.stores.perform there request = call'.map form) :
    Simulates late call call' := by
  have simulates := kindred.perform request isCall unlisting
  rw [made, made'] at simulates
  exact simulates.of_map injective

/-- Looking something up keeps states related as closely as they were. -/
theorem lookup (request : Request ι ε) (reads : request.reads) (unlisting : request.scans = false)
    {call : Action σ α} {call' : Action τ α} {form : α → Answer ι ε}
    (injective : ∀ first second, form first = form second → first = second)
    (made : left.stores.perform here request = call.map form)
    (made' : right.stores.perform there request = call'.map form) :
    Simulates early call call' := by
  have simulates := kindred.read request reads unlisting
  rw [made, made'] at simulates
  exact simulates.of_map injective

theorem findEntity (id : ι) :
    Simulates early (left.entities.findById here id) (right.entities.findById there id) :=
  kindred.lookup (.findEntity id) rfl rfl (fun _ _ same => Answer.entity.inj same) rfl rfl

theorem findHit (queryId : String) :
    Simulates early (left.hits.findById here queryId) (right.hits.findById there queryId) :=
  kindred.lookup (.findHit queryId) rfl rfl (fun _ _ same => Answer.hit.inj same) rfl rfl

/-- What keeps states related as they are to be in the end may also start while they are related
more closely. -/
theorem loosened {step : σ → α × σ} {step' : τ → α × τ} (alike : TellAlike late late step step') :
    TellAlike early late step step' :=
  fun s t relation => alike s t (kindred.loosens s t relation)

theorem tolerate (label : String) (e : Error) :
    Simulates early (left.tolerate label e) (right.tolerate label e) := by
  unfold Backend.tolerate
  split
  · exact simulates_fail e
  · exact kindred.record _

theorem tolerateLate (label : String) (e : Error) :
    Simulates late (left.tolerate label e) (right.tolerate label e) := by
  unfold Backend.tolerate
  split
  · exact simulates_fail e
  · exact kindred.recordLate _

section Queries

theorem bypass {query : Action σ α} {query' : Action τ α}
    (queries : Simulates late query query') (label : String) (e : Error) :
    Simulates late (left.bypass label e query) (right.bypass label e query') :=
  (kindred.tolerateLate label e).bind fun _ => queries

theorem remember (key : String) (entities : List ε) :
    Simulates late (left.remember here key entities)
      (right.remember there key entities) := by
  have upsert : Simulates late (left.entities.upsert here entities)
      (right.entities.upsert there entities) :=
    kindred.call (.upsertEntities entities) rfl rfl (fun _ _ _ => rfl) rfl rfl
  have create (hit : Hit ι) :
      Simulates late (left.hits.create here hit) (right.hits.create there hit) :=
    kindred.call (.createHit hit) rfl rfl (fun _ _ _ => rfl) rfl rfl
  unfold Backend.remember
  rw [kindred.schema]
  refine upsert.attempt.bind fun outcome => ?_
  split
  · exact kindred.tolerateLate key _
  · refine kindred.now.bind fun timestamp => (create _).attempt.bind fun outcome => ?_
    split
    · exact kindred.tolerateLate key _
    · exact simulates_pure ()

theorem ask {query : Action σ (List ε)} {query' : Action τ (List ε)}
    (queries : Simulates late query query') (key : String) :
    Simulates late (left.ask here key query) (right.ask there key query') := by
  refine queries.bind fun entities => (kindred.recordLate _).bind fun _ => ?_
  exact (kindred.remember key entities).bind fun _ => simulates_pure entities

theorem replay {query : Action σ (List ε)} {query' : Action τ (List ε)}
    (queries : Simulates late query query') (key : String) (hit : Hit ι) :
    TellAlike early late (left.replay here key hit query)
      (right.replay there key hit query') := by
  have find : Simulates early (left.entities.findByIds here hit.entityIds)
      (right.entities.findByIds there hit.entityIds) :=
    kindred.lookup (.findEntities hit.entityIds) rfl rfl
      (fun _ _ same => Answer.entities.inj same) rfl rfl
  refine TellAlike.bind find.attempt (fun found => ?_) kindred.loosens
  split
  · exact kindred.loosened ((kindred.recordLate _).bind fun _ => simulates_pure _)
  · refine TellAlike.bind (kindred.invalidateQuery key).attempt (fun outcome => ?_)
      fun _ _ relation => relation
    split
    · exact kindred.ask queries key
    · exact kindred.bypass queries key _
  · exact kindred.loosened (kindred.bypass queries key _)

theorem queryMany {query : Action σ (List ε)} {query' : Action τ (List ε)}
    (queries : Simulates late query query') (key : String) :
    TellAlike early late (left.queryMany here key query)
      (right.queryMany there key query') := by
  refine TellAlike.bind kindred.check (fun _ => ?_) kindred.loosens
  refine TellAlike.bind (kindred.findHit key).attempt (fun found => ?_) kindred.loosens
  split
  · exact kindred.replay queries key _
  · exact kindred.loosened (kindred.ask queries key)
  · exact kindred.loosened (kindred.bypass queries key _)

theorem queryOne {query : Action σ (Option ε)} {query' : Action τ (Option ε)}
    (queries : Simulates late query query') (key : String) :
    TellAlike early late (left.queryOne here key query)
      (right.queryOne there key query') := by
  have lists : Simulates late (do return (← query).toList : Action σ (List ε))
      (do return (← query').toList) :=
    queries.bind fun found => simulates_pure found.toList
  exact TellAlike.bind (kindred.queryMany lists key) (fun entities => simulates_pure entities.head?)
    fun _ _ relation => relation

theorem findById {id : ι} (finds : Simulates late (left.source.findById here id)
      (right.source.findById there id)) :
    TellAlike early late (left.findById here id) (right.findById there id) := by
  unfold Backend.findById
  rw [kindred.schema]
  refine TellAlike.bind kindred.check (fun _ => ?_) kindred.loosens
  refine TellAlike.bind (kindred.findEntity id).attempt (fun found => ?_) kindred.loosens
  split
  · exact kindred.loosened (simulates_pure _)
  · exact TellAlike.bind (simulates_liftM _) (fun key => kindred.queryOne finds key) kindred.loosens
  · exact kindred.loosened (kindred.bypass finds _ _)

theorem findAll
    (finds : Option.Rel (fun all all' => Simulates late (all here) (all' there))
      left.source.findAll right.source.findAll) :
    TellAlike early late (left.findAll here) (right.findAll there) := by
  refine TellAlike.bind kindred.check (fun _ => ?_) kindred.loosens
  exact tellAlike_require kindred.loosens finds
    (fun all all' alike => kindred.queryMany alike QueryKey.findAll.encode) _

end Queries

section Changes

theorem copyNew (entity : ε) :
    Simulates late (left.copyNew here entity) (right.copyNew there entity) := by
  have create : Simulates late (left.entities.create here entity)
      (right.entities.create there entity) :=
    kindred.call (.createEntity entity) rfl rfl (fun _ _ _ => rfl) rfl rfl
  unfold Backend.copyNew
  rw [kindred.schema]
  refine create.attempt.bind fun outcome => ?_
  split
  · exact simulates_pure ()
  · exact kindred.tolerateLate _ _

theorem create {entity : ε}
    (creates : Option.Rel
      (fun create create' =>
        TellAlike late late (create here entity) (create' there entity))
      left.source.create right.source.create) :
    TellAlike early late (left.create here entity) (right.create there entity) := by
  intro s t relation
  obtain ⟨sameCheck, relation⟩ := kindred.check s t relation
  have checked := And.intro sameCheck (kindred.loosens _ _ relation)
  have goes := left.creates_create here entity s
  generalize left.create here entity s = ended at goes
  -- whichever way the creation goes in one backend, it goes in the other
  suffices ∃ ended', right.Creates there entity t ended' ∧ ended.1 = ended'.1 ∧
      late ended.2 ended'.2 by
    obtain ⟨ended', goes', same⟩ := this
    rwa [creates_iff.mp goes']
  cases goes with
  | stopped check =>
      rw [check] at checked
      exact ⟨_, .stopped (Prod.ext checked.1.symm rfl), rfl, checked.2⟩
  | unoffered check nothing =>
      rw [check] at checked
      rw [nothing] at creates
      cases nothing' : right.source.create with
      | none => exact ⟨_, .unoffered (Prod.ext checked.1.symm rfl) nothing', rfl, checked.2⟩
      | some create =>
          rw [nothing'] at creates
          cases creates
  | refused check offered created =>
      rw [check] at checked
      rw [offered] at creates
      obtain ⟨create', offered', alike⟩ := exists_of_rel_some creates
      have told := alike _ _ checked.2
      rw [created] at told
      exact ⟨_, .refused (Prod.ext checked.1.symm rfl) offered' (Prod.ext told.1.symm rfl), rfl,
        told.2⟩
  | @made _ _ stored _ _ _ check offered created copied =>
      rw [check] at checked
      rw [offered] at creates
      obtain ⟨create', offered', alike⟩ := exists_of_rel_some creates
      have told := alike _ _ checked.2
      rw [created] at told
      have copies := kindred.copyNew stored _ _ told.2
      rw [copied] at copies
      exact ⟨_, .made (Prod.ext checked.1.symm rfl) offered' (Prod.ext told.1.symm rfl)
        (Prod.ext copies.1.symm rfl), rfl, copies.2⟩

/-- A change of a copy keeps states related as closely as they were if it is refused. -/
theorem changeCopy (entity : ε) {next : Except Error Unit → Action σ Unit}
    {next' : Except Error Unit → Action τ Unit}
    (changed : TellAlike late late (next (.ok ())) (next' (.ok ())))
    (refused : ∀ e, TellAlike early late (next (.error e)) (next' (.error e))) :
    TellAlike early late ((left.entities.update here entity).attempt >>= next)
      ((right.entities.update there entity).attempt >>= next') := by
  intro s t relation
  have store : Simulates late (left.entities.update here entity)
      (right.entities.update there entity) :=
    kindred.call (.updateEntity entity) rfl rfl (fun _ _ _ => rfl) rfl rfl
  obtain ⟨same, relationLate⟩ := store s t (kindred.loosens s t relation)
  cases outcome : (left.entities.update here entity s).1 with
  | ok _ =>
      rw [attempt_bind_of_eq outcome, attempt_bind_of_eq (same.symm.trans outcome)]
      exact changed _ _ relationLate
  | error e =>
      rw [attempt_bind_of_eq outcome, attempt_bind_of_eq (same.symm.trans outcome)]
      exact refused e _ _ (kindred.refused entity s t e relation outcome)

theorem update {entity : ε}
    (updates : Option.Rel
      (fun update update' =>
        Simulates early (update here entity) (update' there entity))
      left.source.update right.source.update) :
    TellAlike early late (left.update here entity) (right.update there entity) := by
  unfold Backend.update
  rw [kindred.schema]
  refine TellAlike.bind kindred.check (fun _ => ?_) kindred.loosens
  refine tellAlike_require kindred.loosens updates (fun _ _ alike => ?_) _
  refine TellAlike.bind alike (fun _ => ?_) kindred.loosens
  refine kindred.changeCopy entity (simulates_pure ()) fun e => ?_
  exact TellAlike.bind (kindred.tolerate _ e) (fun _ => kindred.invalidateEntity _) kindred.loosens

theorem deleteById {id : ι}
    (deletes : Option.Rel
      (fun delete delete' => Simulates early (delete here id) (delete' there id))
      left.source.deleteById right.source.deleteById) :
    TellAlike early late (left.deleteById here id) (right.deleteById there id) := by
  refine TellAlike.bind kindred.check (fun _ => ?_) kindred.loosens
  refine tellAlike_require kindred.loosens deletes (fun _ _ alike => ?_) _
  exact TellAlike.bind alike (fun _ => kindred.invalidateEntity id) kindred.loosens

theorem deleteAll
    (deletes : Option.Rel
      (fun delete delete' => Simulates early (delete here) (delete' there))
      left.source.deleteAll right.source.deleteAll) :
    TellAlike early late (left.deleteAll here) (right.deleteAll there) := by
  refine TellAlike.bind kindred.check (fun _ => ?_) kindred.loosens
  refine tellAlike_require kindred.loosens deletes (fun _ _ alike => ?_) _
  exact TellAlike.bind alike (fun _ => kindred.dropAll) kindred.loosens

end Changes

end Backend.Kindred

end QueryCache
